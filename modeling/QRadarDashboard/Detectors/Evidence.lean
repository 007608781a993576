import QRadarDashboard.Anomaly.Lifecycle
import QRadarDashboard.Lib.Except
import QRadarDashboard.Waf.Admission

/-!
# Verdicts (`app/anomaly/evidence.py`)

The reasons keep the numbers a text shows; the structured facts, which repeat the inputs, are left out.
-/

namespace QRadarDashboard.Detectors
open Anomaly Waf Lib

/-! ## What a detector may conclude from its inputs (`app/anomaly/capabilities.py`) -/

structure InputRequirement (ι : Type) where
  input : ι
  role : String
  requirement : WafMeasurementRequirement

/-- `verdict_scope` of one input, with its role before the reason. -/
def inputDecision {ι : Type} (measure : ι → Option WafMeasurement) (r : InputRequirement ι) : ScopeDecision :=
  let decision := verdictScope r.requirement (measure r.input)
  { decision with reason := decision.reason.map (fun reason => s!"{r.role}: {reason}") }

/-- `ips_input_scope` and `pw_input_scope`: the narrowest declared input decides. -/
def inputScope {ι : Type} (inputs : List (InputRequirement ι)) (measure : ι → Option WafMeasurement) :
    ScopeDecision :=
  narrowest (inputs.map (inputDecision measure))

/-! ## Robust statistics (`app/anomaly/statistics.py`) -/

inductive RobustScoreStatus where
  | ok | degenerate | unavailable
deriving DecidableEq

def madToStd : ℚ := 14826 / 10000

def effectiveScale (med mad madFloorRatio : ℚ) : ℚ :=
  max (mad * madToStd) (max (|med| * madFloorRatio) (1 / 1000000000))

def robustZ (value med mad madFloorRatio : ℚ) : ℚ := (value - med) / effectiveScale med mad madFloorRatio

def robustZWithStatus (value med mad madFloorRatio : ℚ) : ℚ × RobustScoreStatus :=
  (robustZ value med mad madFloorRatio, if mad ≤ 0 then .degenerate else .ok)

def ratio (observed expected : ℚ) : Option ℚ := if expected = 0 then none else some (observed / expected)

/-- `round(x, digits)` -/
def roundTo (digits : Nat) (x : ℚ) : ℚ := Lib.roundHalfEven (x * 10 ^ digits) / 10 ^ digits

theorem effectiveScale_pos (med mad madFloorRatio : ℚ) : 0 < effectiveScale med mad madFloorRatio :=
  lt_max_of_lt_right (lt_max_of_lt_right (by norm_num))

theorem robustZ_mono (med mad madFloorRatio : ℚ) {x y} (h : x ≤ y) :
    robustZ x med mad madFloorRatio ≤ robustZ y med mad madFloorRatio :=
  div_le_div_of_nonneg_right (sub_le_sub_right h med) (effectiveScale_pos med mad madFloorRatio).le

/-! ## Reasons -/

inductive GuardReason where
  | belowMinimum (observed minimum : ℚ)
  | belowRatio (ratio minimum : ℚ)
  | belowDelta (delta minimum : ℚ)
  | belowRise (observed expected rise minimum : ℚ)
  | belowScore (z threshold : ℚ)
  | withinBound (observed upper : ℚ)

inductive Reason where
  | text (s : String)
  | coverage (what : String) (ratio : Option ℚ) (floor : ℚ)
  | unreliable (metric : String) (samples : Int)
  | belowDenominator (n minimum : Int)
  | guard (reason : GuardReason)
  /-- The guard was not passed, but a lower bound concludes nothing from that. -/
  | unprovenBound (reason : GuardReason) (why : Option String)
  | deviates (atLeast : Bool) (observed expected : ℚ) (multiple : Option ℚ) (change z : ℚ)

structure Evidence (τ : Type) where
  anomalyType : τ
  signal : DetectorSignal
  severity : Severity := .info
  observedValue : Option ℚ := none
  expectedValue : Option ℚ := none
  baselineLow : Option ℚ := none
  baselineHigh : Option ℚ := none
  deviationScore : Option ℚ := none
  threshold : Option ℚ := none
  sampleCount : Int := 0
  intervalStart : Int
  intervalEnd : Int
  confidence : ℚ
  reason : Reason
  insufficientData : Bool := false

inductive Exit where
  | insufficient (reason : Reason) (samples : Int)
  /-- The normal exit of a guard, with the values it shows. -/
  | notProven (reason : GuardReason) (observed expected : ℚ)
  | raised (e : Exc)

/-- What every verdict of one call shares: its type, its interval, and whether the count is a lower bound. -/
structure Judging (τ : Type) where
  anomalyType : τ
  intervalStart : Int
  intervalEnd : Int
  lowerBound : Bool
  scopeReason : Option String

namespace Judging

variable {τ P : Type} (j : Judging τ)

def insufficient (reason : Reason) (samples : Int := 0) : Evidence τ where
  anomalyType := j.anomalyType
  signal := .unknown
  sampleCount := samples
  intervalStart := j.intervalStart
  intervalEnd := j.intervalEnd
  confidence := 0
  reason := reason
  insufficientData := true

def healthy (reason : GuardReason) (observed expected : ℚ) : Evidence τ where
  anomalyType := j.anomalyType
  signal := .healthy
  observedValue := some observed
  expectedValue := some expected
  intervalStart := j.intervalStart
  intervalEnd := j.intervalEnd
  confidence := 1
  reason := .guard reason

def exit : Exit → Except Exc (Evidence τ)
  | .insufficient reason samples => .ok (j.insufficient reason samples)
  | .notProven reason observed expected =>
    .ok (if j.lowerBound then j.insufficient (.unprovenBound reason j.scopeReason)
      else j.healthy reason observed expected)
  | .raised e => .error e

/-- The verdict of one call: that of the first guard that exits, or the deviation all of them prove. -/
def verdict (guards : Except Exit P) (prove : P → Except Exc (Evidence τ)) : Except Exc (Evidence τ) :=
  match guards with
  | .error e => j.exit e
  | .ok p => prove p

end Judging

/-!
## The guards of the spike and ratio detectors

Three families of detectors implement the same conjunction of guards. It stands here once, with each family's
numbers as its parameters.
-/

/-- What the score guard compares with. `upper` bounds the expected band when the MAD is zero. -/
structure ScoreBand where
  median : ℚ
  mad : ℚ
  upper : ℚ

/-- The upper end of `_expected_band`, with a spread around the median when no percentile is stored. -/
def expectedUpper (median : ℚ) (p95 : Option ℚ) (madFloorRatio : ℚ) : ℚ :=
  match p95 with
  | some p95 => p95
  | none => median + max (|median| * madFloorRatio) (1 / 1000000000)

structure Surprise where
  z : ℚ
  status : RobustScoreStatus

def surprise (deviationZ madFloorRatio : ℚ) (band : ScoreBand) (observed : ℚ) : Except GuardReason Surprise :=
  let (z, status) := robustZWithStatus observed band.median band.mad madFloorRatio
  if status = .ok then
    if z < deviationZ then .error (.belowScore z deviationZ) else .ok ⟨z, status⟩
  else if observed ≤ band.upper then .error (.withinBound observed band.upper)
  else .ok ⟨z, status⟩

structure SpikeGuards where
  minValue : ℚ
  ratioMin : ℚ
  minDelta : ℚ
  deviationZ : ℚ
  madFloorRatio : ℚ

structure Spike where
  ratio : Option ℚ
  delta : ℚ
  surprise : Surprise

def spike (g : SpikeGuards) (band : ScoreBand) (observed : ℚ) : Except GuardReason Spike := do
  require (g.minValue ≤ observed) (.belowMinimum observed g.minValue)
  let multiple := ratio observed band.median
  require (∀ r ∈ multiple, g.ratioMin ≤ r) (.belowRatio (multiple.getD 0) g.ratioMin)
  let delta := observed - band.median
  require (g.minDelta ≤ delta) (.belowDelta delta g.minDelta)
  let score ← surprise g.deviationZ g.madFloorRatio band observed
  return ⟨multiple, delta, score⟩

structure RatioGuards where
  minNumerator : Int
  minDenominator : Int
  minIncrease : ℚ
  minMultiple : ℚ
  deviationZ : ℚ
  madFloorRatio : ℚ

structure Rise where
  observed : ℚ
  rise : ℚ
  multiple : Option ℚ
  surprise : Surprise

def notProvenRounded (observed expected : ℚ) (reason : GuardReason) : Exit :=
  .notProven reason (roundTo 6 observed) (roundTo 6 expected)

/-- Minimum numerator and denominator, rise, multiple and robust score of `k / n`. -/
def ratioRise (g : RatioGuards) (band : ScoreBand) (expected : ℚ) (k n : Int) : Except Exit Rise := do
  require (g.minNumerator ≤ k)
    (notProvenRounded (if n = 0 then 0 else k / n) expected (.belowMinimum k g.minNumerator))
  require (g.minDenominator ≤ n) (.insufficient (.belowDenominator n g.minDenominator) 0)
  require (n ≠ 0) (.raised .zeroDivision)
  let observed : ℚ := k / n
  let rise := observed - expected
  let multiple := ratio observed expected
  require (g.minIncrease ≤ rise)
    (notProvenRounded observed expected (.belowRise observed expected rise g.minIncrease))
  require (∀ m ∈ multiple, g.minMultiple ≤ m)
    (notProvenRounded observed expected (.belowRatio (multiple.getD 0) g.minMultiple))
  let score ← (surprise g.deviationZ g.madFloorRatio band observed).mapError (notProvenRounded observed expected)
  return ⟨observed, rise, multiple, score⟩

/-- `min(1.0, samples / 30)` and the deviation's strength, blended. -/
def blendConfidence (sampleCount : Int) (strength completeness : ℚ) : ℚ :=
  (4 / 10 * min 1 (sampleCount / 30) + 6 / 10 * min 1 strength) * min 1 (completeness + 1 / 2)

/-- `abs(magnitude) / (2 * deviation_z)` -/
def scoreStrength (magnitude deviationZ : ℚ) : Except Exc ℚ :=
  if 2 * deviationZ = 0 then .error .zeroDivision else .ok (|magnitude| / (2 * deviationZ))

end QRadarDashboard.Detectors
