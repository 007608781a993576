import QRadarDashboard.Basic
import QRadarDashboard.Lib.DateTime
import QRadarDashboard.Lib.Json

/-!
# The anomaly lifecycle (`app/anomaly/lifecycle.py`)
-/

namespace QRadarDashboard.Anomaly
open Lib

inductive AnomalyState where
  | insufficientData | normal | candidate | opened | recovering | resolved | suppressed
deriving DecidableEq

def AnomalyState.value : AnomalyState → String
  | .insufficientData => "INSUFFICIENT_DATA"
  | .normal => "NORMAL"
  | .candidate => "CANDIDATE"
  | .opened => "OPEN"
  | .recovering => "RECOVERING"
  | .resolved => "RESOLVED"
  | .suppressed => "SUPPRESSED"

def AnomalyState.active : AnomalyState → Bool
  | .candidate | .opened | .recovering => true
  | .insufficientData | .normal | .resolved | .suppressed => false

inductive DetectorSignal where
  | healthy | anomalous | unknown
deriving DecidableEq

def DetectorSignal.value : DetectorSignal → String
  | .healthy => "HEALTHY"
  | .anomalous => "ANOMALOUS"
  | .unknown => "UNKNOWN"

structure LifecycleInput where
  state : AnomalyState
  signal : DetectorSignal
  consecutiveAnomalous : Nat
  consecutiveHealthy : Nat
  openAfter : Nat
  resolveAfter : Nat
  insufficientData : Bool := false
  suppressed : Bool := false

structure LifecycleDecision where
  state : AnomalyState
  reason : String

def advanceCounters (signal : DetectorSignal) (consecutiveAnomalous consecutiveHealthy : Nat) : Nat × Nat :=
  match signal with
  | .anomalous => (consecutiveAnomalous + 1, 0)
  | .healthy => (0, consecutiveHealthy + 1)
  | .unknown => (consecutiveAnomalous, consecutiveHealthy)

def onAnomalous (inp : LifecycleInput) : LifecycleDecision :=
  match inp.state with
  | .normal | .insufficientData | .resolved =>
    if inp.openAfter ≤ inp.consecutiveAnomalous then
      ⟨.opened, s!"{inp.consecutiveAnomalous} consecutive abnormal bucket(s)"⟩
    else ⟨.candidate, "first abnormal bucket"⟩
  | .candidate =>
    if inp.openAfter ≤ inp.consecutiveAnomalous then
      ⟨.opened, s!"{inp.consecutiveAnomalous} consecutive abnormal bucket(s) " ++
        s!"reached the confirmation threshold of {inp.openAfter}"⟩
    else ⟨.candidate, "still confirming"⟩
  | .recovering => ⟨.opened, "relapsed before recovery completed"⟩
  | .opened => ⟨.opened, "still abnormal"⟩
  | .suppressed => ⟨.suppressed, "still abnormal"⟩

def onHealthy (inp : LifecycleInput) : LifecycleDecision :=
  match inp.state with
  | .candidate => ⟨.normal, "returned to normal before opening"⟩
  | .opened =>
    if inp.resolveAfter ≤ 1 then ⟨.resolved, "1 normal bucket observed"⟩
    else ⟨.recovering, "normal bucket observed"⟩
  | .recovering =>
    if inp.resolveAfter ≤ inp.consecutiveHealthy then
      ⟨.resolved, s!"{inp.consecutiveHealthy} consecutive normal bucket(s) reached the " ++
        s!"recovery threshold of {inp.resolveAfter}"⟩
    else ⟨.recovering, "still recovering"⟩
  | .insufficientData => ⟨.normal, "baseline became adequate"⟩
  | .normal | .resolved | .suppressed => ⟨.normal, "within expected range"⟩

def nextState (inp : LifecycleInput) : LifecycleDecision :=
  if inp.suppressed then
    if inp.state = .suppressed then ⟨inp.state, "already suppressed"⟩ else ⟨.suppressed, "suppressed"⟩
  else if inp.state = .suppressed then ⟨.normal, "suppression lifted"⟩
  else if inp.insufficientData then
    if inp.state = .normal ∨ inp.state = .insufficientData then ⟨.insufficientData, "no verdict possible"⟩
    else ⟨inp.state, "holding state; bucket not judgeable"⟩
  else
    match inp.signal with
    | .unknown => ⟨inp.state, "holding state; detector returned unknown"⟩
    | .anomalous => onAnomalous inp
    | .healthy => onHealthy inp

/-! ## A run of buckets -/

structure Hysteresis where
  state : AnomalyState
  consecutiveAnomalous : Nat
  consecutiveHealthy : Nat

structure Verdict where
  signal : DetectorSignal
  insufficientData : Bool
  unjudged : insufficientData = true → signal = .unknown

def hysteresisStep (openAfter resolveAfter : Nat) (h : Hysteresis) (verdict : Verdict) : Hysteresis :=
  let counters := advanceCounters verdict.signal h.consecutiveAnomalous h.consecutiveHealthy
  { state := (nextState {
      state := h.state
      signal := verdict.signal
      consecutiveAnomalous := counters.1
      consecutiveHealthy := counters.2
      openAfter := openAfter
      resolveAfter := resolveAfter
      insufficientData := verdict.insufficientData }).state
    consecutiveAnomalous := counters.1
    consecutiveHealthy := counters.2 }

def hysteresisRun (openAfter resolveAfter : Nat) (start : AnomalyState) (verdicts : List Verdict) : Hysteresis :=
  verdicts.foldl (hysteresisStep openAfter resolveAfter) ⟨start, 0, 0⟩

def judged (verdicts : List Verdict) : List Bool :=
  verdicts.filterMap (fun verdict =>
    match verdict.signal with
    | .anomalous => some true
    | .healthy => some false
    | .unknown => none)

/-! ## Anomaly evidence (`app/anomaly/evidence.py`) -/

variable {φ : Type}

inductive AnomalyType where
  | noEvents | volumeDrop | volumeSpike | parsingDegradation | unknownEventSpike | timestampDelay
  | cardinalityDrop | collectionError | repeatedPayload
deriving DecidableEq

def AnomalyType.value : AnomalyType → String
  | .noEvents => "NO_EVENTS"
  | .volumeDrop => "VOLUME_DROP"
  | .volumeSpike => "VOLUME_SPIKE"
  | .parsingDegradation => "PARSING_DEGRADATION"
  | .unknownEventSpike => "UNKNOWN_EVENT_SPIKE"
  | .timestampDelay => "TIMESTAMP_DELAY"
  | .cardinalityDrop => "CARDINALITY_DROP"
  | .collectionError => "COLLECTION_ERROR"
  | .repeatedPayload => "REPEATED_PAYLOAD"

structure AnomalyEvidence (φ : Type) where
  anomalyType : AnomalyType
  signal : DetectorSignal
  severity : Severity
  observedValue : Option φ
  expectedValue : Option φ
  baselineLow : Option φ
  baselineHigh : Option φ
  deviationScore : Option φ
  threshold : Option φ
  sampleCount : Int
  intervalStart : DateTime
  intervalEnd : DateTime
  confidence : φ
  reason : String
  extra : JsonObject φ := []
  insufficientData : Bool := false

namespace AnomalyEvidence

def isAnomalous (e : AnomalyEvidence φ) : Bool := e.signal = .anomalous

def toDict (e : AnomalyEvidence φ) : JsonObject φ :=
  let number (x : Option φ) : Json φ := (x.map Json.float).getD .null
  [("anomaly_type", .str e.anomalyType.value), ("signal", .str e.signal.value),
    ("severity", .str e.severity.value), ("observed_value", number e.observedValue),
    ("expected_value", number e.expectedValue), ("baseline_low", number e.baselineLow),
    ("baseline_high", number e.baselineHigh), ("deviation_score", number e.deviationScore),
    ("threshold", number e.threshold), ("sample_count", .int e.sampleCount),
    ("interval_start", .str (String.ofList e.intervalStart.isoformat)),
    ("interval_end", .str (String.ofList e.intervalEnd.isoformat)), ("confidence", .float e.confidence),
    ("reason", .str e.reason), ("extra", .obj e.extra), ("insufficient_data", .bool e.insufficientData)]

/-- `evidence.extra.get(name)` -/
def fact (e : AnomalyEvidence φ) (name : String) : Option (Json φ) :=
  (e.extra.find? (fun member => member.1 = name)).map (fun member => member.2)

end AnomalyEvidence

def unknown [PyFloat φ] (anomalyType : AnomalyType) (intervalStart intervalEnd : DateTime) (reason : String) :
    AnomalyEvidence φ where
  anomalyType := anomalyType
  signal := .unknown
  severity := .info
  observedValue := none
  expectedValue := none
  baselineLow := none
  baselineHigh := none
  deviationScore := none
  threshold := none
  sampleCount := 0
  intervalStart := intervalStart
  intervalEnd := intervalEnd
  confidence := PyFloat.ofInt 0
  reason := reason

def insufficient [PyFloat φ] (anomalyType : AnomalyType) (intervalStart intervalEnd : DateTime) (reason : String)
    (sampleCount : Int := 0) : AnomalyEvidence φ :=
  { unknown anomalyType intervalStart intervalEnd reason with
    insufficientData := true
    sampleCount := sampleCount }

end QRadarDashboard.Anomaly
