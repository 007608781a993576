import QRadarDashboard.Detectors.Evidence
import QRadarDashboard.Waf.Observations

/-!
# WAF detectors (`app/waf/detector.py`, `app/waf/behavior.py`)

The request-rate spike and the ratio detectors.
-/

namespace QRadarDashboard.Detectors
open Lib Waf Anomaly

inductive WafAnomalyType where
  | requestRateSpike | blockRatioSpike | errorRatioSpike | clientErrorRatioSpike

structure WafThresholds where
  deviationZ : ℚ := 35 / 10
  spikeRatio : ℚ := 2
  minAbsoluteDeltaRequests : ℚ := 50
  minBucketRequests : ℚ := 20

structure WafPoint where
  bucketStart : Int
  bucketEnd : Int
  completeness : BucketCompleteness
  requestCount : Int
  endpointCoverageRatio : ℚ
  measurement : Option WafMeasurement := none

def WafPoint.effectiveMeasurement (p : WafPoint) : Option WafMeasurement :=
  match p.measurement with
  | some measurement => some measurement
  | none => defaultMeasurement p.completeness

structure WafBaselineCell where
  median : ℚ
  mad : ℚ
  p05 : Option ℚ
  p95 : Option ℚ
  sampleCount : Int
  isReliable : Bool
  completeness : ℚ := 0
  numeratorSum : Option ℚ := none
  denominatorSum : Option ℚ := none

structure WafBehaviorThresholds where
  deviationZ : ℚ := 35 / 10
  minCoverage : ℚ := 9 / 10
  madFloorRatio : ℚ := 1 / 10
  ratioMinDenominator : Int := 50
  ratioMinNumerator : Int := 10
  ratioMinIncrease : ℚ := 1 / 10
  ratioMinMultiple : ℚ := 2

structure WafDetectionContext where
  point : WafPoint
  baseline : Option WafBaselineCell
  thresholds : WafThresholds := {}
  madFloorRatio : ℚ := 1 / 10
  minCoverage : ℚ := 9 / 10
  baselineIncompatibility : Option String := none
  verdictScope : Option WafVerdictScope := none
  scopeReason : Option String := none
  observation : Option (EndpointObservation ℚ) := none
  behavior : Option WafBehaviorThresholds := none

variable (ctx : WafDetectionContext)

def WafDetectionContext.effectiveScope : WafVerdictScope :=
  match ctx.verdictScope with
  | some scope => scope
  | none => if ctx.point.effectiveMeasurement = some .exact then .full else .none

def WafDetectionContext.lowerBound : Bool := ctx.effectiveScope = .increaseOnly

/-! ## The request rate -/

/-- `p.completeness.value.lower()` -/
def completenessText : BucketCompleteness → String
  | .complete => "complete"
  | .partialBucket => "partial"
  | .missing => "missing"

def supportsVerdict : Bool :=
  (ctx.point.completeness = .complete && ctx.effectiveScope = .full) ||
    (ctx.lowerBound && ctx.point.completeness = .partialBucket)

def unsupportedReason : String :=
  match ctx.point.completeness, ctx.scopeReason with
  | .complete, some reason =>
    if reason = "" then s!"bucket is {completenessText .complete}, not a whole observation" else reason
  | completeness, _ => s!"bucket is {completenessText completeness}, not a whole observation"

def rateGuards (cell : WafBaselineCell) : SpikeGuards × ScoreBand :=
  (⟨ctx.thresholds.minBucketRequests, ctx.thresholds.spikeRatio, ctx.thresholds.minAbsoluteDeltaRequests,
      ctx.thresholds.deviationZ, ctx.madFloorRatio⟩,
    ⟨cell.median, cell.mad, expectedUpper cell.median cell.p95 ctx.madFloorRatio⟩)

def reliableCell (metric : String) : Except Exit WafBaselineCell :=
  match ctx.baselineIncompatibility with
  | some why => .error (.insufficient (.text why) 0)
  | none =>
    match ctx.baseline with
    | none => .error (.insufficient (.text s!"no {metric} baseline for this weekday/hour cell yet") 0)
    | some cell =>
      if cell.isReliable then .ok cell
      else .error (.insufficient (.unreliable metric cell.sampleCount) cell.sampleCount)

/-- The guards of the request-rate spike. Only an exact count is held to the coverage floor. -/
def requestRateGuards : Except Exit (WafBaselineCell × Spike) := do
  require (supportsVerdict ctx = true) (.insufficient (.text (unsupportedReason ctx)) 0)
  require (ctx.lowerBound = true ∨ ctx.minCoverage ≤ ctx.point.endpointCoverageRatio)
    (.insufficient (.coverage "endpoint" ctx.point.endpointCoverageRatio ctx.minCoverage) 0)
  let cell ← reliableCell ctx "request-rate"
  let observed : ℚ := ctx.point.requestCount
  let proven ← (spike (rateGuards ctx cell).1 (rateGuards ctx cell).2 observed).mapError
    (fun reason => .notProven reason observed (roundTo 3 cell.median))
  return (cell, proven)

def rateMagnitude (thr : WafThresholds) (s : Surprise) : ℚ := if s.status = .ok then |s.z| else thr.deviationZ

def rateSeverity (thr : WafThresholds) (multiple : Option ℚ) (magnitude : ℚ) : Except Exc Severity :=
  let byScore := if thr.deviationZ * (15 / 10) ≤ magnitude then Severity.high else .medium
  match multiple with
  | none => .ok byScore
  | some r =>
    if thr.spikeRatio = 0 then .error .zeroDivision
    else .ok (if 2 ≤ r / thr.spikeRatio then .high else byScore)

def rateConfidence (cell : WafBaselineCell) (magnitude : ℚ) (status : RobustScoreStatus) : ℚ :=
  let value := blendConfidence cell.sampleCount (magnitude / 6) cell.completeness
  roundTo 3 (if status = .ok then value else min value (7 / 10))

def rateSpikeEvidence (proven : WafBaselineCell × Spike) :
    Except Exc (Evidence WafAnomalyType) := do
  let (cell, spike) := proven
  let magnitude := rateMagnitude ctx.thresholds spike.surprise
  let severity ← rateSeverity ctx.thresholds spike.ratio magnitude
  return {
    anomalyType := .requestRateSpike
    signal := .anomalous
    severity := severity
    observedValue := some ctx.point.requestCount
    expectedValue := some (roundTo 3 cell.median)
    baselineLow := cell.p05
    baselineHigh := cell.p95
    deviationScore := some (roundTo 3 spike.surprise.z)
    threshold := some ctx.thresholds.deviationZ
    sampleCount := cell.sampleCount
    intervalStart := ctx.point.bucketStart
    intervalEnd := ctx.point.bucketEnd
    confidence := rateConfidence cell magnitude spike.surprise.status
    reason := .deviates ctx.lowerBound ctx.point.requestCount cell.median spike.ratio spike.delta spike.surprise.z }

def detectRequestRateSpike : Except Exc (Evidence WafAnomalyType) :=
  Judging.verdict ⟨.requestRateSpike, ctx.point.bucketStart, ctx.point.bucketEnd, ctx.lowerBound, ctx.scopeReason⟩
    (requestRateGuards ctx) (rateSpikeEvidence ctx)

/-! ## Ratios -/

structure RatioDefinition where
  detectorType : WafAnomalyType
  metric : String
  breakdown : String
  status : BreakdownStatus → WafTelemetryStatus
  numerator : BreakdownCounts → Option Int
  denominator : BreakdownCounts → Option Int

def blockRatio : RatioDefinition where
  detectorType := .blockRatioSpike
  metric := "block_ratio"
  breakdown := "ACTION"
  status := BreakdownStatus.action
  numerator := BreakdownCounts.blocked
  denominator := BreakdownCounts.actionEvents

def serverErrorRatio : RatioDefinition where
  detectorType := .errorRatioSpike
  metric := "server_error_ratio"
  breakdown := "RESPONSE_CODE"
  status := BreakdownStatus.responseCode
  numerator := BreakdownCounts.serverErrors
  denominator := BreakdownCounts.responseCodeEvents

def clientErrorRatio : RatioDefinition where
  detectorType := .clientErrorRatioSpike
  metric := "client_error_ratio"
  breakdown := "RESPONSE_CODE"
  status := BreakdownStatus.responseCode
  numerator := BreakdownCounts.clientErrors
  denominator := BreakdownCounts.responseCodeEvents

def unavailable (breakdown : String) (status : WafTelemetryStatus) : String :=
  let what := if status = .notCollected then "was not collected" else "failed"
  s!"the {breakdown} breakdown {what} for this bucket: the value is unavailable, not zero"

/-- `_Guard.baseline`: a reliable cell with a pooled denominator. -/
def pooledCell (metric : String) : Except Exit WafBaselineCell := do
  let cell ← reliableCell ctx metric
  require (cell.denominatorSum.getD 0 ≠ 0)
    (.insufficient (.text s!"the {metric} baseline has no pooled denominator") 0)
  return cell

def WafBaselineCell.pooled (cell : WafBaselineCell) : ℚ :=
  cell.numeratorSum.getD 0 / (cell.denominatorSum.getD 1)

def behaviorGuards (thr : WafBehaviorThresholds) (cell : WafBaselineCell) : RatioGuards × ScoreBand :=
  (⟨thr.ratioMinNumerator, thr.ratioMinDenominator, thr.ratioMinIncrease, thr.ratioMinMultiple, thr.deviationZ,
      thr.madFloorRatio⟩,
    ⟨cell.median, cell.mad, cell.p95.getD cell.median⟩)

def fieldCovered (thr : WafBehaviorThresholds) (requestCount n : Int) : Bool :=
  decide (requestCount ≤ 0) || decide (thr.minCoverage ≤ min 1 ((n : ℚ) / requestCount))

structure RatioInput where
  observation : EndpointObservation ℚ
  thresholds : WafBehaviorThresholds
  k : Int
  n : Int

/-- `assert obs is not None and thr is not None` -/
def ratioInput (d : RatioDefinition) : Except Exc RatioInput :=
  match ctx.observation, ctx.behavior with
  | some observation, some thresholds =>
    .ok ⟨observation, thresholds, (d.numerator observation.counts).getD 0, (d.denominator observation.counts).getD 0⟩
  | _, _ => .error (.assertion "the engine supplies observation and thresholds")

def ratioGuards (d : RatioDefinition) (input : RatioInput) :
    Except Exit (WafBaselineCell × Rise) := do
  let status := d.status input.observation.breakdowns
  require (status.measured = true) (.insufficient (.text (unavailable d.breakdown status)) 0)
  require (ctx.effectiveScope ≠ .none)
    (.insufficient (.text (orReason ctx.scopeReason "the inputs do not support a verdict")) 0)
  require (input.thresholds.minCoverage ≤ input.observation.endpointCoverageRatio)
    (.insufficient (.coverage "source" input.observation.endpointCoverageRatio input.thresholds.minCoverage) 0)
  require (fieldCovered input.thresholds input.observation.requestCount input.n = true)
    (.insufficient (.coverage d.breakdown (some (min 1 ((input.n : ℚ) / input.observation.requestCount)))
      input.thresholds.minCoverage) 0)
  let cell ← pooledCell ctx d.metric
  let rise ← ratioRise (behaviorGuards input.thresholds cell).1 (behaviorGuards input.thresholds cell).2 cell.pooled
    input.k input.n
  return (cell, rise)

def riseSeverity (minIncrease minMultiple : ℚ) (r : Rise) : Severity :=
  if 2 * minIncrease ≤ r.rise ∧ (∀ m ∈ r.multiple, 2 * minMultiple ≤ m) then .high else .medium

def observationEnd (o : EndpointObservation ℚ) : Int := o.bucketStart + seconds o.bucketSeconds

def ratioEvidence (d : RatioDefinition) (input : RatioInput)
    (proven : WafBaselineCell × Rise) : Except Exc (Evidence WafAnomalyType) := do
  let (cell, rise) := proven
  let thr := input.thresholds
  let magnitude := if rise.surprise.status = .ok then rise.surprise.z else thr.deviationZ
  let strength ← scoreStrength magnitude thr.deviationZ
  return {
    anomalyType := d.detectorType
    signal := .anomalous
    severity := riseSeverity thr.ratioMinIncrease thr.ratioMinMultiple rise
    observedValue := some (roundTo 6 rise.observed)
    expectedValue := some (roundTo 6 cell.pooled)
    baselineLow := cell.p05
    baselineHigh := cell.p95
    deviationScore := some (roundTo 3 rise.surprise.z)
    threshold := some thr.deviationZ
    sampleCount := cell.sampleCount
    intervalStart := input.observation.bucketStart
    intervalEnd := observationEnd input.observation
    confidence := roundTo 3 (blendConfidence cell.sampleCount strength cell.completeness)
    reason := .deviates ctx.lowerBound rise.observed cell.pooled rise.multiple rise.rise rise.surprise.z }

def detectRatio (d : RatioDefinition) : Except Exc (Evidence WafAnomalyType) := do
  let input ← ratioInput ctx d
  Judging.verdict
    ⟨d.detectorType, input.observation.bucketStart, observationEnd input.observation, ctx.lowerBound, ctx.scopeReason⟩
    (ratioGuards ctx d input) (ratioEvidence ctx d input)

def detectBlockRatioSpike := detectRatio ctx blockRatio

def detectErrorRatioSpike := detectRatio ctx serverErrorRatio

def detectClientErrorRatioSpike := detectRatio ctx clientErrorRatio

end QRadarDashboard.Detectors
