import QRadarDashboard.Detectors.Evidence
import QRadarDashboard.PropertyWatch.Facts

/-!
# Property-watch detectors (`app/property_watch/detectors.py`)
-/

namespace QRadarDashboard.Detectors
open Lib Waf PropertyWatch Anomaly

inductive PwAnomalyType where
  | valueSpike

/-- `property_watch.last_status` -/
inductive PwWatchStatus where
  | notEnabled | disabled | scopeEmpty | scopeStale | scopeTooLarge | notApplicable | readingHistory | stale
  | opened | recovering | ok
deriving DecidableEq

def PwWatchStatus.value : PwWatchStatus → String
  | .notEnabled => "NOT_ENABLED"
  | .disabled => "DISABLED"
  | .scopeEmpty => "SCOPE_EMPTY"
  | .scopeStale => "SCOPE_STALE"
  | .scopeTooLarge => "SCOPE_TOO_LARGE"
  | .notApplicable => "NOT_APPLICABLE"
  | .readingHistory => "READING_HISTORY"
  | .stale => "STALE"
  | .opened => "OPEN"
  | .recovering => "RECOVERING"
  | .ok => "OK"

structure PwThresholds where
  deviationZ : ℚ := 35 / 10
  madFloorRatio : ℚ := 1 / 10
  baselineMinSamples : Int := 8
  spikeRatio : ℚ := 2
  minAbsoluteDeltaEvents : ℚ := 50
  minBucketEvents : ℚ := 20

structure PwBaselineCell where
  median : ℚ
  mad : ℚ
  p05 : ℚ
  p95 : ℚ
  sampleCount : Int
  isReliable : Bool
  completeness : ℚ
  watchVersion : Int

/-- A bucket with the column that says whether the watch's membership changed in it. -/
structure PwJudgedBucket extends PwBucketFact where
  scopeChanged : Bool

def PwJudgedBucket.propertyNotParsed (b : PwJudgedBucket) : Bool :=
  b.valuesMeasurement = .exact && decide (b.totalEvents.getD 0 ≠ 0) && b.parsedEvents = some 0

structure PwDetectionContext where
  watchStatus : Option PwWatchStatus
  bucket : Option PwJudgedBucket
  reading : PwReading
  baseline : Option PwBaselineCell := none
  thresholds : PwThresholds := {}

/-- `pw_input_scope` of the value spike, whose one input is the value's events. -/
def pwInputScope (reading : PwReading) : ScopeDecision :=
  inputScope [⟨(), "volume", .lowerBoundProvesIncrease⟩] (fun _ => reading.measurement)

namespace PwDetectionContext

variable (ctx : PwDetectionContext)

/-- `datetime.min` stands for the interval of a missing bucket. -/
def interval : Int × Int :=
  match ctx.bucket with
  | none => (seconds (-62135596800), seconds (-62135596800))
  | some b => (b.bucketStart, b.bucketStart + seconds b.bucketSeconds)

def judging : Judging PwAnomalyType :=
  let decision := pwInputScope ctx.reading
  ⟨.valueSpike, ctx.interval.1, ctx.interval.2, decision.scope = .increaseOnly, decision.reason⟩

def watch : Except Exit Unit :=
  match ctx.watchStatus with
  | none => .error (.insufficient (.text "the watch has never established a collection status") 0)
  | some status =>
    require (status ∉ [PwWatchStatus.notEnabled, .disabled, .notApplicable, .scopeStale, .scopeEmpty,
        .scopeTooLarge, .stale])
      (.insufficient (.text s!"the watch is {status.value}: no value verdict is possible") 0)

def bucketGuard : Except Exit PwJudgedBucket :=
  match ctx.bucket with
  | none => .error (.insufficient (.text "the bucket is missing: no count was measured") 0)
  | some b => do
      require (ctx.reading.kind ≠ .noBucket)
        (.insufficient (.text "the bucket is missing: no count was measured") 0)
      require (b.valuesMeasurement ≠ .notCollected)
        (.insufficient (.text "the bucket was NOT_COLLECTED: its count is not zero") 0)
      require (b.scopeChanged = false) (.insufficient (.text "membership changed during this bucket") 0)
      require (b.propertyNotParsed = false)
        (.insufficient (.text "the property parsed on none of this bucket's events: NOT_APPLICABLE") 0)
      return b

def cell (b : PwJudgedBucket) : Except Exit PwBaselineCell :=
  match ctx.baseline with
  | none => .error (.insufficient (.text "no value-events baseline for this weekday/hour cell yet") 0)
  | some cell => do
      require (cell.watchVersion = b.watchVersion) (.insufficient (.text
        s!"the baseline uses watch version {cell.watchVersion}, not the bucket's {b.watchVersion}") 0)
      -- samples from too few weekly visits, and too few samples
      require (cell.isReliable = true ∨ cell.sampleCount < ctx.thresholds.baselineMinSamples)
        (.insufficient (.unreliable "value_events weekly visits" cell.sampleCount) cell.sampleCount)
      require (cell.isReliable = true ∧ ctx.thresholds.baselineMinSamples ≤ cell.sampleCount)
        (.insufficient (.unreliable "value_events" cell.sampleCount) cell.sampleCount)
      return cell

def observed : Except Exit Int :=
  match ctx.reading.events, ctx.reading.measurement with
  | some events, some _ => do
      let decision := pwInputScope ctx.reading
      require (decision.scope ≠ .none)
        (.insufficient (.text (orReason decision.reason "the declared inputs do not support a verdict")) 0)
      return events
  | _, _ => .error (.insufficient (.text "the value's count is unknown for this bucket, not zero") 0)

end PwDetectionContext

def pwSpikeGuards (thr : PwThresholds) (cell : PwBaselineCell) : SpikeGuards × ScoreBand :=
  (⟨thr.minBucketEvents, thr.spikeRatio, thr.minAbsoluteDeltaEvents, thr.deviationZ, thr.madFloorRatio⟩,
    ⟨cell.median, cell.mad, cell.p95⟩)

def valueSpikeGuards (ctx : PwDetectionContext) : Except Exit (PwBaselineCell × Int × Spike) := do
  ctx.watch
  let bucket ← ctx.bucketGuard
  let cell ← ctx.cell bucket
  let events ← ctx.observed
  let proven ← (spike (pwSpikeGuards ctx.thresholds cell).1 (pwSpikeGuards ctx.thresholds cell).2 events).mapError
    (fun reason => .notProven reason events cell.median)
  return (cell, events, proven)

def pwConfidence (thr : PwThresholds) (cell : PwBaselineCell) (s : Surprise) : Except Exc ℚ := do
  let strength ← scoreStrength (if s.status = .ok then s.z else thr.deviationZ) thr.deviationZ
  let value := blendConfidence cell.sampleCount strength cell.completeness
  return roundTo 3 (if s.status = .ok then value else min value (7 / 10))

def valueSpikeEvidence (ctx : PwDetectionContext) (proven : PwBaselineCell × Int × Spike) :
    Except Exc (Evidence PwAnomalyType) := do
  let (cell, events, spike) := proven
  let confidence ← pwConfidence ctx.thresholds cell spike.surprise
  return {
    anomalyType := .valueSpike
    signal := .anomalous
    severity := if spike.ratio.any (fun r => 4 ≤ r) then .high else .medium
    observedValue := some events
    expectedValue := some cell.median
    baselineLow := some cell.p05
    baselineHigh := some cell.p95
    deviationScore := some spike.surprise.z
    threshold := some ctx.thresholds.deviationZ
    sampleCount := cell.sampleCount
    intervalStart := ctx.interval.1
    intervalEnd := ctx.interval.2
    confidence := confidence
    reason := .deviates ctx.judging.lowerBound events cell.median spike.ratio spike.delta spike.surprise.z }

def detectValueSpike (ctx : PwDetectionContext) : Except Exc (Evidence PwAnomalyType) :=
  ctx.judging.verdict (valueSpikeGuards ctx) (valueSpikeEvidence ctx)

end QRadarDashboard.Detectors
