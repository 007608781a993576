import Mathlib.Data.List.Dedup
import QRadarDashboard.Basic
import QRadarDashboard.Lib.Json
import QRadarDashboard.Waf.Admission

/-!
# What one bucket proves for one metric (`interpret` of `app/custom_rules/evaluate.py`)

A missing row is unmeasured, not zero.
-/

namespace QRadarDashboard.CustomRules
open Lib Waf

/-! ## The buckets a tick judges (`walk_buckets`) -/

def fillHole (intervalSeconds limit cursor : Int) : List Int → List Nat → Except (List Int) (List Int)
  | grid, [] => .ok grid
  | grid, step :: steps =>
    let grid := grid ++ [cursor + seconds (step * intervalSeconds)]
    if (grid.length : Int) ≥ limit then .error grid else fillHole intervalSeconds limit cursor grid steps

def holeSteps (intervalSeconds cursor point : Int) : List Nat :=
  let delta := roundHalfEven ((point - cursor : Int) / 1000000)
  if delta > intervalSeconds ∧ delta % intervalSeconds = 0 then
    List.range' 1 ((delta / intervalSeconds).toNat - 1)
  else []

def walkPoints (intervalSeconds limit : Int) : Int → List Int → List Int → List Int
  | _, grid, [] => grid
  | cursor, grid, point :: points =>
    match fillHole intervalSeconds limit cursor grid (holeSteps intervalSeconds cursor point) with
    | .error grid => grid
    | .ok grid =>
      let grid := grid ++ [point]
      if (grid.length : Int) ≥ limit then grid else walkPoints intervalSeconds limit point grid points

/-- The observed points in `(watermark, closed]`, sorted and without duplicates. -/
def observedPoints (observed : List Int) (watermark closed : Int) : List Int :=
  sortOn (fun point => point) (observed.filter (fun point => watermark < point ∧ point ≤ closed)).dedup

def walkBuckets (observed : List Int) (watermark intervalSeconds limit closed : Int) : Except Exc (List Int) :=
  if intervalSeconds ≤ 0 then .error (.value "interval_seconds must be positive")
  else if limit ≤ 0 then .ok []
  else .ok (walkPoints intervalSeconds limit watermark [] (observedPoints observed watermark closed))

/-! ## The metric catalog (`app/custom_rules/catalog.py`) -/

inductive CustomRuleMetric where
  | eventCount | averageEps | eps | requestCount | blockRatio | serverErrorRatio | clientErrorRatio
  | events | totalEvents | blockedShare | pwValueEvents
deriving DecidableEq

def CustomRuleMetric.value : CustomRuleMetric → String
  | .eventCount => "event_count"
  | .averageEps => "average_eps"
  | .eps => "eps"
  | .requestCount => "request_count"
  | .blockRatio => "block_ratio"
  | .serverErrorRatio => "server_error_ratio"
  | .clientErrorRatio => "client_error_ratio"
  | .events => "events"
  | .totalEvents => "total_events"
  | .blockedShare => "blocked_share"
  | .pwValueEvents => "pw_value_events"

inductive MeasurementRule where
  | exactOnly | lowerBoundProvesIncrease

structure MetricCatalogEntry where
  unit : String
  measurement : MeasurementRule

def catalogEntry : CustomRuleMetric → MetricCatalogEntry
  | .eventCount => ⟨"events/bucket", .exactOnly⟩
  | .averageEps => ⟨"events/s", .exactOnly⟩
  | .eps => ⟨"events/s", .lowerBoundProvesIncrease⟩
  | .requestCount => ⟨"requests/bucket", .lowerBoundProvesIncrease⟩
  | .blockRatio => ⟨"share", .lowerBoundProvesIncrease⟩
  | .serverErrorRatio => ⟨"share", .lowerBoundProvesIncrease⟩
  | .clientErrorRatio => ⟨"share", .lowerBoundProvesIncrease⟩
  | .events => ⟨"events/bucket", .lowerBoundProvesIncrease⟩
  | .totalEvents => ⟨"events/bucket", .exactOnly⟩
  | .blockedShare => ⟨"share", .lowerBoundProvesIncrease⟩
  | .pwValueEvents => ⟨"events/bucket", .lowerBoundProvesIncrease⟩

def MeasurementRule.requirement : MeasurementRule → WafMeasurementRequirement
  | .exactOnly => .exact
  | .lowerBoundProvesIncrease => .lowerBoundProvesIncrease

/-! ## The reading of a bucket -/

variable {φ : Type}

structure BucketFacts (φ : Type) where
  bucketStart : Int
  present : Bool := false
  inMaintenance : Bool := false
  eventCount : Option Int := none
  averageEps : Option φ := none
  completeness : Option String := none
  classEvents : Option Int := none
  classSeconds : Option Int := none
  completeSources : Option Int := none
  expectedSources : Option Int := none
  requestCount : Option Int := none
  requestCountMeasurement : Option String := none
  blockedCount : Option Int := none
  actionEvents : Option Int := none
  unmappedActionCount : Option Int := none
  actionMeasurement : Option String := none
  serverErrorCount : Option Int := none
  clientErrorCount : Option Int := none
  responseCodeEvents : Option Int := none
  unclassifiedResponseCount : Option Int := none
  responseCodeMeasurement : Option String := none
  events : Option Int := none
  dimensionMeasurement : Option String := none
  totalEvents : Option Int := none
  blockedEvents : Option Int := none
  allowedEvents : Option Int := none
  unmappedEvents : Option Int := none

/-- `value` is none when unmeasured; `measurement` is `EXACT`, `LOWER_BOUND` or none. -/
structure InterpretedReading (φ : Type) where
  bucketStart : Int
  value : Option φ := none
  measurement : Option String := none
  inMaintenance : Bool := false
  reason : Option String := none
deriving DecidableEq

def noReading (facts : BucketFacts φ) (reason : String) : InterpretedReading φ :=
  { bucketStart := facts.bucketStart, reason := some reason }

def absent (facts : BucketFacts φ) : InterpretedReading φ :=
  noReading facts "no row for this subject in the bucket"

variable [PyFloat φ]

def measured (facts : BucketFacts φ) (value : φ) (lower : Bool) : InterpretedReading φ :=
  if !PyFloat.isfinite value then noReading facts "the reading is not finite"
  else
    { bucketStart := facts.bucketStart
      value := some value
      measurement := some (if lower then WafMeasurement.lowerBound.value else WafMeasurement.exact.value) }

def phaseA (facts : BucketFacts φ) (value : Option φ) : InterpretedReading φ :=
  if !facts.present then absent facts
  else if facts.completeness = some "PARTIAL" then noReading facts "the bucket is PARTIAL"
  else
    match value with
    | none => noReading facts "the bucket is not COMPLETE"
    | some value =>
      if facts.completeness ≠ some "COMPLETE" then noReading facts "the bucket is not COMPLETE"
      else measured facts value false

/-- `_fleet`: missing sources can only add events, so a partial class is a lower bound. -/
def fleet (facts : BucketFacts φ) : InterpretedReading φ :=
  if !facts.present then absent facts
  else
    let expected := facts.expectedSources.getD 0
    let complete := facts.completeSources.getD 0
    let secs := facts.classSeconds.getD 0
    let events := facts.classEvents.getD 0
    if expected ≤ 0 then noReading facts "the class has no enabled, monitored source"
    else if complete ≤ 0 ∨ secs ≤ 0 then noReading facts "the class has no COMPLETE source bucket"
    else measured facts (PyFloat.divInt events secs) (complete ≠ expected)

/-- A count stored with its own measurement: `_request_count` and `_entity_events`. -/
def labelledCount (facts : BucketFacts φ) (count : Option Int) (measurement : Option String)
    (unknown : String) : InterpretedReading φ :=
  if !facts.present then absent facts
  else
    match count, measurement with
    | some n, some "EXACT" => measured facts (PyFloat.ofInt n) false
    | some n, some "LOWER_BOUND" => measured facts (PyFloat.ofInt n) true
    | _, _ => noReading facts unknown

/-- `measurement in (None, "NOT_COLLECTED", "FAILED", "REJECTED")` -/
def notCollectedLabel (measurement : Option String) : Bool :=
  measurement ∈ [none, some "NOT_COLLECTED", some "FAILED", some "REJECTED"]

/-- `_ratio`: the denominator must be exact and positive; a remainder lowers the numerator. -/
def ratio (facts : BucketFacts φ) (numerator denominator : Option Int) (measurement : Option String)
    (remainder : Option Int) (collectedReason lowerReason zeroReason : String) : InterpretedReading φ :=
  if !facts.present then absent facts
  else if notCollectedLabel measurement then noReading facts collectedReason
  else if measurement = some "LOWER_BOUND" then noReading facts lowerReason
  else if measurement ≠ some "EXACT" then noReading facts collectedReason
  else
    match numerator with
    | none => noReading facts "the numerator was not collected"
    | some n =>
      match denominator with
      | none => noReading facts zeroReason
      | some d =>
        if d ≤ 0 then noReading facts zeroReason
        else
          match remainder with
          | none => noReading facts "the unmapped remainder was not collected"
          | some r => measured facts (PyFloat.divInt n d) (0 < r)

def blockedShareReading (facts : BucketFacts φ) : InterpretedReading φ :=
  if !facts.present then absent facts
  else if notCollectedLabel facts.actionMeasurement then
    noReading facts "the action breakdown was not collected"
  else if facts.actionMeasurement = some "LOWER_BOUND" then
    noReading facts "the action denominator is a lower bound"
  else if facts.actionMeasurement ≠ some "EXACT" then
    noReading facts "the action breakdown was not collected"
  else
    match facts.blockedEvents, facts.allowedEvents, facts.unmappedEvents with
    | some blocked, some allowed, some unmapped =>
      let denominator := blocked + allowed + unmapped
      if denominator ≤ 0 then noReading facts "the action denominator is zero"
      else measured facts (PyFloat.divInt blocked denominator) (0 < unmapped)
    | _, _, _ => noReading facts "the numerator was not collected"

/-- `_total_events`: exact whenever the row exists. -/
def totalEventsReading (facts : BucketFacts φ) : InterpretedReading φ :=
  match facts.present, facts.totalEvents with
  | true, some n => measured facts (PyFloat.ofInt n) false
  | _, _ => absent facts

def interpreter : CustomRuleMetric → BucketFacts φ → InterpretedReading φ
  | .eventCount, facts => phaseA facts (facts.eventCount.map PyFloat.ofInt)
  | .averageEps, facts => phaseA facts facts.averageEps
  | .eps, facts => fleet facts
  | .requestCount, facts =>
    labelledCount facts facts.requestCount facts.requestCountMeasurement
      "the bucket does not state whether the request count is exact"
  | .blockRatio, facts =>
    ratio facts facts.blockedCount facts.actionEvents facts.actionMeasurement facts.unmappedActionCount
      "the action breakdown was not collected" "the action denominator is a lower bound"
      "the action denominator is zero"
  | .serverErrorRatio, facts =>
    ratio facts facts.serverErrorCount facts.responseCodeEvents facts.responseCodeMeasurement
      facts.unclassifiedResponseCount "the response-code breakdown was not collected"
      "the response-code denominator is a lower bound" "the response-code denominator is zero"
  | .clientErrorRatio, facts =>
    ratio facts facts.clientErrorCount facts.responseCodeEvents facts.responseCodeMeasurement
      facts.unclassifiedResponseCount "the response-code breakdown was not collected"
      "the response-code denominator is a lower bound" "the response-code denominator is zero"
  | .events, facts =>
    labelledCount facts facts.events facts.dimensionMeasurement "the dimension was not collected"
  | .totalEvents, facts => totalEventsReading facts
  | .blockedShare, facts => blockedShareReading facts
  | .pwValueEvents, facts =>
    labelledCount facts facts.events facts.dimensionMeasurement "the dimension was not collected"

/-- The reading `metric` takes from `facts`. The collector's maintenance decision wins. -/
def interpret (metric : CustomRuleMetric) (facts : BucketFacts φ) : InterpretedReading φ :=
  let reading := interpreter metric facts
  if facts.inMaintenance then
    { reading with inMaintenance := true, reason := some "the source is in maintenance" }
  else reading

end QRadarDashboard.CustomRules
