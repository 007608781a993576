import QRadarDashboard.CustomRules.Reading
import QRadarDashboard.History.Ips
import QRadarDashboard.PropertyWatch.Facts
import QRadarDashboard.Waf.Observations

/-!
# Bulk metric loaders (`app/custom_rules/loaders.py`)

What a stored row, joined to the bucket row that says what it proves, gives the evaluation.
-/

namespace QRadarDashboard.CustomRules
open Lib Waf PropertyWatch History Ips

variable {φ : Type}

/-! ## The stored enums -/

def completenessValue : BucketCompleteness → String
  | .complete => "COMPLETE"
  | .partialBucket => "PARTIAL"
  | .missing => "MISSING"

def telemetryValue : WafTelemetryStatus → String
  | .exact => "EXACT"
  | .lowerBound => "LOWER_BOUND"
  | .notCollected => "NOT_COLLECTED"
  | .failed => "FAILED"

def ipsMeasurementValue : IpsBucketMeasurement → String
  | .exact => "EXACT"
  | .lowerBound => "LOWER_BOUND"
  | .notCollected => "NOT_COLLECTED"
  | .failed => "FAILED"
  | .rejected => "REJECTED"

def pwMeasurementValue : PwBucketMeasurement → String
  | .exact => "EXACT"
  | .lowerBound => "LOWER_BOUND"
  | .notCollected => "NOT_COLLECTED"

/-! ## Log sources -/

structure LogSourceMetric (φ : Type) where
  logSourceId : String
  bucketStart : Int
  bucketSeconds : Int
  eventCount : Int
  averageEps : φ
  completeness : BucketCompleteness
  collectionSource : Option String := none
deriving DecidableEq

def phaseAHistorySources : List String := ["ariel_history", "mock_history"]

/-- `is_live_clause(LogSourceMetric)` -/
def LogSourceMetric.isLive (m : LogSourceMetric φ) : Bool :=
  match m.collectionSource with
  | none => true
  | some source => decide (source ∉ phaseAHistorySources)

def logSourceFacts (m : LogSourceMetric φ) : BucketFacts φ where
  bucketStart := m.bucketStart
  present := true
  eventCount := some m.eventCount
  averageEps := some m.averageEps
  completeness := some (completenessValue m.completeness)

/-! ## Fleet classes -/

structure LogSource where
  id : String
  enabled : Bool
  monitoringEnabled : Bool
  sourceClass : Option String

def LogSource.monitored (s : LogSource) : Bool := s.enabled && s.monitoringEnabled

def LogSource.classOf (s : LogSource) : String := s.sourceClass.getD "UNCLASSIFIED"

def expectedSources (sources : List LogSource) (cls : String) : List LogSource :=
  sources.filter (fun s => s.monitored && s.classOf = cls)

def classRows (sources : List LogSource) (metrics : List (LogSourceMetric φ)) (includeHistory : Bool) (cls : String)
    (bucketStart : Int) : List (LogSourceMetric φ) :=
  metrics.filter (fun m => m.bucketStart = bucketStart && (includeHistory || m.isLive) &&
    (expectedSources sources cls).any (fun s => s.id = m.logSourceId))

def completeRows (rows : List (LogSourceMetric φ)) : List (LogSourceMetric φ) :=
  rows.filter (fun m => m.completeness = .complete)

/-- The group of one class and bucket in `load_fleet_classes`, none when no row joins. -/
def fleetFacts (sources : List LogSource) (metrics : List (LogSourceMetric φ)) (includeHistory : Bool) (cls : String)
    (bucketStart : Int) : Option (BucketFacts φ) :=
  let rows := classRows sources metrics includeHistory cls bucketStart
  let complete := completeRows rows
  if rows.isEmpty then none
  else
    some {
      bucketStart := bucketStart
      present := true
      classEvents := some (complete.map (fun m => m.eventCount)).sum
      classSeconds := some (complete.map (fun m => m.bucketSeconds)).sum
      completeSources := some ((complete.map (fun m => m.logSourceId)).dedup.length : Int)
      expectedSources := some ((expectedSources sources cls).length : Int) }

/-! ## WAF endpoints -/

structure WafEndpointRow where
  bucketStart : Int
  requestCount : Int
  blockedCount : Option Int
  actionEvents : Option Int
  unmappedActionCount : Option Int
  serverErrorCount : Option Int
  clientErrorCount : Option Int
  responseCodeEvents : Option Int
  unclassifiedResponseCount : Option Int
  requestCountMeasurement : Option WafMeasurement
  actionMeasurement : Option WafTelemetryStatus
  responseCodeMeasurement : Option WafTelemetryStatus
  inMaintenance : Bool

def wafEndpointFacts (row : WafEndpointRow) : BucketFacts φ where
  bucketStart := row.bucketStart
  present := true
  inMaintenance := row.inMaintenance
  requestCount := some row.requestCount
  requestCountMeasurement := row.requestCountMeasurement.map WafMeasurement.value
  blockedCount := row.blockedCount
  actionEvents := row.actionEvents
  unmappedActionCount := row.unmappedActionCount
  serverErrorCount := row.serverErrorCount
  clientErrorCount := row.clientErrorCount
  responseCodeEvents := row.responseCodeEvents
  unclassifiedResponseCount := row.unclassifiedResponseCount
  actionMeasurement := row.actionMeasurement.map telemetryValue
  responseCodeMeasurement := row.responseCodeMeasurement.map telemetryValue

/-! ## IPS -/

structure IpsEntityRow where
  bucketStart : Int
  events : Int
  dimension : IpsDimension
  destinationPortMeasurement : Option IpsBucketMeasurement
  destinationIpMeasurement : Option IpsBucketMeasurement
  signatureMeasurement : Option IpsBucketMeasurement
  inMaintenance : Bool

def IpsEntityRow.measurement (row : IpsEntityRow) : Option IpsBucketMeasurement :=
  match row.dimension with
  | .destinationPort => row.destinationPortMeasurement
  | .destinationIp => row.destinationIpMeasurement
  | .signature => row.signatureMeasurement
  | _ => none

def ipsEntityFacts (row : IpsEntityRow) : BucketFacts φ where
  bucketStart := row.bucketStart
  present := true
  inMaintenance := row.inMaintenance
  events := some row.events
  dimensionMeasurement := row.measurement.map ipsMeasurementValue

structure IpsSourceRow where
  bucketStart : Int
  totalEvents : Int
  blockedEvents : Option Int
  allowedEvents : Option Int
  unmappedEvents : Option Int
  actionMeasurement : Option IpsBucketMeasurement
  inMaintenance : Bool

def ipsSourceFacts (row : IpsSourceRow) : BucketFacts φ where
  bucketStart := row.bucketStart
  present := true
  inMaintenance := row.inMaintenance
  totalEvents := some row.totalEvents
  blockedEvents := row.blockedEvents
  allowedEvents := row.allowedEvents
  unmappedEvents := row.unmappedEvents
  actionMeasurement := row.actionMeasurement.map ipsMeasurementValue

/-! ## Property watch -/

/-- One (pinned value, bucket) pair. `events` is none when the value has no row in the bucket. -/
structure PwValueBucket where
  bucketStart : Int
  inMaintenance : Bool
  valuesMeasurement : PwBucketMeasurement
  pinnedMeasurement : PwPinnedMeasurement
  totalsComplete : Bool
  totalEvents : Option Int
  parsedEvents : Option Int
  events : Option Int
  valuePinned : Bool
  trackedSince : Option Int
  trackedUntil : Option Int

namespace PwValueBucket

variable (row : PwValueBucket)

/-- `_pw_coverage_ok`: unknown coverage proves nothing, and a scope that sent nothing is covered. -/
def coverageOk [PyFloat φ] (floor : φ) : Bool :=
  if !row.totalsComplete then false
  else
    match row.totalEvents, row.parsedEvents with
    | some total, some parsed => if total = 0 then true else PyFloat.le floor (PyFloat.divInt parsed total)
    | _, _ => false

def trackedAt : Bool :=
  match row.trackedSince with
  | none => false
  | some since =>
    if row.bucketStart < since then false else row.trackedUntil.all (fun last => row.bucketStart ≤ last)

def pinnedExact : Bool := row.valuePinned && row.pinnedMeasurement = .exact

/-- `pw_value_facts`: an absent row is a measured zero only in a tracked, covered bucket whose pinned search was
whole. -/
def facts [PyFloat φ] (coverageFloor : φ) : Option (BucketFacts φ) :=
  let known (events : Int) (measurement : PwBucketMeasurement) : BucketFacts φ :=
    { bucketStart := row.bucketStart
      present := true
      inMaintenance := row.inMaintenance
      events := some events
      dimensionMeasurement := some (pwMeasurementValue measurement) }
  match row.events with
  | some events =>
    if row.pinnedExact then some (known events .exact)
    -- a count in a bucket that measured nothing contradicts itself
    else if row.valuesMeasurement = .notCollected then none
    else some (known events row.valuesMeasurement)
  | none =>
    if row.pinnedExact && row.trackedAt && row.coverageOk coverageFloor then some (known 0 .exact) else none

end PwValueBucket

end QRadarDashboard.CustomRules
