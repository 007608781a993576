import QRadarDashboard.Basic
import QRadarDashboard.Waf.Admission

/-!
# What an endpoint was observed to do (`app/waf/observations.py`)
-/

namespace QRadarDashboard.Waf

inductive BucketCompleteness where
  | complete | partialBucket | missing
deriving DecidableEq

inductive WafTelemetryStatus where
  | exact | lowerBound | notCollected | failed
deriving DecidableEq

def WafTelemetryStatus.measured : WafTelemetryStatus → Bool
  | .exact | .lowerBound => true
  | .notCollected | .failed => false

def defaultMeasurement (completeness : BucketCompleteness) : Option WafMeasurement :=
  if completeness = .complete then some .exact else none

structure BreakdownStatus where
  action : WafTelemetryStatus := .notCollected
  actionSemantics : Option String := none
  responseCode : WafTelemetryStatus := .notCollected
  responseCodeSemantics : Option String := none
  client : WafTelemetryStatus := .notCollected
  clientSemantics : Option String := none

structure TopClient where
  sourceIp : String
  requests : Int

structure BreakdownCounts where
  actionEvents : Option Int := none
  blocked : Option Int := none
  unmappedActions : Option Int := none
  responseCodeEvents : Option Int := none
  clientErrors : Option Int := none
  serverErrors : Option Int := none
  unclassifiedResponses : Option Int := none
  clientEvents : Option Int := none
  top1ClientRequests : Option Int := none
  top5ClientRequests : Option Int := none
  clientSources : Option Int := none
  topClients : Option (List TopClient) := none

namespace BreakdownCounts

def absent (status : BreakdownStatus) : BreakdownCounts :=
  let action := if status.action.measured then some 0 else none
  let code := if status.responseCode.measured then some 0 else none
  let client := if status.client.measured then some 0 else none
  { actionEvents := action
    blocked := action
    unmappedActions := action
    responseCodeEvents := code
    clientErrors := code
    serverErrors := code
    unclassifiedResponses := code
    clientEvents := client
    top1ClientRequests := client
    top5ClientRequests := client
    clientSources := client
    topClients := none }

def masked (counts : BreakdownCounts) (status : BreakdownStatus) : BreakdownCounts :=
  let action := status.action.measured
  let code := status.responseCode.measured
  let client := status.client.measured
  { actionEvents := if action then counts.actionEvents else none
    blocked := if action then counts.blocked else none
    unmappedActions := if action then counts.unmappedActions else none
    responseCodeEvents := if code then counts.responseCodeEvents else none
    clientErrors := if code then counts.clientErrors else none
    serverErrors := if code then counts.serverErrors else none
    unclassifiedResponses := if code then counts.unclassifiedResponses else none
    clientEvents := if client then counts.clientEvents else none
    top1ClientRequests := if client then counts.top1ClientRequests else none
    top5ClientRequests := if client then counts.top5ClientRequests else none
    clientSources := if client then counts.clientSources else none
    topClients := if client then counts.topClients else none }

end BreakdownCounts

structure BucketFacts (φ : Type) where
  bucketStart : Int
  bucketSeconds : Int
  completeness : BucketCompleteness
  endpointCoverageRatio : φ
  metricSemantics : Option String
  inMaintenance : Bool
  measurement : Option WafMeasurement
  sparse : Bool
  breakdowns : BreakdownStatus := {}
  groupsTruncated : Bool := true
  admissionTruncated : Bool := true
  profileVersion : Option Int := none

structure RowFacts (φ : Type) where
  bucketStart : Int
  bucketSeconds : Int
  requestCount : Int
  distinctClientCount : Option Int
  completeness : BucketCompleteness
  endpointCoverageRatio : φ
  metricSemantics : Option String
  normalizerVersion : Int
  counts : BreakdownCounts := {}

structure EndpointObservation (φ : Type) where
  bucketStart : Int
  bucketSeconds : Int
  requestCount : Int
  distinctClientCount : Option Int
  completeness : BucketCompleteness
  endpointCoverageRatio : φ
  metricSemantics : Option String
  measurement : Option WafMeasurement
  inMaintenance : Option Bool
  normalizerVersion : Int
  inferred : Bool := false
  breakdowns : BreakdownStatus := {}
  counts : BreakdownCounts := {}

/-- `row.metric_semantics or bucket.metric_semantics` -/
def semanticsOr (own bucket : Option String) : Option String :=
  match own with
  | none | some "" => bucket
  | some s => some s

def observe {φ : Type} (row : Option (RowFacts φ)) (bucket : Option (BucketFacts φ)) (tracked : Bool)
    (normalizerVersion : Int) : Option (EndpointObservation φ) :=
  match row, bucket with
  | some row, none =>
    some
      { bucketStart := row.bucketStart
        bucketSeconds := row.bucketSeconds
        requestCount := row.requestCount
        distinctClientCount := row.distinctClientCount
        completeness := row.completeness
        endpointCoverageRatio := row.endpointCoverageRatio
        metricSemantics := row.metricSemantics
        measurement := defaultMeasurement row.completeness
        inMaintenance := none
        normalizerVersion := row.normalizerVersion }
  | some row, some bucket =>
    some
      { bucketStart := row.bucketStart
        bucketSeconds := row.bucketSeconds
        requestCount := row.requestCount
        distinctClientCount := row.distinctClientCount
        completeness := row.completeness
        endpointCoverageRatio := row.endpointCoverageRatio
        metricSemantics := semanticsOr row.metricSemantics bucket.metricSemantics
        measurement := bucket.measurement
        inMaintenance := some bucket.inMaintenance
        normalizerVersion := row.normalizerVersion
        breakdowns := bucket.breakdowns
        counts := row.counts.masked bucket.breakdowns }
  | none, none => none
  | none, some bucket =>
    if !bucket.sparse || !tracked then none
    else
      some
        { bucketStart := bucket.bucketStart
          bucketSeconds := bucket.bucketSeconds
          requestCount := 0
          distinctClientCount := if bucket.measurement = some .exact then some 0 else none
          completeness := bucket.completeness
          endpointCoverageRatio := bucket.endpointCoverageRatio
          metricSemantics := bucket.metricSemantics
          measurement := bucket.measurement
          inMaintenance := some bucket.inMaintenance
          normalizerVersion := normalizerVersion
          inferred := true
          breakdowns := bucket.breakdowns
          counts := BreakdownCounts.absent bucket.breakdowns }

/-! ## Normalized request fields (`app/waf/normalize.py`) -/

def endpointNormalizerVersion : Int := 1

structure NormalizedEndpoint where
  value : Option String
  rules : List String := []
  traversalAttempt : Bool := false
deriving DecidableEq

def NormalizedEndpoint.isUsable (e : NormalizedEndpoint) : Bool := e.value.isSome

/-- `normalize_endpoint`, which may raise, `normalize_method` and `normalize_virtual_host`. -/
structure Normalizer where
  endpoint : Option String → Except Exc NormalizedEndpoint
  method : Option String → Option String
  virtualHost : Option String → Option String

end QRadarDashboard.Waf
