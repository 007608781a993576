import QRadarDashboard.Lib.Dict
import QRadarDashboard.Lib.Except
import QRadarDashboard.Lib.Json
import QRadarDashboard.Waf.Observations

/-!
# Folding WAF history (`app/history/waf.py`)

Admission and retirement are replayed bucket by bucket, oldest first. The ids that `id_factory` returns are numbered
in the order they are taken.
-/

namespace QRadarDashboard.History
open Lib Waf

abbrev EndpointKey := Option String × String × String

structure HistoryEndpoint where
  id : String
  instanceId : String
  logSourceId : String
  virtualHost : Option String
  endpoint : String
  method : String
  firstSeenAt : Int
  lastSeenAt : Int
  active : Bool
  retiredAt : Option Int
  trackedSince : Int
  trackedUntil : Option Int
  baselineRebuiltAt : Option Int

def HistoryEndpoint.key (e : HistoryEndpoint) : EndpointKey := (e.virtualHost, e.endpoint, e.method)

structure HistoryObservation where
  virtualHost : Option String
  endpoint : String
  method : String
  requestCount : Int
  distinctClients : Option Int
  recordCount : Int

def HistoryObservation.key (o : HistoryObservation) : EndpointKey := (o.virtualHost, o.endpoint, o.method)

def HistoryObservation.candidate (o : HistoryObservation) : AdmissionCandidate :=
  ⟨o.virtualHost, o.endpoint, o.method, o.requestCount⟩

structure WafRequestGroup where
  rawUrl : Option String := none
  rawMethod : Option String := none
  rawVirtualHost : Option String := none
  requestCount : Int := 0
  recordCount : Int := 0
  distinctClientCount : Option Int := none

structure WafObservationBatch where
  windowStart : Int
  windowEnd : Int
  groups : List WafRequestGroup := []
  totalEvents : Int := 0
  truncated : Bool := false
  query : Option String := none
  totalQuery : Option String := none

structure HistoryVolumeBucket (φ : Type) where
  batch : WafObservationBatch
  collectedAt : Int
  durationMs : Int := 0
  searchProvenance : Option (JsonObject φ) := none

/-- A metric row. The columns the fold leaves null are left out, but for the breakdown counts. -/
structure WafMetricRow (φ : Type) where
  wafEndpointId : String
  bucketStart : Int
  bucketSeconds : Int
  requestCount : Int
  distinctClientCount : Option Int
  counts : BreakdownCounts := {}
  endpointCoverageRatio : φ
  completeness : BucketCompleteness
  normalizerVersion : Int
  metricSemantics : Option String := none

structure WafProvenance (φ : Type) where
  floor : Int
  windowStart : Int
  windowEnd : Int
  admissionQuota : Int
  aql : Option String
  coverageAql : Option String
  search : JsonObject φ

structure WafBucketRow (φ : Type) where
  logSourceId : String
  bucketStart : Int
  bucketSeconds : Int
  profileVersion : Int
  metricSemantics : String
  completeness : BucketCompleteness
  endpointCoverageRatio : φ
  totalEvents : Int
  parsedEvents : Int
  groupCount : Nat
  groupsTruncated : Bool
  unusableGroups : Nat
  observedEndpoints : Nat
  trackedEndpointsObserved : Nat
  admittedEndpoints : Nat
  belowAdmissionThreshold : Nat
  rejectedOverQuota : Nat
  untrackedEndpoints : Nat
  untrackedRequests : Int
  admissionTruncated : Bool
  zeroFilledEndpoints : Nat := 0
  requestCountMeasurement : WafMeasurement
  sparseEndpointRows : Bool := true
  inMaintenance : Bool
  breakdowns : BreakdownStatus := {}
  collectionSource : String
  queryProvenance : WafProvenance φ
  collectionDurationMs : Int
  collectedAt : Int

/-- The arguments of `fold_volume_history` beside the buckets and the endpoints. -/
structure WafHistoryArgs (φ : Type) where
  normalizer : Normalizer
  instanceId : String
  logSourceId : String
  profileVersion : Int
  metricSemantics : String
  collectionSource : String
  floor : Int
  policy : AdmissionPolicy
  minCoverage : φ
  activeDays : Int
  maintenance : Int → Bool
  idFactory : Nat → String

/-! ## Groups -/

def groupKey (normalizer : Normalizer) (group : WafRequestGroup) : Except Exc (Option EndpointKey) := do
  let endpoint ← normalizer.endpoint group.rawUrl
  match endpoint.value, normalizer.method group.rawMethod with
  | some value, some method => return some (normalizer.virtualHost group.rawVirtualHost, value, method)
  | _, _ => return none

/-- `max(clients or 0, count)` -/
def mergeClients (clients count : Option Int) : Option Int :=
  match count with
  | none => clients
  | some n => some (max (clients.getD 0) n)

def mergeGroup (normalizer : Normalizer) (acc : Dict EndpointKey HistoryObservation × Nat)
    (group : WafRequestGroup) : Except Exc (Dict EndpointKey HistoryObservation × Nat) := do
  match ← groupKey normalizer group with
  | none => return (acc.1, acc.2 + 1)
  | some key =>
    match acc.1.get? key with
    | none =>
      let first : HistoryObservation :=
        ⟨key.1, key.2.1, key.2.2, group.requestCount, group.distinctClientCount, group.recordCount⟩
      return (acc.1.set key first, acc.2)
    | some current =>
      let merged : HistoryObservation :=
        { current with
          requestCount := current.requestCount + group.requestCount
          distinctClients := mergeClients current.distinctClients group.distinctClientCount
          recordCount := current.recordCount + group.recordCount }
      return (acc.1.set key merged, acc.2)

def foldGroups (normalizer : Normalizer) (batch : WafObservationBatch) :
    Except Exc (List HistoryObservation × Nat) := do
  let (merged, unusable) ← batch.groups.foldlM (mergeGroup normalizer) ([], 0)
  return (merged.map (fun item => item.2), unusable)

/-! ## The ledger -/

abbrev WafLedger := Dict EndpointKey HistoryEndpoint

structure WafFoldState where
  ledger : WafLedger
  issued : Nat

def isTracked (ledger : WafLedger) (o : HistoryObservation) : Bool :=
  (ledger.get? o.key).any (fun endpoint => endpoint.active)

def noteTrackedEndpoint (start : Int) (st : WafFoldState) (o : HistoryObservation) : WafFoldState :=
  match st.ledger.get? o.key with
  | none => st
  | some current =>
    if current.lastSeenAt < start then
      { st with ledger := st.ledger.set o.key { current with lastSeenAt := start } }
    else st

def newEndpoint {φ : Type} (a : WafHistoryArgs φ) (start : Int) (id : String) (o : HistoryObservation) :
    HistoryEndpoint where
  id := id
  instanceId := a.instanceId
  logSourceId := a.logSourceId
  virtualHost := o.virtualHost
  endpoint := o.endpoint
  method := o.method
  firstSeenAt := start
  lastSeenAt := start
  active := true
  retiredAt := none
  trackedSince := start
  trackedUntil := none
  baselineRebuiltAt := none

def reactivate (start : Int) (current : HistoryEndpoint) : HistoryEndpoint :=
  { current with
    lastSeenAt := max current.lastSeenAt start
    active := true
    retiredAt := none
    trackedSince := start
    trackedUntil := none
    baselineRebuiltAt := none }

def noteAdmittedEndpoint {φ : Type} (a : WafHistoryArgs φ) (start : Int) (st : WafFoldState) (o : HistoryObservation) :
    WafFoldState :=
  match st.ledger.get? o.key with
  | none => ⟨st.ledger.set o.key (newEndpoint a start (a.idFactory st.issued) o), st.issued + 1⟩
  | some current => { st with ledger := st.ledger.set o.key (reactivate start current) }

/-- The endpoint was not seen for `active_days`. -/
def stale {φ : Type} (a : WafHistoryArgs φ) (start : Int) (endpoint : HistoryEndpoint) : Bool :=
  endpoint.active && decide (endpoint.lastSeenAt < start - seconds (a.activeDays * 86400))

def retire {φ : Type} (a : WafHistoryArgs φ) (start : Int) (endpoint : HistoryEndpoint) : HistoryEndpoint :=
  if stale a start endpoint then
    { endpoint with active := false, retiredAt := some start, trackedUntil := some start }
  else endpoint

/-! ## One bucket -/

/-- `min(1.0, max(0.0, parsed / total))`, one where the bucket held no event. -/
def coverageRatio {φ : Type} [PyFloat φ] (parsed total : Int) : φ :=
  let coverage := if 0 < total then PyFloat.divInt parsed total else PyFloat.ofInt 1
  let floor := if PyFloat.lt (PyFloat.ofInt 0) coverage then coverage else PyFloat.ofInt 0
  if PyFloat.lt floor (PyFloat.ofInt 1) then floor else PyFloat.ofInt 1

def metricRow {φ : Type} (batch : WafObservationBatch) (coverage : φ) (completeness : BucketCompleteness)
    (ledger : WafLedger) (o : HistoryObservation) : Except Exc (WafMetricRow φ) :=
  match ledger.get? o.key with
  | none => .error .key
  | some endpoint =>
    .ok
      { wafEndpointId := endpoint.id
        bucketStart := batch.windowStart
        bucketSeconds := (batch.windowEnd - batch.windowStart).tdiv 1000000
        requestCount := o.requestCount
        distinctClientCount := o.distinctClients
        endpointCoverageRatio := coverage
        completeness := completeness
        normalizerVersion := endpointNormalizerVersion }

structure FoldedVolume (φ : Type) where
  batch : WafObservationBatch
  row : WafBucketRow φ
  metrics : List (WafMetricRow φ)
  after : WafFoldState
  created : Nat
  reactivated : Nat
  retired : Nat

def foldVolumeBucket {φ : Type} [PyFloat φ] (a : WafHistoryArgs φ) (st : WafFoldState)
    (item : HistoryVolumeBucket φ) : Except Exc (FoldedVolume φ) := do
  let batch := item.batch
  let start := batch.windowStart
  let (observations, unusable) ← foldGroups a.normalizer batch
  let parsedTotal := (observations.map (fun o => o.requestCount)).sum
  let coverage : φ := coverageRatio parsedTotal batch.totalEvents
  let measurement : WafMeasurement :=
    if batch.truncated || PyFloat.lt coverage a.minCoverage then .lowerBound else .exact
  let completeness : BucketCompleteness := if measurement = .exact then .complete else .partialBucket
  let activeCount : Int := st.ledger.countP (fun entry => entry.2.active)
  let tracked := observations.filter (isTracked st.ledger)
  let unseen := observations.filter (fun o => !isTracked st.ledger o)
  let decision := decideAdmission HistoryObservation.candidate unseen activeCount a.policy
  let seen := tracked.foldl (noteTrackedEndpoint start) st
  let admitted := decision.admitted.foldl (noteAdmittedEndpoint a start) seen
  let metrics ← (tracked ++ decision.admitted).mapM (metricRow batch coverage completeness admitted.ledger)
  return {
    batch := batch
    row := {
      logSourceId := a.logSourceId
      bucketStart := start
      bucketSeconds := (batch.windowEnd - start).tdiv 1000000
      profileVersion := a.profileVersion
      metricSemantics := a.metricSemantics
      completeness := completeness
      endpointCoverageRatio := coverage
      totalEvents := batch.totalEvents
      parsedEvents := parsedTotal
      groupCount := batch.groups.length
      groupsTruncated := batch.truncated
      unusableGroups := unusable
      observedEndpoints := observations.length
      trackedEndpointsObserved := tracked.length
      admittedEndpoints := decision.admitted.length
      belowAdmissionThreshold := decision.belowThreshold.length
      rejectedOverQuota := decision.overQuota.length
      untrackedEndpoints := decision.untracked.length
      untrackedRequests := (decision.untracked.map (fun o => o.requestCount)).sum
      admissionTruncated := decision.truncated
      requestCountMeasurement := measurement
      inMaintenance := a.maintenance start
      collectionSource := a.collectionSource
      queryProvenance := {
        floor := a.floor
        windowStart := start
        windowEnd := batch.windowEnd
        admissionQuota := decision.quota
        aql := batch.query
        coverageAql := batch.totalQuery
        search := item.searchProvenance.getD [] }
      collectionDurationMs := item.durationMs
      collectedAt := item.collectedAt }
    metrics := metrics
    after := { admitted with ledger := admitted.ledger.map (fun entry => (entry.1, retire a start entry.2)) }
    created := decision.admitted.countP (fun o => (seen.ledger.get? o.key).isNone)
    reactivated := decision.admitted.countP (fun o => (seen.ledger.get? o.key).isSome)
    retired := admitted.ledger.countP (fun entry => stale a start entry.2) }

/-! ## A call -/

def foldVolumes {φ : Type} [PyFloat φ] (a : WafHistoryArgs φ) :
    WafFoldState → Option Int → List (HistoryVolumeBucket φ) → Except Exc (List (FoldedVolume φ) × WafFoldState)
  | st, _, [] => .ok ([], st)
  | st, previous, item :: items => do
      require (¬ previous.any (fun before => item.batch.windowStart ≤ before))
        (.value "WAF history bucket starts must increase")
      let folded ← foldVolumeBucket a st item
      let (rest, st) ← foldVolumes a folded.after (some item.batch.windowStart) items
      return (folded :: rest, st)

/-- What a call of `fold_volume_history` returns, bucket by bucket, and the number of ids taken since the first
call. -/
structure WafHistoryFold (φ : Type) where
  folded : List (FoldedVolume φ)
  endpoints : List HistoryEndpoint
  issued : Nat

namespace WafHistoryFold

variable {φ : Type} (f : WafHistoryFold φ)

def buckets : List (WafBucketRow φ) := f.folded.map (fun folded => folded.row)

def metrics : List (WafMetricRow φ) := f.folded.flatMap (fun folded => folded.metrics)

def endpointsCreated : Nat := (f.folded.map (fun folded => folded.created)).sum

def endpointsReactivated : Nat := (f.folded.map (fun folded => folded.reactivated)).sum

def endpointsRetired : Nat := (f.folded.map (fun folded => folded.retired)).sum

def untrackedEndpoints : Nat := (f.folded.map (fun folded => folded.row.untrackedEndpoints)).sum

def untrackedRequests : Int := (f.folded.map (fun folded => folded.row.untrackedRequests)).sum

end WafHistoryFold

/-- `{endpoint.key: endpoint for endpoint in existing}` -/
def wafLedgerOf (existing : List HistoryEndpoint) : WafLedger :=
  existing.foldl (fun ledger endpoint => ledger.set endpoint.key endpoint) []

/-- `fold_volume_history`, after `issued` ids were taken. The check of the order compares with the list sorted by start.
-/
def foldVolumeHistory {φ : Type} [PyFloat φ] (a : WafHistoryArgs φ) (buckets : List (HistoryVolumeBucket φ))
    (existing : List HistoryEndpoint) (issued : Nat) : Except Exc (WafHistoryFold φ) := do
  require (buckets.Pairwise (fun left right => left.batch.windowStart ≤ right.batch.windowStart))
    (.value "WAF history buckets must be oldest first")
  let (folded, st) ← foldVolumes a ⟨wafLedgerOf existing, issued⟩ none buckets
  return ⟨folded, st.ledger.map (fun entry => entry.2), st.issued⟩

/-! ## Reading the rows back -/

/-- `RowFacts.of` -/
def WafMetricRow.facts {φ : Type} (row : WafMetricRow φ) : RowFacts φ where
  bucketStart := row.bucketStart
  bucketSeconds := row.bucketSeconds
  requestCount := row.requestCount
  distinctClientCount := row.distinctClientCount
  completeness := row.completeness
  endpointCoverageRatio := row.endpointCoverageRatio
  metricSemantics := row.metricSemantics
  normalizerVersion := row.normalizerVersion
  counts := row.counts

/-- `BucketFacts.of` -/
def WafBucketRow.facts {φ : Type} (row : WafBucketRow φ) : BucketFacts φ where
  bucketStart := row.bucketStart
  bucketSeconds := row.bucketSeconds
  completeness := row.completeness
  endpointCoverageRatio := row.endpointCoverageRatio
  metricSemantics := some row.metricSemantics
  inMaintenance := row.inMaintenance
  measurement := some row.requestCountMeasurement
  sparse := row.sparseEndpointRows
  breakdowns := row.breakdowns
  groupsTruncated := row.groupsTruncated
  admissionTruncated := row.admissionTruncated
  profileVersion := some row.profileVersion

def HistoryEndpoint.trackedAt (e : HistoryEndpoint) (bucketStart : Int) : Bool :=
  decide (e.trackedSince ≤ bucketStart) && e.trackedUntil.all (fun stop => decide (bucketStart ≤ stop))

end QRadarDashboard.History
