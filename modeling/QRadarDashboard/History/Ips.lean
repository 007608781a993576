import QRadarDashboard.Ips.Fold
import QRadarDashboard.Waf.Admission

/-!
# Folding IPS history (`app/history/ips.py`)

The surrogate id of an entity is left out: its key names it.
-/

namespace QRadarDashboard.History
open Lib Ips Waf

def ipsNormalizerVersion : Int := 1

def entityDimensions : List IpsDimension := [.destinationPort, .destinationIp, .signature]

def allDimensions : List IpsDimension :=
  [.totals, .destinationPort, .destinationIp, .signature, .sourceIp, .portFanout, .action]

abbrev EntityKey := IpsDimension × String

structure HistoryIpsEntity where
  dimension : IpsDimension
  valueKey : String
  displayName : Option String
  firstSeenAt : Int
  lastSeenAt : Int
  active : Bool
  retiredAt : Option Int
  normalizerVersion : Int
deriving DecidableEq

def HistoryIpsEntity.key (e : HistoryIpsEntity) : EntityKey := (e.dimension, e.valueKey)

abbrev IpsLedger := Dict EntityKey HistoryIpsEntity

structure HistoryIpsBucket where
  bucketStart : Int
  outcomes : Dict IpsDimension IpsCellOutcome
deriving DecidableEq

inductive IpsBucketMeasurement where
  | exact | lowerBound | notCollected | failed | rejected
deriving DecidableEq

structure IpsMetricRow where
  entity : EntityKey
  bucketStart : Int
  bucketSeconds : Int
  events : Nat

structure IpsAdmissionColumns where
  admitted : Nat
  belowAdmissionThreshold : Nat
  rejectedOverQuota : Nat
  untrackedEntities : Nat
  untrackedEvents : Nat
  admissionTruncated : Bool

/-- The bucket row. The source, fan-out and action columns are those of `facts`. -/
structure IpsBucketRow (φ : Type) where
  bucketStart : Int
  bucketSeconds : Int
  totalEvents : Nat
  totalRecords : Nat
  measurements : Dict IpsDimension IpsBucketMeasurement
  coverages : Dict IpsDimension (Option φ × Option Bool)
  admission : Dict IpsDimension IpsAdmissionColumns
  facts : Dict IpsDimension (Option IpsFact)
  profileVersion : Int
  normalizerVersion : Int
  inMaintenance : Bool
  collectedAt : Int

/-- The arguments of `fold_ips_history` beside the buckets and the ledger. -/
structure IpsHistoryArgs where
  text : IpsText
  mapping : IpsFieldMapping
  profileVersion : Int
  bucketSeconds : Int
  collectedAt : Int
  maxEntitiesPerBucket : Int
  policy : AdmissionPolicy
  activeDays : Int
  maintenance : Int → Bool

/-! ## One bucket -/

def storedMeasurement : Option IpsCellOutcome → IpsBucketMeasurement
  | none => .notCollected
  | some outcome =>
    match outcome.state with
    | .complete => .exact
    | .lowerBound => .lowerBound
    | .failed => .failed
    | .rejected => .rejected
    | .notCollected => .notCollected

def bucketTotals (bucket : HistoryIpsBucket) : Except Exc IpsTotalsFact :=
  match bucket.outcomes.get? .totals with
  | none => .error (.value "an IPS history bucket needs complete TOTALS")
  | some outcome =>
    if outcome.state ≠ .complete then .error (.value "an IPS history bucket needs complete TOTALS")
    else do
      let fact ← foldTotals outcome
      match fact with
      | none => .error (.value "an IPS history bucket needs a totals fact")
      | some totals => return totals

def dimensionFact (a : IpsHistoryArgs) (bucket : HistoryIpsBucket) (dimension : IpsDimension) :
    Except Exc (IpsDimension × Option IpsFact) :=
  match bucket.outcomes.get? dimension with
  | none => .ok (dimension, none)
  | some outcome =>
    (foldOutcome a.text a.mapping a.maxEntitiesPerBucket outcome).map (fun fact => (dimension, fact))

def candidateOf (dimension : IpsDimension) (fact : IpsEntityFact) : AdmissionCandidate where
  virtualHost := none
  endpoint := fact.valueKey
  method := dimension.value
  requestCount := fact.events

def seenEntity (start : Int) (fact : IpsEntityFact) (current : HistoryIpsEntity) : HistoryIpsEntity :=
  { current with
    displayName := match fact.displayName with
      | none => current.displayName
      | some name => if name = "" then current.displayName else some name
    lastSeenAt := max current.lastSeenAt start
    normalizerVersion := ipsNormalizerVersion }

/-- The entity of an admitted candidate: a new one, or a returning one that keeps `firstSeenAt`. -/
def admittedEntity (start : Int) (dimension : IpsDimension) (fact : IpsEntityFact) :
    Option HistoryIpsEntity → HistoryIpsEntity
  | none =>
    { dimension := dimension
      valueKey := fact.valueKey
      displayName := fact.displayName
      firstSeenAt := start
      lastSeenAt := start
      active := true
      retiredAt := none
      normalizerVersion := ipsNormalizerVersion }
  | some current => { seenEntity start fact current with active := true, retiredAt := none }

structure IpsFoldState where
  ledger : IpsLedger
  metrics : List IpsMetricRow
  admission : Dict IpsDimension IpsAdmissionColumns
  changed : List EntityKey

def isActive (ledger : IpsLedger) (dimension : IpsDimension) (fact : IpsEntityFact) : Bool :=
  (ledger.get? (dimension, fact.valueKey)).any (fun entity => entity.active)

def noteTracked (a : IpsHistoryArgs) (start : Int) (dimension : IpsDimension) (st : IpsFoldState)
    (fact : IpsEntityFact) : IpsFoldState :=
  match st.ledger.get? (dimension, fact.valueKey) with
  | none => st
  | some current =>
    { st with
      ledger := st.ledger.set (dimension, fact.valueKey) (seenEntity start fact current)
      metrics := st.metrics ++ [⟨(dimension, fact.valueKey), start, a.bucketSeconds, fact.events⟩]
      changed := st.changed ++ [(dimension, fact.valueKey)] }

def noteAdmitted (a : IpsHistoryArgs) (start : Int) (dimension : IpsDimension) (st : IpsFoldState)
    (fact : IpsEntityFact) : IpsFoldState :=
  { st with
    ledger := st.ledger.set (dimension, fact.valueKey)
      (admittedEntity start dimension fact (st.ledger.get? (dimension, fact.valueKey)))
    metrics := st.metrics ++ [⟨(dimension, fact.valueKey), start, a.bucketSeconds, fact.events⟩]
    changed := st.changed ++ [(dimension, fact.valueKey)] }

def activeCount (ledger : IpsLedger) (dimension : IpsDimension) : Int :=
  ledger.countP (fun item => item.2.active && decide (item.2.dimension = dimension))

def admitDimension (a : IpsHistoryArgs) (start : Int) (active : Int) (dimension : IpsDimension)
    (fact : IpsEntityBucketFact) (st : IpsFoldState) : IpsFoldState :=
  let tracked := fact.entities.filter (isActive st.ledger dimension)
  let unseen := fact.entities.filter (fun entity => !isActive st.ledger dimension entity)
  let decision := decideAdmission (candidateOf dimension) unseen active a.policy
  let overflowCount := fact.entityCount - fact.entities.length
  let overflowEvents := fact.dimensionEvents - fact.unattributedEvents -
    (fact.entities.map (fun entity => entity.events)).sum
  let columns : IpsAdmissionColumns := {
    admitted := decision.admitted.length
    belowAdmissionThreshold := decision.belowThreshold.length
    rejectedOverQuota := decision.overQuota.length
    untrackedEntities := decision.untracked.length + overflowCount
    untrackedEvents := (decision.untracked.map (fun entity => entity.events)).sum + overflowEvents
    admissionTruncated := fact.measurement = .lowerBound || decision.truncated || decide (0 < overflowCount) }
  let st := tracked.foldl (noteTracked a start dimension) st
  let st := decision.admitted.foldl (noteAdmitted a start dimension) st
  { st with admission := st.admission.set dimension columns }

def foldDimension (a : IpsHistoryArgs) (start : Int) (facts : Dict IpsDimension (Option IpsFact))
    (counts : IpsDimension → Int) (st : IpsFoldState) (dimension : IpsDimension) : IpsFoldState :=
  match facts.get? dimension with
  | some (some (.entities fact)) => admitDimension a start (counts dimension) dimension fact st
  | _ => st

/-- `min(1.0, max(0.0, ratio))` -/
def clampRatio {φ : Type} [PyFloat φ] (ratio : φ) : φ :=
  let floor := if PyFloat.lt (PyFloat.ofInt 0) ratio then ratio else PyFloat.ofInt 0
  if PyFloat.lt floor (PyFloat.ofInt 1) then floor else PyFloat.ofInt 1

def coverageColumns {φ : Type} [PyFloat φ] (facts : Dict IpsDimension (Option IpsFact)) (totals : IpsTotalsFact)
    (dimension : IpsDimension) : Option φ × Option Bool :=
  match (coverage (facts.get? dimension).join totals : Option (φ × Bool)) with
  | none => (none, none)
  | some (ratio, lower) => (some (clampRatio ratio), some lower)

/-- An active entity unobserved for `active_days` is retired. -/
def retireEntity (a : IpsHistoryArgs) (start : Int) (entity : HistoryIpsEntity) : HistoryIpsEntity :=
  if entity.active ∧ entity.lastSeenAt < start - seconds (a.activeDays * 86400) then
    { entity with active := false, retiredAt := some start }
  else entity

structure FoldedBucket (φ : Type) where
  bucket : HistoryIpsBucket
  before : IpsLedger
  row : IpsBucketRow φ
  metrics : List IpsMetricRow
  after : IpsLedger
  changed : List EntityKey

def foldBucketHistory {φ : Type} [PyFloat φ] (a : IpsHistoryArgs) (ledger : IpsLedger)
    (bucket : HistoryIpsBucket) : Except Exc (FoldedBucket φ) := do
  let totals ← bucketTotals bucket
  let facts ← allDimensions.mapM (dimensionFact a bucket)
  let start := bucket.bucketStart
  let st := entityDimensions.foldl (foldDimension a start facts (activeCount ledger)) ⟨ledger, [], [], []⟩
  let retired := (st.ledger.filter (fun item => retireEntity a start item.2 ≠ item.2)).map (fun item => item.1)
  return {
    bucket := bucket
    before := ledger
    row := {
      bucketStart := start
      bucketSeconds := a.bucketSeconds
      totalEvents := totals.events
      totalRecords := totals.records
      measurements := [IpsDimension.destinationPort, .destinationIp, .signature, .sourceIp, .portFanout, .action].map
        (fun dimension => (dimension, storedMeasurement (bucket.outcomes.get? dimension)))
      coverages := [IpsDimension.destinationPort, .destinationIp, .signature, .sourceIp, .action].map
        (fun dimension => (dimension, coverageColumns facts totals dimension))
      admission := st.admission
      facts := facts
      profileVersion := a.profileVersion
      normalizerVersion := ipsNormalizerVersion
      inMaintenance := a.maintenance start
      collectedAt := a.collectedAt }
    metrics := st.metrics
    after := st.ledger.map (fun item => (item.1, retireEntity a start item.2))
    changed := st.changed ++ retired }

/-! ## A call -/

def foldBuckets {φ : Type} [PyFloat φ] (a : IpsHistoryArgs) :
    IpsLedger → List HistoryIpsBucket → Except Exc (List (FoldedBucket φ) × IpsLedger)
  | ledger, [] => .ok ([], ledger)
  | ledger, bucket :: buckets => do
      let folded ← foldBucketHistory a ledger bucket
      let rest ← foldBuckets a folded.after buckets
      return (folded :: rest.1, rest.2)

/-- What a call of `fold_ips_history` returns: its buckets and metric rows, the changed entities and the
ledger they leave. -/
structure IpsHistoryFold (φ : Type) where
  folded : List (FoldedBucket φ)
  ledger : IpsLedger

def IpsHistoryFold.entities {φ : Type} (f : IpsHistoryFold φ) : List HistoryIpsEntity :=
  let changed := (f.folded.flatMap (fun folded => folded.changed)).dedup
  (sortOn (fun key : EntityKey => (toLex (key.1.value, key.2) : String ×ₗ String)) changed).filterMap
    (fun key => f.ledger.get? key)

/-- `{entity.key: entity for entity in existing}` -/
def ledgerOf (existing : List HistoryIpsEntity) : IpsLedger :=
  existing.foldl (fun ledger entity => Dict.set ledger entity.key entity) []

def foldIpsHistory {φ : Type} [PyFloat φ] (a : IpsHistoryArgs) (buckets : List HistoryIpsBucket)
    (existing : List HistoryIpsEntity) : Except Exc (IpsHistoryFold φ) := do
  require (buckets = sortOn (fun bucket => bucket.bucketStart) buckets)
    (.value "IPS history buckets must be oldest first")
  require (buckets.Pairwise (fun left right => left.bucketStart < right.bucketStart))
    (.value "IPS history bucket starts must increase")
  let folded ← foldBuckets a (ledgerOf existing) buckets
  return ⟨folded.1, folded.2⟩

end QRadarDashboard.History
