import QRadarDashboard.Anomaly.Engine

/-!
# Pending buckets and their faults

`evaluate_pending` of `app/anomaly/engine.py` with `app/anomaly/faults.py` and `app/repositories/anomaly_faults.py`.
-/

namespace QRadarDashboard.Anomaly
open Lib

/-! ## Settings and rows -/

/-- `anomaly_max_bucket_attempts` and `anomaly_max_buckets_per_evaluation`, with the bounds of their fields. -/
structure PendingSettings where
  maxBucketAttempts : Nat
  maxBucketsPerEvaluation : Nat
  attempts_range : 1 ≤ maxBucketAttempts ∧ maxBucketAttempts ≤ 20
  buckets_range : 1 ≤ maxBucketsPerEvaluation ∧ maxBucketsPerEvaluation ≤ 10000

structure MonitoredSource extends LogSource where
  monitoringEnabled : Bool

structure MetricRow where
  bucketSeconds : Int
  collectionSource : Option String

def phaseAHistorySources : List String := ["ariel_history", "mock_history"]

def MetricRow.isLive (row : MetricRow) : Bool :=
  match row.collectionSource with
  | none => true
  | some source => source ∉ phaseAHistorySources

/-- `log_source_metric`, with its primary key (log source, bucket start). -/
structure MetricTable where
  rows : Dict (String × Int) MetricRow
  unique : rows.keys.Nodup

namespace MetricTable

variable (t : MetricTable)

def insert (key : String × Int) (row : MetricRow) : MetricTable :=
  ⟨t.rows.set key row, Dict.nodup_keys_set t.unique key row⟩

def live (sourceId : String) : List Metric :=
  sortOn Metric.bucketStart
    ((t.rows.filter (fun item => item.1.1 = sourceId ∧ item.2.isLive)).map
      (fun item => ⟨item.1.2, item.2.bucketSeconds⟩))

/-- `ORDER BY bucket_start DESC LIMIT 1` -/
def latestLive (sourceId : String) : Option Metric := (t.live sourceId).getLast?

/-- `bucket_start > mark ORDER BY bucket_start` -/
def liveAfter (sourceId : String) (mark : Int) : List Metric :=
  (t.live sourceId).filter (fun metric => mark < metric.bucketStart)

end MetricTable

structure Watermark where
  evaluatedThrough : Int
  updatedAt : Int

/-- A row of `anomaly_evaluation_fault`, stored under its (log source, bucket start). -/
structure Fault where
  attempts : Nat
  firstFailedAt : Int
  lastFailedAt : Int
  errorClass : String
  givenUpAt : Option Int := none
  resolvedAt : Option Int := none

def Fault.isOpen (fault : Fault) : Bool := fault.resolvedAt = none ∧ fault.givenUpAt = none

/-! ## Fault decisions (`faults.py`) -/

inductive FaultDecision where
  | retry | giveUp

def nextAttempt (attempts maxAttempts : Nat) : Except Exc FaultDecision :=
  if attempts < 1 then .error (.value "attempts must be at least 1")
  else if maxAttempts < 1 then .error (.value "max_attempts must be at least 1")
  else .ok (if maxAttempts ≤ attempts then .giveUp else .retry)

/-! ## Fault rows (`AnomalyFaultRepository`) -/

abbrev FaultTable := Dict (String × Int) Fault

namespace FaultTable

variable (faults : FaultTable)

def openSourceIds : List String :=
  (faults.filter (fun item => item.2.isOpen)).map (fun item => item.1.1)

def recordFailure (key : String × Int) (errorClass : String) (at_ : Int) :
    Nat × FaultTable :=
  let fault : Fault := match faults.get? key with
    | none => { attempts := 1, firstFailedAt := at_, lastFailedAt := at_, errorClass := errorClass }
    | some fault => { fault with
        attempts := fault.attempts + 1
        lastFailedAt := at_
        errorClass := errorClass }
  (fault.attempts, faults.set key fault)

def giveUp (key : String × Int) (at_ : Int) : FaultTable :=
  faults.map (fun item => (item.1, if item.1 = key then { item.2 with givenUpAt := some at_ } else item.2))

def resolve (sourceId : String) (at_ : Int) : FaultTable :=
  faults.map (fun item =>
    (item.1, if item.1.1 = sourceId ∧ item.2.isOpen then { item.2 with resolvedAt := some at_ } else item.2))

def attempts (key : String × Int) : Nat :=
  match faults.get? key with
  | none => 0
  | some fault => fault.attempts

def givenUp (key : String × Int) : Prop :=
  ∃ fault, faults.get? key = some fault ∧ fault.givenUpAt ≠ none

end FaultTable

/-! ## The session and the engine -/

/-- What `evaluate_pending` returns of a tick. -/
structure PendingReport extends EvaluationReport where
  logSourceId : String
  intervalStart : Option Int
  anomalous : List String := []
  unsupported : Dict String String := []
  failed : Nat := 0
  givenUp : Nat := 0
  skippedReason : Option String := none

inductive BucketOutcome where
  | judged | retry | givenUp
deriving DecidableEq

variable {ω : Type}

/-- The tables `evaluate_pending` works on, the cached set of open faults and the other rows `world`. `attempted` lists
the evaluations; no code reads it. -/
structure PendingStore (ω : Type) where
  metrics : MetricTable
  watermarks : Dict String Watermark
  faults : FaultTable
  openFaults : Option (List String) := none
  reads : Nat := 0
  world : ω
  attempted : List ((String × Int) × BucketOutcome) := []

/-- The engine of a tick. `evaluateInterval` raises with the exception's class name; `recordable` says whether the
savepoint of the bookkeeping succeeds. -/
structure PendingEngine (ω : Type) where
  settings : PendingSettings
  clock : Nat → Int
  evaluateInterval : ω → Metric → Except String (PendingReport × ω)
  recordable : Metric → Bool

namespace PendingStore

def openFaultSources (st : PendingStore ω) : List String := st.openFaults.getD st.faults.openSourceIds

def mark (st : PendingStore ω) (sourceId : String) (bucket now : Int) : PendingStore ω :=
  { st with
    watermarks := st.watermarks.set sourceId { evaluatedThrough := bucket, updatedAt := now }
    reads := st.reads + 1 }

def through (st : PendingStore ω) (sourceId : String) : Option Int :=
  (st.watermarks.get? sourceId).map Watermark.evaluatedThrough

end PendingStore

variable (engine : PendingEngine ω) (source : MonitoredSource)

/-- `_record_failure`: whether the bucket was given up. The bookkeeping rolls back as a whole. -/
def recordFailure (metric : Metric) (errorClass : String) (st : PendingStore ω) :
    Bool × PendingStore ω :=
  let now := engine.clock st.reads
  let st := { st with reads := st.reads + 1 }
  let recorded := st.faults.recordFailure (source.id, metric.bucketStart) errorClass now
  if engine.recordable metric then
    match nextAttempt recorded.1 engine.settings.maxBucketAttempts with
    | .error _ => (false, st)
    | .ok .giveUp => (true, { st with
        faults := recorded.2.giveUp (source.id, metric.bucketStart) now
        openFaults := some ((st.openFaults.getD recorded.2.openSourceIds).filter (fun id => id ≠ source.id)) })
    | .ok .retry => (false, { st with
        faults := recorded.2
        openFaults := some (source.id :: st.openFaults.getD recorded.2.openSourceIds) })
  else (false, st)

def clearFailure (st : PendingStore ω) : PendingStore ω :=
  let openFaults := st.openFaultSources
  if source.id ∈ openFaults then
    { st with
      faults := st.faults.resolve source.id (engine.clock st.reads)
      openFaults := some (openFaults.filter (fun id => id ≠ source.id))
      reads := st.reads + 1 }
  else { st with openFaults := some openFaults }

/-- One bucket: evaluated in a savepoint with the watermark's move, else recorded as failed and, once given up, passed
over. -/
def tryBucket (metric : Metric) (st : PendingStore ω) :
    Except Bool PendingReport × PendingStore ω :=
  let attempted (outcome : BucketOutcome) (st : PendingStore ω) : PendingStore ω :=
    { st with attempted := st.attempted ++ [((source.id, metric.bucketStart), outcome)] }
  match engine.evaluateInterval st.world metric with
  | .ok (report, world) =>
    let st := { st with world := world }.mark source.id metric.bucketStart (engine.clock st.reads)
    (.ok report, clearFailure engine source (attempted .judged st))
  | .error errorClass =>
    match recordFailure engine source metric errorClass st with
    | (true, st) =>
      (.error true, (attempted .givenUp st).mark source.id metric.bucketStart (engine.clock st.reads))
    | (false, st) => (.error false, attempted .retry st)

def evaluateMetrics (source : MonitoredSource) : List Metric → PendingReport → PendingStore ω →
    PendingReport × PendingStore ω
  | [], combined, st => (combined, st)
  | metric :: metrics, combined, st =>
    match tryBucket engine source metric st with
    | (.ok report, st) =>
      evaluateMetrics source metrics { combined with
        intervalStart := report.intervalStart
        opened := combined.opened ++ report.opened
        resolved := combined.resolved ++ report.resolved
        anomalous := combined.anomalous ++ report.anomalous
        candidates := combined.candidates ++ report.candidates
        recovering := combined.recovering ++ report.recovering
        states := report.states
        unsupported := report.unsupported } st
    | (.error true, st) =>
      evaluateMetrics source metrics { combined with
        failed := combined.failed + 1
        givenUp := combined.givenUp + 1 } st
    | (.error false, st) =>
      ({ combined with failed := combined.failed + 1, skippedReason := some "evaluation failed" }, st)

def evaluateFirst (metric : Metric) (st : PendingStore ω) :
    PendingReport × PendingStore ω :=
  match tryBucket engine source metric st with
  | (.ok report, st) => (report, st)
  | (.error givenUp, st) =>
    ({ logSourceId := source.id, intervalStart := some metric.bucketStart, failed := 1,
       givenUp := if givenUp then 1 else 0, skippedReason := some "evaluation failed" }, st)

def evaluatePending (st : PendingStore ω) : PendingReport × PendingStore ω :=
  let report (reason : Option String) : PendingReport :=
    { logSourceId := source.id, intervalStart := none, skippedReason := reason }
  if source.monitoringEnabled then
    match st.watermarks.get? source.id with
    | none =>
      match st.metrics.latestLive source.id with
      | none => (report (some "no metrics"), st)
      | some metric => evaluateFirst engine source metric st
    | some watermark =>
      match (st.metrics.liveAfter source.id watermark.evaluatedThrough).take
          engine.settings.maxBucketsPerEvaluation with
      | [] => (report (some "no pending metrics"), st)
      | metrics => evaluateMetrics engine source metrics (report none) st
  else (report (some "monitoring disabled"), st)

/-! ## Ticks -/

/-- Live buckets of the source arrive, and the tick's engine evaluates the source. -/
structure PendingTick (ω : Type) where
  arrivals : List (Int × MetricRow)
  newInstance : Bool
  clock : Nat → Int
  evaluateInterval : ω → Metric → Except String (PendingReport × ω)
  recordable : Metric → Bool

def PendingTick.evaluator (settings : PendingSettings) (t : PendingTick ω) : PendingEngine ω where
  settings := settings
  clock := t.clock
  evaluateInterval := t.evaluateInterval
  recordable := t.recordable

def PendingStore.arrived (st : PendingStore ω) (t : PendingTick ω) : PendingStore ω :=
  { st with
    metrics := t.arrivals.foldl (fun table row => table.insert (source.id, row.1) row.2) st.metrics
    openFaults := if t.newInstance then none else st.openFaults }

def pendingTick (settings : PendingSettings) (source : MonitoredSource) (st : PendingStore ω)
    (t : PendingTick ω) : Except Exc (PendingReport × PendingStore ω) :=
  .ok (evaluatePending (t.evaluator settings) source (st.arrived source t))

end QRadarDashboard.Anomaly
