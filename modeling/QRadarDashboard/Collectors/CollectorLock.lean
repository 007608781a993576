import QRadarDashboard.Basic
import QRadarDashboard.Lib.ReadCommitted
import QRadarDashboard.Lib.UnitOfWork

/-!
# Concurrent live collection (`MetricCollector.collect`, `CollectorAdvisoryLock`)

The watermark row is locked from the write to the commit, which comes after the release of the lock.
-/

namespace QRadarDashboard.Collectors
open Lib Lib.ReadCommitted

structure CollectionWatermark where
  watermarkAt : Option Int := none
  lastRunAt : Option Int := none
  lagSeconds : Option Int := none
  intervalsCollected : Int := 0
  consecutiveFailures : Int := 0
  lastError : Option String := none

def CollectionWatermark.flush (loaded current stored : CollectionWatermark) : CollectionWatermark where
  watermarkAt := written loaded.watermarkAt current.watermarkAt stored.watermarkAt
  lastRunAt := written loaded.lastRunAt current.lastRunAt stored.lastRunAt
  lagSeconds := written loaded.lagSeconds current.lagSeconds stored.lagSeconds
  intervalsCollected := written loaded.intervalsCollected current.intervalsCollected stored.intervalsCollected
  consecutiveFailures := written loaded.consecutiveFailures current.consecutiveFailures stored.consecutiveFailures
  lastError := written loaded.lastError current.lastError stored.lastError

/-- What a run reads besides the watermark. `completed` are the buckets that its searches complete. -/
structure CollectRun where
  now : Int
  interval : Int
  interval_pos : 0 < interval
  maxIntervals : Nat
  completed : Int → Bool
  searchFails : Bool := false
  historyFails : Bool := false

def floorToInterval (time interval : Int) : Int :=
  let epoch := time / 1000000
  seconds (epoch - epoch % interval)

def intervalsToCollect (run : CollectRun) (watermark : CollectionWatermark) : List Int :=
  let currentBoundary := floorToInterval run.now run.interval
  match watermark.watermarkAt with
  | none =>
    let start := currentBoundary - seconds run.interval
    if start < currentBoundary then [start] else []
  | some watermarkAt =>
    let first := watermarkAt + seconds run.interval
    ((List.range run.maxIntervals).map (fun (index : Nat) => first + seconds (run.interval * (index : Int)))).takeWhile
      (fun cursor => cursor < currentBoundary)

def bucketsWritten (run : CollectRun) (watermark : CollectionWatermark) : List Int :=
  (intervalsToCollect run watermark).takeWhile run.completed

def searchRaises (run : CollectRun) (watermark : CollectionWatermark) : Bool :=
  match intervalsToCollect run watermark with
  | [] => false
  | first :: _ => run.searchFails && !run.completed first

def advanced (run : CollectRun) (watermark : CollectionWatermark) : CollectionWatermark :=
  let buckets := bucketsWritten run watermark
  let lastDone := buckets.getLast?.or watermark.watermarkAt
  { watermarkAt := lastDone
    lastRunAt := some run.now
    lagSeconds := match lastDone with
      | none => watermark.lagSeconds
      | some done => some ((run.now - (done + seconds run.interval)).tdiv 1000000)
    intervalsCollected := watermark.intervalsCollected + buckets.length
    consecutiveFailures := 0
    lastError := none }

/-- Where a run is. `isNew` says that the watermark is a row of its own, inserted on the first run. -/
inductive CollectTx where
  | starting (run : CollectRun)
  | skipped
  | locked (run : CollectRun)
  /-- No row was found; the INSERT is next. -/
  | absent (run : CollectRun)
  | collecting (run : CollectRun) (isNew : Bool) (watermark : CollectionWatermark)
  | flushed (run : CollectRun) (isNew : Bool) (watermark : CollectionWatermark)
  /-- An exception inside the lock. -/
  | raising
  /-- The lock is released; the commit is next. -/
  | released (run : CollectRun) (isNew : Bool) (watermark : CollectionWatermark)

/-- The committed watermark row of the instance, the advisory lock, the lock of the row, and where each run is. -/
structure CollectDb (τ : Type) where
  committed : Option CollectionWatermark
  advisory : Option τ := none
  rowLock : Option τ := none
  session : τ → Option CollectTx := fun _ => none

variable {τ : Type} [DecidableEq τ]

namespace CollectDb

variable (db : CollectDb τ) (t : τ)

def goto (tx : CollectTx) : CollectDb τ := { db with session := Function.update db.session t (some tx) }

def close : CollectDb τ :=
  { db with
    rowLock := if db.rowLock = some t then none else db.rowLock
    session := Function.update db.session t none }

def unlock : CollectDb τ := { db with advisory := if db.advisory = some t then none else db.advisory }

def free (owner : Option τ) : Bool := owner = none || owner = some t

def advance : CollectTx → Except Refused (CollectDb τ)
  | .starting run =>
    if free t db.advisory then .ok ({ db with advisory := some t }.goto t (.locked run)) else .ok (db.goto t .skipped)
  | .skipped => .ok (db.close t)
  | .locked run =>
    match db.committed with
    | none => .ok (db.goto t (.absent run))
    | some watermark => .ok (db.goto t (.collecting run false watermark))
  | .absent run =>
    if free t db.rowLock then
      match db.committed with
      -- the unique key is taken; the failed transaction cannot release the advisory lock
      | some _ => .ok (db.close t)
      | none => .ok ({ db with rowLock := some t }.goto t (.collecting run true {}))
    else .error .waiting
  | .collecting run isNew watermark =>
    if searchRaises run watermark then .ok (db.goto t .raising)
    else if free t db.rowLock then .ok ({ db with rowLock := some t }.goto t (.flushed run isNew watermark))
    else .error .waiting
  | .flushed run isNew watermark =>
    if run.historyFails then .ok (db.goto t .raising) else .ok ((db.unlock t).goto t (.released run isNew watermark))
  | .raising => .ok ((db.unlock t).close t)
  | .released run isNew watermark =>
    let committed := if isNew then some (advanced run watermark)
      else db.committed.map (watermark.flush (advanced run watermark))
    .ok ({ db with committed }.close t)

def step : Move τ CollectRun → Except Refused (CollectDb τ)
  | .start t run =>
    match db.session t with
    | none => .ok (db.goto t (.starting run))
    | some _ => .error .alreadyOpen
  | .advance t =>
    match db.session t with
    | none => .error .notOpen
    | some tx => db.advance t tx

end CollectDb

end QRadarDashboard.Collectors
