import QRadarDashboard.Alerts.Service
import QRadarDashboard.Lib.Program
import QRadarDashboard.Lib.UnitOfWork

/-!
# Concurrent alert work (`app/alerts/service.py`, `app/api/routes/alerts.py`)

Alerts are objects of the session, written by primary key at the commit. A flush that waits for a row only delays the
transaction, so a run is an order of queries and commits.
-/

namespace QRadarDashboard.Alerts
open Lib Lib.ReadCommitted

variable {φ ρ : Type} [DecidableEq φ]

def Alert.flush (loaded current stored : Alert φ) : Alert φ :=
  { stored with
    severity := written loaded.severity current.severity stored.severity
    status := written loaded.status current.status stored.status
    acknowledgedAt := written loaded.acknowledgedAt current.acknowledgedAt stored.acknowledgedAt
    acknowledgedBy := written loaded.acknowledgedBy current.acknowledgedBy stored.acknowledgedBy
    resolvedAt := written loaded.resolvedAt current.resolvedAt stored.resolvedAt
    resolvedBy := written loaded.resolvedBy current.resolvedBy stored.resolvedBy
    resolutionReason := written loaded.resolutionReason current.resolutionReason stored.resolutionReason
    occurrenceCount := written loaded.occurrenceCount current.occurrenceCount stored.occurrenceCount
    lastSeenAt := written loaded.lastSeenAt current.lastSeenAt stored.lastSeenAt
    evidenceSnapshot := written loaded.evidenceSnapshot current.evidenceSnapshot stored.evidenceSnapshot
    sourceAnomalyIds := written loaded.sourceAnomalyIds current.sourceAnomalyIds stored.sourceAnomalyIds }

def alertMapper : Mapper String (Alert φ) where
  key a := a.id
  flush := Alert.flush
  flush_key _ _ _ := rfl
  flush_self loaded stored := by simp [Alert.flush]

/-- The alert table with its index `uq_alert_active_dedup`, and the rest of the store. `reports` is no table: it lists
the transitions that committed transactions have reported. -/
structure AlertStore (φ ρ : Type) where
  alerts : List (Alert φ)
  rest : ρ
  reports : List (String × AlertTransition) := []
  ids_nodup : (alerts.map (fun a => a.id)).Nodup
  active_nodup : ((alerts.filter (fun a => a.active)).map (fun a => a.dedupKey)).Nodup

/-- The session of a transaction: its objects, its writes to the rest of the store, and the transitions reported. -/
structure Work (φ ρ : Type) where
  objects : Dict String (Mapped (Alert φ)) := []
  writes : List (ρ → ρ) := []
  reports : List (String × AlertTransition) := []
  reads : Nat := 0
  issued : Nat := 0

abbrev AlertProgram (φ ρ α : Type) := Program (AlertStore φ ρ) Unit α

namespace Work

variable (w : Work φ ρ)

def alerts (store : AlertStore φ ρ) : List (Alert φ) := alertMapper.view w.objects store.alerts

abbrev Commits (store : AlertStore φ ρ) : Prop :=
  alertMapper.fits w.objects store.alerts ∧ ((w.alerts store).map (fun a => a.id)).Nodup ∧
    (((w.alerts store).filter (fun a => a.active)).map (fun a => a.dedupKey)).Nodup

def commit (store : AlertStore φ ρ) : AlertStore φ ρ :=
  if h : w.Commits store then
    { alerts := w.alerts store
      rest := w.writes.foldl (fun rest write => write rest) store.rest
      reports := store.reports ++ w.reports
      ids_nodup := h.2.1
      active_nodup := h.2.2 }
  else store

def tick : Work φ ρ := { w with reads := w.reads + 1 }

/-- `session.rollback()`: everything since the transaction began. -/
def rollback : Work φ ρ := { w with objects := [], writes := [], reports := [] }

def report (result : AlertResult) : Work φ ρ :=
  match result.transition with
  | none => w
  | some transition => { w with reports := w.reports ++ [(result.alertId, transition)] }

def load (row : Alert φ) : Alert φ × Work φ ρ :=
  let (alert, objects) := alertMapper.load w.objects row
  (alert, { w with objects })

def assign (id : String) (f : Alert φ → Alert φ) : Work φ ρ := { w with objects := Mapper.assign w.objects id f }

def findActive (fingerprint : String) : AlertProgram φ ρ (Option (Alert φ) × Work φ ρ) :=
  .read (fun store =>
    match (w.alerts store).find? (fun a => a.dedupKey = fingerprint && a.active) with
    | none => (none, w)
    | some row => ((w.load row).1, (w.load row).2))

/-- `session.get(Alert, alert_id)` -/
def get (alertId : String) : AlertProgram φ ρ (Option (Alert φ) × Work φ ρ) :=
  match w.objects.get? alertId with
  | some o => pure (some o.current, w)
  | none => .read (fun store =>
    match (w.alerts store).find? (fun a => a.id = alertId) with
    | none => (none, w)
    | some row => ((w.load row).1, (w.load row).2))

/-- The INSERT of a new alert, and whether it is taken. A key that an object of the session has is no conflict of the
database. -/
def insert (alert : Alert φ) : AlertProgram φ ρ (Bool × Work φ ρ) :=
  if (w.objects.get? alert.id).isSome then .fail
  else .read (fun store =>
    if (w.alerts store).any (fun a => a.id = alert.id || (a.dedupKey = alert.dedupKey && a.active)) then
      (false, { w with issued := w.issued + 1 })
    else (true, { w with objects := w.objects.set alert.id ⟨none, alert⟩, issued := w.issued + 1 }))

end Work

def recount (now : Int) (existing : Alert φ) : Alert φ :=
  { existing with occurrenceCount := existing.occurrenceCount + 1, lastSeenAt := some now }

def acknowledged (now : Int) (actor : String) (a : Alert φ) : Alert φ :=
  { a with status := .acknowledged, acknowledgedAt := some now, acknowledgedBy := some actor }

def openedResult (id : String) : AlertResult :=
  { alertId := id, opened := true, updated := false, transition := some .opened }

def acknowledgedResult (id : String) : AlertResult :=
  { alertId := id, opened := false, updated := true, transition := some .acknowledged }

def resolvedResult (id : String) : AlertResult :=
  { alertId := id, opened := false, updated := true, transition := some .resolved }

namespace Work

variable (svc : Service) (w : Work φ ρ)

def openOrUpdate (data : AlertInput φ) : AlertProgram φ ρ (AlertResult × Work φ ρ) := do
  let now := svc.clock w.reads
  let (existing, w) ← w.tick.findActive data.fingerprint
  match existing with
  | some existing => return (refreshed existing.id, w.assign existing.id (refresh data now))
  | none =>
    let id := svc.uuid4 w.issued
    let (taken, w) ← w.insert (newAlert data now id)
    if taken then return (openedResult id, w.report (openedResult id))
    else
      let (existing, w) ← w.rollback.findActive data.fingerprint
      match existing with
      | none => .fail
      | some existing => return (refreshed existing.id, w.tick.assign existing.id (recount (svc.clock w.reads)))

def acknowledge (alertId actor : String) : AlertProgram φ ρ (AlertResult × Work φ ρ) := do
  let (alert, w) ← w.get alertId
  match alert with
  | none => .fail
  | some alert =>
    if alert.status ≠ .opened then
      return ({ alertId, opened := false, updated := false, transition := none }, w)
    else
      return (acknowledgedResult alertId,
        (w.tick.assign alertId (acknowledged (svc.clock w.reads) actor)).report (acknowledgedResult alertId))

def resolve (alertId actor : String) (reason : Option String) : AlertProgram φ ρ (AlertResult × Work φ ρ) := do
  let (alert, w) ← w.get alertId
  match alert with
  | none => .fail
  | some alert =>
    if alert.status = .resolved then
      return ({ alertId, opened := false, updated := false, transition := none }, w)
    else
      return (resolvedResult alertId,
        (w.tick.assign alertId (resolved (svc.clock w.reads) actor reason)).report (resolvedResult alertId))

def resolveByFingerprint (item : AlertResolution) : AlertProgram φ ρ (Option AlertResult × Work φ ρ) := do
  let (alert, w) ← w.findActive item.fingerprint
  match alert with
  | none => return (none, w)
  | some alert =>
    let (result, w) ← w.resolve svc alert.id item.actor item.reason
    return (some result, w)

/-! ## A tick's work in bulk -/

def activeAlerts (fingerprints : List String) : AlertProgram φ ρ (Dict String String × Work φ ρ) :=
  .read (fun store =>
    ((w.alerts store).filter (fun a => a.dedupKey ∈ fingerprints && a.active)).foldl
      (fun r row => (r.1.set row.dedupKey row.id, (r.2.load row).2)) ([], w))

end Work

structure BulkWork (φ ρ : Type) where
  work : Work φ ρ
  active : Dict String String
  results : Dict Nat AlertResult := []

namespace BulkWork

variable (svc : Service) (b : BulkWork φ ρ) (item : AlertInput φ × Nat)

def refreshOne (id : String) : BulkWork φ ρ :=
  { b with
    work := b.work.tick.assign id (refresh item.1 (svc.clock b.work.reads))
    results := b.results.set item.2 (refreshed id) }

def passA : BulkWork φ ρ :=
  match b.active.get? item.1.fingerprint with
  | none => b
  | some id => b.refreshOne svc item id

def passB : AlertProgram φ ρ (BulkWork φ ρ) :=
  if (b.results.get? item.2).isSome then return b
  else
    match b.active.get? item.1.fingerprint with
    | some id => return b.refreshOne svc item id
    | none => do
        let now := svc.clock b.work.reads
        let id := svc.uuid4 b.work.issued
        let (taken, w) ← b.work.tick.insert (newAlert item.1 now id)
        if taken then
          return { work := w.report (openedResult id)
                   active := b.active.set item.1.fingerprint id
                   results := b.results.set item.2 (openedResult id) }
        else
          let (existing, w) ← w.findActive item.1.fingerprint
          match existing with
          | none => .fail
          | some existing =>
            return { work := w.tick.assign existing.id (recount (svc.clock w.reads))
                     active := b.active.set item.1.fingerprint existing.id
                     results := b.results.set item.2 (refreshed existing.id) }

end BulkWork

structure ResolvingWork (φ ρ : Type) where
  work : Work φ ρ
  active : Dict String String
  resolved : List (Option AlertResult) := []

def ResolvingWork.resolveOne (svc : Service) (r : ResolvingWork φ ρ) (item : AlertResolution) : ResolvingWork φ ρ :=
  match r.active.get? item.fingerprint with
  | none => { r with resolved := r.resolved ++ [none] }
  | some id =>
    { work := (r.work.tick.assign id
        (Alerts.resolved (svc.clock r.work.reads) item.actor item.reason)).report (resolvedResult id)
      active := r.active.pop item.fingerprint
      resolved := r.resolved ++ [some (resolvedResult id)] }

def Work.applyBulk (svc : Service) (w : Work φ ρ) (openOrUpdates : List (AlertInput φ))
    (resolutions : List AlertResolution) :
    AlertProgram φ ρ ((List AlertResult × List (Option AlertResult)) × Work φ ρ) := do
  let (active, w) ← w.activeAlerts (bulkFingerprints openOrUpdates resolutions)
  let refreshes := openOrUpdates.zipIdx.foldl (BulkWork.passA svc) { work := w, active }
  let opened ← openOrUpdates.zipIdx.foldlM (BulkWork.passB svc) refreshes
  let done := resolutions.foldl (ResolvingWork.resolveOne svc) { work := opened.work, active := opened.active }
  return (((List.range openOrUpdates.length).filterMap (fun i => opened.results.get? i), done.resolved), done.work)

/-! ## Transactions -/

inductive DetectionCall (φ ρ : Type) where
  /-- A write to the rest of the store. -/
  | write (f : ρ → ρ)
  | openOrUpdate (data : AlertInput φ)
  | resolveByFingerprint (item : AlertResolution)
  | applyBulk (openOrUpdates : List (AlertInput φ)) (resolutions : List AlertResolution)

def DetectionCall.run (svc : Service) (w : Work φ ρ) : DetectionCall φ ρ → AlertProgram φ ρ (Work φ ρ)
  | .write f => return { w with writes := w.writes ++ [f] }
  | .openOrUpdate data => do return (← w.openOrUpdate svc data).2
  | .resolveByFingerprint item => do return (← w.resolveByFingerprint svc item).2
  | .applyBulk openOrUpdates resolutions => do return (← w.applyBulk svc openOrUpdates resolutions).2

inductive AlertRequest (φ ρ : Type) where
  | acknowledge (svc : Service) (alertId actor : String)
  | resolve (svc : Service) (alertId actor : String) (reason : Option String)
  | detect (svc : Service) (calls : List (DetectionCall φ ρ))

def AlertRequest.enter : AlertRequest φ ρ → AlertProgram φ ρ (Work φ ρ)
  | .acknowledge svc alertId actor => do return (← ({} : Work φ ρ).acknowledge svc alertId actor).2
  | .resolve svc alertId actor reason => do return (← ({} : Work φ ρ).resolve svc alertId actor reason).2
  | .detect svc calls => calls.foldlM (DetectionCall.run svc) {}

end QRadarDashboard.Alerts
