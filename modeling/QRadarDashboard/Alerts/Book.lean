import QRadarDashboard.Alerts.Service

/-!
# The book of alerts

The condition of a fingerprint is whether it has an active alert, how that alert looks, and the transitions so far.
-/

namespace QRadarDashboard.Alerts
open Lib

variable {φ : Type}

def Alert.timeless (a : Alert φ) : Alert φ :=
  { a with openedAt := 0, firstSeenAt := 0, lastSeenAt := none, resolvedAt := none }

@[simp] theorem Alert.timeless_id (a : Alert φ) : a.timeless.id = a.id := rfl
@[simp] theorem Alert.timeless_dedupKey (a : Alert φ) : a.timeless.dedupKey = a.dedupKey := rfl
@[simp] theorem Alert.timeless_active (a : Alert φ) : a.timeless.active = a.active := rfl

structure Book (φ : Type) where
  alerts : List (Alert φ)
  issued : Nat

def Session.book (s : Session φ) : Book φ := ⟨s.alerts.map Alert.timeless, s.issued⟩

namespace Book

def activeId (b : Book φ) (fingerprint : String) : Option String :=
  (b.alerts.find? (fun a => a.dedupKey = fingerprint && a.active)).map (fun a => a.id)

def write (b : Book φ) (fingerprint : String) (f : Alert φ → Alert φ) : Book φ :=
  { b with alerts := b.alerts.map (fun a => if a.dedupKey = fingerprint && a.active then (f a).timeless else a) }

def work (uuid4 : Nat → String) (b : Book φ) (data : AlertInput φ) : AlertResult × Book φ :=
  match b.activeId data.fingerprint with
  | some id => (refreshed id, b.write data.fingerprint (refresh data 0))
  | none =>
    let id := uuid4 b.issued
    ({ alertId := id, opened := true, updated := false, transition := some .opened },
      ⟨b.alerts ++ [(newAlert data 0 id).timeless], b.issued + 1⟩)

def close (b : Book φ) (item : AlertResolution) : Option AlertResult × Book φ :=
  match b.activeId item.fingerprint with
  | none => (none, b)
  | some id =>
    (some { alertId := id, opened := false, updated := true, transition := some .resolved },
      b.write item.fingerprint (resolved 0 item.actor item.reason))

end Book

/-! ## One condition after the other -/

def openEach (svc : Service) (s : Session φ) (inputs : List (AlertInput φ)) : List AlertResult × Session φ :=
  inputs.foldl
    (fun (results, s) data =>
      let (result, s) := openOrUpdate svc s data
      (results ++ [result], s)) ([], s)

def resolveEach (svc : Service) (s : Session φ) (resolutions : List AlertResolution) :
    Except Exc (List (Option AlertResult) × Session φ) :=
  resolutions.foldlM
    (fun (results, s) item => do
      let (result, s) ← resolveByFingerprint svc s item
      return (results ++ [result], s)) ([], s)

def applyEach (svc : Service) (s : Session φ) (inputs : List (AlertInput φ))
    (resolutions : List AlertResolution) :
    Except Exc ((List AlertResult × List (Option AlertResult)) × Session φ) := do
  let (results, s) := openEach svc s inputs
  let (resolved, s) ← resolveEach svc s resolutions
  return ((results, resolved), s)

/-! ## The condition of a fingerprint -/

inductive AlertWork (φ : Type) where
  | openOrUpdate (data : AlertInput φ)
  | resolve (item : AlertResolution)

def AlertWork.fingerprint : AlertWork φ → String
  | .openOrUpdate data => data.fingerprint
  | .resolve item => item.fingerprint

def AlertWork.input? : AlertWork φ → Option (AlertInput φ)
  | .openOrUpdate data => some data
  | .resolve _ => none

def AlertWork.resolution? : AlertWork φ → Option AlertResolution
  | .openOrUpdate _ => none
  | .resolve item => some item

structure ActiveAlert (φ : Type) where
  status : AlertStatus
  severity : Severity
  evidence : JsonObject φ

def Alert.shown (a : Alert φ) : ActiveAlert φ := ⟨a.status, a.severity, a.evidenceSnapshot⟩

structure Condition (φ : Type) where
  active : Option (ActiveAlert φ)
  transitions : List AlertTransition := []

namespace Condition

def openOrUpdate (data : AlertInput φ) (c : Condition φ) : Condition φ :=
  match c.active with
  | some a => { c with active := some ⟨a.status, data.severity, data.evidence.getD a.evidence⟩ }
  | none => ⟨some ⟨.opened, data.severity, data.evidence.getD []⟩, c.transitions ++ [.opened]⟩

def resolve (c : Condition φ) : Condition φ :=
  match c.active with
  | some _ => ⟨none, c.transitions ++ [.resolved]⟩
  | none => c

end Condition

def AlertWork.act : AlertWork φ → Condition φ → Condition φ
  | .openOrUpdate data => Condition.openOrUpdate data
  | .resolve _ => Condition.resolve

def AlertWork.on (fp : String) (c : Condition φ) (w : AlertWork φ) : Condition φ :=
  if w.fingerprint = fp then w.act c else c

theorem AlertWork.on_eq {w : AlertWork φ} {fp} (h : w.fingerprint = fp) (c : Condition φ) :
    w.on fp c = w.act c := if_pos h

theorem AlertWork.on_ne {w : AlertWork φ} {fp} (h : w.fingerprint ≠ fp) (c : Condition φ) : w.on fp c = c :=
  if_neg h

theorem AlertWork.foldl_on_ne {works : List (AlertWork φ)} {fp} (h : ∀ w ∈ works, w.fingerprint ≠ fp)
    (c : Condition φ) : works.foldl (AlertWork.on fp) c = c := by
  induction works with
  | nil => rfl
  | cons w works ih =>
    rw [List.foldl_cons, AlertWork.on_ne (h w List.mem_cons_self)]
    exact ih (fun x hx => h x (List.mem_cons_of_mem w hx))

theorem AlertWork.act_eq (w : AlertWork φ) (c : Condition φ) :
    w.act c = ⟨(w.act ⟨c.active, []⟩).active, c.transitions ++ (w.act ⟨c.active, []⟩).transitions⟩ := by
  obtain ⟨active, transitions⟩ := c
  cases w with
  | openOrUpdate data => cases active <;> simp [AlertWork.act, Condition.openOrUpdate]
  | resolve item => cases active <;> simp [AlertWork.act, Condition.resolve]

theorem Condition.openOrUpdate_openOrUpdate {data data'} (h : data.evidence.isSome) (c : Condition φ) :
    (c.openOrUpdate data').openOrUpdate data = c.openOrUpdate data := by
  obtain ⟨evidence, hevidence⟩ := Option.isSome_iff_exists.mp h
  obtain ⟨active, transitions⟩ := c
  cases active <;> simp [Condition.openOrUpdate, hevidence]

theorem Condition.openOrUpdate_active (data : AlertInput φ) (c : Condition φ) : (c.openOrUpdate data).active.isSome := by
  obtain ⟨active, transitions⟩ := c
  cases active <;> rfl

theorem Condition.resolve_resolve (c : Condition φ) : c.resolve.resolve = c.resolve := by
  obtain ⟨active, transitions⟩ := c
  cases active <;> rfl

def doOne (svc : Service) (s : Session φ) : AlertWork φ → Except Exc (Option AlertResult × Session φ)
  | .openOrUpdate data => .ok ((openOrUpdate svc s data).1, (openOrUpdate svc s data).2)
  | .resolve item => resolveByFingerprint svc s item

def doEach (svc : Service) (s : Session φ) (works : List (AlertWork φ)) :
    Except Exc (List (Option AlertResult) × Session φ) :=
  works.foldlM (fun (results, s) w => do
    let (result, s) ← doOne svc s w
    return (results ++ [result], s)) ([], s)

def transitionsOf (alerts : List (Alert φ)) (fp : String) (results : List (Option AlertResult)) : List AlertTransition :=
  results.reduceOption.filterMap (fun r =>
    if (r.alertId, fp) ∈ alerts.map (fun a => (a.id, a.dedupKey)) then r.transition else none)

def Session.condition (s : Session φ) (fp : String) (results : List (Option AlertResult)) : Condition φ :=
  ⟨(s.findActive fp).map Alert.shown, transitionsOf s.alerts fp results⟩

end QRadarDashboard.Alerts
