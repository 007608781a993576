import QRadarDashboard.Alerts.Lemmas.Transactions

/-!
# The insert that loses the race
-/

namespace QRadarDashboard.Alerts
open Lib Lib.ReadCommitted

variable {φ ρ : Type} [DecidableEq φ]

def recounted (winner : Alert φ) (now : Int) (a : Alert φ) : Alert φ := if a.id = winner.id then recount now winner else a

def AlertStore.tables (s : AlertStore φ ρ) : List (Alert φ) × ρ := (s.alerts, s.rest)

def Work.tables (w : Work φ ρ) (s : AlertStore φ ρ) : List (Alert φ) × ρ :=
  (w.alerts s, w.writes.foldl (fun rest write => write rest) s.rest)

theorem tables_commit {w : Work φ ρ} {s} (h : w.Commits s) : (w.commit s).tables = w.tables s := by
  rw [Work.commit, dif_pos h]
  rfl

theorem flush_recount (now : Int) (a : Alert φ) : Alert.flush a (recount now a) a = recount now a := by
  simp [Alert.flush, recount]

variable {w w' : Work φ ρ} {won : AlertStore φ ρ} {winner : Alert φ}

theorem mem_alerts_of_other (hmem : winner ∈ won.alerts) (hother : w.objects.get? winner.id = none) :
    winner ∈ w.alerts won := by
  have hget : w.objects.get? (alertMapper.key winner) = none := hother
  have hsame : alertMapper.rewriteRow w.objects winner = winner := by rw [Mapper.rewriteRow, hget]
  exact hsame ▸ Mapper.rewriteRow_mem_view hmem

theorem recounted_eq (h : w.Commits won) (hmem : winner ∈ won.alerts) (hother : w.objects.get? winner.id = none)
    {a} (ha : a ∈ w.alerts won) (now : Int) :
    (a = winner ∧ recounted winner now a = recount now winner) ∨ (a.id ≠ winner.id ∧ recounted winner now a = a) := by
  rw [recounted]
  split_ifs with hid
  · exact Or.inl ⟨List.inj_on_of_nodup_map h.2.1 ha (mem_alerts_of_other hmem hother) hid, rfl⟩
  · exact Or.inr ⟨hid, rfl⟩

theorem tables_recount (h : w.Commits won) (hmem : winner ∈ won.alerts) (hother : w.objects.get? winner.id = none)
    (now : Int) (hobjects : w'.objects = w.objects.set winner.id ⟨some winner, recount now winner⟩)
    (hwrites : w'.writes = w.writes) :
    (w'.commit won).tables = ((w.alerts won).map (recounted winner now), (w.tables won).2) := by
  have hrow : winner.id ∈ won.alerts.map alertMapper.key := List.mem_map_of_mem hmem
  have hview : w'.alerts won = (w.alerts won).map (recounted winner now) := by
    rw [Work.alerts, hobjects, Mapper.view_set h.1 hother h.2.1 hrow]
    refine List.map_congr_left (fun a ha => ?_)
    change (if a.id = winner.id then Alert.flush winner (recount now winner) a else a) = _
    rcases recounted_eq h hmem hother ha now with ⟨rfl, hrecounted⟩ | ⟨hid, hrecounted⟩ <;> rw [hrecounted]
    · rw [if_pos rfl, flush_recount]
    · rw [if_neg hid]
  have hsame : ∀ a ∈ w.alerts won, (recounted winner now a).id = a.id ∧
      (recounted winner now a).dedupKey = a.dedupKey ∧ (recounted winner now a).active = a.active := by
    intro a ha
    rcases recounted_eq h hmem hother ha now with ⟨rfl, hrecounted⟩ | ⟨_, hrecounted⟩ <;> rw [hrecounted] <;>
      exact ⟨rfl, rfl, rfl⟩
  have hids : ((w.alerts won).map (recounted winner now)).map (fun a => a.id) = (w.alerts won).map (fun a => a.id) := by
    rw [List.map_map]
    exact List.map_congr_left (fun a ha => (hsame a ha).1)
  have hactive : ((w.alerts won).map (recounted winner now)).filter (fun a => a.active) =
      ((w.alerts won).filter (fun a => a.active)).map (recounted winner now) := by
    rw [List.filter_map]
    exact congrArg _ (List.filter_congr (fun a ha => (hsame a ha).2.2))
  have hkeys : (((w.alerts won).map (recounted winner now)).filter (fun a => a.active)).map (fun a => a.dedupKey) =
      ((w.alerts won).filter (fun a => a.active)).map (fun a => a.dedupKey) := by
    rw [hactive, List.map_map]
    exact List.map_congr_left (fun a ha => (hsame a (List.mem_of_mem_filter ha)).2.1)
  have hcommits : w'.Commits won := by
    refine ⟨?_, ?_, ?_⟩
    · rw [hobjects]
      exact Mapper.fits_set h.1 hother hrow _ _
    · rw [hview, hids]
      exact h.2.1
    · rw [hview, hkeys]
      exact h.2.2
  rw [tables_commit hcommits, Work.tables, hview, hwrites]
  rfl

theorem map_recounted_inj (h : w.Commits won) (hmem : winner ∈ won.alerts) (hother : w.objects.get? winner.id = none)
    (now : Int) : won.alerts.map (recounted winner now) = (w.alerts won).map (recounted winner now) ↔
      w.alerts won = won.alerts := by
  refine ⟨fun heq => ?_, fun heq => by rw [heq]⟩
  have hundo : ∀ l : List (Alert φ), (∀ a ∈ l, a.id = winner.id → a = winner) →
      (l.map (recounted winner now)).map (fun a => if a.id = winner.id then winner else a) = l := by
    intro l hl
    rw [List.map_map]
    refine (List.map_congr_left (fun a ha => ?_)).trans (List.map_id l)
    rw [Function.comp_apply, recounted]
    by_cases hid : a.id = winner.id
    · rw [if_pos hid, hl a ha hid]
      exact if_pos rfl
    · rw [if_neg hid, if_neg hid]
      rfl
  rw [← hundo won.alerts (fun a ha hid => won.row_unique ha hmem hid), heq]
  exact (hundo _ (fun a ha hid => List.inj_on_of_nodup_map h.2.1 ha (mem_alerts_of_other hmem hother) hid)).symm

/-! ## The two paths -/

/-- What `w` has written can be committed, but its insert meets the alert that another transaction opened since the
lookup; the store was `before` and is `won`. -/
structure Race (svc : Service) (w : Work φ ρ) (data : AlertInput φ) (before won : AlertStore φ ρ) (winner : Alert φ) :
    Prop where
  noneActive : ∀ a ∈ w.alerts before, a.active → a.dedupKey ≠ data.fingerprint
  newId : w.objects.get? (svc.uuid4 w.issued) = none
  mem : winner ∈ won.alerts
  key : winner.dedupKey = data.fingerprint
  active : winner.active = true
  other : w.objects.get? winner.id = none
  commits : w.Commits won

variable {svc : Service} {data : AlertInput φ} {before : AlertStore φ ρ}

omit [DecidableEq φ] in
theorem find_active {l : List (Alert φ)} (hnodup : ((l.filter (fun a => a.active)).map (fun a => a.dedupKey)).Nodup)
    (hmem : winner ∈ l) (hactive : winner.active = true) :
    l.find? (fun a => a.dedupKey = winner.dedupKey && a.active) = some winner := by
  cases hfind : l.find? (fun a => a.dedupKey = winner.dedupKey && a.active) with
  | none =>
    have hnot := List.find?_eq_none.mp hfind winner hmem
    simp [hactive] at hnot
  | some a =>
    have ha := List.find?_some hfind
    rw [Bool.and_eq_true, decide_eq_true_eq] at ha
    have hfirst : a ∈ l.filter (fun a => a.active) :=
      List.mem_filter.mpr ⟨List.mem_of_find?_eq_some hfind, ha.2⟩
    exact congrArg some (List.inj_on_of_nodup_map hnodup hfirst (List.mem_filter.mpr ⟨hmem, hactive⟩) ha.1)

/-! What the statements of a path return. -/

section Statements

variable {α : Type} {s : AlertStore φ ρ} {ss : List (AlertStore φ ρ)} {fingerprint : String}

theorem answered_findActive_none {g : Option (Alert φ) × Work φ ρ → AlertProgram φ ρ α}
    (h : (w.alerts s).find? (fun a => a.dedupKey = fingerprint && a.active) = none) :
    (w.findActive fingerprint >>= g).answered (s :: ss) = (g (none, w)).answered ss := by
  rw [Work.findActive, Program.answered_read_bind, h]

theorem answered_findActive_some {g : Option (Alert φ) × Work φ ρ → AlertProgram φ ρ α} {row}
    (h : (w.alerts s).find? (fun a => a.dedupKey = fingerprint && a.active) = some row)
    (hget : w.objects.get? row.id = none) : (w.findActive fingerprint >>= g).answered (s :: ss) =
      (g (some row, { w with objects := w.objects.set row.id ⟨some row, row⟩ })).answered ss := by
  rw [Work.findActive, Program.answered_read_bind, h]
  dsimp only
  rw [load_new hget]

theorem answered_insert_conflict (alert : Alert φ) {g : Bool × Work φ ρ → AlertProgram φ ρ α}
    (hget : w.objects.get? alert.id = none)
    (h : (w.alerts s).any (fun a => a.id = alert.id || (a.dedupKey = alert.dedupKey && a.active)) = true) :
    (w.insert alert >>= g).answered (s :: ss) = (g (false, { w with issued := w.issued + 1 })).answered ss := by
  have hnew : ¬ (w.objects.get? alert.id).isSome = true := by simp [hget]
  rw [Work.insert, if_neg hnew, Program.answered_read_bind, if_pos h]

end Statements

namespace Race

variable (h : Race svc w data before won winner)
include h

theorem lookup : (w.alerts before).find? (fun a => a.dedupKey = data.fingerprint && a.active) = none := by
  refine List.find?_eq_none.mpr (fun a ha => ?_)
  cases hactive : a.active with
  | false => simp
  | true => simpa using h.noneActive a ha hactive

theorem conflict (id : String) : (w.alerts won).any
    (fun a => a.id = id || (a.dedupKey = data.fingerprint && a.active)) = true :=
  List.any_eq_true.mpr ⟨winner, mem_alerts_of_other h.mem h.other, by simp [h.key, h.active]⟩

/-- The session after `openOrUpdate`: the whole transaction was rolled back. -/
def rolledBack (svc : Service) (w : Work φ ρ) (winner : Alert φ) : Work φ ρ where
  objects := Dict.set [] winner.id ⟨some winner, recount (svc.clock (w.reads + 1)) winner⟩
  reads := w.reads + 2
  issued := w.issued + 1

theorem openOrUpdate : (w.openOrUpdate svc data).answered [before, won, won] =
    some (refreshed winner.id, rolledBack svc w winner) := by
  have hwinner : (Work.alerts ({ reads := w.reads + 1, issued := w.issued + 1 } : Work φ ρ) won).find?
      (fun a => a.dedupKey = data.fingerprint && a.active) = some winner := by
    rw [Work.alerts, Mapper.view_nil, ← h.key]
    exact find_active won.active_nodup h.mem h.active
  refine (answered_findActive_none (w := w.tick) h.lookup).trans ?_
  refine (answered_insert_conflict (w := w.tick) (newAlert data (svc.clock w.reads) (svc.uuid4 w.issued)) h.newId
    (h.conflict _)).trans ?_
  refine (answered_findActive_some hwinner rfl).trans ?_
  dsimp only
  rw [Program.answered_pure, Work.assign, Work.tick, Mapper.assign_set rfl]
  rfl

def keptOpen (svc : Service) (w : Work φ ρ) (winner : Alert φ) : Work φ ρ :=
  { w with
    objects := w.objects.set winner.id ⟨some winner, recount (svc.clock (w.reads + 1)) winner⟩
    reads := w.reads + 2
    issued := w.issued + 1 }

theorem passB {α : Type} (g : BulkWork φ ρ → AlertProgram φ ρ α) :
    (BulkWork.passB svc { work := w, active := [] } (data, 0) >>= g).answered [won, won] =
      (g { work := keptOpen svc w winner, active := [(data.fingerprint, winner.id)]
           results := [(0, refreshed winner.id)] }).answered [] := by
  have hwinner : (Work.alerts { w with reads := w.reads + 1, issued := w.issued + 1 } won).find?
      (fun a => a.dedupKey = data.fingerprint && a.active) = some winner := by
    rw [← h.key]
    exact find_active h.commits.2.2 (mem_alerts_of_other h.mem h.other) h.active
  have hother : w.objects.get? winner.id = none := h.other
  rw [BulkWork.passB, if_neg (by simp)]
  dsimp only [Dict.get?_nil]
  rw [Program.bind_assoc]
  refine (answered_insert_conflict (w := w.tick) (newAlert data (svc.clock w.reads) (svc.uuid4 w.issued)) h.newId
    (h.conflict _)).trans ?_
  dsimp only
  rw [if_neg Bool.false_ne_true, Program.bind_assoc]
  refine (answered_findActive_some hwinner hother).trans ?_
  dsimp only
  rw [Work.assign, Work.tick, Mapper.assign_set hother]
  rfl

theorem applyBulk : (w.applyBulk svc [data] []).answered [before, won, won] =
    some (([refreshed winner.id], []), keptOpen svc w winner) := by
  have hnone : (w.alerts before).filter (fun a => a.dedupKey ∈ bulkFingerprints [data] [] && a.active) = [] := by
    refine List.filter_eq_nil_iff.mpr (fun a ha hboth => ?_)
    simp only [bulkFingerprints, List.map_cons, List.map_nil, List.append_nil, List.mem_singleton, Bool.and_eq_true,
      decide_eq_true_eq] at hboth
    exact h.noneActive a ha hboth.2 hboth.1
  rw [Work.applyBulk, Work.activeAlerts, Program.answered_read_bind, hnone]
  change ((BulkWork.passB svc { work := w, active := [] } (data, 0) >>= pure) >>= _).answered [won, won] = _
  rw [Program.bind_assoc, h.passB]
  rfl

end Race

/-! ## What the commits leave -/

def CountedOnce (winner : Alert φ) (s : AlertStore φ ρ) : Prop :=
  ∃ a ∈ s.alerts, a.id = winner.id ∧ a.active = true ∧ a.occurrenceCount = winner.occurrenceCount + 1 ∧
    ∀ b ∈ s.alerts, b.active = true → b.dedupKey = winner.dedupKey → b = a

theorem countedOnce_of_tables {s : AlertStore φ ρ} {now} (hmem : winner ∈ won.alerts)
    (hother : w.objects.get? winner.id = none) (hactive : winner.active = true)
    (htables : s.alerts = (w.alerts won).map (recounted winner now)) : CountedOnce winner s := by
  have hin : recount now winner ∈ s.alerts := by
    rw [htables]
    exact List.mem_map.mpr ⟨winner, mem_alerts_of_other hmem hother, if_pos rfl⟩
  refine ⟨recount now winner, hin, rfl, hactive, rfl, fun b hb hbactive hkey => ?_⟩
  exact List.inj_on_of_nodup_map s.active_nodup (List.mem_filter.mpr ⟨hb, hbactive⟩)
    (List.mem_filter.mpr ⟨hin, hactive⟩) hkey

theorem commits_nil (s : AlertStore φ ρ) : ({} : Work φ ρ).Commits s := by
  refine ⟨rfl, ?_, ?_⟩ <;> rw [Work.alerts, Mapper.view_nil]
  · exact s.ids_nodup
  · exact s.active_nodup

namespace Race

variable (h : Race svc w data before won winner)
include h

theorem tables_openOrUpdate : ((rolledBack svc w winner).commit won).tables =
    (won.alerts.map (recounted winner (svc.clock (w.reads + 1))), won.rest) := by
  have hobjects : (rolledBack svc w winner).objects = _ := rfl
  rw [tables_recount (commits_nil won) h.mem rfl (svc.clock (w.reads + 1)) hobjects rfl, Work.alerts, Mapper.view_nil]
  rfl

theorem tables_applyBulk : ((keptOpen svc w winner).commit won).tables =
    ((w.alerts won).map (recounted winner (svc.clock (w.reads + 1))), (w.tables won).2) :=
  tables_recount h.commits h.mem h.other _ rfl rfl

end Race

end QRadarDashboard.Alerts
