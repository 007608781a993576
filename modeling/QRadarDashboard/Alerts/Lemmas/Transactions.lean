import QRadarDashboard.Alerts.Transactions

/-!
# Statuses under concurrent work
-/

namespace QRadarDashboard.Alerts
open Lib Lib.ReadCommitted

variable {φ ρ τ : Type}

def AlertStatus.rank : AlertStatus → Nat
  | .opened => 0
  | .acknowledged => 1
  | .resolved => 2

theorem rank_le_resolved (s : AlertStatus) : s.rank ≤ AlertStatus.resolved.rank := by
  cases s <;> decide

theorem eq_resolved_of_rank {s s' : AlertStatus} (h : s.rank ≤ s'.rank) (hs : s = .resolved) : s' = .resolved := by
  subst hs
  cases s' with
  | resolved => rfl
  | _ => exact absurd h (by decide)

theorem rank_written {loaded current stored : AlertStatus} (h : loaded.rank ≤ current.rank)
    (hstored : current ≠ loaded → stored ≠ .resolved) : stored.rank ≤ (written loaded current stored).rank := by
  rw [written]
  split_ifs with heq
  · exact le_rfl
  · have hnot := hstored heq
    cases loaded <;> cases current <;> cases stored <;> simp_all [AlertStatus.rank]

/-! ## Stores -/

theorem AlertStore.row_unique {s : AlertStore φ ρ} {a b} (ha : a ∈ s.alerts) (hb : b ∈ s.alerts)
    (h : a.id = b.id) : a = b :=
  List.inj_on_of_nodup_map s.ids_nodup ha hb h

/-- No alert is deleted or moved to another condition, and statuses only move forward. -/
def forward : Rely (AlertStore φ ρ) where
  rel s s' := ∀ a ∈ s.alerts, ∃ a' ∈ s'.alerts, a'.id = a.id ∧ a'.dedupKey = a.dedupKey ∧ a.status.rank ≤ a'.status.rank
  refl _ a ha := ⟨a, ha, rfl, rfl, le_rfl⟩
  trans h h' a ha := by
    obtain ⟨b, hb, hid, hkey, hrank⟩ := h a ha
    obtain ⟨c, hc, hid', hkey', hrank'⟩ := h' b hb
    exact ⟨c, hc, hid'.trans hid, hkey'.trans hkey, hrank.trans hrank'⟩

/-! ## Sessions -/

structure WorkOk (s : AlertStore φ ρ) (w : Work φ ρ) : Prop where
  nodup : w.objects.keys.Nodup
  current : ∀ {id o}, w.objects.get? id = some o → o.current.id = id
  loaded : ∀ {id o l}, w.objects.get? id = some o → o.loaded = some l → l.status.rank ≤ o.current.status.rank ∧
    ∃ a ∈ s.alerts, a.id = id ∧ a.dedupKey = o.current.dedupKey ∧ l.status.rank ≤ a.status.rank
  once : ∀ id, w.reports.count (id, .resolved) ≤ 1
  reported : ∀ {id}, (id, .resolved) ∈ w.reports → ∃ o, w.objects.get? id = some o ∧ o.current.status = .resolved ∧
    ∀ l, o.loaded = some l → l.status ≠ .resolved

def Work.HasActive (w : Work φ ρ) (id fingerprint : String) : Prop :=
  ∃ o, w.objects.get? id = some o ∧ o.current.dedupKey = fingerprint ∧ o.current.status ≠ .resolved

variable {s s' : AlertStore φ ρ} {w : Work φ ρ}

theorem WorkOk.rely (h : WorkOk s w) (hs : forward.rel s s') : WorkOk s' w where
  nodup := h.nodup
  current := h.current
  loaded hget hl := by
    obtain ⟨hrank, a, ha, hid, hkey, hstored⟩ := h.loaded hget hl
    obtain ⟨a', ha', hid', hkey', hrank'⟩ := hs a ha
    exact ⟨hrank, a', ha', hid'.trans hid, hkey'.trans hkey, hstored.trans hrank'⟩
  once := h.once
  reported := h.reported

theorem workOk_empty (writes : List (ρ → ρ)) (reads issued : Nat) :
    WorkOk s ({ writes, reads, issued } : Work φ ρ) where
  nodup := List.nodup_nil
  current hget := by cases hget
  loaded hget := by cases hget
  once _ := Nat.zero_le 1
  reported hmem := by cases hmem

theorem WorkOk.tick (h : WorkOk s w) : WorkOk s w.tick := ⟨h.nodup, h.current, h.loaded, h.once, h.reported⟩

theorem WorkOk.report (h : WorkOk s w) (result : AlertResult) (hr : result.transition ≠ some .resolved) :
    WorkOk s (w.report result) := by
  rw [Work.report]
  split
  · exact h
  · next transition htransition =>
    have hne : ∀ id, (result.alertId, transition) ≠ (id, AlertTransition.resolved) := by
      rintro id heq
      cases heq
      exact hr htransition
    refine ⟨h.nodup, h.current, h.loaded, fun id => ?_, fun hmem => ?_⟩
    · rw [List.count_append, List.count_singleton, if_neg (by simpa using hne id)]
      exact h.once id
    · rcases List.mem_append.mp hmem with hmem | hmem
      · exact h.reported hmem
      · exact absurd (List.mem_singleton.mp hmem).symm (hne _)

theorem WorkOk.set (h : WorkOk s w) {id o} (hid : o.current.id = id)
    (hloaded : ∀ l, o.loaded = some l → l.status.rank ≤ o.current.status.rank ∧
      ∃ a ∈ s.alerts, a.id = id ∧ a.dedupKey = o.current.dedupKey ∧ l.status.rank ≤ a.status.rank)
    (hresolved : ∀ o', w.objects.get? id = some o' → o'.loaded = o.loaded ∧
      (o'.current.status = .resolved → o.current.status = .resolved)) :
    WorkOk s { w with objects := w.objects.set id o } where
  nodup := Dict.nodup_keys_set h.nodup id o
  current {id' o'} hget := by
    rw [Dict.get?_set] at hget
    split_ifs at hget with hkey
    · cases hget
      exact hid.trans hkey.symm
    · exact h.current hget
  loaded {id' o' l} hget hl := by
    rw [Dict.get?_set] at hget
    split_ifs at hget with hkey
    · cases hget
      exact hkey ▸ hloaded l hl
    · exact h.loaded hget hl
  once := h.once
  reported {id'} hmem := by
    obtain ⟨o', hget, hstatus, hunresolved⟩ := h.reported hmem
    rw [Dict.get?_set]
    split_ifs with hkey
    · subst hkey
      obtain ⟨hl, hkeep⟩ := hresolved o' hget
      exact ⟨o, rfl, hkeep hstatus, hl ▸ hunresolved⟩
    · exact ⟨o', hget, hstatus, hunresolved⟩

theorem WorkOk.assign (h : WorkOk s w) {id} {f : Alert φ → Alert φ}
    (hf : ∀ o, w.objects.get? id = some o → (f o.current).id = o.current.id ∧
      (f o.current).dedupKey = o.current.dedupKey ∧ o.current.status.rank ≤ (f o.current).status.rank) :
    WorkOk s (w.assign id f) := by
  rw [Work.assign, Mapper.assign]
  cases hget : w.objects.get? id with
  | none => exact h
  | some o =>
    obtain ⟨hid, hkey, hrank⟩ := hf o hget
    refine h.set (hid.trans (h.current hget)) (fun l hl => ?_) (fun o' hget' => ?_)
    · obtain ⟨hle, a, ha, hida, hkeya, hranka⟩ := h.loaded hget hl
      exact ⟨hle.trans hrank, a, ha, hida, hkeya.trans hkey.symm, hranka⟩
    · obtain rfl : o = o' := Option.some.inj (hget.symm.trans hget')
      exact ⟨rfl, eq_resolved_of_rank hrank⟩

theorem WorkOk.resolve (h : WorkOk s w) {id fingerprint} (hactive : w.HasActive id fingerprint)
    (now : Int) (actor : String) (reason : Option String) :
    WorkOk s ((w.assign id (resolved now actor reason)).report (resolvedResult id)) := by
  obtain ⟨o, hget, _, hstatus⟩ := hactive
  have hassign : WorkOk s (w.assign id (resolved now actor reason)) := by
    refine h.assign (fun o' _ => ⟨rfl, rfl, ?_⟩)
    exact rank_le_resolved _
  have hnot : (id, AlertTransition.resolved) ∉ w.reports := by
    intro hmem
    obtain ⟨o', hget', hresolved, _⟩ := h.reported hmem
    obtain rfl : o = o' := Option.some.inj (hget.symm.trans hget')
    exact hstatus hresolved
  refine ⟨hassign.nodup, hassign.current, hassign.loaded, fun id' => ?_, fun {id'} hmem => ?_⟩
  · change (w.reports ++ [(id, AlertTransition.resolved)]).count (id', .resolved) ≤ 1
    rw [List.count_append]
    by_cases hid : id' = id
    · rw [hid, List.count_eq_zero_of_not_mem hnot]
      simp
    · have hne : ¬ (id, AlertTransition.resolved) = (id', .resolved) := fun heq => hid (Prod.mk.inj heq).1.symm
      rw [List.count_singleton, if_neg (by simpa using hne)]
      exact h.once id'
  · rcases List.mem_append.mp hmem with hmem | hmem
    · exact hassign.reported hmem
    · cases List.mem_singleton.mp hmem
      refine ⟨{ o with current := resolved now actor reason o.current }, ?_, rfl, fun l hl hresolved => ?_⟩
      · change (Mapper.assign w.objects id (resolved now actor reason)).get? id = _
        rw [Mapper.get?_assign, if_pos rfl, hget]
        rfl
      · exact hstatus (eq_resolved_of_rank (h.loaded hget hl).1 hresolved)

variable [DecidableEq φ]

def Work.Sees (w : Work φ ρ) (s : AlertStore φ ρ) (row : Alert φ) : Prop :=
  (w.objects.get? row.id = none ∧ row ∈ s.alerts) ∨
    ∃ o, w.objects.get? row.id = some o ∧ o.current.dedupKey = row.dedupKey ∧
      (o.current.status = .resolved → row.status = .resolved)

theorem WorkOk.sees (h : WorkOk s w) {row} (hrow : row ∈ w.alerts s) : w.Sees s row := by
  rcases Mapper.mem_view hrow with ⟨stored, hstored, hget, rfl⟩ | ⟨stored, hstored, o, hget, rfl⟩ | ⟨k, o, hmem, _, _, rfl⟩
  · exact Or.inl ⟨hget, hstored⟩
  · cases hloaded : o.loaded with
    | none =>
      have hrewrite : alertMapper.rewrite o stored = o.current := by rw [Mapper.rewrite, hloaded]
      have hid : o.current.id = stored.id := h.current hget
      exact Or.inr ⟨o, by rw [hrewrite, hid]; exact hget, by rw [hrewrite], by rw [hrewrite]; exact id⟩
    | some l =>
      have hrewrite : alertMapper.rewrite o stored = l.flush o.current stored := by
        rw [Mapper.rewrite, hloaded]
        rfl
      obtain ⟨_, a, ha, hid, hkey, hrank⟩ := h.loaded hget hloaded
      obtain rfl : a = stored := s.row_unique ha hstored hid
      refine Or.inr ⟨o, by rw [hrewrite]; exact hget, by rw [hrewrite]; exact hkey.symm, fun hresolved => ?_⟩
      rw [hrewrite]
      change written l.status o.current.status a.status = .resolved
      rw [written]
      split_ifs with heq
      · exact eq_resolved_of_rank hrank (heq ▸ hresolved)
      · exact hresolved
  · have hget : w.objects.get? k = some o := (Dict.get?_eq_some_iff h.nodup).mpr hmem
    exact Or.inr ⟨o, by rw [h.current hget]; exact hget, rfl, id⟩

theorem load_new {row} (hget : w.objects.get? row.id = none) :
    w.load row = (row, { w with objects := w.objects.set row.id ⟨some row, row⟩ }) := by
  have hget' : w.objects.get? (alertMapper.key row) = none := hget
  simp only [Work.load, Mapper.load, hget']
  rfl

theorem WorkOk.load (h : WorkOk s w) {row} (hrow : w.Sees s row) :
    WorkOk s (w.load row).2 ∧ (w.load row).1.id = row.id ∧
    (∀ id o, w.objects.get? id = some o → (w.load row).2.objects.get? id = some o) ∧
    (row.active → (w.load row).2.HasActive row.id row.dedupKey) := by
  rcases hrow with ⟨hget, hstored⟩ | ⟨o, hget, hkey, hstatus⟩
  · rw [load_new hget]
    refine ⟨h.set rfl (fun l hl => ?_) (fun o' hget' => ?_), rfl, fun id o hid => ?_, fun hactive => ?_⟩
    · cases hl
      exact ⟨le_rfl, row, hstored, rfl, rfl, le_rfl⟩
    · rw [hget] at hget'
      cases hget'
    · rw [Dict.get?_set, if_neg]
      · exact hid
      · rintro rfl
        rw [hget] at hid
        cases hid
    · refine ⟨⟨some row, row⟩, by rw [Dict.get?_set, if_pos rfl], rfl, ?_⟩
      simpa [Alert.active] using hactive
  · have hload : w.load row = (o.current, w) := by
      have hget' : w.objects.get? (alertMapper.key row) = some o := hget
      simp only [Work.load, Mapper.load, hget']
    rw [hload]
    refine ⟨h, h.current hget, fun id o hid => hid, fun hactive => ⟨o, hget, hkey, fun hresolved => ?_⟩⟩
    rw [Alert.active, hstatus hresolved] at hactive
    cases hactive

theorem Work.Sees.load {row row'} (hrow : w.Sees s row) (hrow' : w.Sees s row') : (w.load row').2.Sees s row := by
  rcases hrow' with ⟨hget', hstored'⟩ | ⟨o', hget', _, _⟩
  · rw [load_new hget']
    by_cases hid : row.id = row'.id
    · rcases hrow with ⟨_, hstored⟩ | ⟨o, hget, _, _⟩
      · obtain rfl := s.row_unique hstored hstored' hid
        exact Or.inr ⟨⟨some row, row⟩, by rw [Dict.get?_set, if_pos rfl], rfl, id⟩
      · rw [← hid, hget] at hget'
        cases hget'
    · rcases hrow with ⟨hget, hstored⟩ | ⟨o, hget, hkey, hstatus⟩
      · exact Or.inl ⟨by rw [Dict.get?_set, if_neg hid]; exact hget, hstored⟩
      · exact Or.inr ⟨o, by rw [Dict.get?_set, if_neg hid]; exact hget, hkey, hstatus⟩
  · have hload : (w.load row').2 = w := by
      have hget : w.objects.get? (alertMapper.key row') = some o' := hget'
      simp only [Work.load, Mapper.load, hget]
    rw [hload]
    exact hrow

/-! ## The service -/

theorem WorkOk.findActive (h : WorkOk s w) (fingerprint : String) :
    (w.findActive fingerprint).Ensures forward (fun s r => WorkOk s r.2 ∧
      (∀ id o, w.objects.get? id = some o → r.2.objects.get? id = some o) ∧
      ∀ a, r.1 = some a → r.2.HasActive a.id fingerprint) s := by
  refine Program.ensures_read (fun s' s'' hs hs' => ?_)
  have hw := h.rely hs
  cases hfind : (w.alerts s').find? (fun a => a.dedupKey = fingerprint && a.active) with
  | none =>
    dsimp only
    exact ⟨hw.rely hs', fun _ _ hid => hid, fun a ha => by cases ha⟩
  | some row =>
    dsimp only
    have hrow := List.find?_some hfind
    rw [Bool.and_eq_true, decide_eq_true_eq] at hrow
    obtain ⟨hload, hid, hkeep, hactive⟩ := hw.load (hw.sees (List.mem_of_find?_eq_some hfind))
    refine ⟨hload.rely hs', hkeep, fun a ha => ?_⟩
    cases ha
    rw [hid, ← hrow.1]
    exact hactive hrow.2

theorem WorkOk.get (h : WorkOk s w) (alertId : String) :
    (w.get alertId).Ensures forward (fun s r => WorkOk s r.2 ∧ ∀ a, r.1 = some a →
      ∃ o, r.2.objects.get? alertId = some o ∧ o.current = a) s := by
  rw [Work.get]
  split
  · next o hget => exact Program.ensures_pure (fun s' hs => ⟨h.rely hs, fun a ha => ⟨o, hget, Option.some.inj ha⟩⟩)
  · next hget =>
    refine Program.ensures_read (fun s' s'' hs hs' => ?_)
    have hw := h.rely hs
    cases hfind : (w.alerts s').find? (fun a => a.id = alertId) with
    | none =>
      dsimp only
      exact ⟨hw.rely hs', fun a ha => by cases ha⟩
    | some row =>
      dsimp only
      obtain rfl : row.id = alertId := by simpa using List.find?_some hfind
      refine ⟨(hw.load (hw.sees (List.mem_of_find?_eq_some hfind))).1.rely hs', fun a ha => ?_⟩
      rw [load_new hget] at ha ⊢
      cases ha
      exact ⟨⟨some row, row⟩, by rw [Dict.get?_set, if_pos rfl], rfl⟩

theorem WorkOk.insert (h : WorkOk s w) (alert : Alert φ) :
    (w.insert alert).Ensures forward (fun s r => WorkOk s r.2 ∧ (∀ id o, w.objects.get? id = some o →
      r.2.objects.get? id = some o ∧ (r.1 = true → id ≠ alert.id)) ∧
      (r.1 = true → alert.status ≠ .resolved → r.2.HasActive alert.id alert.dedupKey)) s := by
  rw [Work.insert]
  split_ifs with hnew
  · trivial
  · have hnone : w.objects.get? alert.id = none := Option.not_isSome_iff_eq_none.mp hnew
    refine Program.ensures_read (fun s' s'' hs hs' => ?_)
    have hw := (h.rely hs).rely hs'
    split_ifs
    · exact ⟨⟨hw.nodup, hw.current, hw.loaded, hw.once, hw.reported⟩, fun id o hid => ⟨hid, fun h => by cases h⟩,
        fun h => by cases h⟩
    · have hset : WorkOk s'' { w with objects := w.objects.set alert.id ⟨none, alert⟩ } := by
        refine hw.set rfl (fun l hl => by cases hl) (fun o' hget' => ?_)
        rw [hnone] at hget'
        cases hget'
      refine ⟨⟨hset.nodup, hset.current, hset.loaded, hset.once, hset.reported⟩, fun id o hid => ?_, fun _ hstatus => ?_⟩
      · have hne : id ≠ alert.id := by
          rintro rfl
          rw [hnone] at hid
          cases hid
        exact ⟨by rw [Dict.get?_set, if_neg hne]; exact hid, fun _ => hne⟩
      · exact ⟨⟨none, alert⟩, by rw [Dict.get?_set, if_pos rfl], rfl, hstatus⟩

omit [DecidableEq φ] in
theorem WorkOk.refresh (h : WorkOk s w) (data : AlertInput φ) (now : Int) (id : String) :
    WorkOk s (w.assign id (refresh data now)) := h.assign (fun _ _ => ⟨rfl, rfl, le_rfl⟩)

omit [DecidableEq φ] in
theorem WorkOk.recount (h : WorkOk s w) (now : Int) (id : String) : WorkOk s (w.assign id (recount now)) :=
  h.assign (fun _ _ => ⟨rfl, rfl, le_rfl⟩)

theorem WorkOk.openOrUpdate (h : WorkOk s w) (svc : Service) (data : AlertInput φ) :
    (w.openOrUpdate svc data).Ensures forward (fun s r => WorkOk s r.2) s := by
  refine (h.tick.findActive data.fingerprint).bind ?_
  rintro ⟨existing, w₁⟩ s₁ ⟨h₁, _, _⟩
  cases existing with
  | some existing => exact Program.ensures_pure (fun s' hs => (h₁.refresh data _ existing.id).rely hs)
  | none =>
    refine (h₁.insert _).bind ?_
    rintro ⟨taken, w₂⟩ s₂ ⟨h₂, _, _⟩
    cases taken with
    | true => exact Program.ensures_pure (fun s' hs => (h₂.report (openedResult _) (fun htr => by cases htr)).rely hs)
    | false =>
      refine (WorkOk.findActive (w := w₂.rollback) (workOk_empty _ _ _) data.fingerprint).bind ?_
      rintro ⟨existing, w₃⟩ s₃ ⟨h₃, _, _⟩
      cases existing with
      | none => trivial
      | some existing => exact Program.ensures_pure (fun s' hs => (h₃.tick.recount _ existing.id).rely hs)

theorem WorkOk.acknowledge (h : WorkOk s w) (svc : Service) (alertId actor : String) :
    (w.acknowledge svc alertId actor).Ensures forward (fun s r => WorkOk s r.2) s := by
  refine (h.get alertId).bind ?_
  rintro ⟨alert, w₁⟩ s₁ ⟨h₁, halert⟩
  cases alert with
  | none => trivial
  | some alert =>
    obtain ⟨o, hget, rfl⟩ := halert alert rfl
    dsimp only
    split_ifs with hstatus
    · exact Program.ensures_pure (fun s' hs => h₁.rely hs)
    · refine Program.ensures_pure (fun s' hs => WorkOk.rely (WorkOk.report ?_
        (acknowledgedResult alertId) (fun htr => by cases htr)) hs)
      refine h₁.tick.assign (fun o' hget' => ⟨rfl, rfl, ?_⟩)
      obtain rfl : o = o' := Option.some.inj (hget.symm.trans hget')
      rw [not_not.mp hstatus]
      exact Nat.zero_le _

theorem WorkOk.resolveAlert (h : WorkOk s w) (svc : Service) (alertId actor : String) (reason : Option String) :
    (w.resolve svc alertId actor reason).Ensures forward (fun s r => WorkOk s r.2) s := by
  refine (h.get alertId).bind ?_
  rintro ⟨alert, w₁⟩ s₁ ⟨h₁, halert⟩
  cases alert with
  | none => trivial
  | some alert =>
    obtain ⟨o, hget, rfl⟩ := halert alert rfl
    dsimp only
    split_ifs with hstatus
    · exact Program.ensures_pure (fun s' hs => h₁.rely hs)
    · refine Program.ensures_pure (fun s' hs => WorkOk.rely ?_ hs)
      exact h₁.tick.resolve ⟨o, hget, rfl, hstatus⟩ _ actor reason

theorem WorkOk.resolveByFingerprint (h : WorkOk s w) (svc : Service) (item : AlertResolution) :
    (w.resolveByFingerprint svc item).Ensures forward (fun s r => WorkOk s r.2) s := by
  refine (h.findActive item.fingerprint).bind ?_
  rintro ⟨alert, w₁⟩ s₁ ⟨h₁, _, _⟩
  cases alert with
  | none => exact Program.ensures_pure (fun s' hs => h₁.rely hs)
  | some alert =>
    refine (h₁.resolveAlert svc alert.id item.actor item.reason).bind ?_
    exact fun r s₂ h₂ => Program.ensures_pure (fun s' hs => h₂.rely hs)

/-! ## Work in bulk -/

omit [DecidableEq φ] in
theorem hasActive_assign {id fingerprint id'} {f : Alert φ → Alert φ} (h : w.HasActive id fingerprint)
    (hf : ∀ a, (f a).dedupKey = a.dedupKey ∧ (id = id' → (f a).status = a.status)) :
    (w.assign id' f).HasActive id fingerprint := by
  obtain ⟨o, hget, hkey, hstatus⟩ := h
  rw [Work.HasActive, Work.assign, Mapper.get?_assign]
  split_ifs with hid
  · refine ⟨{ o with current := f o.current }, by rw [← hid, hget]; rfl, (hf _).1.trans hkey, ?_⟩
    rw [(hf _).2 hid]
    exact hstatus
  · exact ⟨o, hget, hkey, hstatus⟩

def Work.Linked (w : Work φ ρ) (active : Dict String String) : Prop :=
  ∀ fingerprint id, active.get? fingerprint = some id → w.HasActive id fingerprint

omit [DecidableEq φ] in
theorem Work.Linked.assign {active} (h : w.Linked active) (id : String) {f : Alert φ → Alert φ}
    (hf : ∀ a, (f a).dedupKey = a.dedupKey ∧ (f a).status = a.status) : (w.assign id f).Linked active :=
  fun fingerprint id' hget => hasActive_assign (h fingerprint id' hget) (fun a => ⟨(hf a).1, fun _ => (hf a).2⟩)

def BulkWork.Ok (s : AlertStore φ ρ) (b : BulkWork φ ρ) : Prop := WorkOk s b.work ∧ b.work.Linked b.active

omit [DecidableEq φ] in
theorem BulkWork.Ok.refreshOne {b : BulkWork φ ρ} (h : b.Ok s) (svc : Service) (item : AlertInput φ × Nat)
    (id : String) : (b.refreshOne svc item id).Ok s :=
  ⟨h.1.tick.refresh item.1 _ id, Work.Linked.assign (w := b.work.tick) h.2 id (fun _ => ⟨rfl, rfl⟩)⟩

omit [DecidableEq φ] in
theorem BulkWork.Ok.foldl_passA (svc : Service) (l : List (AlertInput φ × Nat)) : ∀ {b : BulkWork φ ρ}, b.Ok s →
    (l.foldl (BulkWork.passA svc) b).Ok s := by
  induction l with
  | nil => exact id
  | cons item l ih =>
    intro b h
    refine ih ?_
    rw [BulkWork.passA]
    split
    · exact h
    · exact h.refreshOne svc item _

theorem WorkOk.activeAlerts (h : WorkOk s w) (fingerprints : List String) :
    (w.activeAlerts fingerprints).Ensures forward (fun s r => WorkOk s r.2 ∧ r.2.Linked r.1) s := by
  refine Program.ensures_read (fun s' s'' hs hs' => ?_)
  have hloop : ∀ (l : List (Alert φ)) (r : Dict String String × Work φ ρ), WorkOk s' r.2 → r.2.Linked r.1 →
      (∀ row ∈ l, r.2.Sees s' row ∧ row.active) →
      WorkOk s' (l.foldl (fun r row => (r.1.set row.dedupKey row.id, (r.2.load row).2)) r).2 ∧
      Work.Linked (l.foldl (fun r row => (r.1.set row.dedupKey row.id, (r.2.load row).2)) r).2
        (l.foldl (fun r row => (r.1.set row.dedupKey row.id, (r.2.load row).2)) r).1 := by
    intro l
    induction l with
    | nil => exact fun r hw hlinked _ => ⟨hw, hlinked⟩
    | cons row l ih =>
      intro r hw hlinked hl
      obtain ⟨hsees, hactive⟩ := hl row (by simp)
      obtain ⟨hload, _, hkeep, hnew⟩ := hw.load hsees
      refine ih _ hload (fun fingerprint id hget => ?_) (fun row' hrow' => ?_)
      · rw [Dict.get?_set] at hget
        split_ifs at hget with hkey
        · cases hget
          exact hkey ▸ hnew hactive
        · obtain ⟨o, ho, hrest⟩ := hlinked fingerprint id hget
          exact ⟨o, hkeep id o ho, hrest⟩
      · obtain ⟨hsees', hactive'⟩ := hl row' (List.mem_cons_of_mem _ hrow')
        exact ⟨hsees'.load hsees, hactive'⟩
  have hw := h.rely hs
  obtain ⟨hok, hlinked⟩ := hloop ((w.alerts s').filter (fun a => a.dedupKey ∈ fingerprints && a.active)) ([], w) hw
    (fun fingerprint id hget => by cases hget) (fun row hrow => by
      obtain ⟨hmem, hrow⟩ := List.mem_filter.mp hrow
      exact ⟨hw.sees hmem, (Bool.and_eq_true _ _ ▸ hrow).2⟩)
  exact ⟨hok.rely hs', hlinked⟩

theorem BulkWork.Ok.passB {b : BulkWork φ ρ} (h : b.Ok s) (svc : Service) (item : AlertInput φ × Nat) :
    (b.passB svc item).Ensures forward (fun s b => b.Ok s) s := by
  rw [BulkWork.passB]
  split_ifs
  · exact Program.ensures_pure (fun s' hs => ⟨h.1.rely hs, h.2⟩)
  · split
    · next id _ =>
      have hone := h.refreshOne svc item id
      exact Program.ensures_pure (fun s' hs => ⟨hone.1.rely hs, hone.2⟩)
    · refine (h.1.tick.insert _).bind ?_
      rintro ⟨taken, w₁⟩ s₁ ⟨h₁, hkeep, hnew⟩
      have hlinked : w₁.Linked b.active := by
        intro fingerprint id hget
        obtain ⟨o, ho, hrest⟩ := h.2 fingerprint id hget
        exact ⟨o, (hkeep id o ho).1, hrest⟩
      cases taken with
      | true =>
        refine Program.ensures_pure (fun s' hs => ⟨(h₁.report (openedResult _) (fun htr => by cases htr)).rely hs, ?_⟩)
        intro fingerprint id hget
        rw [Dict.get?_set] at hget
        split_ifs at hget with hkey
        · cases hget
          rw [hkey]
          exact hnew rfl (fun hstatus => by cases hstatus)
        · exact hlinked fingerprint id hget
      | false =>
        refine (h₁.findActive item.1.fingerprint).bind ?_
        rintro ⟨existing, w₂⟩ s₂ ⟨h₂, hkeep₂, hactive⟩
        cases existing with
        | none => trivial
        | some existing =>
          refine Program.ensures_pure (fun s' hs => ⟨(h₂.tick.recount _ existing.id).rely hs, ?_⟩)
          intro fingerprint id hget
          refine hasActive_assign (w := w₂.tick) ?_ (fun _ => ⟨rfl, fun _ => rfl⟩)
          rw [Dict.get?_set] at hget
          split_ifs at hget with hkey
          · cases hget
            exact hkey ▸ hactive existing rfl
          · obtain ⟨o, ho, hrest⟩ := hlinked fingerprint id hget
            exact ⟨o, hkeep₂ id o ho, hrest⟩

omit [DecidableEq φ] in
theorem resolveOne_ok {r : ResolvingWork φ ρ} (h : WorkOk s r.work ∧ r.work.Linked r.active) (svc : Service)
    (item : AlertResolution) :
    WorkOk s (r.resolveOne svc item).work ∧ (r.resolveOne svc item).work.Linked (r.resolveOne svc item).active := by
  rw [ResolvingWork.resolveOne]
  split
  · exact h
  · next id hget =>
    have hactive := h.2 _ _ hget
    refine ⟨h.1.tick.resolve hactive _ item.actor item.reason, fun fingerprint id' hget' => ?_⟩
    rw [Dict.get?_pop] at hget'
    split_ifs at hget' with hkey
    -- another condition has another alert
    refine hasActive_assign (w := r.work.tick) (h.2 _ _ hget') (fun _ => ⟨rfl, fun hid => ?_⟩)
    obtain ⟨o, ho, hfingerprint, _⟩ := hactive
    obtain ⟨o', ho', hfingerprint', _⟩ := h.2 _ _ hget'
    rw [hid, ho] at ho'
    cases ho'
    exact absurd (hfingerprint'.symm.trans hfingerprint) hkey

omit [DecidableEq φ] in
theorem foldl_resolveOne_ok (svc : Service) (l : List AlertResolution) : ∀ {r : ResolvingWork φ ρ},
    WorkOk s r.work → r.work.Linked r.active → WorkOk s (l.foldl (ResolvingWork.resolveOne svc) r).work := by
  induction l with
  | nil => exact fun h _ => h
  | cons item l ih =>
    intro r h hlinked
    obtain ⟨h', hlinked'⟩ := resolveOne_ok ⟨h, hlinked⟩ svc item
    exact ih h' hlinked'

theorem WorkOk.applyBulk (h : WorkOk s w) (svc : Service) (openOrUpdates : List (AlertInput φ))
    (resolutions : List AlertResolution) :
    (w.applyBulk svc openOrUpdates resolutions).Ensures forward (fun s r => WorkOk s r.2) s := by
  refine (h.activeAlerts _).bind ?_
  rintro ⟨active, w₁⟩ s₁ h₁
  have hpassB := Program.ensures_foldlM (Q := fun s (b : BulkWork φ ρ) => b.Ok s) openOrUpdates.zipIdx
    (fun h hs => ⟨h.1.rely hs, h.2⟩) (fun b s hb item _ => hb.passB svc item)
    (BulkWork.Ok.foldl_passA svc openOrUpdates.zipIdx (b := { work := w₁, active }) h₁)
  refine hpassB.bind (fun b s₂ h₂ => Program.ensures_pure (fun s' hs => WorkOk.rely ?_ hs))
  exact foldl_resolveOne_ok svc resolutions h₂.1 h₂.2

/-! ## Transactions -/

theorem enter_ok (request : AlertRequest φ ρ) (s : AlertStore φ ρ) :
    request.enter.Ensures forward (fun s w => WorkOk s w) s := by
  cases request with
  | acknowledge svc alertId actor =>
    refine (WorkOk.acknowledge (workOk_empty [] 0 0) svc alertId actor).bind ?_
    exact fun r s₁ h => Program.ensures_pure (fun s' hs => h.rely hs)
  | resolve svc alertId actor reason =>
    refine (WorkOk.resolveAlert (workOk_empty [] 0 0) svc alertId actor reason).bind ?_
    exact fun r s₁ h => Program.ensures_pure (fun s' hs => h.rely hs)
  | detect svc calls =>
    refine Program.ensures_foldlM calls (fun h hs => h.rely hs) (fun w s h call _ => ?_) (workOk_empty [] 0 0)
    cases call with
    | write f =>
      exact Program.ensures_pure (fun s' hs => WorkOk.rely ⟨h.nodup, h.current, h.loaded, h.once, h.reported⟩ hs)
    | openOrUpdate data =>
      exact (h.openOrUpdate svc data).bind (fun r s₁ h => Program.ensures_pure (fun s' hs => h.rely hs))
    | resolveByFingerprint item =>
      exact (h.resolveByFingerprint svc item).bind (fun r s₁ h => Program.ensures_pure (fun s' hs => h.rely hs))
    | applyBulk openOrUpdates resolutions =>
      exact (h.applyBulk svc openOrUpdates resolutions).bind
        (fun r s₁ h => Program.ensures_pure (fun s' hs => h.rely hs))

/-! ## Commits -/

abbrev AlertTaken (φ ρ τ : Type) := Program.Taken (AlertStore φ ρ) Unit (AlertRequest φ ρ) τ (Work φ ρ)

def changesStatus (o : Mapped (Alert φ)) : Bool := o.loaded.any (fun l => l.status ≠ o.current.status)

/-- No alert that the transaction has read as active, and whose status it commits, has been resolved meanwhile. -/
def AlertTaken.unresolved (e : AlertTaken φ ρ τ) : Bool :=
  match e.input with
  | .start _ _ => true
  | .advance t =>
    match e.before.session t with
    | some (.done w) => w.objects.all (fun item => changesStatus item.2 →
        e.before.committed.alerts.all (fun a => a.id = item.1 → a.status ≠ .resolved))
    | _ => true

def Work.Unresolved (w : Work φ ρ) (s : AlertStore φ ρ) : Prop :=
  ∀ id o, w.objects.get? id = some o → changesStatus o → ∀ a ∈ s.alerts, a.id = id → a.status ≠ .resolved

omit [DecidableEq φ] in
theorem unresolved_of_step {db db' : Db (AlertStore φ ρ) Unit τ (AlertProgram φ ρ (Work φ ρ))} {t : τ} {w : Work φ ρ}
    (hsession : db.session t = some (.done w))
    (h : AlertTaken.unresolved (⟨db, .advance t, db'⟩ : AlertTaken φ ρ τ) = true) : w.Unresolved db.committed := by
  intro id o hget hchanges a ha hid
  rw [AlertTaken.unresolved] at h
  simp only [hsession] at h
  have hitem := of_decide_eq_true (List.all_eq_true.mp h _ (Dict.mem_of_get? hget)) hchanges
  exact of_decide_eq_true (List.all_eq_true.mp hitem a ha) hid

theorem commit_cases (w : Work φ ρ) (s : AlertStore φ ρ) : w.commit s = s ∨
    (alertMapper.fits w.objects s.alerts = true ∧ (w.commit s).alerts = w.alerts s ∧
      (w.commit s).reports = s.reports ++ w.reports) := by
  rw [Work.commit]
  split_ifs with h
  · exact Or.inr ⟨h.1, rfl, rfl⟩
  · exact Or.inl rfl

theorem forward_commit (h : WorkOk s w) (hunresolved : w.Unresolved s) : forward.rel s (w.commit s) := by
  rcases commit_cases w s with hsame | ⟨hfits, halerts, _⟩
  · rw [hsame]
    exact forward.refl s
  · intro a ha
    rw [halerts]
    refine ⟨_, Mapper.rewriteRow_mem_view ha, ?_⟩
    rcases Mapper.rewriteRow_of_fits hfits ha with hrow | ⟨o, l, hget, hl, hrow⟩ <;> rw [hrow]
    · exact ⟨rfl, rfl, le_rfl⟩
    · refine ⟨rfl, rfl, rank_written (h.loaded hget hl).1 (fun hne => ?_)⟩
      refine hunresolved _ o hget ?_ a ha rfl
      simpa [changesStatus, hl] using fun heq => hne heq.symm

def AlertStore.Reported (s : AlertStore φ ρ) : Prop :=
  (∀ id, s.reports.count (id, .resolved) ≤ 1) ∧
  ∀ id, (id, .resolved) ∈ s.reports → ∃ a ∈ s.alerts, a.id = id ∧ a.status = .resolved

theorem resolved_commit (h : WorkOk s w) (hunresolved : w.Unresolved s)
    (hfits : alertMapper.fits w.objects s.alerts = true) {id} (hmem : (id, .resolved) ∈ w.reports) :
    (∀ a ∈ s.alerts, a.id = id → a.status ≠ .resolved) ∧ ∃ a ∈ w.alerts s, a.id = id ∧ a.status = .resolved := by
  obtain ⟨o, hget, hstatus, hloaded⟩ := h.reported hmem
  have hfit := List.all_eq_true.mp hfits _ (Dict.mem_of_get? hget)
  cases hl : o.loaded with
  | none =>
    simp only [hl, Option.isSome_none, beq_iff_eq, Bool.false_eq, decide_eq_false_iff_not] at hfit
    refine ⟨fun a ha hid => absurd (List.mem_map.mpr ⟨a, ha, hid⟩) hfit, o.current, ?_, h.current hget, hstatus⟩
    exact Mapper.current_mem_view hget hl hfit
  | some l =>
    have hchanges : changesStatus o = true := by
      simpa [changesStatus, hl, hstatus] using hloaded l hl
    refine ⟨fun a ha hid => hunresolved id o hget hchanges a ha hid, ?_⟩
    simp only [hl, Option.isSome_some, beq_iff_eq, Bool.true_eq, decide_eq_true_eq] at hfit
    obtain ⟨a, ha, hid⟩ := List.mem_map.mp hfit
    refine ⟨_, Mapper.rewriteRow_mem_view ha, ?_⟩
    have hget' : w.objects.get? (alertMapper.key a) = some o := by rw [hid]; exact hget
    have hrow : alertMapper.rewriteRow w.objects a = l.flush o.current a := by
      simp only [Mapper.rewriteRow, hget', Mapper.rewrite, hl]
      rfl
    rw [hrow]
    refine ⟨hid, ?_⟩
    change written l.status o.current.status a.status = .resolved
    rw [written, if_neg (fun heq => hloaded l hl (heq.symm.trans hstatus)), hstatus]

theorem reported_commit (h : WorkOk s w) (hunresolved : w.Unresolved s) (hs : s.Reported) : (w.commit s).Reported := by
  have hforward := forward_commit h hunresolved
  rcases commit_cases w s with hsame | ⟨hfits, halerts, hreports⟩
  · rw [hsame]
    exact hs
  · constructor
    · intro id
      rw [hreports, List.count_append]
      by_cases hmem : (id, AlertTransition.resolved) ∈ w.reports
      · obtain ⟨hbefore, _⟩ := resolved_commit h hunresolved hfits hmem
        have hnot : (id, AlertTransition.resolved) ∉ s.reports := by
          intro hold
          obtain ⟨a, ha, hid, hstatus⟩ := hs.2 id hold
          exact hbefore a ha hid hstatus
        rw [List.count_eq_zero_of_not_mem hnot, Nat.zero_add]
        exact h.once id
      · rw [List.count_eq_zero_of_not_mem hmem]
        exact hs.1 id
    · intro id hmem
      rw [hreports] at hmem
      rcases List.mem_append.mp hmem with hmem | hmem
      · obtain ⟨a, ha, hid, hstatus⟩ := hs.2 id hmem
        obtain ⟨a', ha', hid', _, hrank⟩ := hforward a ha
        exact ⟨a', ha', hid'.trans hid, eq_resolved_of_rank hrank hstatus⟩
      · rw [halerts]
        exact (resolved_commit h hunresolved hfits hmem).2

/-! ## Runs -/

def AlertStore.resolvedIn (s : AlertStore φ ρ) (id : String) : Bool :=
  s.alerts.any (fun a => a.id = id && a.status = .resolved)

def AlertTaken.entersResolved (id : String) (e : AlertTaken φ ρ τ) : Bool :=
  !e.before.committed.resolvedIn id && e.output.committed.resolvedIn id

omit [DecidableEq φ] in
theorem resolvedIn_forward {id} (h : forward.rel s s') (hs : s.resolvedIn id = true) : s'.resolvedIn id = true := by
  obtain ⟨a, ha, hresolved⟩ := List.any_eq_true.mp hs
  rw [Bool.and_eq_true, decide_eq_true_eq, decide_eq_true_eq] at hresolved
  obtain ⟨a', ha', hid', _, hrank⟩ := h a ha
  refine List.any_eq_true.mpr ⟨a', ha', ?_⟩
  rw [Bool.and_eq_true, decide_eq_true_eq, decide_eq_true_eq]
  exact ⟨hid'.trans hresolved.1, eq_resolved_of_rank hrank hresolved.2⟩

structure Lifecycle (tr : List (AlertTaken φ ρ τ)) (s : AlertStore φ ρ) : Prop where
  forward : ∀ e ∈ tr, forward.rel e.before.committed e.output.committed
  later : ∀ e ∈ tr, QRadarDashboard.Alerts.forward.rel e.before.committed s
  reported : s.Reported
  enters : ∀ id, tr.countP (AlertTaken.entersResolved id) ≤ (s.resolvedIn id).toNat

omit [DecidableEq φ] in
theorem Lifecycle.snoc {tr} {e : AlertTaken φ ρ τ} (h : Lifecycle tr e.before.committed)
    (hforward : QRadarDashboard.Alerts.forward.rel e.before.committed e.output.committed)
    (hreported : e.output.committed.Reported) : Lifecycle (tr ++ [e]) e.output.committed where
  forward e' he' := by
    rcases List.mem_append.mp he' with he' | he'
    · exact h.forward e' he'
    · rw [List.mem_singleton.mp he']
      exact hforward
  later e' he' := by
    rcases List.mem_append.mp he' with he' | he'
    · exact QRadarDashboard.Alerts.forward.trans (h.later e' he') hforward
    · rw [List.mem_singleton.mp he']
      exact hforward
  reported := hreported
  enters id := by
    have hcount := h.enters id
    rw [List.countP_append, List.countP_singleton, AlertTaken.entersResolved]
    cases hbefore : e.before.committed.resolvedIn id with
    | true =>
      rw [hbefore] at hcount
      rw [resolvedIn_forward hforward hbefore]
      simpa using hcount
    | false =>
      rw [hbefore] at hcount
      simp only [Bool.toNat_false, Nat.le_zero] at hcount
      rw [hcount]
      cases e.output.committed.resolvedIn id <;> decide

end QRadarDashboard.Alerts
