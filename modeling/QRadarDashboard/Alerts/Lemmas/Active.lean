import QRadarDashboard.Alerts.Service

/-!
# Which conditions have an active alert
-/

namespace QRadarDashboard.Alerts
open Lib

variable {φ : Type} {svc : Service} {s : Session φ} {fp fp' : String}

def ActiveIn (s : Session φ) (fp : String) : Prop := ∃ a ∈ s.alerts, a.dedupKey = fp ∧ a.active

theorem activeIn_iff_mem : ActiveIn s fp ↔ (fp, true) ∈ s.alerts.map (fun a => (a.dedupKey, a.active)) := by
  simp [ActiveIn]

/-- The table's keys: one row per id, no id handed out twice, and one active alert per fingerprint. -/
structure WellFormed (svc : Service) (s : Session φ) : Prop where
  ids_nodup : (s.alerts.map (fun a => a.id)).Nodup
  ids_fresh : ∀ n, s.issued ≤ n → ∀ a ∈ s.alerts, a.id ≠ svc.uuid4 n
  one_active : ∀ a ∈ s.alerts, ∀ b ∈ s.alerts, a.active → b.active → a.dedupKey = b.dedupKey → a = b

/-! ## Writes to one row -/

theorem mem_update {id} {f : Alert φ → Alert φ} {a} :
    a ∈ (s.update id f).alerts ↔ ∃ b ∈ s.alerts, (if b.id = id then f b else b) = a := by
  simp [Session.update]

structure Keeps (f : Alert φ → Alert φ) : Prop where
  id : ∀ a, (f a).id = a.id
  dedupKey : ∀ a, (f a).dedupKey = a.dedupKey
  active : ∀ a, (f a).active = a.active

theorem keeps_refresh (data : AlertInput φ) (now : Int) : Keeps (refresh data now) :=
  ⟨fun _ => rfl, fun _ => rfl, fun _ => rfl⟩

theorem Keeps.ite {f : Alert φ → Alert φ} (hf : Keeps f) (id : String) (a : Alert φ) :
    (if a.id = id then f a else a).dedupKey = a.dedupKey ∧ (if a.id = id then f a else a).active = a.active := by
  split_ifs
  · exact ⟨hf.dedupKey a, hf.active a⟩
  · exact ⟨rfl, rfl⟩

theorem ids_update {id} {f : Alert φ → Alert φ} (hf : ∀ a, (f a).id = a.id) :
    (s.update id f).alerts.map (fun a => a.id) = s.alerts.map (fun a => a.id) := by
  simp only [Session.update, List.map_map]
  apply List.map_congr_left
  intro a _
  simp only [Function.comp_apply]
  split_ifs
  · exact hf a
  · rfl

theorem ids_fresh_update {id} {f : Alert φ → Alert φ} (hf : ∀ a, (f a).id = a.id)
    (h : WellFormed svc s) : ∀ n, s.issued ≤ n → ∀ a ∈ (s.update id f).alerts, a.id ≠ svc.uuid4 n := by
  intro n hn a ha
  have hmem : a.id ∈ (s.update id f).alerts.map (fun a => a.id) := List.mem_map_of_mem ha
  rw [ids_update hf] at hmem
  obtain ⟨b, hb, hid⟩ := List.mem_map.mp hmem
  exact hid ▸ h.ids_fresh n hn b hb

theorem Keeps.activeIn_update {f : Alert φ → Alert φ} (hf : Keeps f) (id : String) :
    ActiveIn (s.update id f) fp ↔ ActiveIn s fp := by
  constructor
  · rintro ⟨a, ha, hkey, hact⟩
    obtain ⟨b, hb, rfl⟩ := mem_update.mp ha
    exact ⟨b, hb, (hf.ite id b).1 ▸ hkey, (hf.ite id b).2 ▸ hact⟩
  · rintro ⟨b, hb, hkey, hact⟩
    exact ⟨_, mem_update.mpr ⟨b, hb, rfl⟩, (hf.ite id b).1.trans hkey, (hf.ite id b).2.trans hact⟩

theorem Keeps.wellFormed_update {f : Alert φ → Alert φ} (hf : Keeps f) (id : String)
    (h : WellFormed svc s) : WellFormed svc (s.update id f) := by
  refine ⟨by rw [ids_update hf.id]; exact h.ids_nodup, ids_fresh_update hf.id h, ?_⟩
  intro a ha b hb hacta hactb hkey
  obtain ⟨a', ha', rfl⟩ := mem_update.mp ha
  obtain ⟨b', hb', rfl⟩ := mem_update.mp hb
  rw [(hf.ite id a').2] at hacta
  rw [(hf.ite id b').2] at hactb
  rw [(hf.ite id a').1, (hf.ite id b').1] at hkey
  rw [h.one_active a' ha' b' hb' hacta hactb hkey]

theorem resolved_active (now : Int) (actor : String) (reason : Option String) (a : Alert φ) :
    (resolved now actor reason a).active = false := rfl

theorem activeIn_resolve {a} (h : WellFormed svc s) (ha : a ∈ s.alerts) (hact : a.active)
    (now : Int) (actor : String) (reason : Option String) :
    ActiveIn (s.update a.id (resolved now actor reason)) fp ↔ ActiveIn s fp ∧ fp ≠ a.dedupKey := by
  constructor
  · rintro ⟨b, hb, hkey, hactb⟩
    obtain ⟨b', hb', rfl⟩ := mem_update.mp hb
    by_cases hid : b'.id = a.id
    · simp [hid, resolved_active] at hactb
    · simp only [hid, if_false] at hkey hactb
      refine ⟨⟨b', hb', hkey, hactb⟩, ?_⟩
      rintro rfl
      exact hid (congrArg Alert.id (h.one_active b' hb' a ha hactb hact hkey))
  · rintro ⟨⟨b, hb, hkey, hactb⟩, hne⟩
    have hid : b.id ≠ a.id := by
      intro hid
      have hsame : b = a := List.inj_on_of_nodup_map h.ids_nodup hb ha hid
      exact hne (hsame ▸ hkey.symm)
    exact ⟨b, mem_update.mpr ⟨b, hb, by simp [hid]⟩, hkey, hactb⟩

theorem wellFormed_resolve (h : WellFormed svc s) (id : String) (now : Int) (actor : String)
    (reason : Option String) : WellFormed svc (s.update id (resolved now actor reason)) := by
  have hid : ∀ a : Alert φ, (resolved now actor reason a).id = a.id := fun _ => rfl
  refine ⟨by rw [ids_update hid]; exact h.ids_nodup, ids_fresh_update hid h, ?_⟩
  intro a ha b hb hacta hactb hkey
  obtain ⟨a', ha', rfl⟩ := mem_update.mp ha
  obtain ⟨b', hb', rfl⟩ := mem_update.mp hb
  by_cases hida : a'.id = id
  · simp [hida, resolved_active] at hacta
  · by_cases hidb : b'.id = id
    · simp [hidb, resolved_active] at hactb
    · simp only [hida, hidb, if_false] at hacta hactb hkey ⊢
      exact h.one_active a' ha' b' hb' hacta hactb hkey

theorem activeIn_insert (data : AlertInput φ) (now : Int) :
    ActiveIn (s.insert svc data now).2 fp ↔ ActiveIn s fp ∨ fp = data.fingerprint := by
  constructor
  · rintro ⟨a, ha, hkey, hact⟩
    rcases List.mem_append.mp ha with ha | ha
    · exact Or.inl ⟨a, ha, hkey, hact⟩
    · rw [List.mem_singleton.mp ha] at hkey
      exact Or.inr hkey.symm
  · rintro (⟨a, ha, hkey, hact⟩ | rfl)
    · exact ⟨a, List.mem_append_left _ ha, hkey, hact⟩
    · exact ⟨_, List.mem_append_right _ (List.mem_singleton.mpr rfl), rfl, rfl⟩

theorem wellFormed_insert (hinj : Function.Injective svc.uuid4) (h : WellFormed svc s) (data : AlertInput φ) (now : Int)
    (hnot : ¬ ActiveIn s data.fingerprint) : WellFormed svc (s.insert svc data now).2 := by
  refine ⟨?_, ?_, ?_⟩
  · simp only [Session.insert, List.map_append, List.map_cons, List.map_nil]
    refine List.nodup_append.mpr ⟨h.ids_nodup, by simp, ?_⟩
    intro x hx y hy
    obtain ⟨a, ha, rfl⟩ := List.mem_map.mp hx
    rw [List.mem_singleton.mp hy]
    exact h.ids_fresh s.issued le_rfl a ha
  · intro n hn a ha
    have hn : s.issued + 1 ≤ n := hn
    rcases List.mem_append.mp ha with ha | ha
    · exact h.ids_fresh n (by omega) a ha
    · rw [List.mem_singleton.mp ha]
      intro heq
      have := hinj heq
      omega
  · intro a ha b hb hacta hactb hkey
    rcases List.mem_append.mp ha with ha | ha <;> rcases List.mem_append.mp hb with hb | hb
    · exact h.one_active a ha b hb hacta hactb hkey
    · rw [List.mem_singleton.mp hb] at hkey
      exact absurd ⟨a, ha, hkey, hacta⟩ hnot
    · rw [List.mem_singleton.mp ha] at hkey
      exact absurd ⟨b, hb, hkey.symm, hactb⟩ hnot
    · rw [List.mem_singleton.mp ha, List.mem_singleton.mp hb]

theorem findActive_eq_none : s.findActive fp = none ↔ ¬ ActiveIn s fp := by
  simp [Session.findActive, ActiveIn]

theorem findActive_eq_some {a} (h : s.findActive fp = some a) : a ∈ s.alerts ∧ a.dedupKey = fp ∧ a.active := by
  have hp := List.find?_some h
  simp only [Bool.and_eq_true, decide_eq_true_eq] at hp
  exact ⟨List.mem_of_find?_eq_some h, hp.1, hp.2⟩

theorem WellFormed.tick (h : WellFormed svc s) : WellFormed svc s.tick :=
  ⟨h.ids_nodup, h.ids_fresh, h.one_active⟩

theorem findActive_tick : s.tick.findActive fp = s.findActive fp := rfl

/-! ## One condition at a time -/

theorem openOrUpdate_wellFormed (hinj : Function.Injective svc.uuid4) (h : WellFormed svc s)
    (data : AlertInput φ) : WellFormed svc (openOrUpdate svc s data).2 := by
  cases hfind : s.findActive data.fingerprint with
  | some a =>
    simp only [openOrUpdate, findActive_tick, hfind]
    exact (keeps_refresh data _).wellFormed_update a.id h.tick
  | none =>
    simp only [openOrUpdate, findActive_tick, hfind]
    exact wellFormed_insert hinj h.tick data _ (findActive_eq_none.mp hfind)

theorem openOrUpdate_activeIn (data : AlertInput φ) :
    ActiveIn (openOrUpdate svc s data).2 fp ↔ ActiveIn s fp ∨ fp = data.fingerprint := by
  cases hfind : s.findActive data.fingerprint with
  | some a =>
    simp only [openOrUpdate, findActive_tick, hfind, (keeps_refresh data _).activeIn_update]
    obtain ⟨ha, hkey, hact⟩ := findActive_eq_some hfind
    constructor
    · exact Or.inl
    · rintro (h | rfl)
      · exact h
      · exact ⟨a, ha, hkey, hact⟩
  | none =>
    simp only [openOrUpdate, findActive_tick, hfind, activeIn_insert]
    rfl

theorem openOrUpdate_alerts_ne (svc : Service) (s : Session φ) (data : AlertInput φ) :
    (openOrUpdate svc s data).2.alerts ≠ s.alerts := by
  intro hsame
  cases hfind : s.findActive data.fingerprint with
  | none =>
    simp only [openOrUpdate, findActive_tick, hfind] at hsame
    simpa [Session.insert, Session.tick] using congrArg List.length hsame
  | some a =>
    simp only [openOrUpdate, findActive_tick, hfind] at hsame
    have hmap : s.alerts.map (fun b => if b.id = a.id then refresh data (svc.clock s.reads) b else b) =
        s.alerts.map (fun b => b) := by
      rw [List.map_id']
      exact hsame
    have hrow := List.map_inj_left.mp hmap a (findActive_eq_some hfind).1
    have hcount := congrArg Alert.occurrenceCount hrow
    simp only [if_pos, refresh] at hcount
    omega

structure Descends (b a : Alert φ) : Prop where
  active : a.active → b.active
  dedupKey : a.dedupKey = b.dedupKey
  sourceType : a.sourceType = b.sourceType
  context : a.context = b.context

theorem Descends.refl (a : Alert φ) : Descends a a := ⟨id, rfl, rfl, rfl⟩

theorem descends_resolved (now : Int) (actor : String) (reason : Option String) (b : Alert φ) :
    Descends b (resolved now actor reason b) :=
  ⟨fun hact => by rw [resolved_active] at hact; exact absurd hact Bool.false_ne_true, rfl, rfl, rfl⟩

theorem mem_update_descends {id} {f : Alert φ → Alert φ} (hf : ∀ b, Descends b (f b)) {a}
    (ha : a ∈ (s.update id f).alerts) : ∃ b ∈ s.alerts, Descends b a := by
  obtain ⟨b, hb, rfl⟩ := mem_update.mp ha
  refine ⟨b, hb, ?_⟩
  split_ifs
  · exact hf b
  · exact Descends.refl b

theorem openOrUpdate_mem (data : AlertInput φ) {a} (ha : a ∈ (openOrUpdate svc s data).2.alerts) :
    (∃ b ∈ s.alerts, Descends b a) ∨ ∃ now id, a = newAlert data now id := by
  cases hfind : s.findActive data.fingerprint with
  | some existing =>
    simp only [openOrUpdate, findActive_tick, hfind] at ha
    have hkeeps : ∀ b, Descends b (refresh data (svc.clock s.reads) b) := fun b => ⟨fun hact => hact, rfl, rfl, rfl⟩
    exact Or.inl (mem_update_descends hkeeps ha)
  | none =>
    simp only [openOrUpdate, findActive_tick, hfind] at ha
    rcases List.mem_append.mp ha with ha | ha
    · exact Or.inl ⟨a, ha, Descends.refl a⟩
    · exact Or.inr ⟨_, _, List.mem_singleton.mp ha⟩

theorem find?_id (h : WellFormed svc s) {a} (ha : a ∈ s.alerts) : s.alerts.find? (fun b => b.id = a.id) = some a := by
  cases hb : s.alerts.find? (fun b => b.id = a.id) with
  | none => exact absurd (List.find?_eq_none.mp hb a ha) (by simp)
  | some b =>
    have hid : b.id = a.id := by simpa using List.find?_some hb
    rw [List.inj_on_of_nodup_map h.ids_nodup (List.mem_of_find?_eq_some hb) ha hid]

theorem resolveByFingerprint_ok (h : WellFormed svc s) (item : AlertResolution) :
    ∃ r s', resolveByFingerprint svc s item = .ok (r, s') ∧ WellFormed svc s' ∧
      ∀ fp, ActiveIn s' fp ↔ ActiveIn s fp ∧ fp ≠ item.fingerprint := by
  cases hfind : s.findActive item.fingerprint with
  | none =>
    refine ⟨none, s, by simp only [resolveByFingerprint, hfind]; rfl, h, fun fp => ?_⟩
    have hnot := findActive_eq_none.mp hfind
    exact ⟨fun hact => ⟨hact, by rintro rfl; exact hnot hact⟩, fun hact => hact.1⟩
  | some a =>
    obtain ⟨ha, hkey, hact⟩ := findActive_eq_some hfind
    have hget := find?_id h ha
    have hstatus : a.status ≠ .resolved := by simpa [Alert.active] using hact
    refine ⟨_, s.tick.update a.id (resolved (svc.clock s.reads) item.actor item.reason),
      by simp only [resolveByFingerprint, resolve, hfind, hget, hstatus, if_false]; rfl,
      wellFormed_resolve h.tick a.id _ _ _, fun fp => ?_⟩
    rw [activeIn_resolve h.tick ha hact, hkey]
    rfl

theorem openOrUpdate_kept (data : AlertInput φ) {a} (ha : a ∈ s.alerts) :
    ∃ b ∈ (openOrUpdate svc s data).2.alerts, b.id = a.id ∧ b.dedupKey = a.dedupKey ∧ b.active = a.active := by
  cases hfind : s.findActive data.fingerprint with
  | none =>
    simp only [openOrUpdate, findActive_tick, hfind]
    exact ⟨a, List.mem_append_left _ ha, rfl, rfl, rfl⟩
  | some existing =>
    simp only [openOrUpdate, findActive_tick, hfind]
    have hkeeps := keeps_refresh data (svc.clock s.reads)
    refine ⟨_, List.mem_map_of_mem ha, ?_, hkeeps.ite existing.id a⟩
    split
    · exact hkeeps.id a
    · rfl

theorem resolveByFingerprint_rows (h : WellFormed svc s) {item r s'}
    (hok : resolveByFingerprint svc s item = .ok (r, s')) :
    (∀ b ∈ s'.alerts, b ∈ s.alerts ∨ b.dedupKey = item.fingerprint ∧ b.active = false) ∧
      ∀ a ∈ s.alerts, a ∈ s'.alerts ∨ a.dedupKey = item.fingerprint := by
  cases hfind : s.findActive item.fingerprint with
  | none =>
    simp only [resolveByFingerprint, hfind] at hok
    cases hok
    exact ⟨fun b hb => .inl hb, fun a ha => .inl ha⟩
  | some a =>
    obtain ⟨ha, hkey, hact⟩ := findActive_eq_some hfind
    have hstatus : a.status ≠ .resolved := by simpa [Alert.active] using hact
    simp only [resolveByFingerprint, resolve, hfind, find?_id h ha, hstatus, if_false] at hok
    cases hok
    have hrow : ∀ b ∈ s.alerts, b.id = a.id → b = a := fun b hb hid =>
      List.inj_on_of_nodup_map h.ids_nodup hb ha hid
    refine ⟨fun b hb => ?_, fun b hb => ?_⟩
    · obtain ⟨c, hc, rfl⟩ := mem_update.mp hb
      by_cases hid : c.id = a.id
      · rw [if_pos hid, hrow c hc hid]
        exact .inr ⟨hkey, resolved_active _ _ _ a⟩
      · rw [if_neg hid]
        exact .inl hc
    · by_cases hid : b.id = a.id
      · exact .inr (hrow b hb hid ▸ hkey)
      · exact .inl (mem_update.mpr ⟨b, hb, if_neg hid⟩)

theorem resolveByFingerprint_mem {item r s'} (h : resolveByFingerprint svc s item = .ok (r, s')) {a}
    (ha : a ∈ s'.alerts) : ∃ b ∈ s.alerts, Descends b a := by
  cases hfind : s.findActive item.fingerprint with
  | none =>
    simp only [resolveByFingerprint, hfind] at h
    cases h
    exact ⟨a, ha, Descends.refl a⟩
  | some existing =>
    simp only [resolveByFingerprint, hfind, resolve] at h
    split at h
    · cases h
    · split_ifs at h
      · cases h
        exact ⟨a, ha, Descends.refl a⟩
      · cases h
        exact mem_update_descends (s := s.tick) (descends_resolved _ _ _) ha

/-! ## In bulk -/

structure Linked (s : Session φ) (active : Dict String String) (fps : List String) : Prop where
  some : ∀ fp ∈ fps, ∀ id, active.get? fp = some id → ∃ a ∈ s.alerts, a.id = id ∧ a.dedupKey = fp ∧ a.active
  none : ∀ fp ∈ fps, active.get? fp = none → ¬ ActiveIn s fp

theorem linked_activeAlerts (s : Session φ) (fps : List String) : Linked s (activeAlerts s fps) fps := by
  have hget := fun fp => Dict.get?_foldl_set (fun a : Alert φ => a.dedupKey) (fun a => a.id)
    (s.alerts.filter (fun a => a.dedupKey ∈ fps && a.active)) [] fp
  refine ⟨?_, ?_⟩
  · intro fp hfp id hid
    have hfp' := hget fp
    simp only [activeAlerts] at hid
    simp only [hid, Dict.get?_nil] at hfp'
    rcases hfp' with ⟨a, ha, hkey, haid⟩ | hnone
    · have ha := List.mem_filter.mp ha
      simp only [Bool.and_eq_true, decide_eq_true_eq] at ha
      exact ⟨a, ha.1, haid, hkey, ha.2.2⟩
    · cases hnone
  · rintro fp hfp hnone ⟨a, ha, hkey, hact⟩
    have hfp' := hget fp
    simp only [activeAlerts] at hnone
    simp only [hnone] at hfp'
    refine hfp'.2 a (List.mem_filter.mpr ⟨ha, ?_⟩) hkey
    simp [hkey, hfp, hact]

theorem Linked.keeps {active fps} (h : Linked s active fps)
    {f : Alert φ → Alert φ} (hf : Keeps f) (id : String) : Linked (s.update id f) active fps := by
  refine ⟨?_, fun fp hfp hnone => by rw [hf.activeIn_update]; exact h.none fp hfp hnone⟩
  intro fp hfp id' hid'
  obtain ⟨a, ha, haid, hkey, hact⟩ := h.some fp hfp id' hid'
  refine ⟨_, mem_update.mpr ⟨a, ha, rfl⟩, ?_, (hf.ite id a).1.trans hkey, (hf.ite id a).2.trans hact⟩
  split_ifs
  · exact (hf.id a).trans haid
  · exact haid

theorem Linked.isSome_iff {active fps} (h : Linked s active fps)
    (hfp : fp ∈ fps) : (active.get? fp).isSome ↔ ActiveIn s fp := by
  cases hget : active.get? fp with
  | none => simpa using h.none fp hfp hget
  | some id =>
    obtain ⟨a, ha, -, hkey, hact⟩ := h.some fp hfp id hget
    simp only [Option.isSome_some, true_iff]
    exact ⟨a, ha, hkey, hact⟩

end QRadarDashboard.Alerts
