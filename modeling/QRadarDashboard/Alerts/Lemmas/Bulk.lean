import QRadarDashboard.Alerts.Lemmas.Active

/-!
# The bulk call
-/

namespace QRadarDashboard.Alerts
open Lib

variable {φ : Type} {svc : Service} {s : Session φ} {fps : List String} {inputs : List (AlertInput φ)}

structure BulkOk (svc : Service) (inputs : List (AlertInput φ)) (fps : List String) (b : Bulk φ) : Prop where
  wellFormed : WellFormed svc b.session
  linked : Linked b.session b.active fps
  done : ∀ item ∈ inputs.zipIdx, (b.results.get? item.2).isSome → ActiveIn b.session item.1.fingerprint

theorem eq_of_mem_zipIdx {x y} (hx : x ∈ inputs.zipIdx) (hy : y ∈ inputs.zipIdx) (h : x.2 = y.2) : x = y := by
  have hx := List.mem_zipIdx' hx
  have hy := List.mem_zipIdx' hy
  refine Prod.ext ?_ h
  rw [hx.2, hy.2]
  simp [h]

section Step

variable {b : Bulk φ} {item : AlertInput φ × Nat} (h : BulkOk svc inputs fps b)
variable (hitem : item ∈ inputs.zipIdx) (hfp : item.1.fingerprint ∈ fps)

include h hitem hfp

theorem BulkOk.refreshed {id} (hget : b.active.get? item.1.fingerprint = some id) (now : Int) :
    let b' : Bulk φ :=
      { b with
        session := b.session.tick.update id (refresh item.1 now)
        results := b.results.set item.2 (refreshed id) }
    BulkOk svc inputs fps b' ∧ ∀ fp, ActiveIn b'.session fp ↔ ActiveIn b.session fp := by
  have hkeeps := keeps_refresh item.1 now
  have hactive : ∀ fp, ActiveIn (b.session.tick.update id (refresh item.1 now)) fp ↔ ActiveIn b.session fp :=
    fun fp => hkeeps.activeIn_update id
  have hlinked : Linked b.session.tick b.active fps := ⟨h.linked.some, h.linked.none⟩
  refine ⟨⟨hkeeps.wellFormed_update id h.wellFormed.tick, hlinked.keeps hkeeps id, ?_⟩, hactive⟩
  intro item' hitem' hsome
  rw [hactive]
  simp only [Dict.get?_set] at hsome
  by_cases hidx : item'.2 = item.2
  · rw [eq_of_mem_zipIdx hitem' hitem hidx]
    exact (h.linked.isSome_iff hfp).mp (by simp [hget])
  · simp only [hidx, if_false] at hsome
    exact h.done item' hitem' hsome

theorem BulkOk.passA : BulkOk svc inputs fps (passA svc b item) ∧
    ∀ fp, ActiveIn (Alerts.passA svc b item).session fp ↔ ActiveIn b.session fp := by
  cases hget : b.active.get? item.1.fingerprint with
  | none =>
    have hskip : Alerts.passA svc b item = b := by simp [Alerts.passA, hget]
    rw [hskip]
    exact ⟨h, fun fp => Iff.rfl⟩
  | some id =>
    simp only [Alerts.passA, hget]
    exact h.refreshed hitem hfp hget _

theorem BulkOk.passB (hinj : Function.Injective svc.uuid4) : BulkOk svc inputs fps (passB svc b item) ∧
    ∀ fp, ActiveIn (Alerts.passB svc b item).session fp ↔
      ActiveIn b.session fp ∨ fp = item.1.fingerprint := by
  by_cases hsome : (b.results.get? item.2).isSome
  · -- pass A refreshed it, so its alert is active already
    have hactive := h.done item hitem hsome
    simp only [Alerts.passB, hsome, if_true]
    refine ⟨h, fun fp => ⟨Or.inl, ?_⟩⟩
    rintro (hfp | rfl)
    · exact hfp
    · exact hactive
  · simp only [Alerts.passB, hsome, Bool.false_eq_true, if_false]
    cases hget : b.active.get? item.1.fingerprint with
    | some id =>
      obtain ⟨hok, hiff⟩ := h.refreshed hitem hfp hget (svc.clock b.session.reads)
      have hactive := (h.linked.isSome_iff hfp).mp (by simp [hget])
      refine ⟨hok, fun fp => (hiff fp).trans ⟨Or.inl, ?_⟩⟩
      rintro (hfp | rfl)
      · exact hfp
      · exact hactive
    | none =>
      have hnot := h.linked.none _ hfp hget
      have hiff : ∀ fp, ActiveIn (b.session.tick.insert svc item.1 (svc.clock b.session.reads)).2 fp ↔
          ActiveIn b.session fp ∨ fp = item.1.fingerprint := fun fp => activeIn_insert item.1 _
      refine ⟨⟨wellFormed_insert hinj h.wellFormed.tick item.1 _ hnot, ?_, ?_⟩, hiff⟩
      · refine ⟨?_, ?_⟩
        · intro fp hfp' id hid
          rw [Dict.get?_set] at hid
          by_cases hk : fp = item.1.fingerprint
          · simp only [hk, if_true, Option.some.injEq] at hid
            subst hid
            exact ⟨_, List.mem_append_right _ (List.mem_singleton.mpr rfl), rfl, hk.symm, rfl⟩
          · simp only [hk, if_false] at hid
            obtain ⟨a, ha, hrest⟩ := h.linked.some fp hfp' id hid
            exact ⟨a, List.mem_append_left _ ha, hrest⟩
        · intro fp hfp' hnone
          rw [Dict.get?_set] at hnone
          by_cases hk : fp = item.1.fingerprint
          · simp [hk] at hnone
          · simp only [hk, if_false] at hnone
            rw [hiff]
            rintro (hact | heq)
            · exact h.linked.none fp hfp' hnone hact
            · exact hk heq
      · intro item' hitem' hsome'
        rw [hiff]
        simp only [Dict.get?_set] at hsome'
        by_cases hidx : item'.2 = item.2
        · exact Or.inr (by rw [eq_of_mem_zipIdx hitem' hitem hidx])
        · simp only [hidx, if_false] at hsome'
          exact Or.inl (h.done item' hitem' hsome')

end Step

theorem BulkOk.foldl_passA {b} (h : BulkOk svc inputs fps b) (items : List (AlertInput φ × Nat))
    (hitems : ∀ item ∈ items, item ∈ inputs.zipIdx ∧ item.1.fingerprint ∈ fps) :
    BulkOk svc inputs fps (items.foldl (Alerts.passA svc) b) ∧
      ∀ fp, ActiveIn (items.foldl (Alerts.passA svc) b).session fp ↔ ActiveIn b.session fp := by
  induction items generalizing b with
  | nil => exact ⟨h, fun fp => Iff.rfl⟩
  | cons item items ih =>
    obtain ⟨hmem, hfp⟩ := hitems item List.mem_cons_self
    obtain ⟨hok, hiff⟩ := h.passA hmem hfp
    obtain ⟨hok', hiff'⟩ := ih hok (fun x hx => hitems x (List.mem_cons_of_mem item hx))
    exact ⟨hok', fun fp => (hiff' fp).trans (hiff fp)⟩

theorem BulkOk.foldl_passB (hinj : Function.Injective svc.uuid4) {b} (h : BulkOk svc inputs fps b)
    (items : List (AlertInput φ × Nat)) (hitems : ∀ item ∈ items, item ∈ inputs.zipIdx ∧ item.1.fingerprint ∈ fps) :
    BulkOk svc inputs fps (items.foldl (Alerts.passB svc) b) ∧
      ∀ fp, ActiveIn (items.foldl (Alerts.passB svc) b).session fp ↔
        ActiveIn b.session fp ∨ ∃ item ∈ items, fp = item.1.fingerprint := by
  induction items generalizing b with
  | nil => exact ⟨h, fun fp => by simp⟩
  | cons item items ih =>
    obtain ⟨hmem, hfp⟩ := hitems item List.mem_cons_self
    obtain ⟨hok, hiff⟩ := h.passB hmem hfp hinj
    obtain ⟨hok', hiff'⟩ := ih hok (fun x hx => hitems x (List.mem_cons_of_mem item hx))
    refine ⟨hok', fun fp => (hiff' fp).trans ?_⟩
    rw [hiff fp, List.exists_mem_cons_iff, or_assoc]

/-! ## Resolutions -/

theorem resolveOne_activeIn {r : Resolving φ} (hwf : WellFormed svc r.session)
    (hlinked : Linked r.session r.active fps) {item} (hfp : item.fingerprint ∈ fps) :
    WellFormed svc (resolveOne svc r item).session ∧
      Linked (resolveOne svc r item).session (resolveOne svc r item).active fps ∧
      ∀ fp, ActiveIn (resolveOne svc r item).session fp ↔ ActiveIn r.session fp ∧ fp ≠ item.fingerprint := by
  cases hget : r.active.get? item.fingerprint with
  | none =>
    have hnot := hlinked.none _ hfp hget
    simp only [resolveOne, hget]
    refine ⟨hwf, hlinked, fun fp => ⟨fun hact => ⟨hact, ?_⟩, fun hact => hact.1⟩⟩
    rintro rfl
    exact hnot hact
  | some id =>
    obtain ⟨a, ha, rfl, hkey, hact⟩ := hlinked.some _ hfp id hget
    have hiff : ∀ fp, ActiveIn (r.session.tick.update a.id
        (resolved (svc.clock r.session.reads) item.actor item.reason)) fp ↔
        ActiveIn r.session fp ∧ fp ≠ item.fingerprint := by
      intro fp
      rw [activeIn_resolve hwf.tick ha hact, hkey]
      rfl
    simp only [resolveOne, hget]
    refine ⟨wellFormed_resolve hwf.tick a.id _ _ _, ⟨?_, ?_⟩, hiff⟩
    · intro fp hfp' id' hid'
      rw [Dict.get?_pop] at hid'
      by_cases hk : fp = item.fingerprint
      · simp [hk] at hid'
      · simp only [hk, if_false] at hid'
        obtain ⟨c, hc, hcid, hckey, hcact⟩ := hlinked.some fp hfp' id' hid'
        have hne : c.id ≠ a.id := by
          intro hid
          have hsame : c = a := List.inj_on_of_nodup_map hwf.ids_nodup hc ha hid
          exact hk (by rw [← hckey, hsame, hkey])
        exact ⟨c, mem_update.mpr ⟨c, hc, by simp [hne]⟩, hcid, hckey, hcact⟩
    · intro fp hfp' hnone
      rw [hiff]
      rintro ⟨hactive, hne⟩
      rw [Dict.get?_pop, if_neg hne] at hnone
      exact hlinked.none fp hfp' hnone hactive

theorem foldl_resolveOne_activeIn {r : Resolving φ} (hwf : WellFormed svc r.session)
    (hlinked : Linked r.session r.active fps) (items : List AlertResolution)
    (hitems : ∀ item ∈ items, item.fingerprint ∈ fps) (fp : String) :
    ActiveIn (items.foldl (resolveOne svc) r).session fp ↔
      ActiveIn r.session fp ∧ ∀ item ∈ items, fp ≠ item.fingerprint := by
  induction items generalizing r with
  | nil => simp
  | cons item items ih =>
    obtain ⟨hwf', hlinked', hiff⟩ := resolveOne_activeIn hwf hlinked (hitems item List.mem_cons_self)
    rw [List.foldl_cons, ih hwf' hlinked' (fun x hx => hitems x (List.mem_cons_of_mem item hx)), hiff,
      List.forall_mem_cons, and_assoc]

theorem foldl_resolveOne_wellFormed {r : Resolving φ} (hwf : WellFormed svc r.session)
    (hlinked : Linked r.session r.active fps) (items : List AlertResolution)
    (hitems : ∀ item ∈ items, item.fingerprint ∈ fps) : WellFormed svc (items.foldl (resolveOne svc) r).session := by
  induction items generalizing r with
  | nil => exact hwf
  | cons item items ih =>
    obtain ⟨hwf', hlinked', _⟩ := resolveOne_activeIn hwf hlinked (hitems item List.mem_cons_self)
    exact ih hwf' hlinked' (fun x hx => hitems x (List.mem_cons_of_mem item hx))

theorem foldl_resolveOne_mem (items : List AlertResolution) {r : Resolving φ} {a}
    (ha : a ∈ (items.foldl (resolveOne svc) r).session.alerts) : ∃ b ∈ r.session.alerts, Descends b a := by
  induction items generalizing r with
  | nil => exact ⟨a, ha, Descends.refl a⟩
  | cons item items ih =>
    obtain ⟨b, hb, hba⟩ := ih ha
    cases hget : r.active.get? item.fingerprint with
    | none =>
      simp only [resolveOne, hget] at hb
      exact ⟨b, hb, hba⟩
    | some id =>
      simp only [resolveOne, hget] at hb
      obtain ⟨c, hc, hcb⟩ := mem_update_descends (s := r.session.tick) (descends_resolved _ _ _) hb
      exact ⟨c, hc, fun h => hcb.active (hba.active h), hba.dedupKey.trans hcb.dedupKey,
        hba.sourceType.trans hcb.sourceType, hba.context.trans hcb.context⟩

theorem applyBulk_resolve (h : WellFormed svc s) (resolutions : List AlertResolution) :
    WellFormed svc (applyBulk svc s [] resolutions).2 ∧
      ∀ a ∈ (applyBulk svc s [] resolutions).2.alerts, ∃ b ∈ s.alerts, Descends b a := by
  refine ⟨foldl_resolveOne_wellFormed h (linked_activeAlerts s (bulkFingerprints [] resolutions)) _ ?_,
    fun a ha => foldl_resolveOne_mem _ ha⟩
  exact fun item hitem => List.mem_append_right _ (List.mem_map_of_mem hitem)

theorem applyBulk_activeIn (hinj : Function.Injective svc.uuid4) (h : WellFormed svc s)
    (inputs : List (AlertInput φ)) (resolutions : List AlertResolution) (fp : String) :
    ActiveIn (applyBulk svc s inputs resolutions).2 fp ↔
      (ActiveIn s fp ∨ ∃ data ∈ inputs, fp = data.fingerprint) ∧
        ∀ item ∈ resolutions, fp ≠ item.fingerprint := by
  set fps := bulkFingerprints inputs resolutions with hfps
  have hstart : BulkOk svc inputs fps { session := s, active := activeAlerts s fps } :=
    ⟨h, linked_activeAlerts s fps, by simp⟩
  have hitems : ∀ item ∈ inputs.zipIdx, item ∈ inputs.zipIdx ∧ item.1.fingerprint ∈ fps := by
    intro item hitem
    have hmem : item.1 ∈ inputs := List.fst_mem_of_mem_zipIdx hitem
    exact ⟨hitem, List.mem_append_left _ (List.mem_map_of_mem hmem)⟩
  have hresolutions : ∀ item ∈ resolutions, item.fingerprint ∈ fps := fun item hitem =>
    List.mem_append_right _ (List.mem_map_of_mem hitem)
  obtain ⟨hokA, hiffA⟩ := hstart.foldl_passA _ hitems
  obtain ⟨hokB, hiffB⟩ := hokA.foldl_passB hinj _ hitems
  have hresolved := foldl_resolveOne_activeIn (r := { session := _, active := _ }) hokB.wellFormed hokB.linked
    resolutions hresolutions fp
  have hexists : (∃ item ∈ inputs.zipIdx, fp = item.1.fingerprint) ↔ ∃ data ∈ inputs, fp = data.fingerprint := by
    constructor
    · rintro ⟨item, hitem, heq⟩
      exact ⟨item.1, List.fst_mem_of_mem_zipIdx hitem, heq⟩
    · rintro ⟨data, hdata, heq⟩
      obtain ⟨i, hi, rfl⟩ := List.getElem_of_mem hdata
      exact ⟨(inputs[i], i), List.mk_mem_zipIdx_iff_getElem?.mpr (by simp [hi]), heq⟩
  simp only [applyBulk, ← hfps]
  rw [hresolved, hiffB, hiffA, hexists]

end QRadarDashboard.Alerts
