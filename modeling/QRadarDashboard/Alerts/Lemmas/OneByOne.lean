import QRadarDashboard.Alerts.Lemmas.Book
import Mathlib.Data.List.ReduceOption

/-!
# One condition after the other
-/

namespace QRadarDashboard.Alerts
open Lib

/-!
## The two passes of a bulk call

Pass A does on the book the work of the inputs whose alert was active in the snapshot, pass B that of the rest.
Together they do what the inputs do in order.
-/

variable {φ : Type} {svc : Service} {s : Session φ} {fps : List String} {inputs : List (AlertInput φ)}

def Bulk.pass (b : Bulk φ) : Pass φ := ⟨b.session.book, fun i => b.results.get? i⟩

theorem Linked.activeId {active fp} (h : Linked s active fps)
    (hwf : WellFormed svc s) (hfp : fp ∈ fps) : s.book.activeId fp = active.get? fp := by
  rw [activeId_book]
  cases hget : active.get? fp with
  | none =>
    rw [findActive_eq_none.mpr (h.none fp hfp hget)]
    rfl
  | some id =>
    obtain ⟨a, ha, rfl, hkey, hact⟩ := h.some fp hfp id hget
    cases hfind : s.findActive fp with
    | none => exact absurd ⟨a, ha, hkey, hact⟩ (findActive_eq_none.mp hfind)
    | some b =>
      obtain ⟨hb, hkeyb, hactb⟩ := findActive_eq_some hfind
      rw [hwf.one_active b hb a ha hactb hact (hkeyb.trans hkey.symm)]
      rfl

theorem results_set (d : Dict Nat AlertResult) (i : Nat) (r : AlertResult) :
    (fun j => (d.set i r).get? j) = Function.update (fun j => d.get? j) i (some r) := by
  funext j
  rw [Dict.get?_set, Function.update_apply]

section Step

variable {b : Bulk φ} {item : AlertInput φ × Nat} (h : BulkOk svc inputs fps b)
variable (hfp : item.1.fingerprint ∈ fps)

include h hfp

theorem BulkOk.pass_refreshed {id} (hget : b.active.get? item.1.fingerprint = some id) (now : Int) :
    Bulk.pass
      { b with
        session := b.session.tick.update id (refresh item.1 now)
        results := b.results.set item.2 (Alerts.refreshed id) } = b.pass.take svc.uuid4 item := by
  have hactive := (h.linked.activeId h.wellFormed hfp).trans hget
  obtain ⟨a, ha, rfl, hkey, hact⟩ := h.linked.some _ hfp id hget
  have hupdate := book_update h.wellFormed.tick ha hact (refresh_timeless item.1 now)
  simp only [Bulk.pass, Pass.take, work_of_active hactive, results_set, hupdate, hkey]
  rfl

theorem BulkOk.pass_passA : (Alerts.passA svc b item).active = b.active ∧
    (Alerts.passA svc b item).pass =
      if (b.active.get? item.1.fingerprint).isSome then b.pass.take svc.uuid4 item else b.pass := by
  cases hget : b.active.get? item.1.fingerprint with
  | none =>
    have hskip : Alerts.passA svc b item = b := by simp [Alerts.passA, hget]
    simp [hskip]
  | some id =>
    have hpass := h.pass_refreshed hfp hget (svc.clock b.session.reads)
    simp only [Alerts.passA, hget, hpass, Option.isSome_some, if_true, and_self]

theorem BulkOk.pass_passB : (Alerts.passB svc b item).pass =
    if (b.results.get? item.2).isSome then b.pass else b.pass.take svc.uuid4 item := by
  by_cases hsome : (b.results.get? item.2).isSome
  · simp [Alerts.passB, hsome]
  · rw [if_neg hsome]
    simp only [Alerts.passB, hsome, Bool.false_eq_true, if_false]
    cases hget : b.active.get? item.1.fingerprint with
    | some id => exact h.pass_refreshed hfp hget _
    | none =>
      have hactive := (h.linked.activeId h.wellFormed hfp).trans hget
      have hinsert := @book_insert φ svc b.session.tick item.1 (svc.clock b.session.reads)
      simp only [Bulk.pass, Pass.take, work_of_inactive hactive, results_set, hinsert]
      rfl

end Step

theorem passB_results_ne {b : Bulk φ} {item i} (hi : i ≠ item.2) :
    (Alerts.passB svc b item).results.get? i = b.results.get? i := by
  unfold passB
  split
  · rfl
  · cases b.active.get? item.1.fingerprint <;> simp [Dict.get?_set, hi]

theorem BulkOk.pass_foldl_passA {b} (h : BulkOk svc inputs fps b) {items : List (AlertInput φ × Nat)}
    (hitems : ∀ item ∈ items, item ∈ inputs.zipIdx ∧ item.1.fingerprint ∈ fps) :
    (items.foldl (Alerts.passA svc) b).pass =
      (items.filter (fun x => (b.active.get? x.1.fingerprint).isSome)).foldl (Pass.take svc.uuid4) b.pass := by
  induction items generalizing b with
  | nil => rfl
  | cons item items ih =>
    obtain ⟨hmem, hfp⟩ := hitems item List.mem_cons_self
    obtain ⟨hactive, hpass⟩ := h.pass_passA hfp
    have hrest := ih (h.passA hmem hfp).1 (fun x hx => hitems x (List.mem_cons_of_mem item hx))
    rw [List.foldl_cons, hrest, hactive, hpass, List.filter_cons]
    by_cases hsome : (b.active.get? item.1.fingerprint).isSome
    · simp only [hsome, if_true, List.foldl_cons]
    · simp only [hsome, if_false, Bool.false_eq_true]

theorem BulkOk.pass_foldl_passB (hinj : Function.Injective svc.uuid4) {b : Bulk φ} (h : BulkOk svc inputs fps b)
    {items : List (AlertInput φ × Nat)} (hitems : ∀ item ∈ items, item ∈ inputs.zipIdx ∧ item.1.fingerprint ∈ fps)
    (hplaces : items.Pairwise (fun y x => y.2 ≠ x.2)) :
    (items.foldl (Alerts.passB svc) b).pass =
      (items.filter (fun x => !(b.results.get? x.2).isSome)).foldl (Pass.take svc.uuid4) b.pass := by
  induction items generalizing b with
  | nil => rfl
  | cons item items ih =>
    obtain ⟨hmem, hfp⟩ := hitems item List.mem_cons_self
    obtain ⟨hitem, hplaces⟩ := List.pairwise_cons.mp hplaces
    have hrest := ih (h.passB hmem hfp hinj).1 (fun x hx => hitems x (List.mem_cons_of_mem item hx)) hplaces
    have hunvisited : items.filter (fun x => !((Alerts.passB svc b item).results.get? x.2).isSome) =
        items.filter (fun x => !(b.results.get? x.2).isSome) := by
      refine List.filter_congr (fun x hx => ?_)
      rw [passB_results_ne (hitem x hx).symm]
    rw [List.foldl_cons, hrest, hunvisited, h.pass_passB hfp, List.filter_cons]
    by_cases hsome : (b.results.get? item.2).isSome
    · simp only [hsome, if_true, Bool.not_true, Bool.false_eq_true, if_false]
    · simp only [hsome, if_false, Bool.not_false, if_true, Bool.false_eq_true, List.foldl_cons]

theorem foldl_take_results {uuid4 : Nat → String} (items : List (AlertInput φ × Nat)) (p : Pass φ) (i : Nat) :
    ((items.foldl (Pass.take uuid4) p).results i).isSome ↔ (p.results i).isSome ∨ ∃ x ∈ items, x.2 = i := by
  induction items generalizing p with
  | nil => simp
  | cons item items ih =>
    rw [List.foldl_cons, ih, List.exists_mem_cons_iff, ← or_assoc]
    by_cases hi : i = item.2
    · simp [Pass.take, hi]
    · simp [Pass.take, hi, Ne.symm hi]

theorem pairwise_places (inputs : List (AlertInput φ)) : inputs.zipIdx.Pairwise (fun y x => y.2 ≠ x.2) := by
  have hnodup : (inputs.zipIdx.map Prod.snd).Nodup := by
    rw [List.zipIdx_map_snd]
    exact List.nodup_range'
  exact List.pairwise_map.mp hnodup

theorem BulkOk.pass_inputs (hinj : Function.Injective svc.uuid4) {b} (h : BulkOk svc inputs fps b)
    (hfps : ∀ item ∈ inputs.zipIdx, item.1.fingerprint ∈ fps) (hfresh : ∀ i, b.results.get? i = none) :
    (inputs.zipIdx.foldl (Alerts.passB svc) (inputs.zipIdx.foldl (Alerts.passA svc) b)).pass =
      inputs.zipIdx.foldl (Pass.take svc.uuid4) b.pass := by
  have hitems : ∀ item ∈ inputs.zipIdx, item ∈ inputs.zipIdx ∧ item.1.fingerprint ∈ fps :=
    fun item hitem => ⟨hitem, hfps item hitem⟩
  have hfirst := h.pass_foldl_passA hitems
  have hsecond := (h.foldl_passA _ hitems).1.pass_foldl_passB hinj hitems (pairwise_places inputs)
  have hleft : inputs.zipIdx.filter
        (fun x => !((inputs.zipIdx.foldl (Alerts.passA svc) b).results.get? x.2).isSome) =
      inputs.zipIdx.filter (fun x => !(b.active.get? x.1.fingerprint).isSome) := by
    refine List.filter_congr (fun x hx => ?_)
    have hresult := @foldl_take_results φ svc.uuid4
      (inputs.zipIdx.filter (fun x => (b.active.get? x.1.fingerprint).isSome)) b.pass x.2
    rw [← hfirst] at hresult
    have hiff : ((inputs.zipIdx.foldl (Alerts.passA svc) b).results.get? x.2).isSome ↔
        (b.active.get? x.1.fingerprint).isSome := by
      refine hresult.trans ⟨?_, fun hsome => Or.inr ⟨x, List.mem_filter.mpr ⟨hx, hsome⟩, rfl⟩⟩
      rintro (hsome | ⟨y, hy, hyx⟩)
      · simp [Bulk.pass, hfresh] at hsome
      · obtain ⟨hmem, hsome⟩ := List.mem_filter.mp hy
        rwa [← eq_of_mem_zipIdx hmem hx hyx]
    rw [Bool.eq_iff_iff.mpr hiff]
  rw [hsecond, hfirst, hleft]
  refine (foldl_take_two_passes (pairwise_places inputs) (fun item hitem hsome => ?_)).symm
  have hactive : b.pass.book.activeId item.1.fingerprint = b.active.get? item.1.fingerprint :=
    h.linked.activeId h.wellFormed (hfps item hitem)
  rw [hactive]
  exact hsome

variable {φ : Type} {svc : Service} {s : Session φ}

/-! ## The inputs -/

theorem openEach_concat (inputs : List (AlertInput φ)) (data : AlertInput φ) :
    openEach svc s (inputs ++ [data]) =
      ((openEach svc s inputs).1 ++ [(openOrUpdate svc (openEach svc s inputs).2 data).1],
        (openOrUpdate svc (openEach svc s inputs).2 data).2) := by
  simp only [openEach, List.foldl_append, List.foldl_cons, List.foldl_nil]

theorem openEach_length (inputs : List (AlertInput φ)) : (openEach svc s inputs).1.length = inputs.length := by
  induction inputs using List.reverseRecOn with
  | nil => rfl
  | append_singleton inputs data ih => simp [openEach_concat, ih]

theorem openEach_wellFormed (hinj : Function.Injective svc.uuid4) (h : WellFormed svc s)
    (inputs : List (AlertInput φ)) : WellFormed svc (openEach svc s inputs).2 := by
  induction inputs using List.reverseRecOn with
  | nil => exact h
  | append_singleton inputs data ih =>
    rw [openEach_concat]
    exact openOrUpdate_wellFormed hinj ih data

theorem openEach_pass (hinj : Function.Injective svc.uuid4) (h : WellFormed svc s) (inputs : List (AlertInput φ)) :
    inputs.zipIdx.foldl (Pass.take svc.uuid4) ⟨s.book, fun _ => none⟩ =
      ⟨(openEach svc s inputs).2.book, fun i => (openEach svc s inputs).1[i]?⟩ := by
  induction inputs using List.reverseRecOn with
  | nil => rfl
  | append_singleton inputs data ih =>
    have hwork := openOrUpdate_book (openEach_wellFormed hinj h inputs) data
    have hlen := @openEach_length φ svc s inputs
    rw [List.zipIdx_append, List.foldl_append, ih, openEach_concat]
    simp only [List.zipIdx_singleton, Nat.zero_add, List.foldl_cons, List.foldl_nil, Pass.take, ← hwork]
    refine congrArg (Pass.mk _) ?_
    funext i
    rw [Function.update_apply, List.getElem?_append, hlen]
    by_cases hi : i = inputs.length
    · simp [hi]
    · by_cases hlt : i < inputs.length
      · simp [hi, hlt]
      · have hnone : i - inputs.length ≠ 0 := by omega
        simp [hi, hlt, hlen, hnone]

theorem filterMap_range_getElem? {α : Type} (results : List α) :
    (List.range results.length).filterMap (fun i => results[i]?) = results := by
  induction results using List.reverseRecOn with
  | nil => rfl
  | append_singleton results r ih =>
    have hbefore : (List.range results.length).filterMap (fun i => (results ++ [r])[i]?) =
        (List.range results.length).filterMap (fun i => results[i]?) := by
      refine List.filterMap_congr (fun i hi => ?_)
      rw [List.getElem?_append_left (List.mem_range.mp hi)]
    rw [List.length_append, List.length_singleton, List.range_succ, List.filterMap_append, hbefore, ih]
    simp

/-! ## The resolutions -/

def Book.closeEach (items : List AlertResolution) (r : List (Option AlertResult) × Book φ) :
    List (Option AlertResult) × Book φ :=
  items.foldl (fun r item => (r.1 ++ [(r.2.close item).1], (r.2.close item).2)) r

theorem foldl_resolveOne_closeEach {fps} {r : Resolving φ} (hwf : WellFormed svc r.session)
    (hlinked : Linked r.session r.active fps) (items : List AlertResolution)
    (hitems : ∀ item ∈ items, item.fingerprint ∈ fps) :
    ((items.foldl (resolveOne svc) r).resolved, (items.foldl (resolveOne svc) r).session.book) =
      Book.closeEach items (r.resolved, r.session.book) := by
  induction items generalizing r with
  | nil => rfl
  | cons item items ih =>
    have hfp := hitems item List.mem_cons_self
    obtain ⟨hwf', hlinked', -⟩ := resolveOne_activeIn hwf hlinked hfp
    have hrest := ih hwf' hlinked' (fun x hx => hitems x (List.mem_cons_of_mem item hx))
    have hclose : ((resolveOne svc r item).resolved, (resolveOne svc r item).session.book) =
        (r.resolved ++ [(r.session.book.close item).1], (r.session.book.close item).2) := by
      have hactive := hlinked.activeId hwf hfp
      cases hget : r.active.get? item.fingerprint with
      | none => simp only [resolveOne, hget, Book.close, hactive]
      | some id =>
        obtain ⟨a, ha, rfl, hkey, hact⟩ := hlinked.some _ hfp id hget
        have hupdate := book_update hwf.tick ha hact
          (resolved_timeless (svc.clock r.session.reads) item.actor item.reason)
        simp only [resolveOne, hget, Book.close, hactive, hupdate, hkey]
        rfl
    rw [List.foldl_cons, hrest, hclose, Book.closeEach, Book.closeEach, List.foldl_cons]

/-! ## What is reported -/

def reported (t : AlertTransition) (results : List AlertResult) : List String :=
  results.filterMap (fun r => if r.transition = some t then some r.alertId else none)

def Book.ids (b : Book φ) : List String := b.alerts.map (fun a => a.id)

def Book.resolvedIds (b : Book φ) : List String := (b.alerts.filter (fun a => !a.active)).map (fun a => a.id)

theorem Keeps.write_ids {b : Book φ} {fp} {f : Alert φ → Alert φ} (hf : ∀ a, (f a).id = a.id) :
    (b.write fp f).ids = b.ids := by
  simp only [Book.ids, Book.write, List.map_map]
  refine List.map_congr_left (fun a _ => ?_)
  simp only [Function.comp_apply]
  split
  · exact hf a
  · rfl

theorem work_reported {uuid4 : Nat → String} (b : Book φ) (data : AlertInput φ) :
    (b.work uuid4 data).2.ids = b.ids ++ reported .opened [(b.work uuid4 data).1] ∧
      (b.work uuid4 data).2.resolvedIds = b.resolvedIds ∧ reported .resolved [(b.work uuid4 data).1] = [] := by
  cases hactive : b.activeId data.fingerprint with
  | some id =>
    rw [work_of_active hactive]
    refine ⟨?_, ?_, rfl⟩
    · simp [Keeps.write_ids (keeps_refresh data 0).id, reported, refreshed]
    · have hkeeps := keeps_refresh data 0
      simp only [Book.resolvedIds, Book.write, List.filter_map, List.map_map]
      have hrow : ∀ a : Alert φ,
          (if a.dedupKey = data.fingerprint && a.active then (refresh data 0 a).timeless else a).id = a.id ∧
          (if a.dedupKey = data.fingerprint && a.active then (refresh data 0 a).timeless else a).active =
            a.active := by
        intro a
        split
        · exact ⟨rfl, rfl⟩
        · exact ⟨rfl, rfl⟩
      refine congrArg₂ List.map (funext fun a => (hrow a).1) (List.filter_congr fun a _ => ?_)
      simp only [Function.comp_apply, (hrow a).2]
  | none =>
    rw [work_of_inactive hactive]
    refine ⟨by simp [Book.ids, reported, newAlert], ?_, rfl⟩
    have hopen : (newAlert data 0 (uuid4 b.issued)).active = true := rfl
    simp [Book.resolvedIds, hopen]

theorem close_reported {b : Book φ} (hb : b.Unique) (item : AlertResolution) :
    (b.close item).2.ids = b.ids ∧ reported .opened (b.close item).1.toList = [] ∧
      (b.close item).2.resolvedIds.Perm (b.resolvedIds ++ reported .resolved (b.close item).1.toList) := by
  cases hactive : b.activeId item.fingerprint with
  | none => simp [Book.close, hactive, reported]
  | some id =>
    simp only [Book.close, hactive]
    refine ⟨Keeps.write_ids (fun _ => rfl), rfl, ?_⟩
    obtain ⟨before, a, after, hsplit, rfl, -, hact, hwrite⟩ := hb.split hactive
    have hclosed : (resolved 0 item.actor item.reason a).active = false := resolved_active _ _ _ a
    simp only [Book.resolvedIds, hwrite, hsplit, List.filter_append, List.filter_cons, Alert.timeless_active,
      hclosed, hact, Bool.not_true, Bool.not_false, if_true, Bool.false_eq_true, if_false, List.map_append,
      List.map_cons, Alert.timeless_id, reported, Option.toList_some, List.filterMap_cons, List.filterMap_nil]
    rw [List.append_assoc]
    exact (List.perm_append_left_iff _).mpr (List.perm_append_singleton _ _).symm

theorem reported_append (t : AlertTransition) (rs rs' : List AlertResult) :
    reported t (rs ++ rs') = reported t rs ++ reported t rs' := List.filterMap_append

theorem openEach_reported (hinj : Function.Injective svc.uuid4) (h : WellFormed svc s) (inputs : List (AlertInput φ)) :
    (openEach svc s inputs).2.book.ids = s.book.ids ++ reported .opened (openEach svc s inputs).1 ∧
      (openEach svc s inputs).2.book.resolvedIds = s.book.resolvedIds ∧
      reported .resolved (openEach svc s inputs).1 = [] := by
  induction inputs using List.reverseRecOn with
  | nil => simp [openEach, reported]
  | append_singleton inputs data ih =>
    obtain ⟨hids, hresolved, hnone⟩ := ih
    have hwork := openOrUpdate_book (openEach_wellFormed hinj h inputs) data
    obtain ⟨hids', hresolved', hnone'⟩ := @work_reported φ svc.uuid4 (openEach svc s inputs).2.book data
    simp only [← hwork] at hids' hresolved' hnone'
    simp only [openEach_concat, reported_append, hids', hids, List.append_assoc, hresolved', hresolved, hnone,
      hnone', List.append_nil, and_self]

theorem resolveEach_concat {items item rs r s₁ s₂} (h : resolveEach svc s items = .ok (rs, s₁))
    (hitem : resolveByFingerprint svc s₁ item = .ok (r, s₂)) :
    resolveEach svc s (items ++ [item]) = .ok (rs ++ [r], s₂) := by
  unfold resolveEach at h ⊢
  rw [List.foldlM_append, h]
  simp only [List.foldlM_cons, List.foldlM_nil, bind, Except.bind, hitem, pure, Except.pure]

theorem resolveEach_reported (h : WellFormed svc s) (items : List AlertResolution) :
    ∃ rs s', resolveEach svc s items = .ok (rs, s') ∧ WellFormed svc s' ∧
      (rs, s'.book) = Book.closeEach items ([], s.book) ∧
      s'.book.ids = s.book.ids ∧ reported .opened rs.reduceOption = [] ∧
      s'.book.resolvedIds.Perm (s.book.resolvedIds ++ reported .resolved rs.reduceOption) := by
  induction items using List.reverseRecOn with
  | nil => exact ⟨[], s, rfl, h, rfl, rfl, rfl, by simp [reported, List.reduceOption_nil]⟩
  | append_singleton items item ih =>
    obtain ⟨rs, s₁, hitems, hwf₁, hbook, hids, hopened, hresolved⟩ := ih
    obtain ⟨r, s₂, hitem, hwf₂, hclose⟩ := resolveByFingerprint_book hwf₁ item
    obtain ⟨hids', hopened', hresolved'⟩ := close_reported hwf₁.unique item
    rw [← hclose] at hids' hopened' hresolved'
    have hreduce : (rs ++ [r]).reduceOption = rs.reduceOption ++ r.toList := by
      rw [List.reduceOption_append, List.reduceOption_singleton]
    refine ⟨rs ++ [r], s₂, resolveEach_concat hitems hitem, hwf₂, ?_, hids'.trans hids, ?_, ?_⟩
    · unfold Book.closeEach at hbook ⊢
      rw [List.foldl_append, ← hbook, List.foldl_cons, List.foldl_nil, ← hclose]
    · rw [hreduce, reported_append, hopened, hopened', List.append_nil]
    · rw [hreduce, reported_append, ← List.append_assoc]
      exact hresolved'.trans (hresolved.append_right _)

/-! ## Both -/

theorem applyBulk_book (hinj : Function.Injective svc.uuid4) (h : WellFormed svc s) (inputs : List (AlertInput φ))
    (resolutions : List AlertResolution) :
    ∃ rs s₁ s₂, resolveEach svc (openEach svc s inputs).2 resolutions = .ok (rs, s₁) ∧ WellFormed svc s₁ ∧
      applyBulk svc s inputs resolutions = (((openEach svc s inputs).1, rs), s₂) ∧ WellFormed svc s₂ ∧
      s₂.book = s₁.book := by
  set fps := bulkFingerprints inputs resolutions with hfps
  set start : Bulk φ := { session := s, active := activeAlerts s fps } with hstart
  have hok : BulkOk svc inputs fps start := ⟨h, linked_activeAlerts s fps, by simp [hstart]⟩
  have hmem : ∀ item ∈ inputs.zipIdx, item.1.fingerprint ∈ fps := fun item hitem =>
    List.mem_append_left _ (List.mem_map_of_mem (List.fst_mem_of_mem_zipIdx hitem))
  have hitems : ∀ item ∈ inputs.zipIdx, item ∈ inputs.zipIdx ∧ item.1.fingerprint ∈ fps :=
    fun item hitem => ⟨hitem, hmem item hitem⟩
  have hclosing : ∀ item ∈ resolutions, item.fingerprint ∈ fps := fun item hitem =>
    List.mem_append_right _ (List.mem_map_of_mem hitem)
  -- the inputs
  set opened := inputs.zipIdx.foldl (passB svc) (inputs.zipIdx.foldl (passA svc) start) with hopened
  have hpass : opened.pass =
      ⟨(openEach svc s inputs).2.book, fun i => (openEach svc s inputs).1[i]?⟩ :=
    (hok.pass_inputs hinj hmem (fun _ => rfl)).trans (openEach_pass hinj h inputs)
  have hokB := ((hok.foldl_passA _ hitems).1.foldl_passB hinj _ hitems).1
  have hbook : opened.session.book = (openEach svc s inputs).2.book := congrArg Pass.book hpass
  have hresults : (List.range inputs.length).filterMap (fun i => opened.results.get? i) =
      (openEach svc s inputs).1 := by
    have hget : (fun i => opened.results.get? i) = fun i => (openEach svc s inputs).1[i]? :=
      congrArg Pass.results hpass
    rw [hget, ← @openEach_length φ svc s inputs]
    exact filterMap_range_getElem? _
  -- the resolutions
  obtain ⟨rs, s₁, heach, hwf, hclose, -⟩ := resolveEach_reported (openEach_wellFormed hinj h inputs) resolutions
  have hbulk := foldl_resolveOne_closeEach (r := { session := _, active := _ }) hokB.wellFormed hokB.linked
    resolutions hclosing
  simp only [← hopened, hbook, ← hclose, Prod.mk.injEq] at hbulk
  have hwf' := foldl_resolveOne_wellFormed (r := { session := _, active := _ }) hokB.wellFormed hokB.linked
    resolutions hclosing
  exact ⟨rs, s₁, _, heach, hwf, Prod.ext (Prod.ext hresults hbulk.1) rfl, hwf', hbulk.2⟩

end QRadarDashboard.Alerts
