import QRadarDashboard.Alerts.Lemmas.OneByOne

/-!
# The service works on conditions
-/

namespace QRadarDashboard.Alerts
open Lib

variable {φ : Type} {svc : Service} {s s' : Session φ} {fp : String}

/-! ## Rows -/

def Session.labels (s : Session φ) : List (String × String) := s.alerts.map (fun a => (a.id, a.dedupKey))

theorem labels_update {id} {f : Alert φ → Alert φ} (hf : ∀ a, (f a).id = a.id ∧ (f a).dedupKey = a.dedupKey) :
    (s.update id f).labels = s.labels := by
  rw [Session.labels, Session.update, List.map_map]
  refine List.map_congr_left (fun a _ => ?_)
  rw [Function.comp_apply]
  split
  · rw [(hf a).1, (hf a).2]
  · rfl

theorem WellFormed.label_unique (h : WellFormed svc s) {id fp'} (h₁ : (id, fp) ∈ s.labels)
    (h₂ : (id, fp') ∈ s.labels) : fp = fp' := by
  obtain ⟨a, ha, heq⟩ := List.mem_map.mp h₁
  obtain ⟨b, hb, heq'⟩ := List.mem_map.mp h₂
  obtain ⟨hid, rfl⟩ := Prod.mk.inj heq
  obtain ⟨hid', rfl⟩ := Prod.mk.inj heq'
  rw [List.inj_on_of_nodup_map h.ids_nodup ha hb (hid.trans hid'.symm)]

theorem findActive_update_ne {a} (h : WellFormed svc s) (ha : a ∈ s.alerts) (hne : a.dedupKey ≠ fp)
    {f : Alert φ → Alert φ} (hf : ∀ b, (f b).dedupKey = b.dedupKey) :
    (s.update a.id f).findActive fp = s.findActive fp := by
  have hrow : ∀ b ∈ s.alerts, b.id = a.id → b = a := fun b hb hid => List.inj_on_of_nodup_map h.ids_nodup hb ha hid
  rw [Session.findActive, Session.findActive, Session.update]
  generalize s.alerts = l at hrow
  induction l with
  | nil => rfl
  | cons b l ih =>
    have hrest := ih (fun c hc => hrow c (List.mem_cons_of_mem b hc))
    rw [List.map_cons, List.find?_cons, List.find?_cons, hrest]
    by_cases hid : b.id = a.id
    · obtain rfl := hrow b List.mem_cons_self hid
      simp [hf, hne]
    · rw [if_neg hid]

theorem findActive_update_self {a} (h : s.findActive fp = some a) {f : Alert φ → Alert φ} (hf : Keeps f) :
    (s.update a.id f).findActive fp = some (f a) := by
  rw [Session.findActive, Session.update, List.find?_map]
  have hp : ((fun b : Alert φ => decide (b.dedupKey = fp) && b.active) ∘ fun b => if b.id = a.id then f b else b) =
      fun b => decide (b.dedupKey = fp) && b.active := by
    funext b
    rw [Function.comp_apply, (hf.ite a.id b).1, (hf.ite a.id b).2]
  rw [hp]
  rw [Session.findActive] at h
  rw [h, Option.map_some, if_pos rfl]

/-! ## One piece of work -/

structure Done (svc : Service) (s : Session φ) (w : AlertWork φ) (r : Option AlertResult) (s' : Session φ) : Prop where
  wellFormed : WellFormed svc s'
  active : ∀ fp, (s'.findActive fp).map Alert.shown = (w.on fp ⟨(s.findActive fp).map Alert.shown, []⟩).active
  transition : r.toList.filterMap AlertResult.transition =
    (w.act ⟨(s.findActive w.fingerprint).map Alert.shown, []⟩).transitions
  label : ∀ result ∈ r, (result.alertId, w.fingerprint) ∈ s'.labels
  labels : s.labels <+: s'.labels

theorem openOrUpdate_done (hinj : Function.Injective svc.uuid4) (h : WellFormed svc s) (data : AlertInput φ) :
    Done svc s (.openOrUpdate data) (openOrUpdate svc s data).1 (openOrUpdate svc s data).2 := by
  have hwf := openOrUpdate_wellFormed hinj h data
  cases hfind : s.findActive data.fingerprint with
  | some a =>
    obtain ⟨ha, hkey, hact⟩ := findActive_eq_some hfind
    have hkeeps := keeps_refresh data (svc.clock s.reads)
    have hrun : openOrUpdate svc s data =
        (refreshed a.id, s.tick.update a.id (refresh data (svc.clock s.reads))) := by
      simp only [openOrUpdate, findActive_tick, hfind]
    have hlabels : (s.tick.update a.id (refresh data (svc.clock s.reads))).labels = s.labels :=
      labels_update (s := s.tick) (fun b => ⟨hkeeps.id b, hkeeps.dedupKey b⟩)
    rw [hrun] at hwf ⊢
    refine ⟨hwf, fun fp => ?_, ?_, fun result hresult => ?_, ?_⟩
    · by_cases hfp : data.fingerprint = fp
      · rw [AlertWork.on_eq (w := .openOrUpdate data) hfp, ← hfp, findActive_update_self (s := s.tick) hfind hkeeps,
          hfind]
        rfl
      · rw [findActive_update_ne h.tick ha (hkey.trans_ne hfp) hkeeps.dedupKey,
          AlertWork.on_ne (w := .openOrUpdate data) hfp]
        rfl
    · simp [AlertWork.fingerprint, hfind, AlertWork.act, Condition.openOrUpdate, refreshed]
    · cases hresult
      rw [hlabels, ← show a.dedupKey = (AlertWork.openOrUpdate data).fingerprint from hkey]
      exact List.mem_map_of_mem ha
    · exact hlabels.symm ▸ List.prefix_refl _
  | none =>
    have hrun : openOrUpdate svc s data =
        ({ alertId := svc.uuid4 s.issued, opened := true, updated := false, transition := some .opened },
          (s.tick.insert svc data (svc.clock s.reads)).2) := by
      simp only [openOrUpdate, findActive_tick, hfind]
      rfl
    have hlabels : (s.tick.insert svc data (svc.clock s.reads)).2.labels =
        s.labels ++ [(svc.uuid4 s.issued, data.fingerprint)] := by
      simp only [Session.labels, Session.insert, List.map_append]
      rfl
    rw [hrun] at hwf ⊢
    refine ⟨hwf, fun fp => ?_, ?_, fun result hresult => ?_, ?_⟩
    · have happend : (s.tick.insert svc data (svc.clock s.reads)).2.findActive fp = (s.findActive fp).or
          (if data.fingerprint = fp then some (newAlert data (svc.clock s.reads) (svc.uuid4 s.issued)) else none) := by
        rw [Session.findActive, Session.insert, List.find?_append]
        by_cases hfp : data.fingerprint = fp
        · simp [hfp, newAlert, Alert.active, Session.findActive, Session.tick]
        · simp [hfp, newAlert, Session.findActive, Session.tick]
      rw [happend]
      by_cases hfp : data.fingerprint = fp
      · rw [AlertWork.on_eq (w := .openOrUpdate data) hfp, if_pos hfp, ← hfp, hfind]
        rfl
      · rw [if_neg hfp, Option.or_none, AlertWork.on_ne (w := .openOrUpdate data) hfp]
    · simp [AlertWork.fingerprint, hfind, AlertWork.act, Condition.openOrUpdate]
    · cases hresult
      rw [hlabels]
      exact List.mem_append_right _ (List.mem_singleton.mpr rfl)
    · rw [hlabels]
      exact List.prefix_append _ _

theorem resolveByFingerprint_done (h : WellFormed svc s) (item : AlertResolution) :
    ∃ r s', resolveByFingerprint svc s item = .ok (r, s') ∧ Done svc s (.resolve item) r s' := by
  obtain ⟨r, s', hok, hwf, hactive⟩ := resolveByFingerprint_ok h item
  refine ⟨r, s', hok, ?_⟩
  cases hfind : s.findActive item.fingerprint with
  | none =>
    simp only [resolveByFingerprint, hfind] at hok
    cases hok
    refine ⟨h, fun fp => ?_, ?_, fun result hresult => (by cases hresult), List.prefix_refl _⟩
    · by_cases hfp : item.fingerprint = fp
      · rw [AlertWork.on_eq (w := .resolve item) hfp, ← hfp, hfind]
        rfl
      · rw [AlertWork.on_ne (w := .resolve item) hfp]
    · simp [AlertWork.fingerprint, hfind, AlertWork.act, Condition.resolve]
  | some a =>
    obtain ⟨ha, hkey, hact⟩ := findActive_eq_some hfind
    have hget := find?_id h ha
    have hstatus : a.status ≠ .resolved := by simpa [Alert.active] using hact
    simp only [resolveByFingerprint, resolve, hfind, hget, hstatus, if_false] at hok
    cases hok
    have hlabels : (s.tick.update a.id (resolved (svc.clock s.reads) item.actor item.reason)).labels = s.labels :=
      labels_update (s := s.tick) (fun _ => ⟨rfl, rfl⟩)
    refine ⟨hwf, fun fp => ?_, ?_, fun result hresult => ?_, ?_⟩
    · by_cases hfp : item.fingerprint = fp
      · have hgone := findActive_eq_none.mpr (fun hin => ((hactive _).mp hin).2 rfl)
        rw [AlertWork.on_eq (w := .resolve item) hfp, ← hfp, hgone, hfind]
        rfl
      · rw [findActive_update_ne h.tick ha (hkey.trans_ne hfp)
          (f := resolved (svc.clock s.reads) item.actor item.reason) (fun _ => rfl), AlertWork.on_ne (w := .resolve item) hfp]
        rfl
    · simp [AlertWork.fingerprint, hfind, AlertWork.act, Condition.resolve]
    · cases hresult
      rw [hlabels, ← show a.dedupKey = (AlertWork.resolve (φ := φ) item).fingerprint from hkey]
      exact List.mem_map_of_mem ha
    · exact hlabels.symm ▸ List.prefix_refl _

theorem doOne_done (hinj : Function.Injective svc.uuid4) (h : WellFormed svc s) (w : AlertWork φ) :
    ∃ r s', doOne svc s w = .ok (r, s') ∧ Done svc s w r s' := by
  cases w with
  | openOrUpdate data => exact ⟨_, _, rfl, openOrUpdate_done hinj h data⟩
  | resolve item => exact resolveByFingerprint_done h item

/-! ## Several pieces of work -/

theorem doEach_concat {works w results r s''} (h : doEach svc s works = .ok (results, s'))
    (hw : doOne svc s' w = .ok (r, s'')) : doEach svc s (works ++ [w]) = .ok (results ++ [r], s'') := by
  unfold doEach at h ⊢
  rw [List.foldlM_append, h]
  simp only [List.foldlM_cons, List.foldlM_nil, bind, Except.bind, hw, pure, Except.pure]

def Session.Names (s : Session φ) (results : List (Option AlertResult)) : Prop :=
  ∀ r ∈ results.reduceOption, r.alertId ∈ s.labels.map Prod.fst

theorem reduceOption_concat {α : Type} (results : List (Option α)) (r : Option α) :
    (results ++ [r]).reduceOption = results.reduceOption ++ r.toList := by
  rw [List.reduceOption_append, List.reduceOption_singleton]

theorem Done.condition {w r} (h : Done svc s w r s') {results} (hnames : s.Names results) :
    s'.Names (results ++ [r]) ∧ ∀ fp, s'.condition fp (results ++ [r]) = w.on fp (s.condition fp results) := by
  refine ⟨fun r' hr' => ?_, fun fp => ?_⟩
  · rw [reduceOption_concat] at hr'
    rcases List.mem_append.mp hr' with hold | hnew
    · exact (h.labels.map Prod.fst).subset (hnames r' hold)
    · exact List.mem_map_of_mem (h.label r' (Option.mem_toList.mp hnew))
  · -- earlier results name rows that keep their fingerprint
    have hold : results.reduceOption.filterMap (fun x => if (x.alertId, fp) ∈ s'.labels then x.transition else none) =
        results.reduceOption.filterMap (fun x => if (x.alertId, fp) ∈ s.labels then x.transition else none) := by
      refine List.filterMap_congr (fun x hx => ?_)
      have hiff : (x.alertId, fp) ∈ s'.labels ↔ (x.alertId, fp) ∈ s.labels := by
        refine ⟨fun hmem => ?_, fun hmem => h.labels.subset hmem⟩
        obtain ⟨⟨id, fp'⟩, hlabel, hid⟩ := List.mem_map.mp (hnames x hx)
        rw [← show id = x.alertId from hid] at hmem ⊢
        rwa [h.wellFormed.label_unique hmem (h.labels.subset hlabel)]
      simp only [hiff]
    have hnew : r.toList.filterMap (fun x => if (x.alertId, fp) ∈ s'.labels then x.transition else none) =
        (w.on fp ⟨(s.findActive fp).map Alert.shown, []⟩).transitions := by
      by_cases hfp : w.fingerprint = fp
      · subst hfp
        rw [AlertWork.on_eq rfl, ← h.transition]
        exact List.filterMap_congr (fun x hx => if_pos (h.label x (Option.mem_toList.mp hx)))
      · rw [AlertWork.on_ne hfp]
        refine List.filterMap_eq_nil_iff.mpr (fun x hx => if_neg (fun hmem => hfp ?_))
        exact h.wellFormed.label_unique (h.label x (Option.mem_toList.mp hx)) hmem
    have hon : w.on fp (s.condition fp results) = ⟨(w.on fp ⟨(s.findActive fp).map Alert.shown, []⟩).active,
        transitionsOf s.alerts fp results ++ (w.on fp ⟨(s.findActive fp).map Alert.shown, []⟩).transitions⟩ := by
      unfold AlertWork.on
      split
      · exact w.act_eq _
      · simp [Session.condition]
    rw [hon, Session.condition, h.active, transitionsOf, reduceOption_concat, List.filterMap_append]
    exact congrArg (Condition.mk _) (congrArg₂ _ hold hnew)

theorem doEach_condition (hinj : Function.Injective svc.uuid4) (h : WellFormed svc s)
    {earlier} (hnames : s.Names earlier) (works : List (AlertWork φ)) :
    ∃ results s', doEach svc s works = .ok (results, s') ∧ WellFormed svc s' ∧ s'.Names (earlier ++ results) ∧
      ∀ fp, s'.condition fp (earlier ++ results) = works.foldl (AlertWork.on fp) (s.condition fp earlier) := by
  induction works using List.reverseRecOn with
  | nil => exact ⟨[], s, rfl, h, by rwa [List.append_nil], fun fp => by rw [List.append_nil]; rfl⟩
  | append_singleton works w ih =>
    obtain ⟨results, s₁, heach, hwf, hnames₁, hcondition⟩ := ih
    obtain ⟨r, s₂, hone, hdone⟩ := doOne_done hinj hwf w
    obtain ⟨hnames₂, hstep⟩ := hdone.condition hnames₁
    rw [List.append_assoc] at hnames₂
    refine ⟨results ++ [r], s₂, doEach_concat heach hone, hdone.wellFormed, hnames₂, fun fp => ?_⟩
    rw [← List.append_assoc, hstep, hcondition, List.foldl_append, List.foldl_cons, List.foldl_nil]

/-! ## The bulk call -/

theorem doEach_inputs (inputs : List (AlertInput φ)) :
    doEach svc s (inputs.map .openOrUpdate) = .ok ((openEach svc s inputs).1.map some, (openEach svc s inputs).2) := by
  induction inputs using List.reverseRecOn with
  | nil => rfl
  | append_singleton inputs data ih =>
    rw [List.map_append, openEach_concat, List.map_append]
    exact doEach_concat ih rfl

theorem doEach_resolutions {works results}
    (h : doEach svc s works = .ok (results, s')) (hwf : WellFormed svc s') (items : List AlertResolution) :
    ∃ rs s'', resolveEach svc s' items = .ok (rs, s'') ∧ WellFormed svc s'' ∧
      doEach svc s (works ++ items.map .resolve) = .ok (results ++ rs, s'') := by
  induction items using List.reverseRecOn with
  | nil => exact ⟨[], s', rfl, hwf, by simpa using h⟩
  | append_singleton items item ih =>
    obtain ⟨rs, s₁, heach, hwf₁, hboth⟩ := ih
    obtain ⟨r, s₂, hitem, hwf₂, -⟩ := resolveByFingerprint_ok hwf₁ item
    refine ⟨rs ++ [r], s₂, resolveEach_concat heach hitem, hwf₂, ?_⟩
    rw [List.map_append, ← List.append_assoc, ← List.append_assoc]
    exact doEach_concat hboth hitem

theorem condition_book {s₁ s₂ : Session φ} (h : s₂.book = s₁.book) (results : List (Option AlertResult)) :
    s₂.labels = s₁.labels ∧ ∀ fp, s₂.condition fp results = s₁.condition fp results := by
  have halerts : s₂.alerts.map Alert.timeless = s₁.alerts.map Alert.timeless := congrArg Book.alerts h
  have hshown : ∀ (s : Session φ) fp, (s.findActive fp).map Alert.shown =
      ((s.alerts.map Alert.timeless).find? (fun a => a.dedupKey = fp && a.active)).map Alert.shown := by
    intro s fp
    rw [List.find?_map, Option.map_map]
    rfl
  have hlabels : ∀ s : Session φ, s.labels = (s.alerts.map Alert.timeless).map (fun a => (a.id, a.dedupKey)) := by
    intro s
    rw [List.map_map]
    rfl
  have hsame : s₂.labels = s₁.labels := by rw [hlabels, halerts, ← hlabels]
  refine ⟨hsame, fun fp => congrArg₂ Condition.mk ?_ ?_⟩
  · rw [hshown, halerts, ← hshown]
  · have htransitions : ∀ s : Session φ, transitionsOf s.alerts fp results = results.reduceOption.filterMap
        (fun r => if (r.alertId, fp) ∈ s.labels then r.transition else none) := fun s => rfl
    rw [htransitions, htransitions, hsame]

theorem applyBulk_condition (hinj : Function.Injective svc.uuid4) (h : WellFormed svc s) {earlier}
    (hnames : s.Names earlier) (inputs : List (AlertInput φ)) (resolutions : List AlertResolution) :
    ∃ rs s', applyBulk svc s inputs resolutions = (rs, s') ∧ WellFormed svc s' ∧
      s'.Names (earlier ++ (rs.1.map some ++ rs.2)) ∧
      ∀ fp, s'.condition fp (earlier ++ (rs.1.map some ++ rs.2)) =
        (inputs.map AlertWork.openOrUpdate ++ resolutions.map AlertWork.resolve).foldl (AlertWork.on fp)
          (s.condition fp earlier) := by
  obtain ⟨rs, s₁, s₂, heach, -, hbulk, hwf, hbook⟩ := applyBulk_book hinj h inputs resolutions
  obtain ⟨rs', s₁', heach', -, hboth⟩ :=
    doEach_resolutions (doEach_inputs inputs) (openEach_wellFormed hinj h inputs) resolutions
  obtain ⟨rfl, rfl⟩ := Prod.mk.inj (Except.ok.inj (heach.symm.trans heach'))
  obtain ⟨results, s', hdo, -, hnames', hcondition⟩ :=
    doEach_condition hinj h hnames (inputs.map AlertWork.openOrUpdate ++ resolutions.map AlertWork.resolve)
  obtain ⟨rfl, rfl⟩ := Prod.mk.inj (Except.ok.inj (hboth.symm.trans hdo))
  refine ⟨_, s₂, hbulk, hwf, ?_, fun fp => ?_⟩
  · rw [Session.Names, (condition_book hbook []).1]
    exact hnames'
  · rw [(condition_book hbook _).2]
    exact hcondition fp

end QRadarDashboard.Alerts
