import QRadarDashboard.Alerts.Lemmas.Conditions
import QRadarDashboard.PropertyWatch.Engine

/-!
# The rounds keep each condition's order
-/

namespace QRadarDashboard.PropertyWatch
open Lib Alerts

variable {φ : Type} {digest : Digest} {qradar : QRadarInstance} {scopes : String → Option String}
variable {item : PwAlertAction φ}

/-! ## Actions -/

theorem work_fingerprint (item : PwAlertAction φ) :
    (item.work digest qradar scopes).fingerprint = item.fingerprint digest qradar.id := by
  cases item <;> rfl

def PwAlertAction.IsOpen (item : PwAlertAction φ) : Prop :=
  ∀ (digest : Digest) (qradar : QRadarInstance) (scopes : String → Option String),
    ∃ data, item.work digest qradar scopes = .openOrUpdate data ∧ data.evidence.isSome

def PwAlertAction.IsResolve (item : PwAlertAction φ) : Prop :=
  ∀ (digest : Digest) (qradar : QRadarInstance) (scopes : String → Option String),
    ∃ resolution, item.work digest qradar scopes = .resolve resolution

theorem PwAlertAction.IsOpen.act_act {item' : PwAlertAction φ} (h : item.IsOpen) (h' : item'.IsOpen)
    (c : Condition φ) : (item.work digest qradar scopes).act ((item'.work digest qradar scopes).act c) =
      (item.work digest qradar scopes).act c := by
  obtain ⟨data, hwork, hsome⟩ := h digest qradar scopes
  obtain ⟨data', hwork', -⟩ := h' digest qradar scopes
  rw [hwork, hwork']
  exact Condition.openOrUpdate_openOrUpdate hsome c

theorem PwAlertAction.IsResolve.act_act {item' : PwAlertAction φ} (h : item.IsResolve) (h' : item'.IsResolve)
    (c : Condition φ) : (item.work digest qradar scopes).act ((item'.work digest qradar scopes).act c) =
      (item.work digest qradar scopes).act c := by
  obtain ⟨resolution, hwork⟩ := h digest qradar scopes
  obtain ⟨resolution', hwork'⟩ := h' digest qradar scopes
  rw [hwork, hwork']
  exact Condition.resolve_resolve c

/-! ## One round -/

def actOn (work : PwAlertAction φ → AlertWork φ) (c : Condition φ) (item : Option (PwAlertAction φ)) : Condition φ :=
  (item.map work).elim c (fun w => w.act c)

theorem foldl_on_filed {work : PwAlertAction φ → AlertWork φ} {d : Dict String (PwAlertAction φ)}
    (hnodup : d.keys.Nodup) (hkey : ∀ item ∈ d, (work item.2).fingerprint = item.1) (fp : String) (c : Condition φ) :
    (d.map (fun item => work item.2)).foldl (AlertWork.on fp) c = actOn work c (d.get? fp) := by
  induction d generalizing c with
  | nil => rfl
  | cons item d ih =>
    obtain ⟨hnew, hrest⟩ := List.nodup_cons.mp hnodup
    have hstep := ih hrest (fun x hx => hkey x (List.mem_cons_of_mem item hx))
    have hown := hkey item List.mem_cons_self
    rw [List.map_cons, List.foldl_cons, hstep, Dict.get?_cons]
    by_cases hfp : item.1 = fp
    · rw [if_pos hfp, AlertWork.on_eq (hown.trans hfp), Dict.get?_eq_none_iff.mpr (hfp ▸ hnew)]
      rfl
    · rw [if_neg hfp, AlertWork.on_ne (fun h => hfp (hown.symm.trans h))]

def AlertRound.works (work : PwAlertAction φ → AlertWork φ) (round : AlertRound φ) : List (AlertWork φ) :=
  round.opens.map (fun item => work item.2) ++ round.resolves.map (fun item => work item.2)

structure AlertRound.Filed (digest : Digest) (instanceId : String) (round : AlertRound φ) : Prop where
  opens_nodup : round.opens.keys.Nodup
  resolves_nodup : round.resolves.keys.Nodup
  opens : ∀ item ∈ round.opens, item.2.IsOpen ∧ item.2.fingerprint digest instanceId = item.1
  resolves : ∀ item ∈ round.resolves, item.2.IsResolve ∧ item.2.fingerprint digest instanceId = item.1

theorem AlertRound.Filed.foldl_works {round : AlertRound φ} (h : round.Filed digest qradar.id) (fp : String)
    (c : Condition φ) : (round.works (PwAlertAction.work digest qradar scopes)).foldl (AlertWork.on fp) c =
      actOn (PwAlertAction.work digest qradar scopes)
        (actOn (PwAlertAction.work digest qradar scopes) c (round.opens.get? fp)) (round.resolves.get? fp) := by
  rw [AlertRound.works, List.foldl_append,
    foldl_on_filed h.opens_nodup (fun item hitem => (work_fingerprint _).trans (h.opens item hitem).2),
    foldl_on_filed h.resolves_nodup (fun item hitem => (work_fingerprint _).trans (h.resolves item hitem).2)]

theorem AlertRound.Filed.bulk_works {round : AlertRound φ} (h : round.Filed digest qradar.id) :
    ((round.opens.map Prod.snd).filterMap (fun item => (item.work digest qradar scopes).input?)).map
        AlertWork.openOrUpdate ++
      ((round.resolves.map Prod.snd).filterMap (fun item => (item.work digest qradar scopes).resolution?)).map
        AlertWork.resolve = round.works (PwAlertAction.work digest qradar scopes) := by
  refine congrArg₂ (fun a b => a ++ b) ?_ ?_
  · rw [List.filterMap_map, List.map_filterMap, ← List.filterMap_eq_map]
    refine List.filterMap_congr (fun item hitem => ?_)
    obtain ⟨data, hwork, -⟩ := (h.opens item hitem).1 digest qradar scopes
    simp only [Function.comp_apply, hwork, AlertWork.input?, Option.map_some]
  · rw [List.filterMap_map, List.map_filterMap, ← List.filterMap_eq_map]
    refine List.filterMap_congr (fun item hitem => ?_)
    obtain ⟨resolution, hwork⟩ := (h.resolves item hitem).1 digest qradar scopes
    simp only [Function.comp_apply, hwork, AlertWork.resolution?, Option.map_some]

/-! ## The rounds -/

def Rounds.all (r : Rounds φ) : List (AlertRound φ) := r.done ++ [r.current]

def Rounds.on (work : PwAlertAction φ → AlertWork φ) (fp : String) (r : Rounds φ) (c : Condition φ) : Condition φ :=
  (r.all.flatMap (AlertRound.works work)).foldl (AlertWork.on fp) c

theorem Rounds.on_eq (work : PwAlertAction φ → AlertWork φ) (fp : String) (r : Rounds φ) (c : Condition φ) :
    r.on work fp c = (r.current.works work).foldl (AlertWork.on fp)
      ((r.done.flatMap (AlertRound.works work)).foldl (AlertWork.on fp) c) := by
  rw [Rounds.on, Rounds.all, List.flatMap_append, List.foldl_append, List.flatMap_singleton]

theorem filed_set {d : Dict String (PwAlertAction φ)} {P : PwAlertAction φ → Prop} {instanceId}
    (h : ∀ item ∈ d, P item.2 ∧ item.2.fingerprint digest instanceId = item.1) (hitem : P item) :
    ∀ x ∈ d.set (item.fingerprint digest instanceId) item, P x.2 ∧ x.2.fingerprint digest instanceId = x.1 := by
  intro x hx
  rcases Dict.mem_set hx with hold | rfl
  · exact h x hold
  · exact ⟨hitem, rfl⟩

theorem AlertRound.Filed.set_open {round : AlertRound φ} (h : round.Filed digest qradar.id) (hitem : item.IsOpen)
    (hnone : round.resolves.get? (item.fingerprint digest qradar.id) = none) :
    ({ round with opens := round.opens.set (item.fingerprint digest qradar.id) item } : AlertRound φ).Filed digest
        qradar.id ∧
      ∀ fp c, (({ round with opens := round.opens.set (item.fingerprint digest qradar.id) item } : AlertRound φ).works
          (PwAlertAction.work digest qradar scopes)).foldl (AlertWork.on fp) c =
        (item.work digest qradar scopes).on fp
          ((round.works (PwAlertAction.work digest qradar scopes)).foldl (AlertWork.on fp) c) := by
  have hfiled : ({ round with opens := round.opens.set (item.fingerprint digest qradar.id) item } :
      AlertRound φ).Filed digest qradar.id :=
    ⟨Dict.nodup_keys_set h.opens_nodup _ _, h.resolves_nodup, filed_set h.opens hitem, h.resolves⟩
  refine ⟨hfiled, fun fp c => ?_⟩
  rw [hfiled.foldl_works, h.foldl_works, Dict.get?_set]
  by_cases hfp : fp = item.fingerprint digest qradar.id
  · rw [if_pos hfp, AlertWork.on_eq ((work_fingerprint item).trans hfp.symm), hfp, hnone]
    cases hget : round.opens.get? (item.fingerprint digest qradar.id) with
    | none => rfl
    | some item' => exact (hitem.act_act (h.opens _ (Dict.mem_of_get? hget)).1 c).symm
  · rw [if_neg hfp, AlertWork.on_ne (fun heq => hfp (heq.symm.trans (work_fingerprint item)))]

theorem AlertRound.Filed.set_resolve {round : AlertRound φ} (h : round.Filed digest qradar.id)
    (hitem : item.IsResolve) :
    ({ round with resolves := round.resolves.set (item.fingerprint digest qradar.id) item } : AlertRound φ).Filed
        digest qradar.id ∧
      ∀ fp c, (({ round with resolves := round.resolves.set (item.fingerprint digest qradar.id) item } :
          AlertRound φ).works (PwAlertAction.work digest qradar scopes)).foldl (AlertWork.on fp) c =
        (item.work digest qradar scopes).on fp
          ((round.works (PwAlertAction.work digest qradar scopes)).foldl (AlertWork.on fp) c) := by
  have hfiled : ({ round with resolves := round.resolves.set (item.fingerprint digest qradar.id) item } :
      AlertRound φ).Filed digest qradar.id :=
    ⟨h.opens_nodup, Dict.nodup_keys_set h.resolves_nodup _ _, h.opens, filed_set h.resolves hitem⟩
  refine ⟨hfiled, fun fp c => ?_⟩
  rw [hfiled.foldl_works, h.foldl_works, Dict.get?_set]
  by_cases hfp : fp = item.fingerprint digest qradar.id
  · rw [if_pos hfp, AlertWork.on_eq ((work_fingerprint item).trans hfp.symm), hfp]
    cases hget : round.resolves.get? (item.fingerprint digest qradar.id) with
    | none => rfl
    | some item' => exact (hitem.act_act (h.resolves _ (Dict.mem_of_get? hget)).1 _).symm
  · rw [if_neg hfp, AlertWork.on_ne (fun heq => hfp (heq.symm.trans (work_fingerprint item)))]

theorem Rounds.add_on {r : Rounds φ} (h : ∀ round ∈ r.all, round.Filed digest qradar.id) (item : PwAlertAction φ) :
    (∀ round ∈ (r.add digest qradar.id item).all, round.Filed digest qradar.id) ∧
      ∀ fp c, (r.add digest qradar.id item).on (PwAlertAction.work digest qradar scopes) fp c =
        (item.work digest qradar scopes).on fp (r.on (PwAlertAction.work digest qradar scopes) fp c) := by
  have hdone : ∀ round ∈ r.done, round.Filed digest qradar.id := fun round hround =>
    h round (List.mem_append_left _ hround)
  have hcurrent : r.current.Filed digest qradar.id := h _ (List.mem_append_right _ (List.mem_singleton.mpr rfl))
  -- only the current round changes
  have hreplace : ∀ current : AlertRound φ, current.Filed digest qradar.id →
      ∀ round ∈ ({ r with current := current } : Rounds φ).all, round.Filed digest qradar.id := by
    intro current hfiled round hround
    rcases List.mem_append.mp hround with hold | hnew
    · exact hdone round hold
    · rwa [List.mem_singleton.mp hnew]
  cases item with
  | openOrUpdate watch valueKey pwValueId detector evidence bucket incidentId =>
    set item : PwAlertAction φ := .openOrUpdate watch valueKey pwValueId detector evidence bucket incidentId with hset
    have hopen : item.IsOpen := fun digest qradar scopes => ⟨_, rfl, rfl⟩
    by_cases hres : (r.current.resolves.get? (item.fingerprint digest qradar.id)).isSome
    · -- the next round
      have hadd : r.add digest qradar.id item = ⟨r.all, ⟨[(item.fingerprint digest qradar.id, item)], []⟩⟩ :=
        if_pos hres
      have hnew : (AlertRound.mk [(item.fingerprint digest qradar.id, item)] []).Filed digest qradar.id := by
        refine ⟨List.nodup_singleton _, List.nodup_nil, fun x hx => ?_, by simp⟩
        rw [List.mem_singleton.mp hx]
        exact ⟨hopen, rfl⟩
      rw [hadd]
      refine ⟨fun round hround => ?_, fun fp c => by rw [Rounds.on_eq]; rfl⟩
      rcases List.mem_append.mp hround with hold | hlast
      · exact h round hold
      · rwa [List.mem_singleton.mp hlast]
    · have hadd : r.add digest qradar.id item = { r with current :=
          { r.current with opens := r.current.opens.set (item.fingerprint digest qradar.id) item } } := if_neg hres
      obtain ⟨hfiled, hworks⟩ := @AlertRound.Filed.set_open φ digest qradar scopes item r.current hcurrent hopen
        (Option.not_isSome_iff_eq_none.mp hres)
      rw [hadd]
      exact ⟨hreplace _ hfiled, fun fp c => by rw [Rounds.on_eq, Rounds.on_eq]; exact hworks fp _⟩
  | resolve watchId valueKey detector reason =>
    have hresolve : (PwAlertAction.resolve (φ := φ) watchId valueKey detector reason).IsResolve :=
      fun digest qradar scopes => ⟨_, rfl⟩
    obtain ⟨hfiled, hworks⟩ := @AlertRound.Filed.set_resolve φ digest qradar scopes _ r.current hcurrent hresolve
    exact ⟨hreplace _ hfiled, fun fp c => by rw [Rounds.on_eq, Rounds.on_eq]; exact hworks fp _⟩

theorem foldl_add_on (actions : List (PwAlertAction φ)) :
    (∀ round ∈ (actions.foldl (Rounds.add digest qradar.id) {}).all, round.Filed digest qradar.id) ∧
      ∀ fp c, (actions.foldl (Rounds.add digest qradar.id) {}).on (PwAlertAction.work digest qradar scopes) fp c =
        (actions.map (PwAlertAction.work digest qradar scopes)).foldl (AlertWork.on fp) c := by
  induction actions using List.reverseRecOn with
  | nil =>
    refine ⟨fun round hround => ?_, fun fp c => rfl⟩
    rw [List.mem_singleton.mp hround]
    exact ⟨List.nodup_nil, List.nodup_nil, by simp, by simp⟩
  | append_singleton actions item ih =>
    obtain ⟨hfiled, hon⟩ := ih
    obtain ⟨hfiled', hstep⟩ := @Rounds.add_on φ digest qradar scopes _ hfiled item
    rw [List.foldl_append, List.foldl_cons, List.foldl_nil]
    refine ⟨hfiled', fun fp c => ?_⟩
    rw [hstep, hon, List.map_append, List.foldl_append, List.map_singleton, List.foldl_cons, List.foldl_nil]

/-! ## Handing them to the alert service -/

section Service

variable {svc : Service} {s s' : Session φ}

theorem applyRound_condition (hinj : Function.Injective svc.uuid4) (h : WellFormed svc s) {earlier}
    (hnames : s.Names earlier) {round : AlertRound φ} (hfiled : round.Filed digest qradar.id) :
    ∃ rs s', applyRound svc (PwAlertAction.work digest qradar scopes)
        (round.opens.map Prod.snd, round.resolves.map Prod.snd) s = (rs, s') ∧
      WellFormed svc s' ∧ s'.Names (earlier ++ rs) ∧ ∀ fp, s'.condition fp (earlier ++ rs) =
        (round.works (PwAlertAction.work digest qradar scopes)).foldl (AlertWork.on fp) (s.condition fp earlier) := by
  obtain ⟨rs, s', hbulk, hwf, hnames', hcondition⟩ := applyBulk_condition hinj h hnames
    ((round.opens.map Prod.snd).filterMap (fun item => (item.work digest qradar scopes).input?))
    ((round.resolves.map Prod.snd).filterMap (fun item => (item.work digest qradar scopes).resolution?))
  rw [hfiled.bulk_works] at hcondition
  refine ⟨rs.1.map some ++ rs.2, s', ?_, hwf, hnames', hcondition⟩
  simp only [applyRound, hbulk]

theorem applyRounds_condition (hinj : Function.Injective svc.uuid4) (h : WellFormed svc s)
    {earlier} (hnames : s.Names earlier) {rounds : List (AlertRound φ)}
    (hfiled : ∀ round ∈ rounds, round.Filed digest qradar.id) :
    ∃ results s', (rounds.map (fun round => (round.opens.map Prod.snd, round.resolves.map Prod.snd))).foldl
        (fun (results, s) round =>
          let (reported, s) := applyRound svc (PwAlertAction.work digest qradar scopes) round s
          (results ++ reported, s)) (earlier, s) = (results, s') ∧
      WellFormed svc s' ∧ ∀ fp, s'.condition fp results =
        (rounds.flatMap (AlertRound.works (PwAlertAction.work digest qradar scopes))).foldl (AlertWork.on fp)
          (s.condition fp earlier) := by
  induction rounds generalizing earlier s with
  | nil => exact ⟨earlier, s, rfl, h, fun fp => rfl⟩
  | cons round rounds ih =>
    obtain ⟨rs, s₁, hround, hwf, hnames₁, hcondition⟩ :=
      @applyRound_condition φ digest qradar scopes svc s hinj h earlier hnames round (hfiled round List.mem_cons_self)
    obtain ⟨results, s₂, hrest, hwf₂, hcondition₂⟩ :=
      ih hwf hnames₁ (fun x hx => hfiled x (List.mem_cons_of_mem round hx))
    refine ⟨results, s₂, ?_, hwf₂, fun fp => ?_⟩
    · rw [List.map_cons, List.foldl_cons]
      simp only [hround]
      exact hrest
    · rw [hcondition₂, hcondition, List.flatMap_cons, List.foldl_append]

theorem flatMap_works_filter (work : PwAlertAction φ → AlertWork φ) (rounds : List (AlertRound φ)) :
    (rounds.filter (fun round => !round.opens.isEmpty || !round.resolves.isEmpty)).flatMap (AlertRound.works work) =
      rounds.flatMap (AlertRound.works work) := by
  induction rounds with
  | nil => rfl
  | cons round rounds ih =>
    rw [List.filter_cons, List.flatMap_cons, ← ih]
    split
    · rw [List.flatMap_cons]
    · rename_i hempty
      obtain ⟨hopens, hresolves⟩ : round.opens = [] ∧ round.resolves = [] := by simpa using hempty
      simp [AlertRound.works, hopens, hresolves]

theorem applyAlertActions_condition (hinj : Function.Injective svc.uuid4) (h : WellFormed svc s) (digest : Digest)
    (qradar : QRadarInstance) (scopes : String → Option String) (actions : List (PwAlertAction φ)) :
    ∃ results s', applyAlertActions svc digest qradar scopes s actions = (results, s') ∧ WellFormed svc s' ∧
      ∀ fp, s'.condition fp results =
        (actions.map (PwAlertAction.work digest qradar scopes)).foldl (AlertWork.on fp) (s.condition fp []) := by
  obtain ⟨hfiled, hon⟩ := @foldl_add_on φ digest qradar scopes actions
  have hnames : s.Names [] := by simp [Session.Names]
  have hkept : ∀ round ∈ (actions.foldl (Rounds.add digest qradar.id) {}).all.filter
      (fun round => !round.opens.isEmpty || !round.resolves.isEmpty), round.Filed digest qradar.id :=
    fun round hround => hfiled round (List.mem_of_mem_filter hround)
  obtain ⟨results, s', hrun, hwf, hcondition⟩ :=
    @applyRounds_condition φ digest qradar scopes svc s hinj h [] hnames _ hkept
  refine ⟨results, s', hrun, hwf, fun fp => ?_⟩
  rw [hcondition, flatMap_works_filter, ← hon]
  rfl

theorem applyAction_of_doOne {r} (h : doOne svc s (item.work digest qradar scopes) = .ok (r, s')) :
    applyAction svc digest qradar scopes s item = .ok s' := by
  cases item with
  | openOrUpdate watch valueKey pwValueId detector evidence bucket incidentId =>
    cases h
    rfl
  | resolve watchId valueKey detector reason =>
    have hone : resolveByFingerprint svc s (alertResolution digest qradar watchId valueKey detector reason) =
        .ok (r, s') := h
    rw [applyAction, hone]
    rfl

theorem applyActions_doEach (hinj : Function.Injective svc.uuid4) (h : WellFormed svc s) (digest : Digest)
    (qradar : QRadarInstance) (scopes : String → Option String) (actions : List (PwAlertAction φ)) :
    ∃ results s', doEach svc s (actions.map (PwAlertAction.work digest qradar scopes)) = .ok (results, s') ∧
      applyActions svc digest qradar scopes s actions = .ok s' ∧ WellFormed svc s' := by
  induction actions using List.reverseRecOn with
  | nil => exact ⟨[], s, rfl, rfl, h⟩
  | append_singleton actions item ih =>
    obtain ⟨results, s₁, heach, happly, hwf⟩ := ih
    obtain ⟨r, s₂, hone, hdone⟩ := doOne_done hinj hwf (item.work digest qradar scopes)
    refine ⟨results ++ [r], s₂, ?_, ?_, hdone.wellFormed⟩
    · rw [List.map_append]
      exact doEach_concat heach hone
    · rw [applyActions, List.foldlM_append, ← applyActions, happly]
      simp only [List.foldlM_cons, List.foldlM_nil, bind, Except.bind, applyAction_of_doOne hone, pure, Except.pure]

end Service

end QRadarDashboard.PropertyWatch
