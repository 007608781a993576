import QRadarDashboard.Alerts.Lemmas.Bulk
import QRadarDashboard.CustomRules.Engine

/-!
# A tick's alerts
-/

namespace QRadarDashboard.CustomRules
open Lib Alerts

variable {φ : Type} {svc : Service} {digest : Digest} {s : Session φ} {fp : String}
variable {events : List (CustomRuleAlertEvent φ)}

@[simp] theorem alertResolution_fingerprint (e : CustomRuleAlertEvent φ) :
    (alertResolution digest e).fingerprint = customRuleBreachFingerprint digest e.ruleId := rfl

theorem mem_firstResolves (seen : List String) {r} :
    (∃ e ∈ firstResolves seen events, e.ruleId = r) ↔ r ∉ seen ∧ ∃ e ∈ events, e.action = .resolve ∧ e.ruleId = r := by
  induction events generalizing seen with
  | nil => simp [firstResolves]
  | cons e events ih =>
    by_cases hskip : e.action ≠ .resolve ∨ e.ruleId ∈ seen
    · rw [firstResolves, if_pos hskip, ih, List.exists_mem_cons_iff]
      constructor
      · rintro ⟨hr, h⟩
        exact ⟨hr, Or.inr h⟩
      · rintro ⟨hr, ⟨hact, rfl⟩ | h⟩
        · exact absurd hskip (by simp [hact, hr])
        · exact ⟨hr, h⟩
    · rw [firstResolves, if_neg hskip, List.exists_mem_cons_iff, List.exists_mem_cons_iff, ih]
      push Not at hskip
      by_cases hr : e.ruleId = r
      · subst hr
        simp [hskip]
      · simp [hr, Ne.symm hr]

theorem agree_iff_not_endsReopened {own : List (CustomRuleAlertEvent φ)} (before : Prop) :
    (((before ∨ ∃ e ∈ own, e.action ≠ .resolve) ∧ ∀ e ∈ own, e.action ≠ .resolve) ↔
      match own.getLast? with
      | none => before
      | some e => e.action ≠ .resolve) ↔ ¬ EndsReopened own := by
  cases hlast : own.getLast? with
  | none =>
    have hnil : own = [] := List.getLast?_eq_none_iff.mp hlast
    simp [hnil, EndsReopened]
  | some e =>
    have hmem : e ∈ own := List.mem_of_getLast? hlast
    by_cases hact : e.action = .resolve
    · refine ⟨fun _ => ?_, fun _ => ⟨fun h => absurd hact (h.2 e hmem), fun h => absurd hact h⟩⟩
      rintro ⟨-, e', he', hact'⟩
      rw [hlast, Option.some.injEq] at he'
      exact hact' (he' ▸ hact)
    · by_cases hall : ∀ e ∈ own, e.action ≠ .resolve
      · have hnot : ¬ EndsReopened own := by
          rintro ⟨⟨e', he', hact'⟩, -⟩
          exact hall e' he' hact'
        exact ⟨fun _ => hnot, fun _ => ⟨fun _ => hact, fun _ => ⟨Or.inr ⟨e, hmem, hact⟩, hall⟩⟩⟩
      · have hre : EndsReopened own := by
          push Not at hall
          exact ⟨hall, e, hlast, hact⟩
        exact ⟨fun h => absurd (h.mpr hact).2 hall, fun h => absurd hre h⟩

variable [PyFloat φ]

@[simp] theorem alertInput_fingerprint (e : CustomRuleAlertEvent φ) :
    (alertInput digest e).fingerprint = customRuleBreachFingerprint digest e.ruleId := rfl

theorem applyTick_activeIn (hinj : Function.Injective svc.uuid4) (h : WellFormed svc s) :
    ActiveIn (applyTick svc digest s events) fp ↔
      (ActiveIn s fp ∨ ∃ e ∈ ownEvents digest fp events, e.action ≠ .resolve) ∧
        ∀ e ∈ ownEvents digest fp events, e.action ≠ .resolve := by
  simp only [applyTick, compileBatch, Bool.not_true, Bool.false_eq_true, if_false, applyBulk_activeIn hinj h]
  refine and_congr (or_congr Iff.rfl ?_) ?_
  · simp only [ownEvents, List.mem_map, List.mem_filter]
    constructor
    · rintro ⟨data, ⟨e, ⟨he, hact⟩, rfl⟩, rfl⟩
      exact ⟨e, ⟨he, by simp⟩, by simpa using hact⟩
    · rintro ⟨e, ⟨he, hfp⟩, hact⟩
      exact ⟨_, ⟨e, ⟨he, by simpa using hact⟩, rfl⟩, by simpa using (of_decide_eq_true hfp).symm⟩
  · simp only [ownEvents, List.mem_map, List.mem_filter]
    constructor
    · rintro hall e ⟨he, hfp⟩ hact
      obtain ⟨e', he', hrule⟩ := (mem_firstResolves []).mpr ⟨by simp, e, he, hact, rfl⟩
      refine hall _ ⟨e', he', rfl⟩ ?_
      rw [alertResolution_fingerprint, hrule]
      exact (of_decide_eq_true hfp).symm
    · rintro hall item ⟨e, he, rfl⟩ hfp
      obtain ⟨-, e', he', hact, hrule⟩ := (mem_firstResolves []).mp ⟨e, he, rfl⟩
      refine hall e' ⟨he', ?_⟩ hact
      rw [hrule, hfp]
      simp

theorem applyInOrder_cons (hinj : Function.Injective svc.uuid4) (h : WellFormed svc s)
    (e : CustomRuleAlertEvent φ) (events : List (CustomRuleAlertEvent φ)) :
    ∃ s₁, WellFormed svc s₁ ∧
      applyInOrder svc digest s (e :: events) = applyInOrder svc digest s₁ events ∧
      ∀ fp, ActiveIn s₁ fp ↔
        if customRuleBreachFingerprint digest e.ruleId = fp then e.action ≠ .resolve else ActiveIn s fp := by
  have hopen : ∀ fp, ActiveIn (openOrUpdate svc s (alertInput digest e)).2 fp ↔
      if customRuleBreachFingerprint digest e.ruleId = fp then True else ActiveIn s fp := by
    intro fp
    rw [openOrUpdate_activeIn, alertInput_fingerprint]
    by_cases hfp : customRuleBreachFingerprint digest e.ruleId = fp
    · simp [hfp]
    · simp [hfp, Ne.symm hfp]
  cases hact : e.action with
  | opens =>
    refine ⟨_, openOrUpdate_wellFormed hinj h (alertInput digest e), by simp [applyInOrder, hact], ?_⟩
    simpa using hopen
  | refresh =>
    refine ⟨_, openOrUpdate_wellFormed hinj h (alertInput digest e), by simp [applyInOrder, hact], ?_⟩
    simpa using hopen
  | resolve =>
    obtain ⟨r, s₁, hok, hwf, hiff⟩ := resolveByFingerprint_ok h (alertResolution digest e)
    refine ⟨s₁, hwf, ?_, ?_⟩
    · simp only [applyInOrder, hact, hok]
      rfl
    · intro fp
      rw [hiff, alertResolution_fingerprint]
      by_cases hfp : customRuleBreachFingerprint digest e.ruleId = fp
      · simp [hfp]
      · simp [hfp, Ne.symm hfp]

theorem applyInOrder_ok (hinj : Function.Injective svc.uuid4) (h : WellFormed svc s)
    (events : List (CustomRuleAlertEvent φ)) :
    ∃ s', applyInOrder svc digest s events = .ok s' ∧
      ∀ fp, ActiveIn s' fp ↔ match (ownEvents digest fp events).getLast? with
        | none => ActiveIn s fp
        | some e => e.action ≠ .resolve := by
  induction events generalizing s with
  | nil => exact ⟨s, rfl, fun fp => by simp [ownEvents]⟩
  | cons e events ih =>
    obtain ⟨s₁, hwf, happly, hiff⟩ := applyInOrder_cons hinj h e events
    obtain ⟨s', hs', hfinal⟩ := ih hwf
    refine ⟨s', happly.trans hs', fun fp => (hfinal fp).trans ?_⟩
    by_cases hfp : customRuleBreachFingerprint digest e.ruleId = fp
    · have hown : ownEvents digest fp (e :: events) = e :: ownEvents digest fp events := by
        simp [ownEvents, hfp]
      rw [hown, List.getLast?_cons]
      cases (ownEvents digest fp events).getLast? with
      | none => simp [hiff, hfp]
      | some e' => simp
    · have hown : ownEvents digest fp (e :: events) = ownEvents digest fp events := by
        simp [ownEvents, hfp]
      rw [hown]
      cases (ownEvents digest fp events).getLast? with
      | none => simp [hiff, hfp]
      | some e' => simp

end QRadarDashboard.CustomRules
