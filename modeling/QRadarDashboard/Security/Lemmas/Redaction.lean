import QRadarDashboard.Security.Redaction

/-! Redaction keeps the structure of a value, and two values are redacted alike exactly if they differ in whole tokens. -/
namespace QRadarDashboard.Security
open Lib

variable {φ : Type}

theorem not_tokenShaped_mask : tokenShaped mask.toList = false := by decide

theorem redactText_idem (s : String) : redactText (redactText s) = redactText s := by
  unfold redactText
  split
  · rw [not_tokenShaped_mask]
    rfl
  · rfl

theorem redactText_of_not {s} (h : tokenShaped s.toList = false) : redactText s = s := by
  rw [redactText, h]
  rfl

theorem redactText_of_token {s} (h : tokenShaped s.toList = true) : redactText s = mask := by
  rw [redactText, if_pos h]

theorem outsideTokens_eq_gap {text} : outsideTokens text = [none] ↔ tokenShaped text = true := by
  constructor
  · intro h
    obtain ⟨run, rest, hruns, hgap, hrest⟩ := List.map_eq_cons_iff.mp h
    have hflat := List.flatten_splitBy (fun a b => decide (isTokenChar a = isTokenChar b)) text
    rw [hruns, List.map_eq_nil_iff.mp hrest, List.flatten_singleton] at hflat
    subst hflat
    by_contra hnot
    rw [if_neg hnot] at hgap
    cases hgap
  · intro h
    have hall : ∀ c ∈ text, isTokenChar c = true := by
      rw [tokenShaped, Bool.and_eq_true, List.all_eq_true] at h
      exact h.2
    have hne : text ≠ [] := by
      rintro rfl
      cases h
    have hchain : text.IsChain (fun a b => decide (isTokenChar a = isTokenChar b) = true) := by
      refine List.Pairwise.isChain (List.pairwise_iff_forall_sublist.mpr (fun {a b} hab => ?_))
      have ha := hall a (hab.subset List.mem_cons_self)
      have hb := hall b (hab.subset (List.mem_cons_of_mem _ List.mem_cons_self))
      rw [ha, hb]
      rfl
    rw [outsideTokens, List.splitBy_of_isChain hne hchain, List.map_singleton, if_pos h]

theorem redactText_eq_iff {s t} (h : outsideTokens s.toList = outsideTokens t.toList) :
    redactText s = redactText t ↔ s = t ∨ tokenShaped s.toList ∧ tokenShaped t.toList := by
  have hboth : tokenShaped s.toList = true ↔ tokenShaped t.toList = true := by
    rw [← outsideTokens_eq_gap, ← outsideTokens_eq_gap, h]
  by_cases hs : tokenShaped s.toList = true
  · have ht := hboth.mp hs
    rw [redactText_of_token hs, redactText_of_token ht]
    exact iff_of_true rfl (Or.inr ⟨hs, ht⟩)
  · have ht := fun ht => hs (hboth.mpr ht)
    rw [redactText_of_not (Bool.eq_false_iff.mpr hs), redactText_of_not (Bool.eq_false_iff.mpr ht)]
    exact ⟨Or.inl, fun hor => hor.resolve_right (fun htokens => hs htokens.1)⟩

/-! ## Two values -/

section Alike

variable {text other : String → String → Prop}

theorem isStr_of_alike {a b : Json φ} (h : AlikeBy text a b) : isStr b = isStr a := by
  cases a <;> cases b <;> first | rfl | exact h.elim

mutual

theorem redact_eq_iff (htext : ∀ s t, text s t → (redactText s = redactText t ↔ other s t)) :
    (v w : Json φ) → AlikeBy text v w → (redact v = redact w ↔ AlikeBy other v w)
  | .obj as, w, h => by
      cases w with
      | obj bs => simp only [redact, Json.obj.injEq, AlikeBy, redactMembers_eq_iff htext as bs h]
      | _ => exact h.elim
  | .arr as, w, h => by
      cases w with
      | arr bs => simp only [redact, Json.arr.injEq, AlikeBy, redactItems_eq_iff htext as bs h]
      | _ => exact h.elim
  | .str s, w, h => by
      cases w with
      | str t => simp only [redact, Json.str.injEq, AlikeBy, htext s t h]
      | _ => exact h.elim
  | .null, w, h | .bool _, w, h | .int _, w, h | .float _, w, h => by
      cases w <;> first | exact h.elim | simp [redact, AlikeBy]

theorem redactItems_eq_iff (htext : ∀ s t, text s t → (redactText s = redactText t ↔ other s t)) :
    (as bs : List (Json φ)) → AlikeItemsBy text as bs → (redactItems as = redactItems bs ↔ AlikeItemsBy other as bs)
  | [], [], _ => by simp [redactItems, AlikeItemsBy]
  | a :: as, b :: bs, h => by
      simp only [redactItems, List.cons.injEq, AlikeItemsBy, redact_eq_iff htext a b h.1,
        redactItems_eq_iff htext as bs h.2]

theorem redactMembers_eq_iff (htext : ∀ s t, text s t → (redactText s = redactText t ↔ other s t)) :
    (as bs : List (String × Json φ)) → AlikeMembersBy text as bs →
      (redactMembers as = redactMembers bs ↔ AlikeMembersBy other as bs)
  | [], [], _ => by simp [redactMembers, AlikeMembersBy]
  | (k, a) :: as, (l, b) :: bs, h => by
      obtain ⟨rfl, hvalue, hrest⟩ := h
      simp only [redactMembers, List.cons.injEq, Prod.mk.injEq, true_and, AlikeMembersBy,
        redactMembers_eq_iff htext as bs hrest]
      refine and_congr_left (fun _ => ?_)
      by_cases hsecret : secretKey k = true
      · simp only [hsecret, if_true, true_or]
      · simp only [hsecret, if_false, false_or, Bool.false_eq_true] at hvalue ⊢
        by_cases hexempt : k ∈ identifierKeys ∧ isStr a = true
        · rw [if_pos hexempt] at hvalue
          subst hvalue
          simp only [hexempt, if_true, and_self]
        · rw [if_neg hexempt] at hvalue
          have hexempt' : ¬ (k ∈ identifierKeys ∧ isStr b = true) := by rwa [isStr_of_alike hvalue]
          rw [if_neg hexempt, if_neg hexempt', if_neg hexempt]
          exact redact_eq_iff htext a b hvalue

end

end Alike

/-! ## One value -/

mutual

theorem redact_keepsRest : (v : Json φ) → KeepsRest v (redact v)
  | .obj members => redactMembers_keepsRest members
  | .arr items => redactItems_keepsRest items
  | .str s => by
      by_cases h : tokenShaped s.toList = true
      · exact Or.inr ⟨h, redactText_of_token h⟩
      · exact Or.inl (redactText_of_not (Bool.eq_false_iff.mpr h))
  | .null => trivial
  | .bool _ => rfl
  | .int _ => rfl
  | .float _ => rfl

theorem redactItems_keepsRest : (items : List (Json φ)) →
    AlikeItemsBy (fun s t => t = s ∨ tokenShaped s.toList ∧ t = mask) items (redactItems items)
  | [] => trivial
  | v :: rest => ⟨redact_keepsRest v, redactItems_keepsRest rest⟩

theorem redactMembers_keepsRest : (members : List (String × Json φ)) →
    AlikeMembersBy (fun s t => t = s ∨ tokenShaped s.toList ∧ t = mask) members (redactMembers members)
  | [] => trivial
  | (k, v) :: rest => by
      refine ⟨rfl, ?_, redactMembers_keepsRest rest⟩
      by_cases hsecret : secretKey k = true
      · exact Or.inl hsecret
      · right
        rw [if_neg hsecret]
        split
        · rfl
        · exact redact_keepsRest v

end

mutual

theorem redact_of_plain : (v : Json φ) → plain v = true → redact v = v
  | .obj members, h => by rw [redact, redactMembers_of_plain members h]
  | .arr items, h => by rw [redact, redactItems_of_plain items h]
  | .str s, h => by
      rw [plain, Bool.not_eq_true'] at h
      rw [redact, redactText_of_not h]
  | .null, _ | .bool _, _ | .int _, _ | .float _, _ => rfl

theorem redactItems_of_plain : (items : List (Json φ)) → plainItems items = true → redactItems items = items
  | [], _ => rfl
  | v :: rest, h => by
      rw [plainItems, Bool.and_eq_true] at h
      rw [redactItems, redact_of_plain v h.1, redactItems_of_plain rest h.2]

theorem redactMembers_of_plain : (members : List (String × Json φ)) → plainMembers members = true →
    redactMembers members = members
  | [], _ => rfl
  | (k, v) :: rest, h => by
      rw [plainMembers, Bool.and_eq_true, Bool.and_eq_true, Bool.not_eq_true'] at h
      obtain ⟨⟨hkey, hvalue⟩, hrest⟩ := h
      rw [redactMembers, redactMembers_of_plain rest hrest, redact_of_plain v hvalue, ite_self, hkey]
      rfl

end

theorem mem_redactMembers {members : List (String × Json φ)} {k v} (h : (k, v) ∈ members)
    (hkey : secretKey k = false) (hvalue : plain v = true) : (k, v) ∈ redactMembers members := by
  induction members with
  | nil => cases h
  | cons item rest ih =>
    rw [redactMembers]
    rcases List.mem_cons.mp h with rfl | hrest
    · rw [redact_of_plain v hvalue, ite_self, hkey]
      exact List.mem_cons_self
    · exact List.mem_cons_of_mem _ (ih hrest)

theorem isStr_redact (v : Json φ) : isStr (redact v) = isStr v := by cases v <;> rfl

mutual

theorem redact_idem : (v : Json φ) → redact (redact v) = redact v
  | .obj members => by rw [redact, redact, redactMembers_idem members]
  | .arr items => by rw [redact, redact, redactItems_idem items]
  | .str s => by rw [redact, redact, redactText_idem]
  | .null | .bool _ | .int _ | .float _ => rfl

theorem redactItems_idem : (items : List (Json φ)) → redactItems (redactItems items) = redactItems items
  | [] => rfl
  | v :: rest => by rw [redactItems, redactItems, redact_idem v, redactItems_idem rest]

theorem redactMembers_idem : (members : List (String × Json φ)) →
    redactMembers (redactMembers members) = redactMembers members
  | [] => rfl
  | (k, v) :: rest => by
      simp only [redactMembers, redactMembers_idem rest, List.cons.injEq, Prod.mk.injEq, true_and, and_true]
      split
      · rfl
      · split
        · rfl
        · rename_i hexempt
          rw [isStr_redact, if_neg hexempt, redact_idem v]

end

end QRadarDashboard.Security
