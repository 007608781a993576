import Mathlib.Data.List.Sort

/-!
# Stable sorting by a key

`sortOn key l` is Python's `sorted(l, key=key)`: elements of equal keys keep their order.
-/

namespace QRadarDashboard.Lib

variable {α κ : Type} [LinearOrder κ]

def sortOn (key : α → κ) (l : List α) : List α :=
  l.insertionSort (fun a b => key a ≤ key b)

variable {key : α → κ}

@[simp] theorem mem_sortOn {l a} : a ∈ sortOn key l ↔ a ∈ l := by
  simp [sortOn]

theorem sortOn_perm (l : List α) : (sortOn key l).Perm l := List.perm_insertionSort _ l

theorem pairwise_sortOn (l : List α) : (sortOn key l).Pairwise (fun a b => key a ≤ key b) := by
  have : Std.Total (fun a b : α => key a ≤ key b) := ⟨fun a b => le_total (key a) (key b)⟩
  have : IsTrans α (fun a b => key a ≤ key b) := ⟨fun _ _ _ => le_trans⟩
  exact List.pairwise_insertionSort _ l

theorem pairwise_lt_sortOn {l} (h : (l.map key).Nodup) : (sortOn key l).Pairwise (fun a b => key a < key b) := by
  have hnodup : ((sortOn key l).map key).Nodup := ((sortOn_perm l).map key).nodup_iff.mpr h
  have hne := List.pairwise_map.mp hnodup
  exact (pairwise_sortOn l).imp₂ (fun _ _ hle hne => lt_of_le_of_ne hle hne) hne

theorem sortOn_eq_self {l} (h : l.Pairwise (fun a b => key a ≤ key b)) : sortOn key l = l :=
  h.insertionSort_eq

theorem sortOn_eq_of_perm {l l'} (h : l.Perm l') (hinj : ∀ a ∈ l, ∀ b ∈ l, key a = key b → a = b) :
    sortOn key l = sortOn key l' := by
  have hperm : (sortOn key l).Perm (sortOn key l') := (sortOn_perm l).trans (h.trans (sortOn_perm l').symm)
  refine hperm.eq_of_pairwise (fun a b ha hb hab hba => ?_) (pairwise_sortOn l) (pairwise_sortOn l')
  exact hinj a (mem_sortOn.mp ha) b (h.mem_iff.mpr (mem_sortOn.mp hb)) (le_antisymm hab hba)

theorem sortOn_map {β : Type} (g : β → α) (l : List β) :
    sortOn key (l.map g) = (sortOn (fun b => key (g b)) l).map g := by
  induction l with
  | nil => rfl
  | cons a l ih =>
    have hinsert : ∀ l : List β, List.orderedInsert (fun a b => key a ≤ key b) (g a) (l.map g) =
        (List.orderedInsert (fun a b => key (g a) ≤ key (g b)) a l).map g := by
      intro l
      induction l with
      | nil => rfl
      | cons b l ih =>
        by_cases hab : key (g a) ≤ key (g b)
        · simp [hab]
        · simp [hab, ih]
    simp only [sortOn, List.map_cons, List.insertionSort_cons] at ih ⊢
    rw [ih, hinsert]

/-- The first `n` of the sorted list hold the elements of least key, in order; past them is one only when all `n` hold
one. -/
theorem take_sortOn {β : Type} {key : Option β → κ} {l n}
    (hlast : ∀ b, some b ∈ l → key (some b) < key none) :
    let kept := ((sortOn key l).take n).filterMap id
    let cut := ((sortOn key l).drop n).filterMap id
    kept.length ≤ n ∧ kept.Pairwise (fun a b => key (some a) ≤ key (some b)) ∧ (kept ++ cut).Perm (l.filterMap id) ∧
      (cut ≠ [] → kept.length = n) ∧ ∀ a ∈ kept, ∀ b ∈ cut, key (some a) ≤ key (some b) := by
  intro kept cut
  have hsorted : (sortOn key l).Pairwise (fun a b => key a ≤ key b) := pairwise_sortOn l
  rw [← List.take_append_drop n (sortOn key l), List.pairwise_append] at hsorted
  obtain ⟨hkept, -, hcross⟩ := hsorted
  have hmem : ∀ {part : List (Option β)} {b : β}, b ∈ part.filterMap id → some b ∈ part := by
    intro part b hb
    obtain ⟨o, ho, hob⟩ := List.mem_filterMap.mp hb
    exact (show o = some b from hob) ▸ ho
  refine ⟨(List.length_filterMap_le _ _).trans (List.length_take_le n _), ?_, ?_, ?_,
    fun a ha b hb => hcross _ (hmem ha) _ (hmem hb)⟩
  · refine List.pairwise_filterMap.mpr (hkept.imp (fun hab a ha b hb => ?_))
    exact ((show _ = some a from ha) ▸ (show _ = some b from hb) ▸ hab)
  · rw [← List.filterMap_append, List.take_append_drop]
    exact (sortOn_perm l).filterMap id
  · intro hne
    obtain ⟨b, hb⟩ := List.exists_mem_of_ne_nil _ hne
    have hb := hmem hb
    have hsome : ∀ o ∈ (sortOn key l).take n, (id o).isSome = true := by
      intro o ho
      cases o with
      | some a => rfl
      | none =>
        have hlt := hlast b (mem_sortOn.mp (List.mem_of_mem_drop hb))
        exact absurd (hcross _ ho _ hb) (not_le.mpr hlt)
    rw [List.length_filterMap_eq_countP, List.countP_eq_length.mpr hsome, List.length_take, Nat.min_eq_left]
    by_contra hshort
    rw [List.drop_eq_nil_of_le (by omega)] at hb
    cases hb

theorem orderedInsert_append {a l₁ l₂} (h : ∀ b ∈ l₂, key a ≤ key b) :
    List.orderedInsert (fun a b => key a ≤ key b) a (l₁ ++ l₂) =
      List.orderedInsert (fun a b => key a ≤ key b) a l₁ ++ l₂ := by
  induction l₁ with
  | nil =>
    cases l₂ with
    | nil => rfl
    | cons b l₂ => simp [h b List.mem_cons_self]
  | cons c l₁ ih =>
    by_cases hc : key a ≤ key c
    · simp [hc]
    · simp [hc, ih]

theorem sortOn_append {l₁ l₂} (h : ∀ a ∈ l₁, ∀ b ∈ l₂, key a ≤ key b) :
    sortOn key (l₁ ++ l₂) = sortOn key l₁ ++ sortOn key l₂ := by
  induction l₁ with
  | nil => rfl
  | cons a l₁ ih =>
    have ih := ih (fun b hb => h b (List.mem_cons_of_mem a hb))
    simp only [sortOn, List.cons_append, List.insertionSort_cons] at ih ⊢
    rw [ih, orderedInsert_append]
    intro b hb
    exact h a List.mem_cons_self b ((List.mem_insertionSort _).mp hb)

theorem filter_orderedInsert {p : α → Bool} (hp : ∀ a b, p a = true → key a ≤ key b → p b = true) (a : α) (l : List α) :
    (List.orderedInsert (fun a b => key a ≤ key b) a l).filter p =
      if p a then List.orderedInsert (fun a b => key a ≤ key b) a (l.filter p) else l.filter p := by
  induction l with
  | nil => by_cases ha : p a <;> simp [ha]
  | cons b l ih =>
    by_cases hab : key a ≤ key b
    · by_cases ha : p a
      · simp [hab, ha, hp a b ha hab]
      · simp [hab, ha]
    · by_cases hb : p b
      · by_cases ha : p a <;> simp [hab, ha, hb, ih]
      · by_cases ha : p a <;> simp [hab, ha, hb, ih]

theorem filter_sortOn {p : α → Bool} (hp : ∀ a b, p a = true → key a ≤ key b → p b = true) (l : List α) :
    (sortOn key l).filter p = sortOn key (l.filter p) := by
  induction l with
  | nil => rfl
  | cons a l ih =>
    simp only [sortOn, List.insertionSort_cons] at ih ⊢
    rw [filter_orderedInsert hp, ih]
    by_cases ha : p a <;> simp [ha]

/-! ## Work in two passes -/

section TwoPasses

variable {σ : Type} {step : σ → α → σ} {p : α → Bool} {apart : α → α → Prop}

theorem foldl_past (inv : σ → Prop) (hinv : ∀ s x, inv s → inv (step s x)) (y : α) {items : List α}
    (hcomm : ∀ s, ∀ x ∈ items, inv s → step (step s y) x = step (step s x) y) {s} (hs : inv s) :
    items.foldl step (step s y) = step (items.foldl step s) y := by
  induction items generalizing s with
  | nil => rfl
  | cons x items ih =>
    rw [List.foldl_cons, List.foldl_cons, hcomm s x List.mem_cons_self hs]
    exact ih (fun s x' hx' => hcomm s x' (List.mem_cons_of_mem x hx')) (hinv s x hs)

theorem foldl_two_passes (inv : σ → Prop) (hinv : ∀ s x, inv s → inv (step s x))
    (hcomm : ∀ s x y, inv s → p x = true → p y = false → apart y x →
      step (step s y) x = step (step s x) y) {items : List α} (hitems : items.Pairwise apart) {s} (hs : inv s) :
    items.foldl step s = (items.filter (fun x => !p x)).foldl step ((items.filter p).foldl step s) := by
  induction items generalizing s with
  | nil => rfl
  | cons y items ih =>
    obtain ⟨hy, hitems⟩ := List.pairwise_cons.mp hitems
    rw [List.foldl_cons, ih hitems (hinv s y hs)]
    cases hp : p y with
    | true => simp [hp]
    | false =>
      have hsecond : ∀ s, ∀ x ∈ items.filter p, inv s → step (step s y) x = step (step s x) y := by
        intro s x hx hs
        obtain ⟨hmem, hfirst⟩ := List.mem_filter.mp hx
        exact hcomm s x y hs hfirst hp (hy x hmem)
      have hpast := foldl_past inv hinv y hsecond hs
      simp [hp, hpast]

end TwoPasses

end QRadarDashboard.Lib
