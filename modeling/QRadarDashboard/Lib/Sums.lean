import Mathlib.Algebra.BigOperators.Group.List.Basic
import Mathlib.Data.List.Nodup
import Mathlib.Tactic.Ring

/-!
# Sums over groups
-/

namespace QRadarDashboard.Lib

variable {α κ M : Type} [AddCommMonoid M]

theorem sum_filter_or (w : α → M) {p q : α → Bool} {l : List α} (h : ∀ a ∈ l, p a = true → q a = false) :
    ((l.filter (fun a => p a || q a)).map w).sum = ((l.filter p).map w).sum + ((l.filter q).map w).sum := by
  induction l with
  | nil => simp
  | cons a l ih =>
    have hrest := ih (fun b hb => h b (List.mem_cons_of_mem _ hb))
    cases hp : p a with
    | true =>
      have hq := h a List.mem_cons_self hp
      simp only [List.filter_cons, hp, hq, Bool.or_false, if_true, Bool.false_eq_true, if_false, List.map_cons,
        List.sum_cons, hrest, add_assoc]
    | false =>
      cases hq : q a with
      | true =>
        simp only [List.filter_cons, hp, hq, Bool.or_true, if_true, Bool.false_eq_true, if_false, List.map_cons,
          List.sum_cons, hrest]
        exact add_left_comm _ _ _
      | false => simp only [List.filter_cons, hp, hq, Bool.or_self, Bool.false_eq_true, if_false, hrest]

theorem sum_filter_keys [DecidableEq κ] (key : α → κ) (w : α → M) (l : List α) {keys : List κ} (hkeys : keys.Nodup) :
    (keys.map (fun k => ((l.filter (fun a => key a = k)).map w).sum)).sum =
      ((l.filter (fun a => key a ∈ keys)).map w).sum := by
  induction keys with
  | nil => simp
  | cons k keys ih =>
    obtain ⟨hk, hkeys⟩ := List.nodup_cons.mp hkeys
    have hdisjoint : ∀ a ∈ l, decide (key a = k) = true → decide (key a ∈ keys) = false := by
      intro a _ ha
      rw [of_decide_eq_true ha]
      exact decide_eq_false hk
    have hor : (fun a => decide (key a ∈ k :: keys)) = fun a => decide (key a = k) || decide (key a ∈ keys) := by
      funext a
      rw [← Bool.decide_or]
      exact decide_eq_decide.mpr List.mem_cons
    rw [List.map_cons, List.sum_cons, ih hkeys, hor, sum_filter_or w hdisjoint]

theorem sum_map_one (l : List α) : (l.map (fun _ => 1)).sum = l.length := by
  induction l with
  | nil => rfl
  | cons a l ih => rw [List.map_cons, List.sum_cons, ih, List.length_cons, Nat.add_comm]

theorem sum_le_of_bound {f : α → Nat} {bound} {l : List α} (h : ∀ a ∈ l, f a ≤ bound) :
    (l.map f).sum ≤ l.length * bound := by
  induction l with
  | nil => simp
  | cons a l ih =>
    have hrest := ih (fun b hb => h b (List.mem_cons_of_mem _ hb))
    have ha := h a List.mem_cons_self
    rw [List.map_cons, List.sum_cons, List.length_cons, Nat.add_one_mul]
    omega

theorem sum_eq_bound_iff {f : α → Nat} {bound} {l : List α} (h : ∀ a ∈ l, f a ≤ bound) :
    (l.map f).sum = l.length * bound ↔ ∀ a ∈ l, f a = bound := by
  induction l with
  | nil => simp
  | cons a l ih =>
    have hrest := fun b hb => h b (List.mem_cons_of_mem a hb)
    have ha := h a List.mem_cons_self
    have hle := sum_le_of_bound hrest
    rw [List.map_cons, List.sum_cons, List.length_cons, Nat.add_one_mul, List.forall_mem_cons, ← ih hrest]
    constructor
    · intro hsum
      exact ⟨by omega, by omega⟩
    · rintro ⟨hfirst, hsum⟩
      omega

end QRadarDashboard.Lib
