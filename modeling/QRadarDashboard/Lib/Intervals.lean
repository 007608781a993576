import Mathlib.Algebra.BigOperators.Group.List.Basic
import Mathlib.Tactic.Ring
import Mathlib.Order.Bounds.Basic
import Mathlib.Data.List.Nodup
import Mathlib.Data.List.Perm.Subperm

/-!
# Points and intervals
-/

namespace QRadarDashboard.Lib

/-!
## Tilings of an interval

A list of half-open intervals tiles `[a, b)` when each one is non-empty and starts where the one before
it ends.
-/

variable {α : Type} [LinearOrder α]

/-- The intervals `l`, end to end and none of them empty, make up `[a, b)`. -/
def Tiles : α → List (α × α) → α → Prop
  | a, [], b => a = b
  | a, s :: l, b => s.1 = a ∧ a < s.2 ∧ Tiles s.2 l b

/-- The point `x` lies in the half-open interval `s`. -/
def Covers (s : α × α) (x : α) : Prop := s.1 ≤ x ∧ x < s.2

instance (s : α × α) (x : α) : Decidable (Covers s x) := inferInstanceAs (Decidable (_ ∧ _))

theorem Tiles.append {a b c} {l₁ l₂ : List (α × α)} (h₁ : Tiles a l₁ b) (h₂ : Tiles b l₂ c) : Tiles a (l₁ ++ l₂) c := by
  induction l₁ generalizing a with
  | nil => cases h₁; exact h₂
  | cons s l ih => exact ⟨h₁.1, h₁.2.1, ih h₁.2.2⟩

theorem Tiles.singleton {a b : α} (h : a < b) : Tiles a [(a, b)] b := ⟨rfl, h, rfl⟩

theorem Tiles.le {a b} {l : List (α × α)} (h : Tiles a l b) : a ≤ b := by
  induction l generalizing a with
  | nil => exact le_of_eq h
  | cons s l ih => exact le_trans (le_of_lt h.2.1) (ih h.2.2)

theorem Tiles.nonempty {a b} {l : List (α × α)} (h : Tiles a l b) : ∀ s ∈ l, s.1 < s.2 := by
  induction l generalizing a with
  | nil => simp
  | cons t l ih =>
    obtain ⟨rfl, hlt, htl⟩ := h
    intro s hs
    rcases List.mem_cons.mp hs with rfl | hs
    · exact hlt
    · exact ih htl s hs

theorem Tiles.right {P : α → Prop} {a b l} (h : Tiles a l b) (ha : P a) (hl : ∀ s ∈ l, P s.2) : P b := by
  induction l generalizing a with
  | nil => cases h; exact ha
  | cons s l ih =>
    exact ih h.2.2 (hl s List.mem_cons_self) (fun t ht => hl t (List.mem_cons_of_mem _ ht))

theorem Tiles.stop_le {a b} {l : List (α × α)} (h : Tiles a l b) : ∀ s ∈ l, s.2 ≤ b := by
  induction l generalizing a with
  | nil => simp
  | cons t l ih =>
    intro s hs
    rcases List.mem_cons.mp hs with rfl | hs
    · exact h.2.2.le
    · exact ih h.2.2 s hs

theorem Tiles.not_covers_of_lt {a b x} {l : List (α × α)} (h : Tiles a l b) (hx : x < a) : ∀ s ∈ l, ¬ Covers s x := by
  induction l generalizing a with
  | nil => simp
  | cons t l ih =>
    obtain ⟨rfl, hlt, htl⟩ := h
    intro s hs hc
    rcases List.mem_cons.mp hs with rfl | hs
    · exact absurd hc.1 (not_le.mpr hx)
    · exact ih htl (lt_trans hx hlt) s hs hc

theorem Tiles.countP_covers {a b x} {l : List (α × α)} (h : Tiles a l b) (ha : a ≤ x) (hb : x < b) :
    l.countP (fun s => decide (Covers s x)) = 1 := by
  induction l generalizing a with
  | nil => cases h; exact absurd hb (not_lt.mpr ha)
  | cons s l ih =>
    obtain ⟨rfl, hlt, htl⟩ := h
    by_cases hx : x < s.2
    · have hrest : l.countP (fun s => decide (Covers s x)) = 0 := by
        rw [List.countP_eq_zero]
        intro t ht
        simpa using htl.not_covers_of_lt hx t ht
      rw [List.countP_cons, hrest]
      simp [Covers, ha, hx]
    · rw [List.countP_cons, ih htl (not_lt.mp hx)]
      simp [Covers, hx]

theorem Tiles.sum_lengths {a b} {l : List (Int × Int)} (h : Tiles a l b) :
    (l.map (fun s => s.2 - s.1)).sum = b - a := by
  induction l generalizing a with
  | nil => cases h; simp
  | cons s l ih =>
    obtain ⟨rfl, _, htl⟩ := h
    rw [List.map_cons, List.sum_cons, ih htl]
    ring

/-!
## The next element of a set

What follows an instant in a set of instants, as an `Option`: its least later element, or none.
-/

/-- `o` is what follows `t` in `s`. -/
def IsNext (s : Set α) (t : α) (o : Option α) : Prop :=
  match o with
  | some n => IsLeast {x | x ∈ s ∧ t < x} n
  | none => ∀ x ∈ s, x ≤ t

/-- `a` and `b` are elements of `s` with no element between them. -/
structure Successive (s : Set α) (a b : α) : Prop where
  left : a ∈ s
  next : IsNext s a (some b)

variable {s : Set α} {t n : α} {o : Option α}

theorem IsNext.unique {o'} (h : IsNext s t o) (h' : IsNext s t o') : o = o' := by
  cases o with
  | some a =>
    cases o' with
    | some b => rw [IsLeast.unique h h']
    | none => exact absurd h.1.2 (not_lt.mpr (h' a h.1.1))
  | none =>
    cases o' with
    | some b => exact absurd h'.1.2 (not_lt.mpr (h b h'.1.1))
    | none => rfl

theorem isNext_of_gap (hn : n ∈ s) (hlt : t < n) (hgap : ∀ x ∈ s, t < x → n ≤ x) : IsNext s t (some n) :=
  ⟨⟨hn, hlt⟩, fun x hx => hgap x hx.1 hx.2⟩

theorem IsNext.mem (h : IsNext s t (some n)) : n ∈ s := h.1.1

theorem IsNext.lt (h : IsNext s t (some n)) : t < n := h.1.2

theorem IsNext.le_or_ge (h : IsNext s t (some n)) {x} (hx : x ∈ s) : x ≤ t ∨ n ≤ x := by
  rcases le_or_gt x t with hle | hlt
  · exact .inl hle
  · exact .inr (h.2 ⟨hx, hlt⟩)

/-!
## Points of a grid

The multiples of a width, in an interval of so many widths.
-/

variable {width a : Int} {count : Nat} {l : List Int}

def gridTiles (width a : Int) (count : Nat) : List (Int × Int) :=
  (List.range count).map (fun j : Nat => (a + j * width, a + (j + 1) * width))

theorem tiles_gridTiles (hwidth : 0 < width) : Tiles a (gridTiles width a count) (a + count * width) := by
  unfold gridTiles
  induction count with
  | zero => simp [Tiles]
  | succ n ih =>
    rw [List.range_succ, List.map_append, List.map_singleton]
    refine ih.append ?_
    have hlt : a + (n : Int) * width < a + ((n : Int) + 1) * width := by
      have hstep : ((n : Int) + 1) * width = n * width + width := by ring
      omega
    have hend : a + ((n + 1 : Nat) : Int) * width = a + ((n : Int) + 1) * width := by
      push_cast
      rfl
    rw [hend]
    exact Tiles.singleton hlt

theorem grid_injOn {x y} (hx : width ∣ x) (hy : width ∣ y) (h : (x - a) / width = (y - a) / width) : x = y := by
  obtain ⟨m, rfl⟩ := hx
  obtain ⟨n, rfl⟩ := hy
  have hdiff : (width * m - a) % width = (width * n - a) % width := by
    rw [Int.sub_emod, Int.mul_emod_right, Int.sub_emod (width * n), Int.mul_emod_right]
  have h₁ := Int.mul_ediv_add_emod (width * m - a) width
  have h₂ := Int.mul_ediv_add_emod (width * n - a) width
  rw [h, hdiff] at h₁
  omega

theorem length_le_of_grid (hwidth : 0 < width) (hnodup : l.Nodup) (hgrid : ∀ x ∈ l, width ∣ x)
    (hin : ∀ x ∈ l, a ≤ x ∧ x < a + count * width) : l.length ≤ count := by
  have hmap : (l.map (fun x => ((x - a) / width).toNat)).Nodup := by
    refine (List.nodup_map_iff_inj_on hnodup).mpr (fun x hx y hy hxy => ?_)
    refine grid_injOn (a := a) (hgrid x hx) (hgrid y hy) ?_
    have hx₀ := Int.ediv_nonneg (Int.sub_nonneg_of_le (hin x hx).1) (le_of_lt hwidth)
    have hy₀ := Int.ediv_nonneg (Int.sub_nonneg_of_le (hin y hy).1) (le_of_lt hwidth)
    omega
  have hsub : l.map (fun x => ((x - a) / width).toNat) ⊆ List.range count := by
    intro j hj
    obtain ⟨x, hx, rfl⟩ := List.mem_map.mp hj
    have hlt : (x - a) / width < count := Int.ediv_lt_of_lt_mul hwidth (by have := (hin x hx).2; omega)
    have hle := Int.ediv_nonneg (Int.sub_nonneg_of_le (hin x hx).1) (le_of_lt hwidth)
    rw [List.mem_range]
    omega
  simpa using (hmap.subperm hsub).length_le

theorem perm_of_grid_full (hwidth : 0 < width) (hnodup : l.Nodup) (hgrid : ∀ x ∈ l, width ∣ x)
    (hin : ∀ x ∈ l, a ≤ x ∧ x < a + count * width) (ha : width ∣ a) (hfull : l.length = count) :
    l.Perm ((List.range count).map (fun j : Nat => a + j * width)) := by
  have hsub : l ⊆ (List.range count).map (fun j : Nat => a + j * width) := by
    intro x hx
    obtain ⟨m, hm⟩ := Int.dvd_sub (hgrid x hx) ha
    obtain ⟨hle, hlt⟩ := hin x hx
    have hm₀ : 0 ≤ m := by
      by_contra hneg
      have := Int.mul_neg_of_pos_of_neg hwidth (not_le.mp hneg)
      omega
    have hm₁ : m < count := by
      refine Int.lt_of_mul_lt_mul_left ?_ (le_of_lt hwidth)
      rw [← hm, mul_comm]
      omega
    refine List.mem_map.mpr ⟨m.toNat, List.mem_range.mpr (by omega), ?_⟩
    rw [Int.toNat_of_nonneg hm₀, mul_comm, ← hm]
    omega
  exact (hnodup.subperm hsub).perm_of_length_le (by simp [hfull])

end QRadarDashboard.Lib
