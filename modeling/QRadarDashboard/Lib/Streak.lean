import Mathlib.Data.List.Infix

/-!
# Streaks in a word of verdicts
-/

namespace QRadarDashboard.Lib

/-!
## Streaks in a list of verdicts

A counter of equal verdicts in a row that a different verdict sets back to zero. `after v need c l` is what
is left of `l` once the counter of `v`, starting at `c`, has reached `need`; `Shows v c need l` says the same
without running the counter.
-/

def after (v : Bool) (need : Nat) : Nat → List Bool → Option (List Bool)
  | _, [] => none
  | c, x :: xs =>
    if x = v then if need ≤ c + 1 then some xs else after v need (c + 1) xs
    else after v need 0 xs

/-- `l` begins with a streak of `v` that completes the `c` counted before, or has a whole streak in it. -/
def Shows (v : Bool) (c need : Nat) (l : List Bool) : Prop :=
  (∃ k, 1 ≤ k ∧ List.replicate k v <+: l ∧ need ≤ c + k) ∨ List.replicate need v <:+: l

variable {v : Bool} {c need : Nat} {l l₁ l₂ : List Bool}

theorem shows_zero_iff : Shows v 0 need l ↔ List.replicate need v <:+: l := by
  constructor
  · rintro (⟨k, -, hk, hle⟩ | h)
    · have hpre : List.replicate need v <+: List.replicate k v := by
        refine ⟨List.replicate (k - need) v, ?_⟩
        rw [List.replicate_append_replicate]
        congr 1
        omega
      exact (hpre.trans hk).isInfix
    · exact h
  · exact Or.inr

theorem Shows.append_left (h : Shows v 0 need l₂) : Shows v 0 need (l₁ ++ l₂) := by
  rw [shows_zero_iff] at h ⊢
  exact List.infix_append_of_infix_right h

theorem shows_of_after {rest} (h : after v need c l = some rest) : ∃ l₁, l = l₁ ++ rest ∧ Shows v c need l₁ := by
  induction l generalizing c with
  | nil => simp [after] at h
  | cons x xs ih =>
    by_cases hx : x = v
    · by_cases hc : need ≤ c + 1
      · simp only [after, hx, hc, if_true, Option.some.injEq] at h
        exact ⟨[x], by simp [h], Or.inl ⟨1, Nat.le_refl 1, by simp [hx], hc⟩⟩
      · simp only [after, hx, hc, if_true, if_false] at h
        obtain ⟨l₁, rfl, hl⟩ := ih h
        refine ⟨x :: l₁, rfl, ?_⟩
        rcases hl with ⟨k, hk, hpre, hle⟩ | hin
        · refine Or.inl ⟨k + 1, by omega, ?_, by omega⟩
          rw [hx, List.replicate_succ]
          exact (List.prefix_cons_inj v).mpr hpre
        · exact Or.inr (List.infix_cons hin)
    · simp only [after, hx, if_false] at h
      obtain ⟨l₁, rfl, hl⟩ := ih h
      exact ⟨x :: l₁, rfl, Or.inr (List.infix_cons (shows_zero_iff.mp hl))⟩

theorem Shows.after (hneed : 1 ≤ need) (h : Shows v c need l₁) (l₂ : List Bool) :
    ∃ mid, after v need c (l₁ ++ l₂) = some (mid ++ l₂) := by
  induction l₁ generalizing c with
  | nil =>
    rcases h with ⟨k, hk, hpre, -⟩ | hin
    · have hlen := hpre.length_le
      simp at hlen
      omega
    · have hlen := hin.length_le
      simp at hlen
      omega
  | cons x xs ih =>
    by_cases hx : x = v
    · subst hx
      by_cases hc : need ≤ c + 1
      · exact ⟨xs, by simp [Lib.after, hc]⟩
      · have hshow : Shows x (c + 1) need xs := by
          rcases h with ⟨k, hk, hpre, hle⟩ | hin
          · obtain ⟨k, rfl⟩ : ∃ j, k = j + 1 := ⟨k - 1, by omega⟩
            rw [List.replicate_succ] at hpre
            exact Or.inl ⟨k, by omega, (List.prefix_cons_inj x).mp hpre, by omega⟩
          · rcases List.infix_cons_iff.mp hin with hpre | hin
            · obtain ⟨k, rfl⟩ : ∃ j, need = j + 1 := ⟨need - 1, by omega⟩
              rw [List.replicate_succ] at hpre
              exact Or.inl ⟨k, by omega, (List.prefix_cons_inj x).mp hpre, by omega⟩
            · exact Or.inr hin
        obtain ⟨mid, hmid⟩ := ih hshow
        exact ⟨mid, by simp [Lib.after, hc, hmid]⟩
    · have hshow : Shows v 0 need xs := by
        -- a streak of `v` does not begin at `x`
        rcases h with ⟨k, hk, hpre, -⟩ | hin
        · obtain ⟨k, rfl⟩ : ∃ j, k = j + 1 := ⟨k - 1, by omega⟩
          rw [List.replicate_succ] at hpre
          exact absurd (List.cons_prefix_cons.mp hpre).1.symm hx
        · rcases List.infix_cons_iff.mp hin with hpre | hin
          · obtain ⟨k, rfl⟩ : ∃ j, need = j + 1 := ⟨need - 1, by omega⟩
            rw [List.replicate_succ] at hpre
            exact absurd (List.cons_prefix_cons.mp hpre).1.symm hx
          · exact Or.inr hin
      obtain ⟨mid, hmid⟩ := ih hshow
      exact ⟨mid, by simp [Lib.after, hx, hmid]⟩

/-- The streak completes and `P` holds of what is left, exactly when the list splits into a part that shows the streak
and a part with `P`. -/
theorem exists_after_iff (hneed : 1 ≤ need) {P : List Bool → Prop} (hP : ∀ l₁ l₂, P l₂ → P (l₁ ++ l₂)) :
    (∃ rest, Lib.after v need c l = some rest ∧ P rest) ↔ ∃ l₁ l₂, l = l₁ ++ l₂ ∧ Shows v c need l₁ ∧ P l₂ := by
  constructor
  · rintro ⟨rest, h, hrest⟩
    obtain ⟨l₁, hl, hshow⟩ := shows_of_after h
    exact ⟨l₁, rest, hl, hshow, hrest⟩
  · rintro ⟨l₁, l₂, rfl, hshow, hl₂⟩
    obtain ⟨mid, hmid⟩ := hshow.after hneed l₂
    exact ⟨mid ++ l₂, hmid, hP mid l₂ hl₂⟩

theorem Shows.append_right (h : Shows v c need l₁) : Shows v c need (l₁ ++ l₂) := by
  rcases h with ⟨k, hk, hpre, hle⟩ | hin
  · exact Or.inl ⟨k, hk, hpre.trans (List.prefix_append _ _), hle⟩
  · exact Or.inr (List.infix_append_of_infix_left hin)

theorem exists_after_iff_shows (hneed : 1 ≤ need) : (∃ rest, Lib.after v need c l = some rest) ↔ Shows v c need l := by
  constructor
  · rintro ⟨rest, h⟩
    obtain ⟨l₁, rfl, hshow⟩ := shows_of_after h
    exact hshow.append_right
  · intro h
    obtain ⟨mid, hmid⟩ := h.after hneed []
    exact ⟨mid, by simpa using hmid⟩

/-!
## Alarms with two thresholds

An alarm is raised by `m` hits in a row and cleared by `n` misses in a row. `Raised m n l` says so of a word
of hits and misses without running a counter; the lemmas say how it changes when a letter is appended.
-/

/-- The length of the streak of `v` at the end of a word. -/
def trail (v : Bool) (l : List Bool) : Nat := (l.reverse.takeWhile (fun x => x = v)).length

/-- A block of `m` hits after which there is no block of `n` misses. -/
def Raised (m n : Nat) (l : List Bool) : Prop :=
  ∃ u w, l = u ++ List.replicate m true ++ w ∧ ¬ List.replicate n false <:+: w

variable {x : Bool} {m n k : Nat}

@[simp] theorem trail_nil : trail v [] = 0 := rfl

theorem trail_snoc : trail v (l ++ [x]) = if x = v then trail v l + 1 else 0 := by
  by_cases h : x = v
  · simp [trail, h]
  · simp [trail, h]

theorem replicate_suffix_iff : List.replicate k v <:+ l ↔ k ≤ trail v l := by
  induction l using List.reverseRecOn generalizing k with
  | nil =>
    rw [trail_nil, List.suffix_nil, List.replicate_eq_nil_iff, Nat.le_zero]
  | append_singleton l x ih =>
    cases k with
    | zero => simp
    | succ k =>
      rw [trail_snoc, List.replicate_succ', List.suffix_concat_iff]
      by_cases h : x = v
      · simp [h, ih]
      · simp [h, Ne.symm h]

theorem not_raised_nil (hm : 1 ≤ m) : ¬ Raised m n [] := by
  rintro ⟨u, w, h, -⟩
  have hlen := congrArg List.length h
  simp at hlen
  omega

theorem raised_snoc_true (hn : 1 ≤ n) : Raised m n (l ++ [true]) ↔ Raised m n l ∨ m ≤ trail true (l ++ [true]) := by
  constructor
  · rintro ⟨u, w, h, hw⟩
    cases w using List.reverseRecOn with
    | nil =>
      right
      rw [← replicate_suffix_iff]
      exact ⟨u, by simpa using h.symm⟩
    | append_singleton w y =>
      left
      rw [← List.append_assoc] at h
      refine ⟨u, w, (List.append_inj' h rfl).1, fun hin => hw ?_⟩
      exact List.infix_append_of_infix_left hin
  · rintro (⟨u, w, rfl, hw⟩ | h)
    · refine ⟨u, w ++ [true], by simp, fun hin => ?_⟩
      rcases List.infix_concat_iff.mp hin with hsuf | hin
      · have hle := replicate_suffix_iff.mp hsuf
        rw [trail_snoc] at hle
        simp at hle
        omega
      · exact hw hin
    · obtain ⟨u, hu⟩ := replicate_suffix_iff.mpr h
      refine ⟨u, [], by simpa using hu.symm, fun hin => ?_⟩
      have hlen := hin.length_le
      simp at hlen
      omega

theorem raised_snoc_false (hm : 1 ≤ m) : Raised m n (l ++ [false]) ↔ Raised m n l ∧ trail false (l ++ [false]) < n := by
  constructor
  · rintro ⟨u, w, h, hw⟩
    cases w using List.reverseRecOn with
    | nil =>
      obtain ⟨m, rfl⟩ : ∃ j, m = j + 1 := ⟨m - 1, by omega⟩
      rw [List.append_nil, List.replicate_succ', ← List.append_assoc] at h
      simpa using (List.append_inj' h rfl).2
    | append_singleton w y =>
      have h' := h
      rw [← List.append_assoc] at h'
      obtain ⟨hl, hy⟩ := List.append_inj' h' rfl
      refine ⟨⟨u, w, hl, fun hin => hw (List.infix_append_of_infix_left hin)⟩, ?_⟩
      by_contra hge
      have hsuf := replicate_suffix_iff.mpr (Nat.not_lt.mp hge)
      have hblock : true :: (w ++ [y]) <:+ l ++ [false] := by
        obtain ⟨m, rfl⟩ : ∃ j, m = j + 1 := ⟨m - 1, by omega⟩
        refine ⟨u ++ List.replicate m true, ?_⟩
        rw [h, List.replicate_succ']
        simp
      -- The misses at the end do not reach back over the block of hits.
      rcases List.suffix_or_suffix_of_suffix hsuf hblock with hshort | hlong
      · rcases List.suffix_cons_iff.mp hshort with heq | hshort
        · have hmem : true ∈ List.replicate n false := heq ▸ List.mem_cons_self
          simp at hmem
        · exact hw hshort.isInfix
      · have hmem : true ∈ List.replicate n false := hlong.subset List.mem_cons_self
        simp at hmem
  · rintro ⟨⟨u, w, rfl, hw⟩, hlt⟩
    refine ⟨u, w ++ [false], by simp, fun hin => ?_⟩
    rcases List.infix_concat_iff.mp hin with hsuf | hin
    · have hsuf' : List.replicate n false <:+ u ++ List.replicate m true ++ w ++ [false] := by
        rw [List.append_assoc _ w]
        exact hsuf.trans (List.suffix_append _ _)
      exact absurd (replicate_suffix_iff.mp hsuf') (by omega)
    · exact hw hin

end QRadarDashboard.Lib
