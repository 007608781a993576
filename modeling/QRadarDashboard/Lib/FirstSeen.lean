import Mathlib.Data.List.Basic
import Mathlib.Order.Basic

/-!
# First appearances
-/

namespace QRadarDashboard.Lib

variable {β κ τ : Type} {start : β → τ} {P : β → κ → Prop} {past : List β} {firstSeen firstSeen' : κ → Option τ}

/-- The ledger after the blocks of `past`: a key without a first appearance was passed over by every block, and so was
one that has it by every block before. -/
structure FirstSeen (start : β → τ) (P : β → κ → Prop) (past : List β) (firstSeen : κ → Option τ) : Prop where
  absent : ∀ k, firstSeen k = none → ∀ b ∈ past, P b k
  present : ∀ k s, firstSeen k = some s →
    ∃ before b after, past = before ++ b :: after ∧ start b = s ∧ ∀ q ∈ before, P q k

namespace FirstSeen

theorem nil : FirstSeen start P [] (fun _ => none) := ⟨by simp, by simp⟩

/-- One block keeps every first appearance, and adds those of the keys that it does not pass over. -/
theorem step (h : FirstSeen start P past firstSeen) {b}
    (hpassed : ∀ k, firstSeen' k = none → firstSeen k = none ∧ P b k)
    (hadded : ∀ k s, firstSeen' k = some s → firstSeen k = some s ∨ (firstSeen k = none ∧ start b = s)) :
    FirstSeen start P (past ++ [b]) firstSeen' := by
  constructor
  · intro k hk q hq
    obtain ⟨hbefore, hb⟩ := hpassed k hk
    rcases List.mem_append.mp hq with hq | hq
    · exact h.absent k hbefore q hq
    · rw [List.mem_singleton.mp hq]
      exact hb
  · intro k s hk
    rcases hadded k s hk with hold | ⟨hnew, hstart⟩
    · obtain ⟨before, p, after, rfl, hp, hbefore⟩ := h.present k s hold
      exact ⟨before, p, after ++ [b], by simp, hp, hbefore⟩
    · exact ⟨past, b, [], rfl, hstart, h.absent k hnew⟩

theorem before_first [Preorder τ] (h : FirstSeen start P past firstSeen)
    (horder : past.Pairwise (fun left right => start left < start right)) {k s} (hk : firstSeen k = some s)
    {q} (hq : q ∈ past) (hlt : start q < s) : P q k := by
  obtain ⟨before, b, after, rfl, rfl, hbefore⟩ := h.present k s hk
  rcases List.mem_append.mp hq with hq | hq
  · exact hbefore q hq
  · obtain ⟨_, htail, _⟩ := List.pairwise_append.mp horder
    rcases List.mem_cons.mp hq with rfl | hq
    · exact absurd hlt (lt_irrefl _)
    · exact absurd (hlt.trans ((List.pairwise_cons.mp htail).1 q hq)) (lt_irrefl _)

end FirstSeen

end QRadarDashboard.Lib
