import QRadarDashboard.Lib.Dict
import QRadarDashboard.Lib.Sort

/-!
# Searches that split

An answer that is cut is not kept: the region is split and its parts are searched one after the other.
-/

namespace QRadarDashboard.Lib

/-- `ρ` regions, `κ` cells, `α` answers, `γ` what a cell holds, `β` budgets. -/
structure SplitDriver (ρ κ α γ β : Type) where
  cells : ρ → List κ
  split : ρ → Option (ρ × ρ)
  /-- The answer to the `k`-th call. -/
  ask : Nat → ρ → α
  /-- The answer is cut: nothing of it is kept if the region can be split. -/
  cut : ρ → α → Bool
  take : β → Option β
  /-- What a cell holds after the search of a region at a depth, or after none. -/
  cell : ρ → Nat → Option α → κ → γ
  nonempty : ∀ r, cells r ≠ []
  split_perm : ∀ {r x y}, split r = some (x, y) → (cells x ++ cells y).Perm (cells r)

namespace SplitDriver

variable {ρ κ α γ β : Type}

structure State (ρ κ α γ β : Type) where
  budget : β
  calls : List (ρ × α)
  cells : Dict κ γ

def State.note (st : State ρ κ α γ β) (budget : β) (call : ρ × α) : State ρ κ α γ β :=
  { st with budget := budget, calls := st.calls ++ [call] }

theorem cells_of_split (d : SplitDriver ρ κ α γ β) {r x y} (h : d.split r = some (x, y)) {P : κ → Prop}
    (hnodup : (d.cells r).Nodup) (hr : ∀ k ∈ d.cells r, P k) :
    (d.cells x ++ d.cells y).Nodup ∧ (∀ k ∈ d.cells x, P k) ∧ ∀ k ∈ d.cells y, P k := by
  have hperm := d.split_perm h
  exact ⟨hperm.nodup_iff.mpr hnodup, fun k hk => hr k (hperm.mem_iff.mp (List.mem_append_left _ hk)),
    fun k hk => hr k (hperm.mem_iff.mp (List.mem_append_right _ hk))⟩

theorem length_lt_of_split (d : SplitDriver ρ κ α γ β) {r x y} (h : d.split r = some (x, y)) :
    (d.cells x).length < (d.cells r).length ∧ (d.cells y).length < (d.cells r).length := by
  have hlen := (d.split_perm h).length_eq
  have hx := List.length_pos_of_ne_nil (d.nonempty x)
  have hy := List.length_pos_of_ne_nil (d.nonempty y)
  rw [List.length_append] at hlen
  omega

def emit [DecidableEq κ] (d : SplitDriver ρ κ α γ β) (r : ρ) (depth : Nat) (answer : Option α) (st : State ρ κ α γ β) :
    State ρ κ α γ β :=
  { st with
    cells := (d.cells r).foldl (fun cells k => cells.set k (d.cell r depth answer k)) st.cells }

def search [DecidableEq κ] (d : SplitDriver ρ κ α γ β) (r : ρ) (depth : Nat) (st : State ρ κ α γ β) : State ρ κ α γ β :=
  match d.take st.budget with
  | none => d.emit r depth none st
  | some budget =>
    let answer := d.ask st.calls.length r
    let asked := st.note budget (r, answer)
    if d.cut r answer then
      match h : d.split r with
      | some (x, y) => d.search y (depth + 1) (d.search x (depth + 1) asked)
      | none => d.emit r depth (some answer) asked
    else d.emit r depth (some answer) asked
termination_by (d.cells r).length
decreasing_by
  · exact (d.length_lt_of_split h).1
  · exact (d.length_lt_of_split h).2

/-! ## What a search leaves -/

/-- `n` takes from a budget, one after the other. -/
inductive Takes (take : β → Option β) : Nat → β → β → Prop
  | zero (b) : Takes take 0 b b
  | succ {n b b' b''} : take b = some b' → Takes take n b' b'' → Takes take (n + 1) b b''

theorem Takes.trans {take : β → Option β} {m n b b' b''} (h₁ : Takes take m b b')
    (h₂ : Takes take n b' b'') : Takes take (m + n) b b'' := by
  induction h₁ with
  | zero b => rwa [Nat.zero_add]
  | succ ht _ ih =>
    rw [Nat.add_right_comm]
    exact .succ ht (ih h₂)

/-- What a written cell says: no search of its region was made, or one of the calls decided it. -/
inductive Decided (d : SplitDriver ρ κ α γ β) (calls : List (ρ × α)) (k : κ) : γ → Prop
  | skipped {r depth} : k ∈ d.cells r → Decided d calls k (d.cell r depth none k)
  | answered {r depth answer} : k ∈ d.cells r → (r, answer) ∈ calls →
      (d.cut r answer = true → d.split r = none) → Decided d calls k (d.cell r depth (some answer) k)

theorem Decided.mono {d : SplitDriver ρ κ α γ β} {calls calls' k c}
    (h : Decided d calls k c) (hsub : ∀ call ∈ calls, call ∈ calls') : Decided d calls' k c := by
  cases h with
  | skipped hk => exact .skipped hk
  | answered hk hcall hcut => exact .answered hk (hsub _ hcall) hcut

/-- A part of a search made `calls` and wrote `written`. -/
structure Searched (d : SplitDriver ρ κ α γ β) (region : List κ) (st : State ρ κ α γ β) (calls : List (ρ × α))
    (written : Dict κ γ) (st' : State ρ κ α γ β) : Prop where
  calls_eq : st'.calls = st.calls ++ calls
  cells_eq : st'.cells = st.cells ++ written
  keys_perm : written.keys.Perm region
  asked : ∀ i call, calls[i]? = some call → call.2 = d.ask (st.calls.length + i) call.1
  takes : Takes d.take calls.length st.budget st'.budget

theorem Searched.trans {d region₁ region₂} {st st₁ st₂ : State ρ κ α γ β}
    {calls₁ calls₂ written₁ written₂}
    (h₁ : Searched d region₁ st calls₁ written₁ st₁) (h₂ : Searched d region₂ st₁ calls₂ written₂ st₂) :
    Searched d (region₁ ++ region₂) st (calls₁ ++ calls₂) (written₁ ++ written₂) st₂ where
  calls_eq := by rw [h₂.calls_eq, h₁.calls_eq, List.append_assoc]
  cells_eq := by rw [h₂.cells_eq, h₁.cells_eq, List.append_assoc]
  keys_perm := by
    have hkeys : Dict.keys (written₁ ++ written₂) = written₁.keys ++ written₂.keys := List.map_append
    rw [hkeys]
    exact h₁.keys_perm.append h₂.keys_perm
  asked := by
    intro i call hcall
    rcases Nat.lt_or_ge i calls₁.length with hi | hi
    · rw [List.getElem?_append_left hi] at hcall
      exact h₁.asked i call hcall
    · rw [List.getElem?_append_right hi] at hcall
      have h := h₂.asked _ call hcall
      rw [h₁.calls_eq, List.length_append, Nat.add_assoc, Nat.add_sub_cancel' hi] at h
      exact h
  takes := by
    rw [List.length_append]
    exact h₁.takes.trans h₂.takes

theorem foldl_set_new [DecidableEq κ] (f : κ → γ) {l : List κ} (hl : l.Nodup) (d : Dict κ γ)
    (hnew : ∀ k ∈ l, k ∉ d.keys) : l.foldl (fun d k => d.set k (f k)) d = d ++ l.map (fun k => (k, f k)) := by
  induction l generalizing d with
  | nil => simp
  | cons k l ih =>
    have hnodup := List.nodup_cons.mp hl
    have hset : d.set k (f k) = d ++ [(k, f k)] := by
      have hany : ¬ d.any (fun item => item.1 = k) := by
        intro hany
        obtain ⟨item, hitem, hk⟩ := List.any_eq_true.mp hany
        exact hnew k List.mem_cons_self (List.mem_map.mpr ⟨item, hitem, of_decide_eq_true hk⟩)
      simp only [Dict.set, hany, Bool.false_eq_true, if_false]
    rw [List.foldl_cons, hset, ih hnodup.2]
    · simp
    · intro k' hk' hmem
      have hkeys : Dict.keys (d ++ [(k, f k)]) = d.keys ++ [k] := by simp [Dict.keys]
      rw [hkeys, List.mem_append, List.mem_singleton] at hmem
      rcases hmem with hmem | rfl
      · exact hnew k' (List.mem_cons_of_mem k hk') hmem
      · exact hnodup.1 hk'

variable [DecidableEq κ]

theorem searched_emit (d : SplitDriver ρ κ α γ β) (r : ρ) (depth : Nat) (answer : Option α)
    {st : State ρ κ α γ β} (hnodup : (d.cells r).Nodup) (hnew : ∀ k ∈ d.cells r, k ∉ st.cells.keys) :
    Searched d (d.cells r) st [] ((d.cells r).map (fun k => (k, d.cell r depth answer k)))
      (d.emit r depth answer st) where
  calls_eq := by simp [emit]
  cells_eq := foldl_set_new _ hnodup _ hnew
  keys_perm := by
    have hkeys : Dict.keys ((d.cells r).map (fun k => (k, d.cell r depth answer k))) = d.cells r := by
      simp [Dict.keys, Function.comp_def]
    rw [hkeys]
  asked := by simp
  takes := .zero _

/-- Every cell of the region was written once and says what the calls made decided, with at most
`2 * cells - 1` calls. -/
def Covered (d : SplitDriver ρ κ α γ β) (r : ρ) (st st' : State ρ κ α γ β) : Prop :=
  ∃ calls written, Searched d (d.cells r) st calls written st' ∧
    calls.length ≤ 2 * (d.cells r).length - 1 ∧ ∀ item ∈ written, Decided d calls item.1 item.2

variable {d : SplitDriver ρ κ α γ β} {r : ρ} {st : State ρ κ α γ β}

omit [DecidableEq κ] in
theorem searched_ask {budget} (htake : d.take st.budget = some budget) :
    Searched d [] st [(r, d.ask st.calls.length r)] [] (st.note budget (r, d.ask st.calls.length r))  where
  calls_eq := rfl
  cells_eq := by simp [State.note]
  keys_perm := List.Perm.refl []
  asked := by
    intro i call hcall
    cases i with
    | zero =>
      cases hcall
      rfl
    | succ i => cases hcall
  takes := .succ htake (.zero _)

theorem covered_answered (hnodup : (d.cells r).Nodup) (hnew : ∀ k ∈ d.cells r, k ∉ st.cells.keys) {budget}
    (htake : d.take st.budget = some budget) (depth : Nat)
    (hcut : d.cut r (d.ask st.calls.length r) = true → d.split r = none) :
    Covered d r st (d.emit r depth (some (d.ask st.calls.length r)) (st.note budget (r, d.ask st.calls.length r))) := by
  have hask := searched_ask (r := r) htake
  have hnew' : ∀ k ∈ d.cells r, k ∉ (st.note budget (r, d.ask st.calls.length r)).cells.keys := hnew
  have hemit := searched_emit d r depth (some (d.ask st.calls.length r)) hnodup hnew'
  refine ⟨_, _, by simpa using hask.trans hemit, ?_, ?_⟩
  · have := List.length_pos_of_ne_nil (d.nonempty r)
    simp only [List.length_singleton]
    omega
  · intro item hitem
    obtain ⟨k, hk, rfl⟩ := List.mem_map.mp hitem
    exact .answered hk (List.mem_singleton_self _) hcut

omit [DecidableEq κ] in
theorem Covered.new_of_disjoint {st'} (h : Covered d r st st') {rest} (hnodup : (d.cells r ++ rest).Nodup)
    (hnew : ∀ k ∈ rest, k ∉ st.cells.keys) : ∀ k ∈ rest, k ∉ st'.cells.keys := by
  obtain ⟨_, written, hs, _⟩ := h
  intro k hk hmem
  have hkeys : Dict.keys (st.cells ++ written) = st.cells.keys ++ written.keys := List.map_append
  rw [hs.cells_eq, hkeys, List.mem_append] at hmem
  rcases hmem with hmem | hmem
  · exact hnew k hk hmem
  · exact (List.nodup_append.mp hnodup).2.2 k (hs.keys_perm.mem_iff.mp hmem) k hk rfl

omit [DecidableEq κ] in
theorem covered_split {x y : ρ} (hsplit : d.split r = some (x, y)) {budget} (htake : d.take st.budget = some budget)
    {st₁ st₂ : State ρ κ α γ β} (h₁ : Covered d x (st.note budget (r, d.ask st.calls.length r)) st₁)
    (h₂ : Covered d y st₁ st₂) : Covered d r st st₂ := by
  obtain ⟨calls₁, written₁, hs₁, hlen₁, hdec₁⟩ := h₁
  obtain ⟨calls₂, written₂, hs₂, hlen₂, hdec₂⟩ := h₂
  have hperm := d.split_perm hsplit
  have hall := (searched_ask (r := r) htake).trans (hs₁.trans hs₂)
  have hlen := hperm.length_eq
  have hx := List.length_pos_of_ne_nil (d.nonempty x)
  have hy := List.length_pos_of_ne_nil (d.nonempty y)
  rw [List.length_append] at hlen
  refine ⟨_, _, ⟨hall.calls_eq, hall.cells_eq, hall.keys_perm.trans hperm, hall.asked, hall.takes⟩, ?_, ?_⟩
  · simp only [List.length_append, List.length_singleton]
    omega
  · intro item hitem
    rcases List.mem_append.mp hitem with hitem | hitem
    · cases hitem
    · rcases List.mem_append.mp hitem with hitem | hitem
      · exact (hdec₁ item hitem).mono (fun call hcall => by simp [hcall])
      · exact (hdec₂ item hitem).mono (fun call hcall => by simp [hcall])

theorem covered_search (d : SplitDriver ρ κ α γ β) (r : ρ) (depth : Nat) {st} (hnodup : (d.cells r).Nodup)
    (hnew : ∀ k ∈ d.cells r, k ∉ st.cells.keys) : Covered d r st (d.search r depth st) := by
  induction hn : (d.cells r).length using Nat.strongRecOn generalizing r depth st with
  | ind n ih =>
    rw [search]
    cases htake : d.take st.budget with
    | none =>
      refine ⟨[], _, searched_emit d r depth none hnodup hnew, Nat.zero_le _, ?_⟩
      intro item hitem
      obtain ⟨k, hk, rfl⟩ := List.mem_map.mp hitem
      exact .skipped hk
    | some budget =>
      simp only
      split
      · split
        · rename_i x y hsplit
          obtain ⟨hx, hy⟩ := d.length_lt_of_split hsplit
          obtain ⟨hparts, hnewx, hnewy⟩ := d.cells_of_split
            (P := (· ∉ (st.note budget (r, d.ask st.calls.length r)).cells.keys)) hsplit hnodup hnew
          have hleft := ih _ (hn ▸ hx) x (depth + 1) (List.nodup_append.mp hparts).1 hnewx rfl
          have hmid := hleft.new_of_disjoint hparts hnewy
          have hright := ih _ (hn ▸ hy) y (depth + 1) (List.nodup_append.mp hparts).2.1 hmid rfl
          exact covered_split hsplit htake hleft hright
        · rename_i hsplit
          exact covered_answered hnodup hnew htake depth (fun _ => hsplit)
      · rename_i hcut
        exact covered_answered hnodup hnew htake depth (fun h => absurd h hcut)

/-! ## The first cell -/

def reaches (d : SplitDriver ρ κ α γ β) (r : ρ) (calls : Nat) (budget : β) : Bool :=
  match d.take budget with
  | none => false
  | some budget =>
    if d.cut r (d.ask calls r) then
      match h : d.split r with
      | some (x, _) => d.reaches x (calls + 1) budget
      | none => true
    else true
termination_by (d.cells r).length
decreasing_by exact (d.length_lt_of_split h).1

def DecidedAs (d : SplitDriver ρ κ α γ β) (k : κ) (searched : Bool) (c : γ) : Prop :=
  ∃ r depth answer, k ∈ d.cells r ∧ c = d.cell r depth answer k ∧ answer.isSome = searched

theorem get?_emit (d : SplitDriver ρ κ α γ β) {r} (depth : Nat) (answer : Option α) {k} (hk : k ∈ d.cells r) {st}
    (hnew : k ∉ st.cells.keys) : (d.emit r depth answer st).cells.get? k = some (d.cell r depth answer k) := by
  have h := Dict.get?_foldl_set (fun k => k) (fun k => d.cell r depth answer k) (d.cells r) st.cells k
  simp only [emit]
  cases hget : Dict.get? ((d.cells r).foldl (fun cells k => cells.set k (d.cell r depth answer k)) st.cells) k with
  | none =>
    simp only [hget] at h
    exact absurd rfl (h.2 k hk)
  | some c =>
    simp only [hget] at h
    rcases h with ⟨k', _, rfl, hc⟩ | h
    · rw [hc]
    · exact absurd (List.mem_map.mpr ⟨(k, c), Dict.mem_of_get? h, rfl⟩) hnew

theorem Covered.get? {r st st'} (h : Covered d r st st') {k c}
    (hk : st.cells.get? k = some c) : st'.cells.get? k = some c := by
  obtain ⟨_, written, hs, _⟩ := h
  rw [hs.cells_eq, Dict.get?_append, hk]
  rfl

theorem get?_search_first (first : ρ → κ) (hfirst : ∀ r, first r ∈ d.cells r)
    (hleft : ∀ {r x y}, d.split r = some (x, y) → first x = first r) (depth : Nat) (st : State ρ κ α γ β)
    (hnodup : (d.cells r).Nodup) (hnew : ∀ k ∈ d.cells r, k ∉ st.cells.keys) :
    ∃ c, (d.search r depth st).cells.get? (first r) = some c ∧
      DecidedAs d (first r) (d.reaches r st.calls.length st.budget) c := by
  induction hn : (d.cells r).length using Nat.strongRecOn generalizing r depth st with
  | ind n ih =>
    rw [search, reaches]
    cases htake : d.take st.budget with
    | none =>
      exact ⟨_, d.get?_emit depth none (hfirst r) (hnew _ (hfirst r)), r, depth, none, hfirst r, rfl, rfl⟩
    | some budget =>
      have hnew' : ∀ k ∈ d.cells r, k ∉ (st.note budget (r, d.ask st.calls.length r)).cells.keys := hnew
      have hkept : ∃ c, (d.emit r depth (some (d.ask st.calls.length r))
            (st.note budget (r, d.ask st.calls.length r))).cells.get? (first r) = some c ∧
            DecidedAs d (first r) true c :=
        ⟨_, d.get?_emit depth _ (hfirst r) (hnew' _ (hfirst r)), r, depth, _, hfirst r, rfl, rfl⟩
      simp only
      split
      · split
        · rename_i x y hsplit
          obtain ⟨hx, hy⟩ := d.length_lt_of_split hsplit
          obtain ⟨hparts, hnewx, hnewy⟩ := d.cells_of_split hsplit hnodup hnew'
          obtain ⟨c, hc, hdecided⟩ := ih _ (hn ▸ hx) (r := x) (depth + 1) _ (List.nodup_append.mp hparts).1 hnewx rfl
          have hxcover := covered_search d x (depth + 1) (List.nodup_append.mp hparts).1 hnewx
          have hmid := hxcover.new_of_disjoint hparts hnewy
          have hycover := covered_search d y (depth + 1) (List.nodup_append.mp hparts).2.1 hmid
          rw [hleft hsplit] at hc hdecided
          refine ⟨c, hycover.get? hc, ?_⟩
          simpa [State.note] using hdecided
        · exact hkept
      · exact hkept

end SplitDriver

theorem keys_sortOn {κ γ : Type} [LinearOrder κ] {d : Dict κ γ} {target} (hperm : d.keys.Perm target)
    (hsorted : target.Pairwise (fun a b => a ≤ b)) : Dict.keys (sortOn (fun item => item.1) d) = target := by
  have hkeys : (Dict.keys (sortOn (fun item => item.1) d)).Perm target :=
    ((sortOn_perm d).map _).trans hperm
  have hsort : (Dict.keys (sortOn (fun item => item.1) d)).Pairwise (fun a b => a ≤ b) :=
    List.pairwise_map.mpr (List.pairwise_insertionSort (fun a b : κ × γ => a.1 ≤ b.1) d)
  exact hkeys.eq_of_pairwise (fun a b _ _ hab hba => le_antisymm hab hba) hsort hsorted

end QRadarDashboard.Lib
