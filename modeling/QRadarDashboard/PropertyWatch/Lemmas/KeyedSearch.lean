import QRadarDashboard.Collectors.Lemmas.BucketedMetrics
import QRadarDashboard.PropertyWatch.KeyedSearch

/-!
# What a keyed search leaves
-/

namespace QRadarDashboard.PropertyWatch
open Lib Collectors

/-! ## The budget -/

structure PwSearchBudget.Spent (b : PwSearchBudget) (watch : Option Int) (k : Nat) (b' : PwSearchBudget) :
    Prop where
  maxSearches_eq : b'.maxSearches = b.maxSearches
  maxPerWatch_eq : b'.maxPerWatch = b.maxPerWatch
  used_eq : b'.used = b.used + k
  within : k ≤ b.maxSearches - b.used
  usedBy_eq : ∀ w, watch = some w → b'.usedBy w = b.usedBy w + k
  share : ∀ w, watch = some w → ∀ most, b.maxPerWatch = some most → k ≤ most - b.usedBy w

theorem PwSearchBudget.Spent.zero (b : PwSearchBudget) (watch : Option Int) : b.Spent watch 0 b where
  maxSearches_eq := rfl
  maxPerWatch_eq := rfl
  used_eq := rfl
  within := Nat.zero_le _
  usedBy_eq := fun _ _ => rfl
  share := fun _ _ _ _ => Nat.zero_le _

theorem PwSearchBudget.Spent.trans {b b₁ b₂ : PwSearchBudget} {watch k₁ k₂}
    (h₁ : b.Spent watch k₁ b₁) (h₂ : b₁.Spent watch k₂ b₂) : b.Spent watch (k₁ + k₂) b₂ where
  maxSearches_eq := h₂.maxSearches_eq.trans h₁.maxSearches_eq
  maxPerWatch_eq := h₂.maxPerWatch_eq.trans h₁.maxPerWatch_eq
  used_eq := by rw [h₂.used_eq, h₁.used_eq, Nat.add_assoc]
  within := by
    have h := h₂.within
    rw [h₁.maxSearches_eq, h₁.used_eq] at h
    have := h₁.within
    omega
  usedBy_eq := fun w hw => by rw [h₂.usedBy_eq w hw, h₁.usedBy_eq w hw, Nat.add_assoc]
  share := fun w hw most hmost => by
    have h := h₂.share w hw most (h₁.maxPerWatch_eq.trans hmost)
    rw [h₁.usedBy_eq w hw] at h
    have := h₁.share w hw most hmost
    omega

theorem PwSearchBudget.spent_of_tryTake {b b' : PwSearchBudget} {watch}
    (h : b.tryTake watch = some b') : b.Spent watch 1 b' := by
  unfold tryTake at h
  by_cases hfull : b.maxSearches ≤ b.used
  · simp [hfull] at h
  · simp only [hfull, if_false] at h
    cases watch with
    | none =>
      cases h
      refine ⟨rfl, rfl, rfl, by omega, ?_, ?_⟩
      · rintro w ⟨⟩
      · rintro w ⟨⟩
    | some w =>
      by_cases hshare : b.maxPerWatch.any (fun most => most ≤ b.usedBy w)
      · simp [hshare] at h
      · simp only [hshare, Bool.false_eq_true, if_false, Option.some.injEq] at h
        subst h
        refine ⟨rfl, rfl, rfl, by omega, ?_, ?_⟩
        · intro w' hw
          cases hw
          simp [usedBy, Dict.get?_set]
        · intro w' hw most hmost
          cases hw
          simp only [hmost, Option.any_some, decide_eq_true_eq] at hshare
          omega

/-! ## What a cell says -/

def OnGrid (bucketSeconds windowStart : Int) (row : PwKeyedRow) : Prop :=
  ∃ k : Int, row.bucketStart = windowStart + seconds (bucketSeconds * k)

/-- What a cell of a search over buckets of `bucketSeconds` says about the calls made. -/
structure Honest (bucketSeconds : Int) (propertyCount : Nat) (calls : List PwCall) (cell : PwBucketOutcome) :
    Prop where
  complete : cell.state = .complete → ∃ call ∈ calls, ∃ result, call.answer = some result ∧
    result.truncated = false ∧ SearchArgs.contained call.request propertyCount result = true ∧
    call.request.windowStart ≤ cell.bucketStart ∧ cell.bucketStart < call.request.windowEnd ∧
    cell.rows = result.rows.filter (fun row => row.bucketStart = cell.bucketStart)
  lowerBound : cell.state = .lowerBound → ∃ call ∈ calls, ∃ result, call.answer = some result ∧
    result.truncated = true ∧ SearchArgs.contained call.request propertyCount result = true ∧
    call.request.windowStart = cell.bucketStart ∧
    call.request.windowEnd = cell.bucketStart + seconds bucketSeconds ∧
    cell.rows = result.rows.filter (fun row => row.bucketStart = cell.bucketStart) ∧
    ((∀ row ∈ result.rows, OnGrid bucketSeconds call.request.windowStart row) → cell.rows = result.rows)
  unmeasured : cell.state = .failed ∨ cell.state = .notCollected → cell.rows = []

theorem PwBucketOutcome.rows_eq_nil {cell : PwBucketOutcome}
    (h : cell.state = .failed ∨ cell.state = .notCollected) : cell.rows = [] := by
  apply cell.rows_ok
  rcases h with h | h
  · rw [h]
    rfl
  · rw [h]
    rfl

theorem Honest.mono {bucketSeconds propertyCount calls calls' cell} (h : Honest bucketSeconds propertyCount calls cell)
    (hsub : ∀ call ∈ calls, call ∈ calls') : Honest bucketSeconds propertyCount calls' cell where
  complete := fun hstate => by
    obtain ⟨call, hcall, hrest⟩ := h.complete hstate
    exact ⟨call, hsub call hcall, hrest⟩
  lowerBound := fun hstate => by
    obtain ⟨call, hcall, hrest⟩ := h.lowerBound hstate
    exact ⟨call, hsub call hcall, hrest⟩
  unmeasured := h.unmeasured

theorem honest_of_unmeasured {bucketSeconds propertyCount calls} {cell : PwBucketOutcome}
    (h : cell.state.measured = false) : Honest bucketSeconds propertyCount calls cell  where
  complete := fun hstate => by simp [hstate, PwCellState.measured] at h
  lowerBound := fun hstate => by simp [hstate, PwCellState.measured] at h
  unmeasured := PwBucketOutcome.rows_eq_nil

/-! ## Buckets and rows -/

namespace SearchArgs

variable {a : SearchArgs}

theorem bucketAt_lt (hwidth : 0 < a.bucketSeconds) {i j} (h : i < j) : a.bucketAt i < a.bucketAt j :=
  bucketStartAt_lt hwidth h

theorem bucketAt_inj (hwidth : 0 < a.bucketSeconds) {i j} (h : a.bucketAt i = a.bucketAt j) : i = j :=
  bucketStartAt_inj hwidth h

theorem bucketAt_succ (i : Nat) : a.bucketAt (i + 1) = a.bucketAt i + seconds a.bucketSeconds :=
  bucketStartAt_succ i

/-! ## The parts of a search -/

structure Searched (a : SearchArgs) (first count : Nat) (st : SearchState) (calls : List PwCall)
    (cells : List PwBucketOutcome) (st' : SearchState) : Prop where
  calls_eq : st'.calls = st.calls ++ calls
  cells_eq : st'.cells = st.cells ++ cells.map (fun cell => (cell.bucketStart, cell))
  buckets : cells.map (fun cell => cell.bucketStart) = (List.range' first count).map a.bucketAt
  answered : ∀ i call, calls[i]? = some call → call.answer = a.provider (st.calls.length + i) call.request
  spent : st.budget.Spent a.watch calls.length st'.budget

theorem Searched.trans {first count₁ count₂ st st₁ st₂ calls₁ calls₂ cells₁ cells₂}
    (h₁ : Searched a first count₁ st calls₁ cells₁ st₁)
    (h₂ : Searched a (first + count₁) count₂ st₁ calls₂ cells₂ st₂) :
    Searched a first (count₁ + count₂) st (calls₁ ++ calls₂) (cells₁ ++ cells₂) st₂ where
  calls_eq := by rw [h₂.calls_eq, h₁.calls_eq, List.append_assoc]
  cells_eq := by rw [h₂.cells_eq, h₁.cells_eq, List.map_append, List.append_assoc]
  buckets := by
    rw [List.map_append, h₁.buckets, h₂.buckets, ← List.map_append, List.range'_append_1]
  answered := by
    intro i call hcall
    rcases Nat.lt_or_ge i calls₁.length with hi | hi
    · rw [List.getElem?_append_left hi] at hcall
      exact h₁.answered i call hcall
    · rw [List.getElem?_append_right hi] at hcall
      have h := h₂.answered _ call hcall
      rw [h₁.calls_eq, List.length_append, Nat.add_assoc, Nat.add_sub_cancel' hi] at h
      exact h
  spent := by
    rw [List.length_append]
    exact h₁.spent.trans h₂.spent

def Before (a : SearchArgs) (first : Nat) (st : SearchState) : Prop :=
  st.cells.map (fun item => item.1) = (List.range first).map a.bucketAt

theorem Searched.before {first count st st' calls cells} (h : Searched a first count st calls cells st')
    (hb : Before a first st) : Before a (first + count) st' := by
  unfold Before at hb ⊢
  rw [h.cells_eq, List.map_append, hb, List.map_map]
  have hcells : cells.map ((fun item => item.1) ∘ fun cell => (cell.bucketStart, cell)) =
      (List.range' first count).map a.bucketAt := h.buckets
  rw [hcells, ← List.map_append, List.range_eq_range', List.range_eq_range',
    show List.range' first count = List.range' (0 + first) count by rw [Nat.zero_add],
    List.range'_append_1]

theorem searched_ask (first count : Nat) {budget} {st : SearchState} (h : st.budget.tryTake a.watch = some budget) :
    Searched a first 0 st [⟨a.request first count, a.provider st.calls.length (a.request first count)⟩] []
      (a.ask first count budget st)  where
  calls_eq := rfl
  cells_eq := by simp [ask]
  buckets := rfl
  answered := by
    intro i call hcall
    cases i with
    | zero =>
      cases hcall
      rfl
    | succ i => cases hcall
  spent := PwSearchBudget.spent_of_tryTake h

theorem foldl_set_bucketAt (hwidth : 0 < a.bucketSeconds) (f : Nat → PwBucketOutcome) (first count : Nat)
    (cells : Dict Int PwBucketOutcome) (hb : cells.map (fun item => item.1) = (List.range first).map a.bucketAt) :
    (List.range' first count).foldl (fun cells index => cells.set (a.bucketAt index) (f index)) cells =
      cells ++ (List.range' first count).map (fun index => (a.bucketAt index, f index)) := by
  induction count generalizing first cells with
  | zero => simp
  | succ count ih =>
    have hnew : ¬ cells.any (fun item => item.1 = a.bucketAt first) := by
      intro hany
      obtain ⟨item, hitem, hkey⟩ := List.any_eq_true.mp hany
      have hmem : item.1 ∈ (List.range first).map a.bucketAt := by
        rw [← hb]
        exact List.mem_map.mpr ⟨item, hitem, rfl⟩
      obtain ⟨i, hi, heq⟩ := List.mem_map.mp hmem
      have := bucketAt_inj hwidth (heq.trans (of_decide_eq_true hkey))
      have := List.mem_range.mp hi
      omega
    rw [List.range'_succ, List.foldl_cons, List.map_cons]
    have hset : cells.set (a.bucketAt first) (f first) = cells ++ [(a.bucketAt first, f first)] := by
      simp only [Dict.set, hnew, Bool.false_eq_true, if_false]
    rw [hset, ih (first + 1) _ (by rw [List.map_append, hb, List.range_succ, List.map_append]; rfl),
      List.append_assoc]
    rfl

theorem searched_emit (hwidth : 0 < a.bucketSeconds) (first count : Nat) {state rows}
    (h : state.measured = false → rows = []) (provenance : Option PwSearchProvenance) {st} (hb : Before a first st) :
    Searched a first count st [] ((List.range' first count).map (a.cell state rows h provenance))
      (a.emit first count state rows h provenance st)  where
  calls_eq := by simp [emit]
  cells_eq := by
    simp only [emit, List.map_map]
    exact foldl_set_bucketAt hwidth _ first count st.cells hb
  buckets := by
    rw [List.map_map]
    rfl
  answered := by
    intro i call hcall
    simp at hcall
  spent := .zero _ _

theorem filter_of_onGrid (hwidth : 0 < a.bucketSeconds) {i result}
    (h : contained (a.request i 1) (propertyCount a.spec) result = true)
    (hgrid : ∀ row ∈ result.rows, OnGrid a.bucketSeconds (a.bucketAt i) row) :
    result.rows.filter (fun row => row.bucketStart = a.bucketAt i) = result.rows := by
  rw [List.filter_eq_self]
  intro row hrow
  obtain ⟨k, hk⟩ := hgrid row hrow
  simp only [contained, Bool.and_eq_true, List.all_eq_true, decide_eq_true_eq] at h
  obtain ⟨⟨hlo, hhi⟩, _⟩ := h.2 row hrow
  simp only [request, bucketAt_succ, hk, seconds] at hlo hhi
  have hk₀ : -1 < k := by
    by_contra hneg
    have := Int.mul_le_mul_of_nonneg_left (show k ≤ -1 by omega) hwidth.le
    omega
  have hk₁ : k < 1 := by
    by_contra hpos
    have := Int.mul_le_mul_of_nonneg_left (show 1 ≤ k by omega) hwidth.le
    omega
  have hzero : k = 0 := by omega
  simp [hk, hzero, seconds]

theorem honest_cell_of_answer (hwidth : 0 < a.bucketSeconds) {first count} {result : PwKeyedResult} {answer state}
    (h : state.measured = false → result.rows = []) (hanswer : answer = some result)
    (hcontained : contained (a.request first count) (propertyCount a.spec) result = true)
    (hcomplete : state = .complete → result.truncated = false)
    (hlower : state = .lowerBound → result.truncated = true ∧ count = 1) (provenance : Option PwSearchProvenance) :
    ∀ cell ∈ (List.range' first count).map (a.cell state result.rows h provenance),
      Honest a.bucketSeconds (propertyCount a.spec) [⟨a.request first count, answer⟩] cell := by
  intro cell hcell
  obtain ⟨i, hi, rfl⟩ := List.mem_map.mp hcell
  obtain ⟨hfirst, hlast⟩ := List.mem_range'_1.mp hi
  refine ⟨?_, ?_, ?_⟩
  · intro hstate
    refine ⟨_, List.mem_singleton_self _, result, hanswer, hcomplete hstate, hcontained, ?_, ?_, rfl⟩
    · exact bucketStartAt_le hwidth hfirst
    · exact bucketAt_lt hwidth hlast
  · intro hstate
    obtain ⟨htruncated, hone⟩ := hlower hstate
    subst hone
    have hi : i = first := by omega
    subst hi
    exact ⟨_, List.mem_singleton_self _, result, hanswer, htruncated, hcontained, rfl, bucketAt_succ i, rfl,
      fun hgrid => filter_of_onGrid hwidth hcontained hgrid⟩
  · exact PwBucketOutcome.rows_eq_nil

/-- A search over `count` buckets wrote every bucket of its span, with at most `2 * count - 1` calls, and each
cell is about the calls it made. -/
def Covered (a : SearchArgs) (first count : Nat) (st st' : SearchState) : Prop :=
  ∃ calls cells, Searched a first count st calls cells st' ∧ calls.length ≤ 2 * count - 1 ∧
    ∀ cell ∈ cells, Honest a.bucketSeconds (propertyCount a.spec) calls cell

variable {first count : Nat} {st : SearchState} {budget : PwSearchBudget}

theorem covered_unmeasured (hwidth : 0 < a.bucketSeconds) (hcount : 0 < count) (hb : Before a first st)
    (htake : st.budget.tryTake a.watch = some budget) (provenance : Option PwSearchProvenance) :
    Covered a first count st
      (a.emit first count .failed [] (fun _ => rfl) provenance (a.ask first count budget st)) := by
  have hask := searched_ask (a := a) first count htake
  have hemit : Searched a first count _ [] _ (a.emit first count .failed [] (fun _ => rfl) provenance _) :=
    searched_emit hwidth first count _ provenance (hask.before hb)
  refine ⟨_, _, by simpa using hask.trans hemit, ?_, ?_⟩
  · simp only [List.length_singleton]
    omega
  · intro cell hcell
    obtain ⟨i, _, rfl⟩ := List.mem_map.mp hcell
    exact honest_of_unmeasured rfl

theorem covered_answered (hwidth : 0 < a.bucketSeconds) (hcount : 0 < count) (hb : Before a first st)
    (htake : st.budget.tryTake a.watch = some budget) {result state} (h : state.measured = false → result.rows = [])
    (hanswer : a.provider st.calls.length (a.request first count) = some result)
    (hcontained : contained (a.request first count) (propertyCount a.spec) result = true)
    (hcomplete : state = .complete → result.truncated = false)
    (hlower : state = .lowerBound → result.truncated = true ∧ count = 1) (provenance : Option PwSearchProvenance) :
    Covered a first count st (a.emit first count state result.rows h provenance (a.ask first count budget st)) := by
  have hask := searched_ask (a := a) first count htake
  have hemit := searched_emit hwidth first count h provenance (hask.before hb)
  refine ⟨_, _, by simpa using hask.trans hemit, ?_, ?_⟩
  · simp only [List.length_singleton]
    omega
  · exact honest_cell_of_answer hwidth h hanswer hcontained hcomplete hlower provenance

theorem covered_split {left} (hleft : 0 < left) (hright : left < count)
    (htake : st.budget.tryTake a.watch = some budget) {st₁ st₂}
    (h₁ : Covered a first left (a.ask first count budget st) st₁)
    (h₂ : Covered a (first + left) (count - left) st₁ st₂) : Covered a first count st st₂ := by
  obtain ⟨calls₁, cells₁, hs₁, hlen₁, hhonest₁⟩ := h₁
  obtain ⟨calls₂, cells₂, hs₂, hlen₂, hhonest₂⟩ := h₂
  have hall := (searched_ask (a := a) first count htake).trans (hs₁.trans hs₂)
  rw [Nat.zero_add, Nat.add_sub_cancel' hright.le] at hall
  refine ⟨_, _, hall, ?_, ?_⟩
  · simp only [List.length_append, List.length_singleton]
    omega
  · intro cell hcell
    rcases List.mem_append.mp hcell with hcell | hcell
    · cases hcell
    · rcases List.mem_append.mp hcell with hcell | hcell
      · exact (hhonest₁ cell hcell).mono (fun call hcall => by simp [hcall])
      · exact (hhonest₂ cell hcell).mono (fun call hcall => by simp [hcall])

theorem covered_search (hwidth : 0 < a.bucketSeconds) (first count depth : Nat) (hcount : 0 < count)
    {st} (hb : Before a first st) : Covered a first count st (a.search first count depth st) := by
  induction count using Nat.strongRecOn generalizing first depth st with
  | ind count ih =>
    rw [search]
    cases htake : st.budget.tryTake a.watch with
    | none =>
      refine ⟨[], _, searched_emit hwidth first count _ _ hb, Nat.zero_le _, ?_⟩
      intro cell hcell
      obtain ⟨i, _, rfl⟩ := List.mem_map.mp hcell
      exact honest_of_unmeasured rfl
    | some budget =>
      simp only
      cases hanswer : a.provider st.calls.length (a.request first count) with
      | none => exact covered_unmeasured hwidth hcount hb htake _
      | some result =>
        simp only
        by_cases hcontained : contained (a.request first count) (propertyCount a.spec) result = true
        · by_cases htruncated : result.truncated = true
          · by_cases hmany : 1 < count
            · -- The left half first; the right half may find the budget spent.
              simp only [hcontained, htruncated, hmany, not_true_eq_false, if_false, if_true]
              have hask := (searched_ask (a := a) first count htake).before hb
              have hleft := ih (count / 2) (by omega) first (depth + 1) (by omega) hask
              have hmid : Before a (first + count / 2)
                  (a.search first (count / 2) (depth + 1) (a.ask first count budget st)) := by
                obtain ⟨_, _, hs, _⟩ := hleft
                exact hs.before hask
              have hright := ih (count - count / 2) (by omega) (first + count / 2) (depth + 1) (by omega) hmid
              exact covered_split (by omega) (by omega) htake hleft hright
            · simp only [hcontained, htruncated, hmany, not_true_eq_false, if_false]
              exact covered_answered hwidth hcount hb htake _ hanswer hcontained (fun h => by cases h)
                (fun _ => ⟨htruncated, by omega⟩) _
          · simp only [hcontained, htruncated, not_true_eq_false, if_false]
            exact covered_answered hwidth hcount hb htake _ hanswer hcontained
              (fun _ => by simpa using htruncated) (fun h => by cases h) _
        · simp only [hcontained]
          exact covered_unmeasured hwidth hcount hb htake _

theorem outcomes_eq (hwidth : 0 < a.bucketSeconds) {n} {cells : List PwBucketOutcome}
    (h : cells.map (fun cell => cell.bucketStart) = (List.range' 0 n).map a.bucketAt) :
    (sortOn (fun item => item.1) (cells.map (fun cell => (cell.bucketStart, cell)))).map (fun item => item.2) =
      cells := by
  have hkeys : ((List.range' 0 n).map a.bucketAt).Pairwise (fun s t => s ≤ t) := by
    rw [List.pairwise_map, ← List.range_eq_range']
    exact List.pairwise_lt_range.imp (fun hlt => Int.le_of_lt (bucketAt_lt hwidth hlt))
  have hsorted : (cells.map (fun cell => (cell.bucketStart, cell))).Pairwise (fun c c' => c.1 ≤ c'.1) := by
    rw [← h, List.pairwise_map] at hkeys
    exact List.pairwise_map.mpr hkeys
  rw [sortOn_eq_self hsorted, List.map_map]
  exact List.map_id cells

end SearchArgs

end QRadarDashboard.PropertyWatch
