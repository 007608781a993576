import QRadarDashboard.Services.SearchExecutor
import Mathlib.Data.List.ReduceOption
import Mathlib.Data.Set.Card

/-!
# The searches of the executors
-/

namespace QRadarDashboard.Services
open Lib

variable {cfg : ExecutorSettings}

/-! ## What a step does -/

section Step

variable {ex ex' : Executor} {searches searches' : List ArielSearch} {event : ExecutorEvent}

theorem failed_phase (ex : Executor) (e : ArielException) :
    (ex.failed cfg e).phase.search = none ∧ (ex.failed cfg e).phase.holds = false := by
  unfold Executor.failed
  simp only
  split <;> exact ⟨rfl, rfl⟩

inductive ExecutorDoes (ex ex' : Executor) (searches searches' : List ArielSearch) (event : ExecutorEvent) : Prop
  /-- the search of the attempt stays what it is, unseen -/
  | goesOn (same : searches' = searches) (search : ex'.phase.search = ex.phase.search)
      (unseen : ∀ k, ex.phase ≠ .fetching k) (unseen' : ∀ k, ex'.phase ≠ .fetching k)
  | creates (phase : ex.phase = .creating) (new : searches' = searches ++ [({} : ArielSearch)])
      (phase' : ex'.phase = .saving searches.length)
  | sees (k : Nat) (phase : ex.phase = .polling k)
      (terminal : searches' = searches.modify k (fun search => { search with running := false, seenTerminal := true }))
      (phase' : ex'.phase = .fetching k ∨ ex'.phase.search = none) (answered : ∀ e elapsed, event ≠ .status (.error e) elapsed)
  | cancels (k : Nat) (phase : ex.phase = .cancelling k)
      (sent : searches' = searches.modify k (fun search => { search with cancelSent := true }))
      (phase' : ex'.phase.search = none) (answered : ∃ raised, event = .cancel raised)
  | reads (k : Nat) (phase : ex.phase = .fetching k) (same : searches' = searches) (phase' : ex'.phase.search = none)
      (answered : ∃ raised, event = .results raised)
  /-- a call about the search raised -/
  | abandons (k : Nat) (phase : ex.phase = .saving k ∧ (∃ e, event = .saved (some e)) ∨
      ex.phase = .polling k ∧ ∃ e elapsed, event = .status (.error e) elapsed)
      (same : searches' = searches) (phase' : ex'.phase.search = none)

theorem does_failed (hsearch : ex.phase.search = none) (e : ArielException) :
    ExecutorDoes ex (ex.failed cfg e) searches searches event := by
  have hfailed : (ex.failed cfg e).phase.search = none := (failed_phase ex e).1
  refine .goesOn rfl (hfailed.trans hsearch.symm) (fun k hk => ?_) (fun k hk => ?_)
  · rw [hk] at hsearch
    cases hsearch
  · rw [hk] at hfailed
    cases hfailed

theorem executor_does (h : ex.step cfg searches event = .ok (ex', searches')) :
    ExecutorDoes ex ex' searches searches' event := by
  cases event with
  | execute search row capable => cases h
  | saved raised =>
    simp only [Executor.step] at h
    split at h
    · rename_i hphase
      split at h <;> cases h
      · exact .goesOn rfl (by rw [hphase]; rfl) (by simp [hphase]) (by simp [Executor.goes])
      · exact does_failed (by rw [hphase]; rfl) _
    · rename_i k hphase
      cases h
      exact .goesOn rfl (by rw [hphase]; rfl) (by simp [hphase]) (by simp [Executor.goes])
    · rename_i k e hphase
      cases h
      exact .abandons k (.inl ⟨hphase, e, rfl⟩) rfl (failed_phase ex e).1
    · rename_i hphase
      cases h
      exact .goesOn rfl (by rw [hphase]; rfl) (by simp [hphase]) (by simp [Executor.begin])
    · rename_i hphase
      cases h
      exact .goesOn rfl (by rw [hphase]; rfl) (by simp [hphase]) (by simp [Executor.goes])
    · rename_i hphase
      cases h
      exact .goesOn rfl (by rw [hphase]; rfl) (by simp [hphase]) (by simp [Executor.goes])
    · cases h
  | permit refused =>
    simp only [Executor.step] at h
    split at h
    · rename_i hphase
      cases h
      exact .goesOn rfl (by rw [hphase]; rfl) (by simp [hphase]) (by simp [Executor.goes])
    · rename_i e hphase
      cases h
      exact does_failed (by rw [hphase]; rfl) e
    · cases h
  | create answer =>
    simp only [Executor.step] at h
    split at h
    · rename_i hphase
      cases h
      exact .creates hphase rfl rfl
    · rename_i e hphase
      cases h
      exact does_failed (by rw [hphase]; rfl) e
    · cases h
  | status answer elapsed =>
    simp only [Executor.step] at h
    split at h
    · rename_i k status hphase
      split at h
      · split at h <;> cases h
        · exact .sees k hphase rfl (.inr (failed_phase _ _).1) (by simp)
        · exact .sees k hphase rfl (.inl rfl) (by simp)
      · split at h <;> cases h <;>
          exact .goesOn rfl (by rw [hphase]; rfl) (by simp [hphase]) (by simp [Executor.goes])
    · rename_i k e hphase
      cases h
      exact .abandons k (.inr ⟨hphase, e, elapsed, rfl⟩) rfl (failed_phase ex e).1
    · cases h
  | cancel raised =>
    simp only [Executor.step] at h
    split at h
    · rename_i k hphase
      cases h
      exact .cancels k hphase rfl (failed_phase _ _).1 ⟨raised, rfl⟩
    · cases h
  | results raised =>
    simp only [Executor.step] at h
    split at h
    · rename_i k hphase
      cases h
      exact .reads k hphase rfl rfl ⟨none, rfl⟩
    · rename_i k e hphase
      cases h
      exact .reads k hphase rfl (failed_phase _ _).1 ⟨some e, rfl⟩
    · cases h

end Step

/-! ## The searches of all executors -/

section Executors

variable {ε : Type} {st st' : ExecutorState ε} {x : ε} {ex : Executor} {k : Nat}

/-- The search of an executor is its own, was not cancelled, and was seen to end only if its results are read. -/
structure ExecutorInv (st : ExecutorState ε) : Prop where
  current : ∀ x ex k, st.executor x = some ex → ex.phase.search = some k →
    ∃ search, st.searches[k]? = some search ∧ search.cancelSent = false ∧ (search.seenTerminal = true ↔ ex.phase = .fetching k)
  own : ∀ x y ex ey k, st.executor x = some ex → st.executor y = some ey → ex.phase.search = some k →
    ey.phase.search = some k → x = y
  ended : ∀ (k : Nat) search, st.searches[k]? = some search → search.seenTerminal = true → search.running = false

theorem executorInv_initial : ExecutorInv ({ executor := fun _ => none } : ExecutorState ε) :=
  ⟨by simp, by simp, by simp⟩

/-- The searches that QRadar still runs have an executor that holds a permit, or their cancel was sent. -/
def Accounted (st : ExecutorState ε) : Prop :=
  ∀ (k : Nat) search, st.searches[k]? = some search → search.running = true →
    search.cancelSent = true ∨ ∃ x ex, st.executor x = some ex ∧ ex.phase.search = some k

theorem holds_of_search (h : ex.phase.search = some k) : ex.phase.holds = true := by
  cases hphase : ex.phase <;> simp [hphase, ExecutorPhase.search] at h <;> rfl

/-- The searches that run on QRadar are no more than the permits held and the cancels sent. -/
def ExecutorState.Bounded (st : ExecutorState ε) : Prop :=
  {k : Nat | ∃ search, st.searches[k]? = some search ∧ search.running = true}.encard ≤
    {x | ∃ ex, st.executor x = some ex ∧ ex.phase.holds = true}.encard +
      {k : Nat | ∃ search, st.searches[k]? = some search ∧ search.cancelSent = true}.encard

theorem Accounted.bounded (h : Accounted st) : st.Bounded := by
  let current : ε → Nat := fun x => ((st.executor x).bind (fun ex => ex.phase.search)).getD 0
  refine le_trans (Set.encard_le_encard (t := current '' {x | ∃ ex, st.executor x = some ex ∧ ex.phase.holds = true} ∪
    {k : Nat | ∃ search, st.searches[k]? = some search ∧ search.cancelSent = true}) ?_)
    (le_trans (Set.encard_union_le _ _) (add_le_add_left (Set.encard_image_le _ _) _))
  rintro k ⟨search, hsearch, hrunning⟩
  rcases h k search hsearch hrunning with hcancelled | ⟨x, ex, hex, hk⟩
  · exact .inr ⟨search, hsearch, hcancelled⟩
  · exact .inl ⟨x, ⟨ex, hex, holds_of_search hk⟩, by simp [current, hex, hk]⟩

variable [DecidableEq ε] {move : ExecutorMove ε}

theorem executor_step (h : st.step cfg (.of x event) = .ok st') :
    (∃ search row capable, st.executor x = none ∧ event = .execute search row capable ∧
      st' = { st with executor := Function.update st.executor x (some (Executor.enter search row capable)) }) ∨
    ∃ ex ex' searches', st.executor x = some ex ∧ ex.step cfg st.searches event = .ok (ex', searches') ∧
      st' = { executor := Function.update st.executor x (some ex'), searches := searches' } := by
  simp only [ExecutorState.step] at h
  split at h
  · rename_i search row capable hnone
    cases h
    exact .inl ⟨search, row, capable, hnone, rfl, rfl⟩
  · rename_i ex hsome
    obtain ⟨⟨ex', searches'⟩, hstep, h⟩ := bind_ok h
    cases h
    exact .inr ⟨ex, ex', searches', hsome, hstep, rfl⟩
  · cases h

theorem enter_phase (search : ExecutorSearch) (row : ExecutionRow) (capable : Bool) :
    (Executor.enter search row capable).phase.search = none := by
  unfold Executor.enter
  split
  · rfl
  · split <;> rfl

theorem ExecutorInv.update (h : ExecutorInv st) {ex' searches'} (hex : st.executor x = some ex)
    (hcurrent : ∀ k, ex'.phase.search = some k → ∃ search, searches'[k]? = some search ∧ search.cancelSent = false ∧
      (search.seenTerminal = true ↔ ex'.phase = .fetching k))
    (hsame : ∀ k, ex'.phase.search = some k → ex.phase.search = some k ∨ k = st.searches.length)
    (hothers : ∀ k, ex.phase.search ≠ some k → k < st.searches.length → searches'[k]? = st.searches[k]?)
    (hended : ∀ (k : Nat) search, searches'[k]? = some search → search.seenTerminal = true → search.running = false) :
    ExecutorInv { executor := Function.update st.executor x (some ex'), searches := searches' } := by
  have hbound {y : ε} {ey : Executor} {k : Nat} (hey : st.executor y = some ey) (hk : ey.phase.search = some k) :
      k < st.searches.length := by
    obtain ⟨search, hsearch, -⟩ := h.current y ey k hey hk
    exact (List.getElem?_eq_some_iff.mp hsearch).1
  -- the new current search of `x` is nobody else's
  have hfresh {y : ε} {ey : Executor} {k : Nat} (hne : y ≠ x) (hey : st.executor y = some ey) (hk : ey.phase.search = some k) :
      ex'.phase.search ≠ some k := by
    intro hnew
    rcases hsame k hnew with hold | hlength
    · exact hne (h.own y x ey ex k hey hex hk hold)
    · exact absurd (hbound hey hk) (by omega)
  refine ⟨fun y ey k hey hk => ?_, fun y z ey ez k hey hez hky hkz => ?_, hended⟩
  · by_cases hy : y = x
    · subst hy
      simp only [Function.update_self, Option.some.injEq] at hey
      subst hey
      exact hcurrent k hk
    · simp only [Function.update_of_ne hy] at hey
      rw [hothers k (fun hold => hy (h.own y x ey ex k hey hex hk hold)) (hbound hey hk)]
      exact h.current y ey k hey hk
  · by_cases hy : y = x <;> by_cases hz : z = x
    · rw [hy, hz]
    · subst hy
      simp only [Function.update_self, Function.update_of_ne hz, Option.some.injEq] at hey hez
      subst hey
      exact absurd hky (hfresh hz hez hkz)
    · subst hz
      simp only [Function.update_self, Function.update_of_ne hy, Option.some.injEq] at hey hez
      subst hez
      exact absurd hkz (hfresh hy hey hky)
    · simp only [Function.update_of_ne hy, Function.update_of_ne hz] at hey hez
      exact h.own y z ey ez k hey hez hky hkz

theorem modify_getElem? {searches : List ArielSearch} {f : ArielSearch → ArielSearch} {j search} :
    (searches.modify k f)[j]? = some search ↔ ∃ old, searches[j]? = some old ∧ search = if k = j then f old else old := by
  rw [List.getElem?_modify, Option.map_eq_map, Option.map_eq_some_iff]
  simp only [eq_comm]

theorem modify_getElem?_of_ne {searches : List ArielSearch} (f : ArielSearch → ArielSearch) {j} (h : j ≠ k) :
    (searches.modify k f)[j]? = searches[j]? := by
  ext search
  rw [modify_getElem?]
  simp [h.symm]

theorem ExecutorInv.step (h : ExecutorInv st) (hstep : st.step cfg move = .ok st') : ExecutorInv st' := by
  cases move with
  | ends k =>
    cases hstep
    refine ⟨fun x ex j hex hj => ?_, h.own, fun j search hj hseen => ?_⟩
    · obtain ⟨old, hold, hcancel, hseen⟩ := h.current x ex j hex hj
      refine ⟨_, modify_getElem?.mpr ⟨old, hold, rfl⟩, ?_⟩
      split <;> exact ⟨hcancel, hseen⟩
    · obtain ⟨old, hold, rfl⟩ := modify_getElem?.mp hj
      by_cases heq : k = j
      · rw [if_pos heq]
      · rw [if_neg heq] at hseen ⊢
        exact h.ended j old hold hseen
  | of x event =>
    rcases executor_step hstep with ⟨search, row, capable, hnone, -, rfl⟩ | ⟨ex, ex', searches', hex, hdoes, rfl⟩
    · have hphase := enter_phase search row capable
      refine ⟨fun y ey k hey hk => ?_, fun y z ey ez k hey hez hky hkz => ?_, h.ended⟩
      · by_cases hy : y = x
        · subst hy
          simp only [Function.update_self, Option.some.injEq] at hey
          subst hey
          rw [hphase] at hk
          cases hk
        · simp only [Function.update_of_ne hy] at hey
          exact h.current y ey k hey hk
      · have hother {w : ε} {ew : Executor}
            (hew : Function.update st.executor x (some (Executor.enter search row capable)) w = some ew)
            (hkw : ew.phase.search = some k) : st.executor w = some ew := by
          by_cases hw : w = x
          · subst hw
            simp only [Function.update_self, Option.some.injEq] at hew
            subst hew
            rw [hphase] at hkw
            cases hkw
          · simpa only [Function.update_of_ne hw] using hew
        exact h.own y z ey ez k (hother hey hky) (hother hez hkz) hky hkz
    · have hnobody (hphase' : ex'.phase.search = none) (k : Nat) : ex'.phase.search ≠ some k := by simp [hphase']
      cases executor_does hdoes with
      | goesOn same search unseen unseen' =>
        subst same
        refine h.update hex (fun k hk => ?_) (fun k hk => .inl (search ▸ hk)) (fun _ _ _ => rfl) h.ended
        obtain ⟨found, hfound, hcancel, hseen⟩ := h.current x ex k hex (search ▸ hk)
        exact ⟨found, hfound, hcancel, hseen.trans (iff_of_false (unseen k) (unseen' k))⟩
      | creates phase new phase' =>
        subst new
        have hsearch (k : Nat) (hk : ex'.phase.search = some k) : k = st.searches.length := by
          rw [phase'] at hk
          exact (Option.some.inj hk).symm
        refine h.update hex (fun k hk => ?_) (fun k hk => .inr (hsearch k hk))
          (fun k _ hlt => List.getElem?_append_left hlt) (fun k search hk hseen => ?_)
        · rw [hsearch k hk]
          exact ⟨{}, by simp, rfl, by simp [phase']⟩
        · by_cases hlt : k < st.searches.length
          · rw [List.getElem?_append_left hlt] at hk
            exact h.ended k search hk hseen
          · rw [List.getElem?_append_right (Nat.not_lt.mp hlt)] at hk
            obtain ⟨-, rfl⟩ : k - st.searches.length = 0 ∧ ({} : ArielSearch) = search := by
              simpa [List.getElem?_singleton] using hk
            cases hseen
      | sees k phase terminal phase' answered =>
        subst terminal
        have hold : ex.phase.search = some k := by rw [phase]; rfl
        obtain ⟨found, hfound, hcancel, -⟩ := h.current x ex k hex hold
        refine h.update hex (fun j hj => ?_) (fun j hj => ?_) (fun j hne _ => ?_) (fun j search hj hseen => ?_)
        · rcases phase' with hfetching | hgone
          · rw [hfetching] at hj
            cases hj
            exact ⟨_, modify_getElem?.mpr ⟨found, hfound, rfl⟩, by simpa using hcancel, by simp [hfetching]⟩
          · exact absurd hj (hnobody hgone j)
        · rcases phase' with hfetching | hgone
          · rw [hfetching] at hj
            cases hj
            exact .inl hold
          · exact absurd hj (hnobody hgone j)
        · exact modify_getElem?_of_ne _ (fun heq => hne (heq ▸ hold))
        · obtain ⟨old, hfound', rfl⟩ := modify_getElem?.mp hj
          by_cases heq : k = j
          · rw [if_pos heq]
          · rw [if_neg heq] at hseen ⊢
            exact h.ended j old hfound' hseen
      | cancels k phase sent phase' answered =>
        subst sent
        have hold : ex.phase.search = some k := by rw [phase]; rfl
        refine h.update hex (fun j hj => absurd hj (hnobody phase' j)) (fun j hj => absurd hj (hnobody phase' j))
          (fun j hne _ => modify_getElem?_of_ne _ (fun heq => hne (heq ▸ hold))) (fun j search hj hseen => ?_)
        obtain ⟨old, hfound, rfl⟩ := modify_getElem?.mp hj
        have hended := h.ended j old hfound
        split <;> simp_all
      | reads k phase same phase' answered =>
        subst same
        exact h.update hex (fun j hj => absurd hj (hnobody phase' j)) (fun j hj => absurd hj (hnobody phase' j))
          (fun _ _ _ => rfl) h.ended
      | abandons k phase same phase' =>
        subst same
        exact h.update hex (fun j hj => absurd hj (hnobody phase' j)) (fun j hj => absurd hj (hnobody phase' j))
          (fun _ _ _ => rfl) h.ended

/-- An executor moves. A search that still runs has its cancel sent, belongs to it now, or did not belong to it before. -/
theorem Accounted.update (h : Accounted st) {ex' searches'} (hex : st.executor x = some ex)
    (hrunning : ∀ (k : Nat) search', searches'[k]? = some search' → search'.running = true →
      search'.cancelSent = true ∨ ex'.phase.search = some k ∨
        ex.phase.search ≠ some k ∧ ∃ search, st.searches[k]? = some search ∧ search.running = true ∧
          search'.cancelSent = search.cancelSent) :
    Accounted { executor := Function.update st.executor x (some ex'), searches := searches' } := by
  intro k search' hsearch' hruns
  rcases hrunning k search' hsearch' hruns with hcancel | hnow | ⟨hnot, search, hsearch, hran, hcancel⟩
  · exact .inl hcancel
  · exact .inr ⟨x, ex', by simp, hnow⟩
  · rcases h k search hsearch hran with hsent | ⟨y, ey, hey, hk⟩
    · exact .inl (hcancel.trans hsent)
    · have hne : y ≠ x := by
        rintro rfl
        cases hex.symm.trans hey
        exact hnot hk
      exact .inr ⟨y, ey, by simpa only [Function.update_of_ne hne] using hey, hk⟩

abbrev ExecutorTaken (ε : Type) := Taken (ExecutorState ε) (ExecutorMove ε) (ExecutorState ε)

/-- The step ends the attempt of search `k`, and its permit is released. -/
def ExecutorTaken.Releases (e : ExecutorTaken ε) (k : Nat) : Prop :=
  ∃ x ex ex', e.before.executor x = some ex ∧ ex.phase.search = some k ∧ e.output.executor x = some ex' ∧
    ex'.phase.holds = false

/-- After the step search `k` was seen in a terminal status, or its cancel was sent. -/
def ExecutorTaken.Settles (e : ExecutorTaken ε) (k : Nat) : Prop :=
  ∃ search, e.output.searches[k]? = some search ∧ (search.seenTerminal = true ∨ search.cancelSent = true)

/-- The flush of the new search `k`, or a call for its status, raises. -/
def ExecutorTaken.Abandons (e : ExecutorTaken ε) (k : Nat) : Prop :=
  ∃ x ex, e.before.executor x = some ex ∧
    (ex.phase = .saving k ∧ (∃ error, e.input = .of x (.saved (some error))) ∨
      ex.phase = .polling k ∧ ∃ error elapsed, e.input = .of x (.status (.error error) elapsed))

theorem Accounted.step (h : Accounted st) (hinv : ExecutorInv st) (hstep : st.step cfg move = .ok st')
    (hkept : ∀ k, ¬ ExecutorTaken.Abandons ⟨st, move, st'⟩ k) : Accounted st' := by
  cases move with
  | ends k =>
    cases hstep
    intro j search hj hrunning
    obtain ⟨old, hold, rfl⟩ := modify_getElem?.mp hj
    by_cases heq : k = j
    · rw [if_pos heq] at hrunning
      cases hrunning
    · rw [if_neg heq] at hrunning ⊢
      exact h j old hold hrunning
  | of x event =>
    rcases executor_step hstep with ⟨search, row, capable, hnone, -, rfl⟩ | ⟨ex, ex', searches', hex, hdoes, rfl⟩
    · intro k search' hk hrunning
      rcases h k search' hk hrunning with hcancel | ⟨y, ey, hey, hky⟩
      · exact .inl hcancel
      · have hne : y ≠ x := by
          rintro rfl
          cases hnone.symm.trans hey
        exact .inr ⟨y, ey, by simpa only [Function.update_of_ne hne] using hey, hky⟩
    · refine h.update hex (fun j search' hj hrunning => ?_)
      cases executor_does hdoes with
      | goesOn same search unseen unseen' =>
        subst same
        by_cases hcurrent : ex.phase.search = some j
        · exact .inr (.inl (search.trans hcurrent))
        · exact .inr (.inr ⟨hcurrent, search', hj, hrunning, rfl⟩)
      | creates phase new phase' =>
        subst new
        by_cases hlt : j < st.searches.length
        · rw [List.getElem?_append_left hlt] at hj
          exact .inr (.inr ⟨by simp [phase, ExecutorPhase.search], search', hj, hrunning, rfl⟩)
        · have hlast : j < (st.searches ++ [({} : ArielSearch)]).length := (List.getElem?_eq_some_iff.mp hj).1
          rw [List.length_append, List.length_singleton] at hlast
          have hj' : j = st.searches.length := by omega
          exact .inr (.inl (by rw [phase', hj']; rfl))
      | sees k phase terminal phase' answered =>
        subst terminal
        obtain ⟨old, hold, rfl⟩ := modify_getElem?.mp hj
        by_cases heq : k = j
        · rw [if_pos heq] at hrunning
          cases hrunning
        · rw [if_neg heq] at hrunning ⊢
          exact .inr (.inr ⟨by simp [phase, ExecutorPhase.search, heq], old, hold, hrunning, rfl⟩)
      | cancels k phase sent phase' answered =>
        subst sent
        obtain ⟨old, hold, rfl⟩ := modify_getElem?.mp hj
        by_cases heq : k = j
        · exact .inl (by rw [if_pos heq])
        · rw [if_neg heq] at hrunning ⊢
          exact .inr (.inr ⟨by simp [phase, ExecutorPhase.search, heq], old, hold, hrunning, rfl⟩)
      | reads k phase same phase' answered =>
        subst same
        have hcurrent : ex.phase.search = some k := by rw [phase]; rfl
        by_cases heq : k = j
        · subst heq
          obtain ⟨found, hfound, -, hseen⟩ := hinv.current x ex k hex hcurrent
          cases hfound.symm.trans hj
          rw [hinv.ended k search' hj (hseen.mpr phase)] at hrunning
          cases hrunning
        · exact .inr (.inr ⟨by simp [phase, ExecutorPhase.search, heq], search', hj, hrunning, rfl⟩)
      | abandons k phase same phase' =>
        refine absurd ⟨x, ex, hex, ?_⟩ (hkept k)
        rcases phase with ⟨hphase, error, rfl⟩ | ⟨hphase, error, elapsed, rfl⟩
        · exact .inl ⟨hphase, error, rfl⟩
        · exact .inr ⟨hphase, error, elapsed, rfl⟩

theorem releases_mover (hstep : st.step cfg move = .ok st') (hrelease : ExecutorTaken.Releases ⟨st, move, st'⟩ k) :
    ∃ x event ex ex' searches', move = .of x event ∧ st.executor x = some ex ∧ ex.phase.search = some k ∧
      ex'.phase.holds = false ∧ ex.step cfg st.searches event = .ok (ex', searches') ∧ st'.searches = searches' := by
  obtain ⟨x, ex, ex', hex, hk, hex', hholds⟩ := hrelease
  -- an executor that does not move holds what it held
  have hstill : st'.executor x ≠ st.executor x := by
    intro hsame
    rw [show st'.executor x = some ex' from hex', show st.executor x = some ex from hex] at hsame
    cases hsame
    rw [holds_of_search hk] at hholds
    cases hholds
  cases move with
  | ends j =>
    cases hstep
    exact absurd rfl hstill
  | of y event =>
    rcases executor_step hstep with ⟨search, row, capable, hnone, -, rfl⟩ | ⟨ey, ey', searches', hey, hdoes, rfl⟩
    · by_cases hy : x = y
      · subst hy
        cases hnone.symm.trans hex
      · exact absurd (Function.update_of_ne hy _ _) hstill
    · by_cases hy : x = y
      · subst hy
        cases hey.symm.trans hex
        have hself : some ey' = some ex' := (Function.update_self x (some ey') st.executor).symm.trans hex'
        cases hself
        exact ⟨x, event, ex, ex', searches', rfl, hex, hk, hholds, hdoes, rfl⟩
      · exact absurd (Function.update_of_ne hy _ _) hstill

theorem releases_settles_iff (hinv : ExecutorInv st) (hstep : st.step cfg move = .ok st')
    (hrelease : ExecutorTaken.Releases ⟨st, move, st'⟩ k) :
    ExecutorTaken.Settles ⟨st, move, st'⟩ k ↔ ¬ ExecutorTaken.Abandons ⟨st, move, st'⟩ k := by
  obtain ⟨x, event, ex, ex', searches', rfl, hex, hk, hholds, hdoes, hsearches⟩ := releases_mover hstep hrelease
  obtain ⟨found, hfound, hcancel, hseen⟩ := hinv.current x ex k hex hk
  have habandons : ExecutorTaken.Abandons ⟨st, .of x event, st'⟩ k ↔
      ex.phase = .saving k ∧ (∃ error, event = .saved (some error)) ∨
        ex.phase = .polling k ∧ ∃ error elapsed, event = .status (.error error) elapsed := by
    constructor
    · rintro ⟨y, ey, hey, hcase⟩
      rcases hcase with ⟨hphase, error, hinput⟩ | ⟨hphase, error, elapsed, hinput⟩
      · cases hinput
        cases hey.symm.trans hex
        exact .inl ⟨hphase, error, rfl⟩
      · cases hinput
        cases hey.symm.trans hex
        exact .inr ⟨hphase, error, elapsed, rfl⟩
    · rintro (⟨hphase, error, rfl⟩ | ⟨hphase, error, elapsed, rfl⟩)
      · exact ⟨x, ex, hex, .inl ⟨hphase, error, rfl⟩⟩
      · exact ⟨x, ex, hex, .inr ⟨hphase, error, elapsed, rfl⟩⟩
  rw [habandons]
  simp only [ExecutorTaken.Settles, hsearches]
  cases executor_does hdoes with
  | goesOn same search unseen unseen' =>
    rw [holds_of_search (search.trans hk)] at hholds
    cases hholds
  | creates phase new phase' =>
    rw [phase] at hk
    cases hk
  | sees j phase terminal phase' answered =>
    rw [phase] at hk
    cases hk
    rw [terminal]
    refine iff_of_true ⟨_, modify_getElem?.mpr ⟨found, hfound, rfl⟩, by simp⟩ ?_
    rintro (⟨hphase, -⟩ | ⟨-, error, elapsed, hevent⟩)
    · rw [phase] at hphase
      cases hphase
    · exact answered error elapsed hevent
  | cancels j phase sent phase' answered =>
    rw [phase] at hk
    cases hk
    rw [sent]
    exact iff_of_true ⟨_, modify_getElem?.mpr ⟨found, hfound, rfl⟩, by simp⟩ (by simp [phase])
  | reads j phase same phase' answered =>
    rw [phase] at hk
    cases hk
    rw [same]
    exact iff_of_true ⟨found, hfound, .inl (hseen.mpr phase)⟩ (by simp [phase])
  | abandons j phase same phase' =>
    have hj : j = k := by
      rcases phase with ⟨hphase, -⟩ | ⟨hphase, -⟩ <;> rw [hphase] at hk <;> exact Option.some.inj hk
    subst hj
    refine iff_of_false ?_ (not_not_intro phase)
    rintro ⟨search, hsearch, hsettled⟩
    rw [same] at hsearch
    cases hfound.symm.trans hsearch
    have hnot : ex.phase ≠ .fetching j := by
      rcases phase with ⟨hphase, -⟩ | ⟨hphase, -⟩ <;> rw [hphase] <;> exact fun heq => by cases heq
    rcases hsettled with hsaw | hsent
    · exact hnot (hseen.mp hsaw)
    · rw [hcancel] at hsent
      cases hsent

end Executors

/-! ## What a result stores -/

section Metrics

variable {φ : Type} [PyFloat φ] {str : Json φ → String}

def Readable (item : String × Json φ) : Prop :=
  isCountColumn item.1 = true → ∀ n, item.2 = .int n → ¬ Double.Overflows n

def columnLabel (item : String × Json φ) : Option String :=
  match item.2 with
  | .str label => some label
  | _ => none

theorem floatOf_isOk (n : ℤ) : (∃ x : φ, floatOf n = .ok x) ↔ ¬ Double.Overflows n := by
  unfold floatOf
  split
  · rename_i h
    exact ⟨fun hok => (by obtain ⟨x, hx⟩ := hok; cases hx), fun hn => absurd h hn⟩
  · rename_i h
    exact ⟨fun _ => h, fun _ => ⟨_, rfl⟩⟩

theorem not_overflows_bool (b : Bool) : ¬ Double.Overflows ((if b then 1 else 0 : ℤ) : ℚ) := by
  have hsmall : |(if b then 1 else 0 : ℤ)| < 2 ^ 53 := by
    cases b <;> norm_num
  have hlarge : (1 : ℚ) < 2 ^ 1024 := one_lt_pow₀ one_lt_two (by decide)
  rw [Double.Overflows, Double.round_intCast hsmall, not_le]
  cases b
  · simp
  · simpa using hlarge

theorem readColumn_isOk (metric : Option String × φ) (item : String × Json φ) :
    (∃ metric', readColumn metric item = .ok metric') ↔ Readable item := by
  obtain ⟨col, val⟩ := item
  unfold readColumn Readable
  cases hcol : isCountColumn col with
  | false => cases val <;> simp
  | true =>
    cases val with
    | bool b =>
      have hok := (floatOf_isOk (φ := φ) _).mpr (not_overflows_bool b)
      obtain ⟨x, hx⟩ := hok
      simp [hx, Except.map]
    | int n =>
      have hiff := floatOf_isOk (φ := φ) n
      constructor
      · rintro ⟨metric', h⟩ - m hm
        cases hm
        cases hfloat : (floatOf n : Except ExecuteException φ) with
        | error e => simp [hfloat, Except.map] at h
        | ok x => exact hiff.mp ⟨x, hfloat⟩
      · intro h
        obtain ⟨x, hx⟩ := hiff.mpr (h rfl n rfl)
        exact ⟨(metric.1, x), by simp [hx, Except.map]⟩
    | null | float _ | str _ | arr _ | obj _ => simp

theorem readColumn_label {metric metric'} {item : String × Json φ}
    (h : readColumn metric item = .ok metric') : metric'.1 = metric.1.or (columnLabel item) := by
  obtain ⟨col, val⟩ := item
  unfold readColumn at h
  cases hcol : isCountColumn col with
  | false =>
    simp only [hcol] at h
    cases val <;> cases h <;> simp [columnLabel]
  | true =>
    cases val with
    | bool b | int n =>
      simp only [hcol] at h
      obtain ⟨x, -, rfl⟩ := map_eq_ok.mp h
      simp [columnLabel]
    | null | float _ | str _ | arr _ | obj _ =>
      simp only [hcol] at h
      cases h
      simp [columnLabel]

theorem foldlM_readColumn (items : JsonObject φ) (metric : Option String × φ) :
    ((∃ metric', items.foldlM readColumn metric = .ok metric') ↔ ∀ item ∈ items, Readable item) ∧
      ∀ metric', items.foldlM readColumn metric = .ok metric' →
        metric'.1 = metric.1.or (items.findSome? columnLabel) := by
  induction items generalizing metric with
  | nil =>
    refine ⟨by simp [pure, Except.pure], fun metric' h => ?_⟩
    cases h
    simp
  | cons item items ih =>
    have hone := readColumn_isOk metric item
    rw [List.foldlM_cons, List.forall_mem_cons]
    refine ⟨⟨?_, ?_⟩, fun metric' h => ?_⟩
    · rintro ⟨metric', h⟩
      obtain ⟨metric₁, hitem, hrest⟩ := bind_ok h
      exact ⟨hone.mp ⟨_, hitem⟩, (ih metric₁).1.mp ⟨_, hrest⟩⟩
    · rintro ⟨hitem, hrest⟩
      obtain ⟨metric₁, hok⟩ := hone.mpr hitem
      rw [hok]
      exact (ih metric₁).1.mpr hrest
    · obtain ⟨metric₁, hitem, hrest⟩ := bind_ok h
      rw [(ih metric₁).2 metric' hrest, readColumn_label hitem, List.findSome?_cons, Option.or_assoc]
      cases columnLabel item <;> rfl

def rowLabel (str : Json φ → String) : JsonObject φ → Option String
  | [] => none
  | first :: rest => some (((first :: rest).findSome? columnLabel).getD (str first.2))

theorem rowToMetric_spec (str : Json φ → String) (row : JsonObject φ) :
    ((∃ metric, rowToMetric str row = .ok metric) ↔ ∀ item ∈ row, Readable item) ∧
      ∀ metric, rowToMetric str row = .ok metric → metric.1 = rowLabel str row := by
  cases row with
  | nil =>
    refine ⟨by simp [rowToMetric], fun metric h => ?_⟩
    cases h
    rfl
  | cons first rest =>
    obtain ⟨hok, hlabel⟩ := foldlM_readColumn (first :: rest) (none, (PyFloat.ofRat 1 : φ))
    have hrow : rowToMetric str (first :: rest) = (first :: rest).foldlM readColumn (none, PyFloat.ofRat 1) >>=
        fun metric => .ok (some (metric.1.getD (str first.2)), metric.2) := rfl
    rw [hrow]
    refine ⟨Iff.trans ⟨?_, ?_⟩ hok, fun metric h => ?_⟩
    · rintro ⟨metric, h⟩
      obtain ⟨metric', hfold, -⟩ := bind_ok h
      exact ⟨metric', hfold⟩
    · rintro ⟨metric', hfold⟩
      exact ⟨_, by rw [hfold]; rfl⟩
    · obtain ⟨metric', hfold, hreturn⟩ := bind_ok h
      cases hreturn
      simp only [rowLabel, hlabel metric' hfold, Option.none_or]

def ArielResults.keys (str : Json φ → String) (results : ArielResults φ) : List String :=
  (if results.truncated then [] else ["total"]) ++
    results.rows.filterMap (fun row => (rowLabel str row).map (fun key => String.ofList (key.toList.take 255)))

structure ArielResults.Storable (str : Json φ → String) (results : ArielResults φ) : Prop where
  total : results.truncated = false → ¬ Double.Overflows results.totalCount
  counts : ∀ row ∈ results.rows, ∀ item ∈ row, Readable item
  keys : (results.keys str).Nodup

section Stored

variable {executionId searchId : String} {bucketStart : ℤ} {results : ArielResults φ}

theorem storeRow_spec (row : JsonObject φ) :
    ((∃ metric, storeRow str executionId searchId bucketStart row = .ok metric) ↔ ∀ item ∈ row, Readable item) ∧
      ∀ metric, storeRow str executionId searchId bucketStart row = .ok metric →
        metric.map SearchResultMetric.primaryKey =
          (rowLabel str row).map (fun key => (executionId, bucketStart, String.ofList (key.toList.take 255))) := by
  obtain ⟨hok, hlabel⟩ := rowToMetric_spec str row
  refine ⟨Iff.trans ⟨?_, ?_⟩ hok, fun metric h => ?_⟩
  · rintro ⟨metric, h⟩
    obtain ⟨metric', hread, -⟩ := bind_ok h
    exact ⟨metric', hread⟩
  · rintro ⟨metric', hread⟩
    exact ⟨_, by rw [storeRow, hread]; rfl⟩
  · obtain ⟨metric', hread, hreturn⟩ := bind_ok h
    cases hreturn
    rw [← hlabel metric' hread, Option.map_map]
    rfl

theorem storeTotal_spec (executionId searchId : String) (bucketStart : ℤ) :
    ((∃ total, storeTotal executionId searchId bucketStart results = .ok total) ↔
      (results.truncated = false → ¬ Double.Overflows results.totalCount)) ∧
      ∀ total, storeTotal executionId searchId bucketStart results = .ok total →
        total.map SearchResultMetric.primaryKey =
          (if results.truncated then [] else ["total"]).map (fun key => (executionId, bucketStart, key)) := by
  unfold storeTotal
  cases results.truncated with
  | true =>
    refine ⟨by simp, fun total h => ?_⟩
    cases h
    rfl
  | false =>
    refine ⟨Iff.trans ⟨?_, ?_⟩ ((floatOf_isOk (φ := φ) results.totalCount).trans (by simp)), fun total h => ?_⟩
    · rintro ⟨total, h⟩
      obtain ⟨value, hvalue, -⟩ := bind_ok h
      exact ⟨value, hvalue⟩
    · rintro ⟨value, hvalue⟩
      exact ⟨_, by rw [hvalue]; rfl⟩
    · obtain ⟨value, -, hreturn⟩ := bind_ok h
      cases hreturn
      rfl

theorem storeMetrics_keys {completedAt metrics}
    (h : storeMetrics str executionId searchId completedAt results = .ok metrics) :
    metrics.map SearchResultMetric.primaryKey =
      (results.keys str).map (fun key => (executionId, floorMinute completedAt, key)) := by
  obtain ⟨total, htotal, h⟩ := bind_ok h
  obtain ⟨rows, hrows, h⟩ := bind_ok h
  cases h
  have hkeys := map_eq_of_mapM (fun row metric hok => (storeRow_spec row).2 metric hok) hrows
  rw [List.map_append, (storeTotal_spec _ _ _).2 total htotal, ArielResults.keys, List.map_append, ← List.reduceOption_map,
    hkeys, List.map_filterMap]
  refine congrArg _ ?_
  rw [List.reduceOption, List.filterMap_map]
  refine List.filterMap_congr (fun row _ => ?_)
  rw [Function.comp_apply, id, Option.map_map]
  rfl

theorem storeMetrics_flush (executionId searchId : String) (completedAt : ℤ) :
    (∃ metrics, storeMetrics str executionId searchId completedAt results = .ok metrics ∧ flush metrics = .ok ()) ↔
      results.Storable str := by
  have hnodup : ∀ metrics, storeMetrics str executionId searchId completedAt results = .ok metrics →
      (flush metrics = .ok () ↔ (results.keys str).Nodup) := by
    intro metrics h
    have hinj : Function.Injective (fun key : String => (executionId, floorMinute completedAt, key)) :=
      fun key key' heq => congrArg (fun k => k.2.2) heq
    rw [← List.nodup_map_iff hinj, ← storeMetrics_keys h, flush]
    split
    · rename_i hdistinct
      exact ⟨fun _ => hdistinct, fun _ => rfl⟩
    · rename_i hdistinct
      exact ⟨fun herror => (by cases herror), fun hkeys => absurd hkeys hdistinct⟩
  constructor
  · rintro ⟨metrics, hok, hflush⟩
    obtain ⟨total, htotal, h⟩ := bind_ok hok
    obtain ⟨rows, hrows, -⟩ := bind_ok h
    exact ⟨(storeTotal_spec _ _ _).1.mp ⟨total, htotal⟩,
      fun row hrow => (storeRow_spec row).1.mp (exists_ok_of_mapM hrows row hrow), (hnodup metrics hok).mp hflush⟩
  · rintro ⟨htotal, hcounts, hkeys⟩
    obtain ⟨total, htotal⟩ := (storeTotal_spec executionId searchId (floorMinute completedAt)).1.mpr htotal
    obtain ⟨rows, hrows⟩ := mapM_total (f := storeRow str executionId searchId (floorMinute completedAt))
      (fun row hrow => (storeRow_spec row).1.mpr (hcounts row hrow))
    have hok : storeMetrics str executionId searchId completedAt results = .ok (total ++ rows.reduceOption) := by
      simp only [storeMetrics, htotal, hrows, bind, Except.bind]
      rfl
    exact ⟨_, hok, (hnodup _ hok).mpr hkeys⟩

end Stored

end Metrics

/-! ## A whole run -/

section Run

variable {φ : Type} {search : RunSearch} {a : ArielAttempt φ}

theorem pollUntilTerminal_snd (timeout : ℕ) (row row' : RunRow) (i : ℕ) :
    (pollUntilTerminal timeout a row i).2 = (pollUntilTerminal timeout a row' i).2 := by
  fun_induction pollUntilTerminal timeout a row i generalizing row' with
  | case1 row i e hstatus =>
    rw [pollUntilTerminal, hstatus]
  | case2 row i status hstatus _ hterminal =>
    rw [pollUntilTerminal, hstatus]
    simp only [hterminal, if_true]
  | case3 row i status hstatus _ hterminal hlate =>
    rw [pollUntilTerminal, hstatus]
    simp only [hterminal, hlate, if_false, dif_pos, Bool.false_eq_true]
  | case4 row i status hstatus _ hterminal hlate ih =>
    rw [ih { row' with arielStatus := some status.status }]
    conv_rhs => rw [pollUntilTerminal, hstatus]
    simp only [hterminal, hlate, if_false, dif_neg, Bool.false_eq_true, not_false_eq_true]

theorem runOnce_snd (cfg : ExecutorSettings) (search : RunSearch) (a : ArielAttempt φ) (row row' : RunRow) :
    (runOnce cfg search a row).2 = (runOnce cfg search a row').2 := by
  unfold runOnce
  split
  · rfl
  · rfl
  · rfl
  · exact congrArg (fun polled => polled >>= fetchResults a) (pollUntilTerminal_snd _ _ _ _)

/-- The `k`-th attempt reads a result, after retries. -/
structure Reaches (cfg : ExecutorSettings) (search : RunSearch) (attempts : ℕ → ArielAttempt φ) (row : RunRow) (k : ℕ)
    (results : ArielResults φ) : Prop where
  retried : ∀ j < k, row.retryCount + j < cfg.arielMaxRetries ∧
    ∃ e, (runOnce cfg search (attempts j) row).2 = .error e ∧ isRetryable (classify e) = true
  reads : (runOnce cfg search (attempts k) row).2 = .ok results

def ExecutionStatus.Ended (status : ExecutionStatus) : Prop :=
  status = .COMPLETED ∨ status = .FAILED ∨ status = .TIMEOUT ∨ status = .CANCELLED

theorem fail_ended (row : RunRow) (errorType : ExecutionErrorType) (message : String) (now : ℤ) :
    (row.fail errorType message now).status.Ended := by
  cases errorType <;> simp [RunRow.fail, ExecutionRow.fail, ExecutionStatus.Ended]

def Ends [PyFloat φ] (run : Except ExecuteException (RunRow × List (SearchResultMetric φ))) : Prop :=
  ∃ row metrics, run = .ok (row, metrics) ∧ row.status.Ended ∧ (metrics.map SearchResultMetric.primaryKey).Nodup

theorem reaches_succ {attempts : ℕ → ArielAttempt φ} {row row' e j results} (hlt : row.retryCount < cfg.arielMaxRetries)
    (he : (runOnce cfg search (attempts 0) row).2 = .error e) (hretry : isRetryable (classify e) = true)
    (hcount : row'.retryCount = row.retryCount + 1) :
    Reaches cfg search attempts row (j + 1) results ↔ Reaches cfg search (fun j => attempts (j + 1)) row' j results := by
  constructor
  · intro h
    refine ⟨fun i hi => ?_, (runOnce_snd _ _ _ row' row).trans h.reads⟩
    obtain ⟨hless, e', he', hretry'⟩ := h.retried (i + 1) (Nat.succ_lt_succ hi)
    exact ⟨by omega, e', (runOnce_snd _ _ _ row' row).trans he', hretry'⟩
  · intro h
    refine ⟨fun i hi => ?_, (runOnce_snd _ _ _ row row').trans h.reads⟩
    cases i with
    | zero => exact ⟨hlt, e, he, hretry⟩
    | succ i =>
      obtain ⟨hless, e', he', hretry'⟩ := h.retried i (Nat.lt_of_succ_lt_succ hi)
      exact ⟨by omega, e', (runOnce_snd _ _ _ row row').trans he', hretry'⟩

theorem Reaches.retryable {attempts : ℕ → ArielAttempt φ} {row e j results}
    (h : Reaches cfg search attempts row j results) (he : (runOnce cfg search (attempts 0) row).2 = .error e) :
    row.retryCount < cfg.arielMaxRetries ∧ isRetryable (classify e) = true := by
  cases j with
  | zero => exact absurd (he.symm.trans h.reads) (by simp)
  | succ j =>
    obtain ⟨hlt, e', he', hretry⟩ := h.retried 0 (Nat.succ_pos j)
    obtain rfl : e = e' := by simpa using he.symm.trans he'
    exact ⟨hlt, hretry⟩

theorem Reaches.first {attempts : ℕ → ArielAttempt φ} {row j results results'}
    (h : Reaches cfg search attempts row j results')
    (hread : (runOnce cfg search (attempts 0) row).2 = .ok results) : results' = results := by
  cases j with
  | zero => simpa using h.reads.symm.trans hread
  | succ j =>
    obtain ⟨-, e, he, -⟩ := h.retried 0 (Nat.succ_pos j)
    exact absurd (he.symm.trans hread) (by simp)

theorem executeFrom_ends_or_error [PyFloat φ] {str : Json φ → String} (attempts : ℕ → ArielAttempt φ) (k : ℕ)
    (row : RunRow) : Ends (executeFrom cfg str search attempts k row) ∨
      ∃ e, executeFrom cfg str search attempts k row = .error e := by
  fun_induction executeFrom cfg str search attempts k row with
  | case1 k row _ _ row₁ e hrun errorType hlast =>
    exact .inl ⟨_, [], rfl, fail_ended _ _ _ _, List.nodup_nil⟩
  | case2 k row _ _ row₁ e hrun errorType hlast ih => exact ih
  | case3 k row a row₁ results hrun completed =>
    cases hstore : storeMetrics str completed.id search.id a.completedAt results with
    | error e => exact .inr ⟨e, rfl⟩
    | ok metrics =>
      by_cases hdistinct : (metrics.map SearchResultMetric.primaryKey).Nodup
      · have hflush : flush metrics = .ok () := if_pos hdistinct
        refine .inl ⟨_, metrics, by simp only [hflush, bind, Except.bind]; rfl, .inl rfl, hdistinct⟩
      · exact .inr ⟨.integrityError, by simp [flush, hdistinct, bind, Except.bind]⟩

theorem executeFrom_ends [PyFloat φ] {str : Json φ → String} (attempts : ℕ → ArielAttempt φ) (k : ℕ) (row : RunRow) :
    Ends (executeFrom cfg str search attempts k row) ↔
      ∀ j results, Reaches cfg search (fun j => attempts (k + j)) row j results → results.Storable str := by
  generalize hbudget : cfg.arielMaxRetries + 1 - row.retryCount = budget
  induction budget using Nat.strong_induction_on generalizing k row with
  | _ budget ih =>
  have hsame := runOnce_snd cfg search (attempts k) row
    { row with status := .RUNNING, errorType := none, errorMessage := none }
  rw [executeFrom]
  generalize runOnce cfg search (attempts k)
    { row with status := .RUNNING, errorType := none, errorMessage := none } = run at hsame ⊢
  obtain ⟨row₁, answer⟩ := run
  cases answer with
  | error e =>
    by_cases hlast : (!isRetryable (classify e) || decide (cfg.arielMaxRetries + 1 ≤ row.retryCount + 1)) = true
    · -- the run has failed
      simp only [hlast, dite_true]
      refine iff_of_true ⟨_, [], rfl, fail_ended _ _ _ _, List.nodup_nil⟩ (fun j results hreaches => ?_)
      obtain ⟨hlt, hretry⟩ := hreaches.retryable hsame
      simp only [hretry, Bool.not_true, Bool.false_or, decide_eq_true_eq] at hlast
      omega
    · -- the next attempt
      simp only [hlast, Bool.false_eq_true, dite_false]
      simp only [Bool.or_eq_true, Bool.not_eq_true', decide_eq_true_eq, not_or, Bool.not_eq_false, not_le] at hlast
      obtain ⟨hretry, hlt⟩ := hlast
      rw [ih (cfg.arielMaxRetries + 1 - (row.retryCount + 1)) (by omega) (k + 1)
        { row₁ with retryCount := row.retryCount + 1, errorType := some (classify e), errorMessage := some e.text } rfl]
      have hshift : (fun j => attempts (k + 1 + j)) = fun j => attempts (k + (j + 1)) :=
        funext fun j => congrArg attempts (by omega)
      rw [hshift]
      constructor
      · intro h j results hreaches
        cases j with
        | zero => exact absurd (hsame.symm.trans hreaches.reads) (by simp)
        | succ j => exact h j results ((reaches_succ (by omega) hsame hretry rfl).mp hreaches)
      · intro h j results hreaches
        exact h (j + 1) results ((reaches_succ (by omega) hsame hretry rfl).mpr hreaches)
  | ok results =>
    have hiff : (∀ j results', Reaches cfg search (fun j => attempts (k + j)) row j results' → results'.Storable str) ↔
        results.Storable str := by
      constructor
      · exact fun h => h 0 results ⟨fun j hj => absurd hj (Nat.not_lt_zero j), hsame⟩
      · intro h j results' hreaches
        rwa [hreaches.first hsame]
    rw [hiff, ← storeMetrics_flush row₁.id search.id (attempts k).completedAt]
    constructor
    · rintro ⟨row', metrics, h, -⟩
      obtain ⟨metrics', hstore, h⟩ := bind_ok h
      obtain ⟨⟨⟩, hflush, -⟩ := bind_ok h
      exact ⟨metrics', hstore, hflush⟩
    · rintro ⟨metrics, hstore, hflush⟩
      refine ⟨_, metrics, by simp only [hstore, hflush, bind, Except.bind]; rfl, .inl rfl, ?_⟩
      unfold flush at hflush
      split at hflush
      · assumption
      · cases hflush

def Gets (cfg : ExecutorSettings) (capable : Bool) (run : ClaimedRun φ) (results : ArielResults φ) : Prop :=
  run.row.status ≠ .COMPLETED ∧ capable = true ∧ ∃ k, Reaches cfg run.search run.attempts run.row k results

variable [PyFloat φ] {str : Json φ → String} {capable : Bool}

theorem execute_ends (run : ClaimedRun φ) :
    Ends (execute cfg str capable run.search run.attempts run.row run.now) ↔
      ∀ results, Gets cfg capable run results → results.Storable str := by
  unfold execute
  by_cases hcompleted : run.row.status = .COMPLETED
  · rw [if_pos hcompleted]
    exact iff_of_true ⟨run.row, [], rfl, .inl hcompleted, List.nodup_nil⟩ (fun results hgets => absurd hcompleted hgets.1)
  · rw [if_neg hcompleted]
    cases capable with
    | false =>
      rw [if_pos (show (!false) = true from rfl)]
      exact iff_of_true ⟨_, [], rfl, fail_ended _ _ _ _, List.nodup_nil⟩ (fun results hgets => by cases hgets.2.1)
    | true =>
      rw [if_neg (by simp), executeFrom_ends]
      simp only [Nat.zero_add]
      constructor
      · rintro h results ⟨-, -, k, hreaches⟩
        exact h k results hreaches
      · exact fun h k results hreaches => h results ⟨hcompleted, rfl, k, hreaches⟩

theorem execute_ends_or_error (run : ClaimedRun φ) :
    Ends (execute cfg str capable run.search run.attempts run.row run.now) ∨
      ∃ e, execute cfg str capable run.search run.attempts run.row run.now = .error e := by
  unfold execute
  split
  · rename_i hcompleted
    exact .inl ⟨run.row, [], rfl, .inl hcompleted, List.nodup_nil⟩
  · split
    · exact .inl ⟨_, [], rfl, fail_ended _ _ _ _, List.nodup_nil⟩
    · exact executeFrom_ends_or_error run.attempts 0 run.row

theorem runDue_cons_of_error {maxDispatch dispatched run e} (hroom : dispatched.length < maxDispatch)
    (h : execute cfg str capable run.search run.attempts run.row run.now = .error e) (runs : List (ClaimedRun φ)) :
    runDue cfg str capable maxDispatch dispatched (run :: runs) = .error e := by
  rw [runDue, if_neg (not_le.mpr hroom), h]
  rfl

theorem runDue_isOk {maxDispatch runs}
    (h : ∀ run ∈ runs, Ends (execute cfg str capable run.search run.attempts run.row run.now))
    (dispatched : List (RunRow × List (SearchResultMetric φ))) :
    ∃ all, runDue cfg str capable maxDispatch dispatched runs = .ok all := by
  induction runs generalizing dispatched with
  | nil => exact ⟨dispatched, rfl⟩
  | cons run runs ih =>
    obtain ⟨row, metrics, hrun, -⟩ := h run List.mem_cons_self
    rw [runDue]
    split
    · exact ⟨dispatched, rfl⟩
    · rw [hrun]
      by_cases hcapacity : row.errorType = some .CAPACITY
      · exact ⟨dispatched ++ [(row, metrics)], by simp [hcapacity, bind, Except.bind, pure, Except.pure]⟩
      · obtain ⟨all, hall⟩ := ih (fun x hx => h x (List.mem_cons_of_mem run hx)) (dispatched ++ [(row, metrics)])
        exact ⟨all, by simpa [hcapacity, bind, Except.bind] using hall⟩

end Run

end QRadarDashboard.Services
