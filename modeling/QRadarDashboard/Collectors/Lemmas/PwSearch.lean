import QRadarDashboard.Collectors.Lemmas.BucketedMetrics
import QRadarDashboard.Collectors.PwHistory
import QRadarDashboard.PropertyWatch.Lemmas.Collect

/-!
# What a search kind of a history step establishes
-/

namespace QRadarDashboard.Collectors
open Lib History PropertyWatch

variable {φ : Type} [PyFloat φ]

/-! ## The budget -/

def PwStepBudget.Backed (b : PwStepBudget) : Prop := b.remaining ≤ pwRemaining b.parent

theorem stepBudget_backed (s : PwSettings φ) (budget : PwSearchBudget) (secondsLeft : φ) :
    (stepBudget s budget secondsLeft).Backed := by
  simp only [PwStepBudget.Backed, stepBudget, pwHistoryBudget, PwStepBudget.remaining]
  omega

namespace PwStepBudget

variable {expired : Nat → Bool} {b b' : PwStepBudget}

theorem tryTake_of_expired (h : expired b.used = true) : b.tryTake expired = none := by simp [tryTake, h]

structure TookOne (b b' : PwStepBudget) : Prop where
  used : b'.used = b.used + 1
  most : b'.maxSearches = b.maxSearches
  backed : b.Backed → b'.Backed
  parent : b'.parent.used = b.parent.used + 1 ∧ b'.parent.maxSearches = b.parent.maxSearches

theorem tookOne_of_tryTake (h : b.tryTake expired = some b') : TookOne b b' := by
  unfold tryTake at h
  split at h
  · cases h
  · rename_i hroom
    obtain ⟨parent, hparent, rfl⟩ := Option.map_eq_some_iff.mp h
    unfold PwSearchBudget.tryTake at hparent
    split at hparent
    · cases hparent
    · cases hparent
      refine ⟨rfl, rfl, ?_, rfl, rfl⟩
      simp only [Backed, remaining, pwRemaining]
      omega

theorem tryTake_of_room (hexpired : expired b.used = false) (hroom : b.used < b.maxSearches) (hbacked : b.Backed) :
    ∃ b', b.tryTake expired = some b' ∧ TookOne b b' := by
  have hparent : ¬ b.parent.maxSearches ≤ b.parent.used := by
    simp only [Backed, remaining, pwRemaining] at hbacked
    omega
  have htake : b.tryTake expired = some
      { b with parent := { b.parent with used := b.parent.used + 1 }, used := b.used + 1 } := by
    simp [tryTake, hexpired, hroom, PwSearchBudget.tryTake, hparent]
  exact ⟨_, htake, tookOne_of_tryTake htake⟩

end PwStepBudget

structure Spent (b b' : PwStepBudget) : Prop where
  used : b.used ≤ b'.used
  most : b'.maxSearches = b.maxSearches
  backed : b.Backed → b'.Backed

theorem Spent.refl (b : PwStepBudget) : Spent b b := ⟨Nat.le_refl _, rfl, fun h => h⟩

theorem Spent.trans {b b' b''} (h : Spent b b') (h' : Spent b' b'') : Spent b b'' :=
  ⟨Nat.le_trans h.used h'.used, h'.most.trans h.most, fun hb => h'.backed (h.backed hb)⟩

theorem PwStepBudget.TookOne.spent {b b'} (h : b.TookOne b') : Spent b b' :=
  ⟨by have := h.used; omega, h.most, h.backed⟩

/-! ## One search -/

namespace PwHistoryArgs

variable {a : PwHistoryArgs} {r : PwRegion}

theorem cells_sorted (hwidth : 0 < a.bucketSeconds) (r : PwRegion) : (a.cells r).Pairwise (fun t t' => t < t') := by
  unfold cells
  rw [List.pairwise_map]
  have hrange : (List.range' r.first r.count).Pairwise (fun i j => i < j) := List.pairwise_lt_range'
  exact hrange.imp (fun hij => bucketStartAt_lt hwidth hij)

theorem cells_nodup (hwidth : 0 < a.bucketSeconds) (r : PwRegion) : (a.cells r).Nodup :=
  (cells_sorted hwidth r).imp (fun h => ne_of_lt h)

theorem outcomes_emit (hwidth : 0 < a.bucketSeconds) (depth : Nat) (answer : Option (Except PwCallError PwKeyedResult))
    {st : SplitDriver.State PwRegion Int (Except PwCallError PwKeyedResult) PwBucketOutcome PwStepBudget}
    (hst : st.cells = []) :
    (sortOn (fun item => item.1) (a.driver.emit r depth answer st).cells).map (fun item => item.2) =
      (a.cells r).map (a.cell r depth answer) := by
  have hcells : (a.driver.emit r depth answer st).cells = (a.cells r).map (fun k => (k, a.cell r depth answer k)) := by
    have := SplitDriver.foldl_set_new (a.cell r depth answer) (cells_nodup hwidth r) st.cells (by simp [hst, Dict.keys])
    rw [hst, List.nil_append] at this
    rw [← this]
    rw [SplitDriver.emit, hst]
    rfl
  rw [hcells, sortOn_eq_self, List.map_map]
  · rfl
  · rw [List.pairwise_map]
    exact (cells_sorted hwidth r).imp (fun h => le_of_lt h)

end PwHistoryArgs

def PwHistoryProvider.Whole (provider : PwHistoryProvider) : Prop :=
  ∀ k (request : PwRequest), 0 ≤ request.maxRows →
    ∃ result, provider k request = .ok result ∧ result.truncated = false ∧ PwHistoryArgs.accepted request result = true

theorem searchRowCap_nonneg (spec : PwQuerySpec) (buckets : Nat) {maxRows} (h : 1 ≤ maxRows) :
    0 ≤ searchRowCap spec buckets maxRows := by
  unfold searchRowCap
  split
  · exact Int.natCast_nonneg _
  · exact le_min (by exact_mod_cast Nat.zero_le _) (by omega)
  · omega

structure SentWhole (expired : Nat → Bool) (budget : PwStepBudget) (found : PwHistorySearch) : Prop where
  refused : found.refused = false
  nonempty : found.outcomes ≠ []
  sent : ∀ budget', budget.tryTake expired = some budget' →
    found.budget = budget' ∧ ∀ o ∈ found.outcomes, o.state = .complete
  stopped : budget.tryTake expired = none → found.budget = budget ∧ ∀ o ∈ found.outcomes, o.state = .notCollected

namespace PwHistoryArgs

variable {a : PwHistoryArgs}

theorem whole_answer (hwhole : a.provider.Whole) (hrows : 1 ≤ a.maxRows) (k : Nat) (r : PwRegion) :
    ∃ result, a.provider k (a.request r) = .ok result ∧ cut (a.request r) (.ok result) = false ∧
      (verdict (a.request r) (some (.ok result))).1 = .complete := by
  obtain ⟨result, hanswer, htruncated, haccepted⟩ := hwhole k (a.request r) (searchRowCap_nonneg a.spec r.count hrows)
  exact ⟨result, hanswer, by simp [cut, htruncated], by simp [verdict, haccepted, htruncated]⟩

theorem search_whole (hwhole : a.provider.Whole) (hrows : 1 ≤ a.maxRows) (hwidth : 0 < a.bucketSeconds) (r : PwRegion)
    (budget : PwStepBudget) :
    let st := a.driver.search r 0 ⟨budget, [], []⟩
    SentWhole a.expired budget ⟨(sortOn (fun item => item.1) st.cells).map (fun item => item.2), st.budget,
      st.calls.any (fun call => match call.2 with | .error .permitUnavailable => true | _ => false)⟩ := by
  have htake : a.driver.take budget = budget.tryTake a.expired := rfl
  rw [SplitDriver.search]
  dsimp only
  rw [htake]
  cases hbudget : budget.tryTake a.expired with
  | none =>
    rw [outcomes_emit hwidth 0 none rfl]
    refine ⟨rfl, by simp [a.cells_ne_nil r], fun budget' h => (by cases hbudget.symm.trans h), fun _ => ⟨rfl, ?_⟩⟩
    intro o ho
    obtain ⟨bucket, -, rfl⟩ := List.mem_map.mp ho
    rfl
  | some budget' =>
    obtain ⟨result, hanswer, hcut, hstate⟩ := whole_answer hwhole hrows (a.before + 0) r
    have hask : a.driver.ask 0 r = .ok result := hanswer
    have hnot : a.driver.cut r (.ok result) = false := hcut
    simp only [List.length_nil, hask, hnot, Bool.false_eq_true, if_false]
    rw [outcomes_emit hwidth 0 (some (.ok result)) rfl]
    refine ⟨rfl, by simp [a.cells_ne_nil r], fun taken h => ?_, fun h => (by cases hbudget.symm.trans h)⟩
    cases hbudget.symm.trans h
    refine ⟨rfl, fun o ho => ?_⟩
    obtain ⟨bucket, -, rfl⟩ := List.mem_map.mp ho
    exact hstate

end PwHistoryArgs

variable {u : UnicodeTables} {s : PwSettings φ} {tick : PwHistoryTick φ}

theorem runHistorySearch_whole (hwhole : tick.provider.Whole) {plan span budget found}
    (h : runHistorySearch u s tick plan span budget = .ok found) : SentWhole tick.expired budget found := by
  unfold runHistorySearch at h
  obtain ⟨window, hwindow, h⟩ := bind_ok h
  obtain ⟨n, hn, hwidth, -, hcount⟩ := exists_count_of_validate hwindow
  by_cases hrows : s.pwMaxRowsPerSearch < 1
  · simp only [hrows, if_true] at h
    cases h
  · simp only [hrows, if_false] at h
    obtain ⟨spec, hspec, h⟩ := bind_ok h
    rw [dif_pos (by rw [hcount]; exact hn)] at h
    cases h
    exact PwHistoryArgs.search_whole (a := ⟨tick.provider, budget.used, tick.expired, spec, window.1,
      s.collectionIntervalSeconds, s.pwMaxRowsPerSearch⟩) hwhole (not_lt.mp hrows) hwidth _ budget

theorem SentWhole.spent {expired : Nat → Bool} {budget found}
    (h : SentWhole expired budget found) : Spent budget found.budget := by
  cases htake : budget.tryTake expired with
  | none =>
    rw [(h.stopped htake).1]
    exact .refl budget
  | some budget' =>
    rw [(h.sent budget' htake).1]
    exact (PwStepBudget.tookOne_of_tryTake htake).spent

theorem SentWhole.state {expired : Nat → Bool} {budget found}
    (h : SentWhole expired budget found) : ∀ o ∈ found.outcomes, o.state = .complete ∨ o.state = .notCollected := by
  intro o ho
  cases htake : budget.tryTake expired with
  | none => exact .inr ((h.stopped htake).2 o ho)
  | some budget' => exact .inl ((h.sent budget' htake).2 o ho)

/-! ## The chunks of the scope -/

def Uncut (expired : Nat → Bool) (chunks k : Nat) : Prop :=
  expired k = true ∨ ∀ i < chunks, expired (k + i) = false

variable {inputs : PwReadingInputs} {kind : PwSearchKind} {scopeKind : PwScopeKind} {span : Span Int}
  {chunks : List (List Int)} {budget : PwStepBudget} {found : List (List PwBucketOutcome) × PwStepBudget}

theorem raisingStep_ok {α : Type} {x} {v : α} (h : raisingStep x = .ok v) : x = .ok v :=
  mapError_eq_ok.mp h

theorem runScopeChunks_cons (hwhole : tick.provider.Whole) {ids}
    (h : runScopeChunks u s tick inputs kind scopeKind span (ids :: chunks) budget = .ok found) :
    ∃ first rest, SentWhole tick.expired budget first ∧
      runScopeChunks u s tick inputs kind scopeKind span chunks first.budget = .ok rest ∧
      found = (first.outcomes :: rest.1, rest.2) := by
  rw [runScopeChunks] at h
  obtain ⟨first, hfirst, h⟩ := bind_ok h
  have hsent := runHistorySearch_whole hwhole (raisingStep_ok hfirst)
  simp only [hsent.refused, Bool.false_eq_true, if_false] at h
  obtain ⟨rest, hrest, h⟩ := bind_ok h
  cases h
  exact ⟨first, rest, hsent, hrest, rfl⟩

theorem runScopeChunks_spent (hwhole : tick.provider.Whole)
    (h : runScopeChunks u s tick inputs kind scopeKind span chunks budget = .ok found) :
    Spent budget found.2 ∧ ∀ chunk ∈ found.1, ∀ o ∈ chunk, o.state = .complete ∨ o.state = .notCollected := by
  induction chunks generalizing budget found with
  | nil =>
    cases h
    exact ⟨.refl _, by simp⟩
  | cons ids chunks ih =>
    obtain ⟨first, rest, hsent, hrest, rfl⟩ := runScopeChunks_cons hwhole h
    obtain ⟨hspent, hstates⟩ := ih hrest
    refine ⟨hsent.spent.trans hspent, fun chunk hchunk => ?_⟩
    rcases List.mem_cons.mp hchunk with rfl | hchunk
    · exact hsent.state
    · exact hstates chunk hchunk

theorem runScopeChunks_sent (hwhole : tick.provider.Whole)
    (h : runScopeChunks u s tick inputs kind scopeKind span chunks budget = .ok found)
    (hgoes : ∀ i < chunks.length, tick.expired (budget.used + i) = false) (hbacked : budget.Backed)
    (hroom : budget.used + chunks.length ≤ budget.maxSearches) :
    found.2.used = budget.used + chunks.length ∧ ∀ chunk ∈ found.1, ∀ o ∈ chunk, o.state = .complete := by
  induction chunks generalizing budget found with
  | nil =>
    cases h
    exact ⟨rfl, by simp⟩
  | cons ids chunks ih =>
    obtain ⟨first, rest, hsent, hrest, rfl⟩ := runScopeChunks_cons hwhole h
    rw [List.length_cons] at hroom
    obtain ⟨budget', htake, htook⟩ := PwStepBudget.tryTake_of_room (hgoes 0 (by simp)) (by omega) hbacked
    obtain ⟨hbudget, hcomplete⟩ := hsent.sent budget' htake
    have hused := htook.used
    rw [← hbudget] at htook hused
    have hgoes' : ∀ i < chunks.length, tick.expired (first.budget.used + i) = false := by
      intro i hi
      have := hgoes (i + 1) (by rw [List.length_cons]; omega)
      rw [hused, Nat.add_assoc, Nat.add_comm 1 i]
      exact this
    obtain ⟨hcount, hrest'⟩ := ih hrest hgoes' (htook.backed hbacked) (by rw [hused, htook.most]; omega)
    refine ⟨by rw [hcount, hused, List.length_cons]; omega, fun chunk hchunk => ?_⟩
    rcases List.mem_cons.mp hchunk with rfl | hchunk
    · exact hcomplete
    · exact hrest' chunk hchunk

theorem runScopeChunks_stopped (hwhole : tick.provider.Whole)
    (h : runScopeChunks u s tick inputs kind scopeKind span chunks budget = .ok found)
    (hexpired : tick.expired budget.used = true) :
    found.2 = budget ∧ ∀ chunk ∈ found.1, ∀ o ∈ chunk, o.state = .notCollected := by
  induction chunks generalizing budget found with
  | nil =>
    cases h
    exact ⟨rfl, by simp⟩
  | cons ids chunks ih =>
    obtain ⟨first, rest, hsent, hrest, rfl⟩ := runScopeChunks_cons hwhole h
    obtain ⟨hbudget, hnot⟩ := hsent.stopped (PwStepBudget.tryTake_of_expired hexpired)
    rw [hbudget] at hrest
    obtain ⟨hbudget', hrest'⟩ := ih hrest hexpired
    refine ⟨hbudget', fun chunk hchunk => ?_⟩
    rcases List.mem_cons.mp hchunk with rfl | hchunk
    · exact hnot
    · exact hrest' chunk hchunk

/-! ## A search kind over the scope -/

theorem state_of_combine {chunks combined} (h : combineChunks chunks = .ok combined) {o} (ho : o ∈ combined) :
    ∃ cells, cells ≠ [] ∧ o.state = combinedState (cells.map (fun cell => cell.state)) ∧
      ∀ cell ∈ cells, ∃ chunk ∈ chunks, cell ∈ chunk := by
  obtain ⟨index, hindex⟩ := List.mem_iff_getElem?.mp ho
  obtain ⟨hall, lead, rfl⟩ := combineChunks_getElem? h hindex
  refine ⟨chunks.filterMap (fun chunk => chunk[index]?), ?_, rfl, fun cell hcell => ?_⟩
  · obtain ⟨first, rest, rfl⟩ : ∃ first rest, chunks = first :: rest := by
      cases chunks with
      | nil => cases h
      | cons first rest => exact ⟨first, rest, rfl⟩
    obtain ⟨outcome, houtcome⟩ := hall first List.mem_cons_self
    exact List.ne_nil_of_mem (List.mem_filterMap.mpr ⟨first, List.mem_cons_self, houtcome⟩)
  · obtain ⟨chunk, hchunk, hcell⟩ := List.mem_filterMap.mp hcell
    exact ⟨chunk, hchunk, List.mem_of_getElem? hcell⟩

theorem combinedState_all {state states} (hne : states ≠ [])
    (h : ∀ x ∈ states, x = state) : combinedState states = state := by
  have hmem : state ∈ states := by
    obtain ⟨x, hx⟩ := List.exists_mem_of_ne_nil _ hne
    exact h x hx ▸ hx
  have hnot : ∀ x, x ≠ state → x ∉ states := fun x hx hmem => hx (h x hmem)
  cases state with
  | complete => exact combinedState_eq_complete.mpr h
  | lowerBound => simp [combinedState, hmem, hnot]
  | failed => simp [combinedState, hmem]
  | notCollected => simp [combinedState, hmem, hnot]

theorem combinedState_whole {states} (h : ∀ x ∈ states, x = .complete ∨ x = .notCollected) :
    combinedState states = .complete ∨ combinedState states = .notCollected := by
  have hfailed : PwCellState.failed ∉ states := fun hmem => by rcases h _ hmem with h | h <;> cases h
  have hlower : PwCellState.lowerBound ∉ states := fun hmem => by rcases h _ hmem with h | h <;> cases h
  by_cases hnot : PwCellState.notCollected ∈ states
  · exact .inr (by simp [combinedState, hfailed, hnot])
  · exact .inl (by simp [combinedState, hfailed, hlower, hnot])

theorem combined_ne_nil {chunks combined}
    (h : combineChunks chunks = .ok combined) (hne : ∀ chunk ∈ chunks, chunk ≠ []) : combined ≠ [] := by
  unfold combineChunks at h
  cases chunks with
  | nil => cases h
  | cons first rest =>
    dsimp only at h
    split at h
    · cases h
    · cases h
      have := hne first List.mem_cons_self
      simpa using this

theorem runScopeChunks_nonempty (hwhole : tick.provider.Whole)
    (h : runScopeChunks u s tick inputs kind scopeKind span chunks budget = .ok found) :
    found.1.length = chunks.length ∧ ∀ chunk ∈ found.1, chunk ≠ [] := by
  induction chunks generalizing budget found with
  | nil =>
    cases h
    simp
  | cons ids chunks ih =>
    obtain ⟨first, rest, hsent, hrest, rfl⟩ := runScopeChunks_cons hwhole h
    obtain ⟨hlength, hne⟩ := ih hrest
    refine ⟨by simp [hlength], fun chunk hchunk => ?_⟩
    rcases List.mem_cons.mp hchunk with rfl | hchunk
    · exact hsent.nonempty
    · exact hne chunk hchunk

structure KindRan (expired : Nat → Bool) (scope : ResolvedScope) (budget : PwStepBudget)
    (outcomes : List PwBucketOutcome) (after : PwStepBudget) : Prop where
  spent : Spent budget after
  chunks : scope.chunks ≠ []
  nonempty : outcomes ≠ []
  state : ∀ o ∈ outcomes, o.state = .complete ∨ o.state = .notCollected
  sent : (∀ i < scope.chunks.length, expired (budget.used + i) = false) → budget.Backed →
    budget.used + scope.chunks.length ≤ budget.maxSearches →
    after.used = budget.used + scope.chunks.length ∧ ∀ o ∈ outcomes, o.state = .complete
  stopped : expired budget.used = true → after = budget ∧ ∀ o ∈ outcomes, o.state = .notCollected

theorem runKind_ran {scope} (hwhole : tick.provider.Whole) {ran : List PwBucketOutcome × PwStepBudget}
    (h : runKind u s tick inputs scope kind span budget = .ok ran) : KindRan tick.expired scope budget ran.1 ran.2 := by
  unfold runKind at h
  obtain ⟨found, hfound, h⟩ := bind_ok h
  obtain ⟨outcomes, hcombine, h⟩ := bind_ok h
  cases h
  have hcombine := raisingStep_ok hcombine
  obtain ⟨hspent, hstates⟩ := runScopeChunks_spent hwhole hfound
  obtain ⟨hlength, hne⟩ := runScopeChunks_nonempty hwhole hfound
  have hall : ∀ state, (∀ chunk ∈ found.1, ∀ o ∈ chunk, o.state = state) → ∀ o ∈ outcomes, o.state = state := by
    intro state hstate o ho
    obtain ⟨cells, hcells, hcombined, hfrom⟩ := state_of_combine hcombine ho
    rw [hcombined]
    refine combinedState_all (by simpa using hcells) (fun x hx => ?_)
    obtain ⟨cell, hcell, rfl⟩ := List.mem_map.mp hx
    obtain ⟨chunk, hchunk, hmem⟩ := hfrom cell hcell
    exact hstate chunk hchunk cell hmem
  refine ⟨hspent, ?_, combined_ne_nil hcombine hne, fun o ho => ?_, fun hgoes hbacked hroom => ?_, fun hexpired => ?_⟩
  · intro hnil
    rw [hnil, List.length_nil, List.length_eq_zero_iff] at hlength
    rw [hlength] at hcombine
    cases hcombine
  · obtain ⟨cells, -, hcombined, hfrom⟩ := state_of_combine hcombine ho
    rw [hcombined]
    refine combinedState_whole (fun x hx => ?_)
    obtain ⟨cell, hcell, rfl⟩ := List.mem_map.mp hx
    obtain ⟨chunk, hchunk, hmem⟩ := hfrom cell hcell
    exact hstates chunk hchunk cell hmem
  · obtain ⟨hused, hcomplete⟩ := runScopeChunks_sent hwhole hfound hgoes hbacked hroom
    exact ⟨hused, hall .complete hcomplete⟩
  · obtain ⟨hbudget, hnot⟩ := runScopeChunks_stopped hwhole hfound hexpired
    exact ⟨hbudget, hall .notCollected hnot⟩

/-! ## What the planner is told -/

variable {scope : ResolvedScope} {outcomes : List PwBucketOutcome} {after : PwStepBudget} {expired : Nat → Bool}

theorem wideStatus_of_complete {searches} (hne : outcomes ≠ []) (h : ∀ o ∈ outcomes, o.state = .complete) :
    wideStatus outcomes searches = .complete := by
  have hfailed : outcomes.any (fun o => decide (o.state = .failed)) = false := by
    rw [List.any_eq_false]
    intro o ho
    simp [h o ho]
  have hall : outcomes.all (fun o => decide (o.state = .complete)) = true := by
    rw [List.all_eq_true]
    intro o ho
    simp [h o ho]
  simp [wideStatus, hfailed, hall, hne]

theorem wideStatus_of_notCollected (hne : outcomes ≠ []) (h : ∀ o ∈ outcomes, o.state = .notCollected) :
    wideStatus outcomes 0 = .notRun := by
  obtain ⟨o, ho⟩ := List.exists_mem_of_ne_nil _ hne
  have hfailed : outcomes.any (fun o => decide (o.state = .failed)) = false := by
    rw [List.any_eq_false]
    intro o ho
    simp [h o ho]
  have hall : outcomes.all (fun o => decide (o.state = .complete)) = false := by
    rw [List.all_eq_false]
    exact ⟨o, ho, by simp [h o ho]⟩
  have hany : outcomes.any (fun o => decide (o.state = .notCollected)) = true :=
    List.any_eq_true.mpr ⟨o, ho, by simp [h o ho]⟩
  simp [wideStatus, hfailed, hall, hany]

theorem KindRan.wideStatus (h : KindRan expired scope budget outcomes after)
    (huncut : Uncut expired scope.chunks.length budget.used) (hbacked : budget.Backed)
    (hroom : budget.used + scope.chunks.length ≤ budget.maxSearches) :
    (Collectors.wideStatus outcomes (after.used - budget.used) = .complete ∧ expired budget.used = false ∧
        after.used = budget.used + scope.chunks.length) ∨
      (Collectors.wideStatus outcomes (after.used - budget.used) = .notRun ∧ after = budget) := by
  rcases huncut with hexpired | hgoes
  · obtain ⟨rfl, hnot⟩ := h.stopped hexpired
    rw [Nat.sub_self]
    exact .inr ⟨wideStatus_of_notCollected h.nonempty hnot, rfl⟩
  · obtain ⟨hused, hcomplete⟩ := h.sent hgoes hbacked hroom
    have hfirst := hgoes 0 (List.length_pos_of_ne_nil h.chunks)
    exact .inl ⟨wideStatus_of_complete h.nonempty hcomplete, hfirst, hused⟩

theorem KindRan.chunkResult (h : KindRan expired scope budget outcomes after) (searches : Nat) :
    (Collectors.chunkResult span outcomes searches).status ≠ .failed := by
  have hfailed : outcomes.any (fun o => decide (o.state = .failed)) = false := by
    rw [List.any_eq_false]
    intro o ho
    rcases h.state o ho with hstate | hstate <;> simp [hstate]
  unfold Collectors.chunkResult
  rw [hfailed]
  simp only [Bool.false_eq_true, if_false]
  split
  · dsimp only
    split <;> exact fun h => by cases h
  · exact fun h => by cases h

/-! ## Refused permits -/

open SplitDriver in
theorem used_of_takes {expired : Nat → Bool} {n b b'} (h : Takes (PwStepBudget.tryTake expired) n b b') :
    b'.used = b.used + n ∧ b'.parent.used = b.parent.used + n := by
  induction h with
  | zero b => exact ⟨rfl, rfl⟩
  | succ htake _ ih =>
    have htook := PwStepBudget.tookOne_of_tryTake htake
    have hused := htook.used
    have hparent := htook.parent.1
    omega

structure Answered (budget : PwStepBudget) (answers : List (Except PwCallError PwKeyedResult))
    (found : PwHistorySearch) : Prop where
  used : found.budget.used = budget.used + answers.length
  parent : found.budget.parent.used = budget.parent.used + answers.length
  refused : found.refused = answers.any isRefusal

theorem runHistorySearch_answered {plan span budget found} (h : runHistorySearch u s tick plan span budget = .ok found) :
    ∃ answers, historyAnswers u s tick plan span budget = .ok answers ∧ Answered budget answers found := by
  unfold runHistorySearch at h
  obtain ⟨window, hwindow, h⟩ := bind_ok h
  obtain ⟨n, hn, hwidth, -, hcount⟩ := exists_count_of_validate hwindow
  by_cases hrows : s.pwMaxRowsPerSearch < 1
  · simp only [hrows, if_true] at h
    cases h
  · simp only [hrows, if_false] at h
    obtain ⟨spec, hspec, h⟩ := bind_ok h
    have hpos : 0 < ((window.2 - window.1) / 1000000 / s.collectionIntervalSeconds).toNat := by
      rw [hcount]
      exact hn
    rw [dif_pos hpos] at h
    cases h
    let a : PwHistoryArgs := ⟨tick.provider, budget.used, tick.expired, spec, window.1, s.collectionIntervalSeconds,
      s.pwMaxRowsPerSearch⟩
    let r : PwRegion := ⟨0, _, hpos⟩
    have hcovered : a.driver.Covered r ⟨budget, [], []⟩ (a.driver.search r 0 ⟨budget, [], []⟩) :=
      a.driver.covered_search r 0 (PwHistoryArgs.cells_nodup hwidth _) (by simp [Dict.keys])
    obtain ⟨calls, _, hs, -, -⟩ := hcovered
    obtain ⟨hused, hparent⟩ := used_of_takes hs.takes
    have hcalls := hs.calls_eq
    rw [List.nil_append] at hcalls
    refine ⟨calls.map (fun call => call.2), ?_, ?_, ?_, ?_⟩
    · simp only [historyAnswers, hwindow, hrows, hspec, if_false]
      rw [← hcalls]
      exact dif_pos hpos
    · rw [List.length_map]
      exact hused
    · rw [List.length_map]
      exact hparent
    · rw [← hcalls, List.any_map]
      rfl

theorem sent_add_refused (answers : List (Except PwCallError PwKeyedResult)) :
    answers.length = sentSearches answers + refusedSearches answers := by
  have h := List.length_eq_countP_add_countP isRefusal (l := answers)
  simp only [Bool.not_eq_true, Bool.decide_eq_false] at h
  rw [h, Nat.add_comm, sentSearches, refusedSearches]

theorem refused_pos_of_any {answers} (h : answers.any isRefusal = true) : 0 < refusedSearches answers := by
  obtain ⟨answer, hanswer, hrefused⟩ := List.any_eq_true.mp h
  exact List.countP_pos_iff.mpr ⟨answer, hanswer, hrefused⟩

structure RefundedOnce (budget : PwStepBudget) (answers : List (Except PwCallError PwKeyedResult))
    (after : PwStepBudget) : Prop where
  refused : 0 < refusedSearches answers
  used : after.used + 1 = budget.used + sentSearches answers + refusedSearches answers
  parent : after.parent.used + 1 = budget.parent.used + sentSearches answers + refusedSearches answers

theorem Answered.refund {answers first} (h : Answered budget answers first) (hrefused : first.refused = true) :
    RefundedOnce budget answers first.budget.refund := by
  have hpos := refused_pos_of_any (h.refused.symm.trans hrefused)
  have hlength := sent_add_refused answers
  have hused := h.used
  have hparent := h.parent
  refine ⟨hpos, ?_, ?_⟩
  · simp only [PwStepBudget.refund]
    omega
  · simp only [PwStepBudget.refund]
    omega

theorem RefundedOnce.cons {answers rest first after} (h : Answered budget answers first)
    (hrefused : ¬ first.refused = true) (hrest : RefundedOnce first.budget rest after) :
    RefundedOnce budget (answers ++ rest) after := by
  have hnone : refusedSearches answers = 0 := by
    rw [refusedSearches, List.countP_eq_zero]
    intro answer hanswer hrefusal
    exact hrefused (h.refused.trans (List.any_eq_true.mpr ⟨answer, hanswer, hrefusal⟩))
  have hlength := sent_add_refused answers
  have hused := h.used
  have hparent := h.parent
  obtain ⟨hpos, hused', hparent'⟩ := hrest
  have hsent : sentSearches (answers ++ rest) = sentSearches answers + sentSearches rest := List.countP_append
  have hall : refusedSearches (answers ++ rest) = refusedSearches answers + refusedSearches rest := List.countP_append
  constructor
  · omega
  · omega
  · omega

theorem runScopeChunks_refunded {after}
    (h : runScopeChunks u s tick inputs kind scopeKind span chunks budget = .error (.permitUnavailable after)) :
    RefundedOnce budget (scopeAnswers u s tick inputs kind scopeKind span chunks budget) after := by
  induction chunks generalizing budget with
  | nil => cases h
  | cons ids chunks ih =>
    rw [runScopeChunks] at h
    cases hfirst : runHistorySearch u s tick (inputs.plan kind scopeKind ids) span budget with
    | error e =>
      rw [hfirst] at h
      cases h
    | ok first =>
      obtain ⟨answers, hanswers, hanswered⟩ := runHistorySearch_answered hfirst
      rw [scopeAnswers, hfirst, hanswers]
      rw [hfirst] at h
      by_cases hrefused : first.refused = true
      · simp only [hrefused, if_true]
        have hafter : first.budget.refund = after := by
          simpa [raisingStep, Except.mapError, hrefused, bind, Except.bind, throw, throwThe, MonadExceptOf.throw]
            using h
        exact hafter ▸ hanswered.refund hrefused
      · simp only [hrefused]
        refine RefundedOnce.cons hanswered hrefused (ih ?_)
        cases hrest : runScopeChunks u s tick inputs kind scopeKind span chunks first.budget with
        | ok rest =>
          simp [raisingStep, Except.mapError, hrefused, bind, Except.bind, hrest, pure, Except.pure] at h
        | error e =>
          simpa [raisingStep, Except.mapError, hrefused, bind, Except.bind, hrest, pure, Except.pure] using h

theorem runKind_refunded {scope after}
    (h : runKind u s tick inputs scope kind span budget = .error (.permitUnavailable after)) :
    RefundedOnce budget (kindAnswers u s tick inputs scope kind span budget) after := by
  rw [runKind] at h
  cases hfound : runScopeChunks u s tick inputs kind scope.scopeKind span scope.chunks budget with
  | error e =>
    rw [hfound] at h
    cases h
    exact runScopeChunks_refunded hfound
  | ok found =>
    rw [hfound] at h
    simp only [bind, Except.bind] at h
    cases hcombined : combineChunks found.1 with
    | ok outcomes => simp [raisingStep, hcombined, Except.mapError, pure, Except.pure] at h
    | error e => simp [raisingStep, hcombined, Except.mapError] at h

end QRadarDashboard.Collectors
