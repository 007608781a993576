import QRadarDashboard.Collectors.PwHistory
import QRadarDashboard.PropertyWatch.Lemmas.Bootstrap
import QRadarDashboard.PropertyWatch.Lemmas.Query

/-!
# The first plan of a history step
-/

namespace QRadarDashboard.PropertyWatch
open Lib

/-! ## The pins of a watch -/

variable {u : UnicodeTables}

theorem validatePinnedValues_length {raw pins count most}
    (h : validatePinnedValues u raw count most = .ok pins) : pins.length = raw.length := by
  unfold validatePinnedValues at h
  split at h
  · cases h
  · obtain ⟨found, hfound, h⟩ := bind_ok h
    dsimp only at h
    split at h
    · cases h
    · cases h
      exact length_of_mapM hfound

theorem validateQueryInputs_pinned {plan maxSources spec}
    (h : validateQueryInputs u plan maxSources = .ok spec) (hkind : plan.search = .pinned) :
    spec.pinned ≠ [] ∧ ∀ entry ∈ spec.pinned, entry.length = spec.properties.length := by
  have haccepted := validateQueryInputs_ok h
  refine ⟨(haccepted.pins hkind).2, fun entry hentry => ?_⟩
  obtain ⟨raw, hcount, hraw⟩ := haccepted.pinned entry hentry
  exact (length_of_mapM hraw).trans hcount

theorem pinnedRowsPerBucket_pos {spec} (hne : spec.pinned ≠ [])
    (hlength : ∀ entry ∈ spec.pinned, entry.length = spec.properties.length) : 0 < pinnedRowsPerBucket spec := by
  obtain ⟨entry, hentry⟩ := List.exists_mem_of_ne_nil _ hne
  unfold pinnedRowsPerBucket
  refine List.prod_pos_iff_forall_pos_nat.mpr (fun n hn => ?_)
  obtain ⟨components, hcomponents, rfl⟩ := List.mem_map.mp hn
  obtain ⟨position, hposition, rfl⟩ := List.mem_map.mp hcomponents
  have hlt : position < entry.length := by
    rw [hlength entry hentry]
    exact List.mem_range.mp hposition
  refine List.length_pos_of_mem (a := entry[position]) ?_
  rw [mem_sortOn, List.mem_dedup]
  exact List.mem_filterMap.mpr ⟨entry, hentry, List.getElem?_eq_getElem hlt⟩

end QRadarDashboard.PropertyWatch

namespace QRadarDashboard.Collectors
open Lib History PropertyWatch

variable {φ : Type} [PyFloat φ] {u : UnicodeTables} {s : PwSettings φ} {st : PlannerSettings φ} {watch : PropertyWatchRow}
  {scope : ResolvedScope} {inputs : PwReadingInputs}

theorem readingInputs_pins (h : readingInputs u s watch scope = .ok inputs) :
    (0 < inputs.pinnedRows ↔ watch.pinned = true) ∧ inputs.pinned.isEmpty = !watch.pinned := by
  unfold readingInputs at h
  obtain ⟨references, _, h⟩ := bind_ok h
  obtain ⟨pinned, hpinned, h⟩ := bind_ok h
  have hlength := validatePinnedValues_length hpinned
  have hempty : pinned.isEmpty = watch.pinnedValues.isEmpty := by
    rw [Bool.eq_iff_iff, List.isEmpty_iff_length_eq_zero, List.isEmpty_iff_length_eq_zero, hlength]
  dsimp only at h
  split at h
  · rename_i hnil
    cases h
    simp only [hnil, List.isEmpty_nil] at hempty
    simp [PropertyWatchRow.pinned, hnil, ← hempty]
  · rename_i hsome
    split at h
    · cases h
    · obtain ⟨spec, hspec, h⟩ := bind_ok h
      cases h
      obtain ⟨hne, hcomponents⟩ := validateQueryInputs_pinned hspec rfl
      have hpos := pinnedRowsPerBucket_pos hne hcomponents
      have hfalse : watch.pinnedValues.isEmpty = false := by
        rw [← hempty]
        simpa using hsome
      simp [PropertyWatchRow.pinned, hpos, hfalse, hsome]

/-! ## The first plan -/

theorem stepBudget_remaining (budget : PwSearchBudget) (secondsLeft : φ) :
    (stepBudget s budget secondsLeft).remaining = min s.pwBootstrapSearchesPerTick (pwRemaining budget) := by
  simp only [stepBudget, pwHistoryBudget, PwStepBudget.remaining]
  omega

theorem reservedSearches_first (hpins : 0 < inputs.pinnedRows ↔ watch.pinned = true) :
    reservedSearches inputs.pinnedRows none + 1 = historyStepSearches watch.pinned := by
  unfold reservedSearches historyStepSearches
  cases hpinned : watch.pinned with
  | true => simp [hpins.mpr hpinned]
  | false =>
    have : inputs.pinnedRows = 0 := by
      have := mt hpins.mp (by simp [hpinned])
      omega
    simp [this]

namespace PwStepArgs

variable (a : PwStepArgs φ)

def first (progress : ScopeProgress Int φ) (budget : PwSearchBudget) : PwStepState φ :=
  { progress := progress, budget := stepBudget a.settings budget (a.tick.secondsLeft 0) }

def FirstPlanGoes (progress : ScopeProgress Int φ) (budget : PwSearchBudget) : Prop :=
  starvedBySetting a.settings (!a.inputs.pinned.isEmpty) budget = false ∧
    ∃ plan, a.plan (a.first progress budget) = .ok plan ∧ plan.step.action ≠ .wait

variable {a} {progress : ScopeProgress Int φ} {budget : PwSearchBudget} {start : Int}

structure Ready (a : PwStepArgs φ) (progress : ScopeProgress Int φ) (start : Int) : Prop where
  enabled : a.settings.pwBootstrapEnabled = true
  time : PyFloat.le (a.tick.secondsLeft 0) (PyFloat.ofInt 0) = false
  unread : Unread a.planner progress start a.tick.boundary a.tick.now

theorem plan_first (hready : a.Ready progress start) : a.plan (a.first progress budget) =
    planPwStep a.planner progress a.tick.now a.tick.boundary
      { searches := (min a.settings.pwBootstrapSearchesPerTick (pwRemaining budget) / a.chunksPerSearch : Nat)
        secondsLeft := a.tick.secondsLeft 0
        searches_nonneg := Int.natCast_nonneg _ } a.inputs.pinnedRows true none := by
  simp only [plan, first, stepBudget_remaining, hready.enabled, Option.map_none]

variable (hinputs : readingInputs a.u a.settings watch a.scope = .ok a.inputs) (hready : a.Ready progress start)
include hinputs hready

/-- The first plan goes when the step's budget covers the smallest step for every chunk of the scope. -/
theorem firstPlanGoes_of_paid (hspan : 0 < a.planner.maxSpanBuckets)
    (hpaid : historyStepSearches watch.pinned * a.chunksPerSearch ≤
      min a.settings.pwBootstrapSearchesPerTick (pwRemaining budget)) : a.FirstPlanGoes progress budget := by
  obtain ⟨hpins, hempty⟩ := readingInputs_pins hinputs
  have hreserved := reservedSearches_first hpins
  have hchunks : 0 < a.chunksPerSearch := lt_of_lt_of_le one_pos (le_max_left _ _)
  have hrows : (0 : Int) ≤ a.inputs.pinnedRows := Int.natCast_nonneg _
  have hshare := (Nat.le_div_iff_mul_le hchunks).mpr hpaid
  refine ⟨?_, ?_⟩
  · have hneeded := (Nat.le_mul_of_pos_right (historyStepSearches watch.pinned) hchunks).trans hpaid
    rw [hempty, Bool.not_not]
    simp only [starvedBySetting, Bool.and_eq_false_iff, decide_eq_false_iff_not, not_lt]
    exact .inl (hneeded.trans (min_le_left _ _))
  · rw [plan_first hready]
    by_cases htime : a.tick.now - progress.startedAt > seconds (a.planner.maxHours * 3600)
    · obtain ⟨plan, hplan, haction⟩ := planPwStep_timeLimit hready.unread hrows htime rfl
      exact ⟨plan, hplan, by simp [haction]⟩
    · obtain ⟨plan, n, hplan, hreads⟩ := planPwStep_read
        { searches := (min a.settings.pwBootstrapSearchesPerTick (pwRemaining budget) / a.chunksPerSearch : Nat)
          secondsLeft := a.tick.secondsLeft 0
          searches_nonneg := Int.natCast_nonneg _ }
        hready.unread hrows htime hspan hready.time (rfl : Option.filter _ none = none)
        (fun scan hscan => by cases hscan) (by simp only [Option.filter_none]; omega)
      exact ⟨plan, hplan, by simp [hreads.action]⟩

theorem firstPlan_waits (htime : ¬ a.tick.now - progress.startedAt > seconds (a.planner.maxHours * 3600))
    (hshort : min a.settings.pwBootstrapSearchesPerTick (pwRemaining budget) <
      historyStepSearches watch.pinned * a.chunksPerSearch) :
    ∃ plan, a.plan (a.first progress budget) = .ok plan ∧ plan.step.action = .wait := by
  have hreserved := reservedSearches_first (readingInputs_pins hinputs).1
  have hrows : (0 : Int) ≤ a.inputs.pinnedRows := Int.natCast_nonneg _
  have hshare := Nat.div_lt_of_lt_mul (Nat.mul_comm _ _ ▸ hshort)
  rw [plan_first hready]
  exact planPwStep_wait hready.unread hrows htime rfl (by simp only [Option.filter_none]; omega)

theorem not_firstPlanGoes (htime : ¬ a.tick.now - progress.startedAt > seconds (a.planner.maxHours * 3600))
    (hshort : min a.settings.pwBootstrapSearchesPerTick (pwRemaining budget) <
      historyStepSearches watch.pinned * a.chunksPerSearch) : ¬ a.FirstPlanGoes progress budget := by
  obtain ⟨waits, hwaits, haction⟩ := firstPlan_waits hinputs hready htime hshort
  rintro ⟨-, plan, hplan, hgoes⟩
  cases hwaits.symm.trans hplan
  exact hgoes haction

end PwStepArgs

end QRadarDashboard.Collectors
