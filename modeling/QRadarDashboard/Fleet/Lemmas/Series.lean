import QRadarDashboard.Fleet.Series
import QRadarDashboard.Lib.Intervals
import QRadarDashboard.Lib.Sums

/-!
# The cells of a step
-/

namespace QRadarDashboard.Fleet
open Lib Waf CustomRules

variable {φ : Type}

/-! ## The steps -/

structure Closed (now bucketSeconds : Int) : Prop where
  width : 60 ≤ bucketSeconds
  now : seconds bucketSeconds ∣ now

def OnGrid (t : FleetTables φ) (bucketSeconds : Int) : Prop :=
  ∀ m ∈ t.metrics, m.bucketSeconds = bucketSeconds → seconds bucketSeconds ∣ m.bucketStart

section Steps

variable {window : FleetWindow} {now bucketSeconds : Int}

theorem stepSecondsFor_cases : stepSecondsFor window bucketSeconds = bucketSeconds ∨
    0 < stepSecondsFor window bucketSeconds ∧ bucketSeconds ∣ stepSecondsFor window bucketSeconds ∧
      stepSecondsFor window bucketSeconds ∣ window.windowSeconds := by
  unfold stepSecondsFor
  split
  · exact Or.inl rfl
  · rename_i step hstep
    split
    · exact Or.inl rfl
    · rename_i hfits
      rw [not_or, not_not, not_not] at hfits
      refine Or.inr ⟨?_, Int.dvd_of_emod_eq_zero hfits.1, Int.dvd_of_emod_eq_zero hfits.2⟩
      cases window <;> simp_all [FleetWindow.stepSeconds]
      all_goals omega

theorem dvd_stepSecondsFor : bucketSeconds ∣ stepSecondsFor window bucketSeconds := by
  rcases @stepSecondsFor_cases window bucketSeconds with h | ⟨-, h, -⟩
  · rw [h]
  · exact h

theorem stepSecondsFor_pos (h : 60 ≤ bucketSeconds) : 0 < stepSecondsFor window bucketSeconds := by
  rcases @stepSecondsFor_cases window bucketSeconds with h | ⟨h, -, -⟩
  · omega
  · exact h

structure StepGrid.Whole (g : StepGrid) (window : FleetWindow) : Prop where
  bucket : 0 < g.bucketSeconds
  step : 0 < g.stepSeconds
  perStep : g.stepSeconds = g.perStepBuckets * g.bucketSeconds
  within : ∀ i < g.steps, g.stepStart (i + 1) ≤ g.windowEnd
  /-- The steps start on the grid if the window is whole buckets, and otherwise none does. -/
  aligned : g.bucketSeconds ∣ window.windowSeconds → ∀ i, seconds g.bucketSeconds ∣ g.stepStart i
  shifted : ¬ g.bucketSeconds ∣ window.windowSeconds → g.perStepBuckets = 1 ∧ ∀ i, ¬ seconds g.bucketSeconds ∣ g.stepStart i

theorem StepGrid.stepStart_succ (g : StepGrid) (i : Nat) :
    g.stepStart (i + 1) = g.stepStart i + seconds g.stepSeconds := by
  unfold StepGrid.stepStart
  push_cast
  ring

theorem seconds_dvd_seconds {m n} : seconds m ∣ seconds n ↔ m ∣ n := Int.mul_dvd_mul_iff_right (by decide)

theorem stepGrid_whole (h : Closed now bucketSeconds) : (stepGrid window now bucketSeconds).Whole window := by
  set step := stepSecondsFor window bucketSeconds with hstep
  have hwidth := h.width
  have hpos : 0 < step := stepSecondsFor_pos h.width
  have hdvd : bucketSeconds ∣ step := dvd_stepSecondsFor
  have hend : seconds bucketSeconds ∣ now / seconds step * seconds step :=
    Dvd.dvd.mul_left (seconds_dvd_seconds.mpr hdvd) _
  have hiff : ∀ i, seconds bucketSeconds ∣ (stepGrid window now bucketSeconds).stepStart i ↔
      bucketSeconds ∣ window.windowSeconds := by
    intro i
    show seconds bucketSeconds ∣ now / seconds step * seconds step - seconds window.windowSeconds + i * seconds step ↔ _
    rw [Int.dvd_add_left (Dvd.dvd.mul_left (seconds_dvd_seconds.mpr hdvd) _), dvd_sub_right hend, seconds_dvd_seconds]
  refine ⟨by show 0 < bucketSeconds; omega, hpos, (Int.ediv_mul_cancel hdvd).symm, fun i hi => ?_,
    fun halign i => (hiff i).mpr halign, fun hshift => ⟨?_, fun i => (hiff i).not.mpr hshift⟩⟩
  · have hsteps : ((i : Int) + 1) ≤ window.windowSeconds / step := by
      have : i < (window.windowSeconds / step).toNat := hi
      omega
    have hfit : ((i : Int) + 1) * step ≤ window.windowSeconds := (Int.le_ediv_iff_mul_le hpos).mp hsteps
    show now / seconds step * seconds step - seconds window.windowSeconds + ((i + 1 : Nat) : Int) * seconds step ≤
      now / seconds step * seconds step
    unfold seconds
    push_cast
    have hscale : ((i : Int) + 1) * (step * 1000000) = ((i : Int) + 1) * step * 1000000 := by ring
    omega
  · rcases @stepSecondsFor_cases window bucketSeconds with hone | ⟨-, hfirst, hsecond⟩
    · show step / bucketSeconds = 1
      rw [hstep, hone]
      exact Int.ediv_self (by omega)
    · exact absurd (hfirst.trans hsecond) hshift

end Steps

/-! ## The rows of a source -/

section Rows

variable (t : FleetTables φ) (g : StepGrid)

def startsIn (i : Nat) (m : LogSourceMetric φ) : Bool :=
  m.completeness = .complete && m.bucketSeconds = g.bucketSeconds &&
    (g.stepStart i ≤ m.bucketStart && m.bucketStart < g.stepStart (i + 1))

def sourceRows (s : FleetSource) (i : Nat) : List (LogSourceMetric φ) :=
  (t.metrics.filter (startsIn g i)).filter (fun m => m.logSourceId = s.id)

def bucketOf (m : LogSourceMetric φ) : Int × Int := (m.bucketStart, m.bucketStart + seconds m.bucketSeconds)

/-- The COMPLETE rows of the source that start in the step, in some order, tile it. -/
def Tiled (s : FleetSource) (i : Nat) : Prop :=
  ∃ rows : List (LogSourceMetric φ), rows.Perm (sourceRows t g s i) ∧
    Tiles (g.stepStart i) (rows.map bucketOf) (g.stepStart (i + 1))

variable {t g} {window : FleetWindow} {s : FleetSource} {i : Nat}

theorem mem_sourceRows {m} : m ∈ sourceRows t g s i ↔
    m ∈ t.metrics ∧ m.logSourceId = s.id ∧ m.completeness = .complete ∧ m.bucketSeconds = g.bucketSeconds ∧
      g.stepStart i ≤ m.bucketStart ∧ m.bucketStart < g.stepStart (i + 1) := by
  simp [sourceRows, startsIn, and_assoc]

theorem nodup_starts : ((sourceRows t g s i).map LogSourceMetric.bucketStart).Nodup := by
  have hkeys := t.metrics_nodup.sublist ((List.filter_sublist.trans List.filter_sublist).map _ :
    ((sourceRows t g s i).map (fun m => (m.logSourceId, m.bucketStart))).Sublist _)
  refine (List.nodup_map_iff_inj_on hkeys.of_map).mpr (fun m hm m' hm' hstart => ?_)
  refine List.inj_on_of_nodup_map hkeys hm hm' ?_
  rw [(mem_sourceRows.mp hm).2.1, (mem_sourceRows.mp hm').2.1, hstart]

theorem stepStart_perStep (hw : g.Whole window) :
    g.stepStart (i + 1) = g.stepStart i + g.perStepBuckets.toNat * seconds g.bucketSeconds := by
  have hper : 0 < g.perStepBuckets := by
    by_contra hneg
    have hstep := hw.step
    have hle := Int.mul_nonpos_of_nonpos_of_nonneg (not_lt.mp hneg) (le_of_lt hw.bucket)
    rw [← hw.perStep] at hle
    omega
  rw [g.stepStart_succ, Int.toNat_of_nonneg (le_of_lt hper), hw.perStep]
  unfold seconds
  ring

theorem seconds_pos {n} (h : 0 < n) : 0 < seconds n := by
  unfold seconds
  omega

theorem starts_inside (hw : g.Whole window) : ∀ x ∈ (sourceRows t g s i).map LogSourceMetric.bucketStart,
    g.stepStart i ≤ x ∧ x < g.stepStart i + g.perStepBuckets.toNat * seconds g.bucketSeconds := by
  intro x hx
  obtain ⟨m, hm, rfl⟩ := List.mem_map.mp hx
  obtain ⟨-, -, -, -, hle, hlt⟩ := mem_sourceRows.mp hm
  rw [← stepStart_perStep hw]
  exact ⟨hle, hlt⟩

theorem starts_onGrid (hgrid : OnGrid t g.bucketSeconds) :
    ∀ x ∈ (sourceRows t g s i).map LogSourceMetric.bucketStart, seconds g.bucketSeconds ∣ x := by
  intro x hx
  obtain ⟨m, hm, rfl⟩ := List.mem_map.mp hx
  obtain ⟨hmem, -, -, hwidth, -⟩ := mem_sourceRows.mp hm
  exact hgrid m hmem hwidth

theorem length_sourceRows_le (hw : g.Whole window) (hgrid : OnGrid t g.bucketSeconds) :
    (sourceRows t g s i).length ≤ g.perStepBuckets.toNat := by
  simpa using length_le_of_grid (seconds_pos hw.bucket) nodup_starts (starts_onGrid hgrid) (starts_inside hw)

theorem Tiled.starts_onGrid (hw : g.Whole window) (hgrid : OnGrid t g.bucketSeconds) (h : Tiled t g s i) :
    seconds g.bucketSeconds ∣ g.stepStart i := by
  obtain ⟨rows, hperm, htiles⟩ := h
  cases rows with
  | nil =>
    have hend : g.stepStart i = g.stepStart (i + 1) := htiles
    have := seconds_pos hw.step
    rw [g.stepStart_succ] at hend
    omega
  | cons m rest =>
    have hfirst : m.bucketStart = g.stepStart i := htiles.1
    obtain ⟨hmem, -, -, hwidth, -⟩ := mem_sourceRows.mp (hperm.subset List.mem_cons_self)
    rw [← hfirst]
    exact hgrid m hmem hwidth

theorem tiled_iff (hw : g.Whole window) (hgrid : OnGrid t g.bucketSeconds)
    (halign : seconds g.bucketSeconds ∣ g.stepStart i) :
    Tiled t g s i ↔ (sourceRows t g s i).length = g.perStepBuckets.toNat := by
  have hwidths : ∀ m ∈ sourceRows t g s i, bucketOf m = (m.bucketStart, m.bucketStart + seconds g.bucketSeconds) := by
    intro m hm
    rw [bucketOf, (mem_sourceRows.mp hm).2.2.2.1]
  have hpos := seconds_pos hw.bucket
  constructor
  · rintro ⟨rows, hperm, htiles⟩
    have hsum := htiles.sum_lengths
    rw [stepStart_perStep hw, List.map_map] at hsum
    have hconst : rows.map ((fun s : Int × Int => s.2 - s.1) ∘ bucketOf) = rows.map (fun _ => seconds g.bucketSeconds) := by
      refine List.map_congr_left (fun m hm => ?_)
      rw [Function.comp_apply, hwidths m (hperm.subset hm)]
      exact add_sub_cancel_left _ _
    rw [hconst, List.map_const', List.sum_replicate, nsmul_eq_mul, add_sub_cancel_left] at hsum
    have hlength := Int.eq_of_mul_eq_mul_right (ne_of_gt hpos) hsum
    rw [← hperm.length_eq]
    exact_mod_cast hlength
  · intro hfull
    have hstarts := perm_of_grid_full hpos nodup_starts (starts_onGrid hgrid) (starts_inside hw) halign
      (by rw [List.length_map, hfull] : ((sourceRows t g s i).map LogSourceMetric.bucketStart).length = _)
    -- the rows by their start
    refine ⟨sortOn LogSourceMetric.bucketStart (sourceRows t g s i), sortOn_perm _, ?_⟩
    have hsorted : (sortOn LogSourceMetric.bucketStart (sourceRows t g s i)).map LogSourceMetric.bucketStart =
        (List.range g.perStepBuckets.toNat).map (fun j : Nat => g.stepStart i + j * seconds g.bucketSeconds) := by
      refine (((sortOn_perm _).map _).trans hstarts).eq_of_pairwise (fun a b _ _ hab hba => le_antisymm hab hba) ?_ ?_
      · exact (pairwise_sortOn _).map _ (fun _ _ h => h)
      · refine List.Pairwise.map _ (fun j k hjk => ?_) List.pairwise_lt_range
        have := Int.mul_le_mul_of_nonneg_right (Int.ofNat_le.mpr (le_of_lt hjk)) (le_of_lt hpos)
        omega
    have htiles : (sortOn LogSourceMetric.bucketStart (sourceRows t g s i)).map bucketOf =
        gridTiles (seconds g.bucketSeconds) (g.stepStart i) g.perStepBuckets.toNat := by
      have hmap : (sortOn LogSourceMetric.bucketStart (sourceRows t g s i)).map bucketOf =
          ((sortOn LogSourceMetric.bucketStart (sourceRows t g s i)).map LogSourceMetric.bucketStart).map
            (fun x => (x, x + seconds g.bucketSeconds)) := by
        rw [List.map_map]
        exact List.map_congr_left (fun m hm => hwidths m (mem_sortOn.mp hm))
      rw [hmap, hsorted, List.map_map, gridTiles]
      refine List.map_congr_left (fun j _ => ?_)
      rw [Function.comp_apply, add_one_mul, add_assoc]
    rw [htiles, stepStart_perStep hw]
    exact tiles_gridTiles hpos

end Rows

/-! ## The cells of a scope -/

section Cells

variable {t : FleetTables φ} {g : StepGrid} {window : FleetWindow} {i : Nat}

theorem gridClassOf_iff {m c} : gridClassOf t m = some c ↔
    m.logSourceId ∈ (t.scopeSources.filter (fun s => s.sourceClass = c)).map FleetSource.id := by
  simp only [gridClassOf, Option.map_eq_some_iff, Option.filter_eq_some_iff, List.mem_map, List.mem_filter,
    FleetTables.scopeSources, decide_eq_true_eq]
  constructor
  · rintro ⟨s, ⟨hfind, hscope⟩, hclass⟩
    exact ⟨s, ⟨⟨List.mem_of_find?_eq_some hfind, hscope⟩, hclass⟩, by simpa using List.find?_some hfind⟩
  · rintro ⟨s, ⟨⟨hmem, hscope⟩, hclass⟩, hid⟩
    refine ⟨s, ⟨?_, hscope⟩, hclass⟩
    have hsome : (t.sources.find? (fun s => s.id = m.logSourceId)).isSome :=
      List.find?_isSome.mpr ⟨s, hmem, decide_eq_true hid⟩
    obtain ⟨s', hfind⟩ := Option.isSome_iff_exists.mp hsome
    have hid' : s'.id = m.logSourceId := by simpa using List.find?_some hfind
    rw [hfind, List.inj_on_of_nodup_map t.sources_nodup (List.mem_of_find?_eq_some hfind) hmem (hid'.trans hid.symm)]

theorem stepIndex_iff (hw : g.Whole window) {m : LogSourceMetric φ} :
    g.stepIndex m = i ↔ g.stepStart i ≤ m.bucketStart ∧ m.bucketStart < g.stepStart (i + 1) := by
  have hpos := seconds_pos hw.step
  rw [g.stepStart_succ, StepGrid.stepIndex, StepGrid.stepStart, Int.ediv_eq_iff_of_pos hpos]
  constructor
  · rintro ⟨hle, hlt⟩
    exact ⟨by omega, by omega⟩
  · rintro ⟨hle, hlt⟩
    exact ⟨by omega, by omega⟩

theorem completeRows_eq (hw : g.Whole window) (hi : i < g.steps) (c : SourceClass) : completeRows t g c i =
    (t.metrics.filter (startsIn g i)).filter
      (fun m => m.logSourceId ∈ (t.scopeSources.filter (fun s => s.sourceClass = c)).map FleetSource.id) := by
  have hstart : g.windowStart ≤ g.stepStart i := by
    have := Int.mul_nonneg (Int.natCast_nonneg i) (le_of_lt (seconds_pos hw.step))
    unfold StepGrid.stepStart
    omega
  have hstop := hw.within i hi
  rw [completeRows, cellRows, List.filter_filter, List.filter_filter]
  refine List.filter_congr (fun m _ => ?_)
  rw [Bool.eq_iff_iff]
  simp only [StepGrid.inGrid, startsIn, Bool.and_eq_true, decide_eq_true_eq, gridClassOf_iff, stepIndex_iff hw]
  constructor
  · rintro ⟨hcomplete, ⟨hclass, ⟨hwidth, -⟩, -⟩, hle, hlt⟩
    exact ⟨hclass, ⟨hcomplete, hwidth⟩, hle, hlt⟩
  · rintro ⟨hclass, ⟨hcomplete, hwidth⟩, hle, hlt⟩
    exact ⟨hcomplete, ⟨hclass, ⟨hwidth, hstart.trans hle⟩, lt_of_lt_of_le hlt hstop⟩, hle, hlt⟩

theorem sum_completeRows {M : Type} [AddCommMonoid M] (hw : g.Whole window) (hi : i < g.steps) (c : SourceClass)
    (w : LogSourceMetric φ → M) : ((completeRows t g c i).map w).sum =
      ((t.scopeSources.filter (fun s => s.sourceClass = c)).map (fun s => ((sourceRows t g s i).map w).sum)).sum := by
  have hids : ((t.scopeSources.filter (fun s => s.sourceClass = c)).map FleetSource.id).Nodup :=
    t.sources_nodup.sublist ((List.filter_sublist.trans List.filter_sublist).map _)
  rw [completeRows_eq hw hi, ← sum_filter_keys LogSourceMetric.logSourceId w _ hids, List.map_map]
  rfl

structure SeriesScope.Of (scope : SeriesScope) (t : FleetTables φ) : Prop where
  nodup : scope.classes.Nodup
  sources : scope.sources = t.scopeSources.filter (fun s => s.sourceClass ∈ scope.classes)

theorem fleetScope_of (t : FleetTables φ) : (fleetScope t).Of t where
  nodup := (sortOn_perm _).nodup_iff.mpr (List.nodup_dedup _)
  sources := by
    refine (List.filter_eq_self.mpr (fun s hs => decide_eq_true ?_)).symm
    exact mem_sortOn.mpr (List.mem_dedup.mpr (List.mem_map_of_mem hs))

def presentClasses (t : FleetTables φ) : List SourceClass :=
  SourceClass.members.filter (fun c => c ≠ .QRADAR_INTERNAL && t.scopeSources.countP (fun s => s.sourceClass = c) ≠ 0)

def scopeOfClass (t : FleetTables φ) (c : SourceClass) : SeriesScope where
  key := c.value
  label := c.value
  classes := [c]
  sources := t.scopeSources.filter (fun s => s.sourceClass = c)

theorem seriesScopes_sourceClass (t : FleetTables φ) :
    seriesScopes t .sourceClass = (presentClasses t).map (scopeOfClass t) := by
  rw [seriesScopes, presentClasses, ← List.filterMap_eq_map, List.filterMap_filter]
  refine List.filterMap_congr (fun c _ => ?_)
  by_cases h : c = .QRADAR_INTERNAL ∨ t.scopeSources.countP (fun s => s.sourceClass = c) = 0
  · rw [classScope, if_pos h, if_neg]
    rcases h with h | h
    · simp [h]
    · simp only [h, ne_eq, not_true_eq_false, decide_false, Bool.and_false, Bool.false_eq_true, not_false_eq_true]
  · rw [classScope, if_neg h, if_pos]
    · rfl
    · rw [not_or] at h
      simp only [ne_eq, h.1, h.2, not_false_eq_true, decide_true, Bool.and_self]

theorem scopeOfClass_of (t : FleetTables φ) (c : SourceClass) : (scopeOfClass t c).Of t where
  nodup := List.nodup_singleton c
  sources := List.filter_congr (fun s _ => by simp [scopeOfClass])

theorem nodup_presentClasses (t : FleetTables φ) : (presentClasses t).Nodup :=
  (show SourceClass.members.Nodup by decide).sublist List.filter_sublist

theorem mem_presentClasses {s} (hs : s ∈ t.scopeSources) : s.sourceClass ∈ presentClasses t := by
  refine List.mem_filter.mpr ⟨s.sourceClass.mem_members, ?_⟩
  have hscope := (List.mem_filter.mp hs).2
  rw [FleetSource.inMonitoredGrid, Bool.and_eq_true] at hscope
  rw [Bool.and_eq_true]
  refine ⟨hscope.2, decide_eq_true ?_⟩
  exact Nat.ne_of_gt (List.countP_pos_iff.mpr ⟨s, hs, by simp⟩)

theorem exists_of_presentClasses {c} (h : c ∈ presentClasses t) : ∃ s ∈ t.scopeSources, s.sourceClass = c := by
  have hcount := (List.mem_filter.mp h).2
  rw [Bool.and_eq_true, decide_eq_true_eq] at hcount
  obtain ⟨s, hs, hclass⟩ := List.countP_pos_iff.mp (Nat.pos_of_ne_zero (of_decide_eq_true hcount.2))
  exact ⟨s, hs, of_decide_eq_true hclass⟩

theorem seriesScopes_of {groupBy scope} (h : scope ∈ seriesScopes t groupBy) : scope.Of t := by
  cases groupBy with
  | none =>
    rw [List.mem_singleton.mp h]
    exact fleetScope_of t
  | sourceClass =>
    rw [seriesScopes_sourceClass] at h
    obtain ⟨c, -, rfl⟩ := List.mem_map.mp h
    exact scopeOfClass_of t c

theorem sum_cells {M : Type} [AddCommMonoid M] (hw : g.Whole window) (hi : i < g.steps) {scope : SeriesScope}
    (h : scope.Of t) (w : LogSourceMetric φ → M) : (scope.classes.map (fun c => ((completeRows t g c i).map w).sum)).sum =
      (scope.sources.map (fun s => ((sourceRows t g s i).map w).sum)).sum := by
  rw [h.sources, ← sum_filter_keys FleetSource.sourceClass _ _ h.nodup]
  exact congrArg List.sum (List.map_congr_left (fun c _ => sum_completeRows hw hi c w))

end Cells

/-! ## The points -/

section Points

variable [PyFloat φ] {t : FleetTables φ} {g : StepGrid} {window : FleetWindow} {i : Nat} {scope : SeriesScope}

theorem getElem?_points {p} :
    (epsSeries t g scope).points[i]? = some p ↔ i < g.steps ∧ p = seriesPoint t g scope i := by
  simp only [epsSeries, List.getElem?_map, Option.map_eq_some_iff]
  constructor
  · rintro ⟨j, hj, rfl⟩
    obtain ⟨hlt, rfl⟩ := List.getElem?_eq_some_iff.mp hj
    rw [List.getElem_range]
    exact ⟨by simpa using hlt, rfl⟩
  · rintro ⟨hi, rfl⟩
    exact ⟨i, List.getElem?_range hi, rfl⟩

def sourceEvents (t : FleetTables φ) (g : StepGrid) (s : FleetSource) (i : Nat) : Int :=
  ((sourceRows t g s i).map LogSourceMetric.eventCount).sum

theorem seriesPoint_events_iff (hw : g.Whole window) (hgrid : OnGrid t g.bucketSeconds) (hi : i < g.steps)
    (h : scope.Of t) {n} : (seriesPoint t g scope i).events = some n ↔
      (scope.sources ≠ [] ∧ ∀ s ∈ scope.sources, (sourceRows t g s i).length = g.perStepBuckets.toNat) ∧
        n = (scope.sources.map (fun s => sourceEvents t g s i)).sum := by
  have hper : 0 < g.perStepBuckets := by
    by_contra hneg
    have hstep := hw.step
    have hle := Int.mul_nonpos_of_nonpos_of_nonneg (not_lt.mp hneg) (le_of_lt hw.bucket)
    rw [← hw.perStep] at hle
    omega
  have hcount : (scope.classes.map (fun c => cellComplete t g c i)).sum =
      (scope.sources.map (fun s => (sourceRows t g s i).length)).sum := by
    have hone := sum_cells hw hi h (fun _ => (1 : Nat))
    simp only [sum_map_one] at hone
    exact hone
  have hevents : (scope.classes.map (fun c => cellEvents t g c i)).sum =
      (scope.sources.map (fun s => sourceEvents t g s i)).sum := sum_cells hw hi h LogSourceMetric.eventCount
  have hfull := sum_eq_bound_iff (l := scope.sources) (f := fun s => (sourceRows t g s i).length)
    (fun s _ => length_sourceRows_le hw hgrid)
  have hmeasured : (0 < (scope.sources.length : Int) * g.perStepBuckets ∧
      (((scope.classes.map (fun c => cellComplete t g c i)).sum : Nat) : Int) = scope.sources.length * g.perStepBuckets) ↔
      scope.sources ≠ [] ∧ ∀ s ∈ scope.sources, (sourceRows t g s i).length = g.perStepBuckets.toNat := by
    rw [hcount, ← hfull, ← List.length_pos_iff]
    have hcast : (scope.sources.length : Int) * g.perStepBuckets =
        ((scope.sources.length * g.perStepBuckets.toNat : Nat) : Int) := by
      rw [Nat.cast_mul, Int.toNat_of_nonneg (le_of_lt hper)]
    rw [hcast, Int.natCast_pos, Nat.cast_inj]
    refine and_congr_left (fun _ => ?_)
    exact ⟨fun hpos => Nat.pos_of_mul_pos_right hpos, fun hpos => Nat.mul_pos hpos (by omega)⟩
  rw [← hmeasured, ← hevents]
  by_cases hyes : 0 < (scope.sources.length : Int) * g.perStepBuckets ∧
      (((scope.classes.map (fun c => cellComplete t g c i)).sum : Nat) : Int) = scope.sources.length * g.perStepBuckets
  · rw [seriesPoint, if_pos hyes, Option.some.injEq]
    exact ⟨fun heq => ⟨hyes, heq.symm⟩, fun heq => heq.2.symm⟩
  · rw [seriesPoint, if_neg hyes]
    exact ⟨fun heq => (Option.some_ne_none n heq.symm).elim, fun heq => absurd heq.1 hyes⟩

theorem fleet_events_iff (hw : g.Whole window) (hgrid : OnGrid t g.bucketSeconds) (hi : i < g.steps) {n} :
    (seriesPoint t g (fleetScope t) i).events = some n ↔
      seriesScopes t .sourceClass ≠ [] ∧ ∃ ns : List Int,
        (seriesScopes t .sourceClass).map (fun scope => (seriesPoint t g scope i).events) = ns.map some ∧ n = ns.sum := by
  have hclass := fun c => @seriesPoint_events_iff φ _ t g window i (scopeOfClass t c) hw hgrid hi (scopeOfClass_of t c)
  have hsum : ((presentClasses t).map (fun c =>
      ((scopeOfClass t c).sources.map (fun s => sourceEvents t g s i)).sum)).sum =
      (t.scopeSources.map (fun s => sourceEvents t g s i)).sum := by
    refine (sum_filter_keys FleetSource.sourceClass _ t.scopeSources (nodup_presentClasses t)).trans ?_
    rw [List.filter_eq_self.mpr (fun s hs => decide_eq_true (mem_presentClasses hs))]
  rw [seriesPoint_events_iff hw hgrid hi (fleetScope_of t), seriesScopes_sourceClass, List.map_map, ne_eq (List.map _ _),
    List.map_eq_nil_iff]
  show (t.scopeSources ≠ [] ∧ ∀ s ∈ t.scopeSources, _) ∧ n = (t.scopeSources.map _).sum ↔ _
  constructor
  · rintro ⟨⟨hne, hfull⟩, rfl⟩
    refine ⟨fun hnil => ?_, (presentClasses t).map (fun c =>
      ((scopeOfClass t c).sources.map (fun s => sourceEvents t g s i)).sum), ?_, hsum.symm⟩
    · obtain ⟨s, hs⟩ := List.exists_mem_of_ne_nil _ hne
      have hpresent := mem_presentClasses hs
      rw [hnil] at hpresent
      cases hpresent
    · rw [List.map_map]
      refine List.map_congr_left (fun c hc => (hclass c).mpr ⟨⟨?_, fun s hs => ?_⟩, rfl⟩)
      · obtain ⟨s, hs, hsc⟩ := exists_of_presentClasses hc
        exact List.ne_nil_of_mem (List.mem_filter.mpr ⟨hs, decide_eq_true hsc⟩)
      · exact hfull s (List.mem_of_mem_filter hs)
  · rintro ⟨hne, ns, hns, rfl⟩
    have hall : ∀ c ∈ presentClasses t, ∃ m, (seriesPoint t g (scopeOfClass t c) i).events = some m := by
      intro c hc
      have hmem : (seriesPoint t g (scopeOfClass t c) i).events ∈ ns.map some := by
        rw [← hns]
        exact List.mem_map_of_mem hc
      obtain ⟨m, -, hm⟩ := List.mem_map.mp hmem
      exact ⟨m, hm.symm⟩
    refine ⟨⟨?_, fun s hs => ?_⟩, ?_⟩
    · obtain ⟨c, hc⟩ := List.exists_mem_of_ne_nil _ hne
      obtain ⟨s, hs, -⟩ := exists_of_presentClasses hc
      exact List.ne_nil_of_mem hs
    · obtain ⟨m, hm⟩ := hall s.sourceClass (mem_presentClasses hs)
      exact ((hclass _).mp hm).1.2 s (List.mem_filter.mpr ⟨hs, decide_eq_true rfl⟩)
    · rw [← hsum]
      have hvalues : ((presentClasses t).map (fun c =>
          ((scopeOfClass t c).sources.map (fun s => sourceEvents t g s i)).sum)).map some = ns.map some := by
        rw [← hns, List.map_map]
        refine List.map_congr_left (fun c hc => ?_)
        obtain ⟨m, hm⟩ := hall c hc
        rw [Function.comp_apply, Function.comp_apply, hm, ((hclass c).mp hm).2]
      rw [List.map_injective_iff.mpr (Option.some_injective _) hvalues]

end Points

end QRadarDashboard.Fleet
