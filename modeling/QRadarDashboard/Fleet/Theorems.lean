import QRadarDashboard.Fleet.Lemmas.Classification
import QRadarDashboard.Fleet.Lemmas.Series

/-!
# The fleet: main results
-/

namespace QRadarDashboard.Fleet
open Lib Waf CustomRules

/-! ## Classification -/

def consideredRules (env : ClassifierEnv) (source : SourceFacts) (rules : List RuleFacts) (types : List TypeFacts)
    (groups : List GroupFacts) : List RuleFacts :=
  matchingRules env source rules (typeFactOf source types) (ancestors source.groupIds (groupsById groups))

/-- The order of the rows says nothing, the groups of a source are the least closed set, and class and conflicts follow
the precedence. -/
theorem classification_by_precedence (env : ClassifierEnv) (source : SourceFacts) {rules : List RuleFacts}
    {types : List TypeFacts} {groups : List GroupFacts} (hrules : (rules.map RuleFacts.id).Nodup)
    (htypes : (types.map TypeFacts.typeId).Nodup) (hgroups : (groups.map GroupFacts.qradarId).Nodup) :
    (∀ rules' types' groups' groupIds', rules'.Perm rules → types'.Perm types → groups'.Perm groups →
      groupIds'.Perm source.groupIds →
      classify env { source with groupIds := groupIds' } rules' types' groups' = classify env source rules types groups) ∧
    IsLeast (GroupClosed groups source.groupIds) (ancestors source.groupIds (groupsById groups)) ∧
    ∃ above below, Decision source (typeFactOf source types) (consideredRules env source rules types groups)
        (classify env source rules types groups).sourceClass above below ∧
      ∀ x, x ∈ (classify env source rules types groups).conflicts ↔
        Conflicting (consideredRules env source rules types groups)
          (classify env source rules types groups).sourceClass above below x := by
  refine ⟨fun rules' types' groups' groupIds' hrules' htypes' hgroups' hids => ?_, isLeast_ancestors hgroups _, ?_⟩
  · have htype : typeFactOf { source with groupIds := groupIds' } types' = typeFactOf source types :=
      typeFactOf_perm htypes htypes' source
    have hmatching : (matchingRules env { source with groupIds := groupIds' } rules' (typeFactOf source types)
        (ancestors source.groupIds (groupsById groups))).Perm
        (matchingRules env source rules (typeFactOf source types) (ancestors source.groupIds (groupsById groups))) :=
      hrules'.filter _
    have hnodup : ((matchingRules env source rules (typeFactOf source types)
        (ancestors source.groupIds (groupsById groups))).map RuleFacts.id).Nodup :=
      hrules.sublist (List.filter_sublist.map _)
    simp only [classify, htype, ancestors_perm hgroups hgroups' hids, sortOn_sortKey_perm hnodup hmatching]
    rfl
  · obtain ⟨above, below, hdecision, hconflicts⟩ := verdict_decision source (typeFactOf source types)
      (sortOn RuleFacts.sortKey (consideredRules env source rules types groups))
    have hmem : ∀ rule, rule ∈ sortOn RuleFacts.sortKey (consideredRules env source rules types groups) ↔
        rule ∈ consideredRules env source rules types groups := fun rule => mem_sortOn
    exact ⟨above, below, hdecision.of_mem_iff hmem, fun x => (hconflicts x).trans (conflicting_congr hmem)⟩

def plainPatterns : ClassifierEnv where
  unicode := asciiTables
  digits := asciiDigits
  search := fun pattern text => some (pattern = text)

def edgeSource : SourceFacts where
  name := "edge"
  groupIds := [3]

def cyclicGroups : List GroupFacts := [⟨3, some 5⟩, ⟨5, some 3⟩]

def tiedRules : List RuleFacts :=
  [⟨"r1", .GROUP, "5", .WAF, 0, true⟩, ⟨"r2", .GROUP, "3", .IPS, 0, true⟩, ⟨"r3", .NAME_REGEX, "edge", .FIREWALL, 0, true⟩]

theorem classification_by_precedence_tied :
    let result := classify plainPatterns edgeSource tiedRules [] cyclicGroups
    (result.sourceClass = .FIREWALL ∧ result.conflicts = [⟨"GROUP", "r1", .WAF⟩, ⟨"GROUP", "r2", .IPS⟩]) ∧
    classify plainPatterns edgeSource tiedRules.reverse [] cyclicGroups.reverse = result ∧
    IsLeast (GroupClosed cyclicGroups [3]) (ancestors [3] (groupsById cyclicGroups)) ∧
    ∃ above below, Decision edgeSource (typeFactOf edgeSource [])
        (consideredRules plainPatterns edgeSource tiedRules [] cyclicGroups) result.sourceClass above below ∧
      ∀ x, x ∈ result.conflicts ↔ Conflicting (consideredRules plainPatterns edgeSource tiedRules [] cyclicGroups)
        result.sourceClass above below x := by
  obtain ⟨hperm, hleast, hdecision⟩ := classification_by_precedence plainPatterns edgeSource
    (show (tiedRules.map RuleFacts.id).Nodup by decide) (show (([] : List TypeFacts).map TypeFacts.typeId).Nodup by decide)
    (show (cyclicGroups.map GroupFacts.qradarId).Nodup by decide)
  exact ⟨by decide +kernel, hperm _ _ _ _ (List.reverse_perm _) (.refl _) (List.reverse_perm _) (.refl _), hleast, hdecision⟩

/-! ## The EPS series -/

section Series

variable {φ : Type} [PyFloat φ]

structure SeriesExact (t : FleetTables φ) (window : FleetWindow) (now bucketSeconds : Int) : Prop where
  /-- A point has events exactly if there are sources and the COMPLETE rows of each tile the step, and then the sum. -/
  points : ∀ (groupBy : FleetSeriesGroup) (k : Nat) (series : EpsSeries φ) (scope : SeriesScope),
    (buildFleetEpsSeries t window groupBy now bucketSeconds).series[k]? = some series →
    (seriesScopes t groupBy)[k]? = some scope → ∀ (i : Nat) (p : EpsSeriesPoint φ), series.points[i]? = some p → ∀ n,
      p.events = some n ↔
        (scope.sources ≠ [] ∧ ∀ s ∈ scope.sources, Tiled t (stepGrid window now bucketSeconds) s i) ∧
          n = (scope.sources.map (fun s => sourceEvents t (stepGrid window now bucketSeconds) s i)).sum
  /-- The fleet has events exactly if there are classes and each of them has, and then their sum. -/
  fleet : ∀ series ∈ (buildFleetEpsSeries t window .none now bucketSeconds).series, ∀ (i : Nat) (p : EpsSeriesPoint φ),
    series.points[i]? = some p → ∀ n, p.events = some n ↔
      (buildFleetEpsSeries t window .sourceClass now bucketSeconds).series ≠ [] ∧ ∃ ns : List Int,
        (buildFleetEpsSeries t window .sourceClass now bucketSeconds).series.map (fun series =>
          (series.points[i]?).bind EpsSeriesPoint.events) = ns.map some ∧ n = ns.sum

def NoFullStep (t : FleetTables φ) (g : StepGrid) : Prop :=
  ∀ i < g.steps, ∀ c ∈ presentClasses t, ∃ s ∈ t.scopeSources, s.sourceClass = c ∧ sourceRows t g s i = []

/-- At any width the settings admit, the points are exact if and only if the window is whole buckets, or no class has a
step in which each of its sources has a row. -/
theorem fleet_series_exact_iff (t : FleetTables φ) (window : FleetWindow) {now bucketSeconds : Int}
    (hclosed : Closed now bucketSeconds) (hgrid : OnGrid t bucketSeconds) :
    SeriesExact t window now bucketSeconds ↔
      bucketSeconds ∣ window.windowSeconds ∨ NoFullStep t (stepGrid window now bucketSeconds) := by
  set g := stepGrid window now bucketSeconds with hg
  have hw : g.Whole window := stepGrid_whole hclosed
  have hgrid' : OnGrid t g.bucketSeconds := hgrid
  have hpoint := fun (scope : SeriesScope) (hscope : scope.Of t) i hi n =>
    @seriesPoint_events_iff φ _ t g window i scope hw hgrid' hi hscope n
  have hfleet : ∀ series ∈ (buildFleetEpsSeries t window .none now bucketSeconds).series, ∀ (i : Nat) (p : EpsSeriesPoint φ),
      series.points[i]? = some p → ∀ n, p.events = some n ↔
        (buildFleetEpsSeries t window .sourceClass now bucketSeconds).series ≠ [] ∧ ∃ ns : List Int,
          (buildFleetEpsSeries t window .sourceClass now bucketSeconds).series.map (fun series =>
            (series.points[i]?).bind EpsSeriesPoint.events) = ns.map some ∧ n = ns.sum := by
    intro series hseries i p hp n
    rw [List.mem_singleton.mp hseries] at hp
    obtain ⟨hi, rfl⟩ := getElem?_points.mp hp
    have hget : ∀ scope, ((epsSeries t g scope).points[i]?).bind EpsSeriesPoint.events =
        (seriesPoint t g scope i).events := by
      intro scope
      rw [getElem?_points.mpr ⟨hi, rfl⟩]
      rfl
    rw [fleet_events_iff hw hgrid' hi]
    simp only [buildFleetEpsSeries, ← hg, List.map_map, ne_eq, List.map_eq_nil_iff]
    exact and_congr_right (fun _ => exists_congr (fun ns => by
      rw [List.map_congr_left (fun scope _ => (hget scope).symm)]
      rfl))
  constructor
  · intro hexact
    refine or_iff_not_imp_left.mpr (fun hshift i hi c hc => ?_)
    obtain ⟨hone, hoff⟩ := hw.shifted hshift
    by_contra hnone
    -- every source of the class has its one row, so the point has events, but no step starts on the grid
    have hfull : ∀ s ∈ (scopeOfClass t c).sources, (sourceRows t g s i).length = g.perStepBuckets.toNat := by
      intro s hs
      obtain ⟨hmem, hclass⟩ := List.mem_filter.mp hs
      have hle := length_sourceRows_le (s := s) (i := i) hw hgrid'
      have hpos : 0 < (sourceRows t g s i).length :=
        List.length_pos_iff.mpr (fun hempty => hnone ⟨s, hmem, of_decide_eq_true hclass, hempty⟩)
      rw [hone] at hle ⊢
      exact le_antisymm hle hpos
    obtain ⟨s, hs, hsc⟩ := exists_of_presentClasses hc
    have hmem : s ∈ (scopeOfClass t c).sources := List.mem_filter.mpr ⟨hs, decide_eq_true hsc⟩
    have hevents := (hpoint _ (scopeOfClass_of t c) i hi _).mpr ⟨⟨List.ne_nil_of_mem hmem, hfull⟩, rfl⟩
    have hscope : scopeOfClass t c ∈ seriesScopes t .sourceClass := by
      rw [seriesScopes_sourceClass]
      exact List.mem_map_of_mem hc
    obtain ⟨k, hk⟩ := List.mem_iff_getElem?.mp hscope
    have hseries : (buildFleetEpsSeries t window .sourceClass now bucketSeconds).series[k]? =
        some (epsSeries t g (scopeOfClass t c)) := by
      rw [buildFleetEpsSeries, List.getElem?_map, hk]
      rfl
    have htiled := ((hexact.points .sourceClass k _ _ hseries hk i _ (getElem?_points.mpr ⟨hi, rfl⟩) _).mp hevents).1.2 s hmem
    exact hoff i (htiled.starts_onGrid hw hgrid')
  · intro hcondition
    refine ⟨fun groupBy k series scope hseries hk i p hp n => ?_, hfleet⟩
    have hscope := List.mem_of_getElem? hk
    rw [buildFleetEpsSeries, List.getElem?_map, hk] at hseries
    cases hseries
    obtain ⟨hi, rfl⟩ := getElem?_points.mp hp
    rw [hpoint scope (seriesScopes_of hscope) i hi, ← hg]
    rcases hcondition with halign | hnofull
    · simp only [tiled_iff hw hgrid' (hw.aligned halign i)]
    · by_cases halign : bucketSeconds ∣ window.windowSeconds
      · simp only [tiled_iff hw hgrid' (hw.aligned halign i)]
      · obtain ⟨hone, hoff⟩ := hw.shifted halign
        refine and_congr_left (fun _ => and_congr_right (fun hne => iff_of_false (fun hfull => ?_) (fun htiled => ?_)))
        · -- the class of one of the sources has a source without a row, which is a source of the scope too
          obtain ⟨s, hs⟩ := List.exists_mem_of_ne_nil _ hne
          have hsources := (seriesScopes_of hscope).sources
          rw [hsources] at hs
          obtain ⟨hs, hsc⟩ := List.mem_filter.mp hs
          obtain ⟨s', hs', hclass, hempty⟩ := hnofull i hi s.sourceClass (mem_presentClasses hs)
          have hmem : s' ∈ scope.sources := by
            rw [hsources]
            exact List.mem_filter.mpr ⟨hs', by rw [hclass]; exact hsc⟩
          have hlength := hfull s' hmem
          rw [hempty, hone] at hlength
          cases hlength
        · obtain ⟨s, hs⟩ := List.exists_mem_of_ne_nil _ hne
          exact hoff i ((htiled s hs).starts_onGrid hw hgrid')

def oneBucket (bucketStart bucketSeconds : Int) : FleetTables ℚ where
  sources := [{ id := "edge" }]
  metrics := [⟨"edge", seconds bucketStart, bucketSeconds, 7, 0, .complete, none⟩]
  baselines := []
  sources_nodup := List.nodup_singleton _
  metrics_nodup := List.nodup_singleton _

theorem oneBucket_onGrid {bucketStart bucketSeconds} (h : seconds bucketSeconds ∣ seconds bucketStart) :
    OnGrid (oneBucket bucketStart bucketSeconds) bucketSeconds := by
  intro m hm _
  rw [List.mem_singleton.mp hm]
  exact h

def besideSilent (bucketStart bucketSeconds : Int) : FleetTables ℚ where
  sources := [{ id := "edge" }, { id := "core" }]
  metrics := (oneBucket bucketStart bucketSeconds).metrics
  baselines := []
  sources_nodup := by decide
  metrics_nodup := List.nodup_singleton _

theorem fleet_series_exact_iff_fiveMinutes :
    (SeriesExact (oneBucket 122400 300) .hour (seconds 126000) 300 ∧
      (buildFleetEpsSeries (oneBucket 122400 300) .hour .none (seconds 126000) 300).series.map (fun series =>
        series.points.map (fun p => p.events)) = [some 7 :: List.replicate 11 none]) ∧
    SeriesExact (besideSilent 122640 420) .hour (seconds 126000) 420 := by
  refine ⟨⟨?_, by decide⟩, ?_⟩
  · exact (fleet_series_exact_iff (oneBucket 122400 300) .hour ⟨by decide, by decide⟩
      (oneBucket_onGrid (by decide))).mpr (Or.inl (by decide))
  · refine (fleet_series_exact_iff (besideSilent 122640 420) .hour ⟨by decide, by decide⟩ ?_).mpr (Or.inr ?_)
    · exact fun m hm hwidth => oneBucket_onGrid (by decide) m hm hwidth
    · unfold NoFullStep
      decide

/-- With buckets of seven minutes no step of an hour starts with a bucket. -/
theorem shifted_step_has_events : ¬ SeriesExact (oneBucket 122640 420) .hour (seconds 126000) 420 ∧
    (buildFleetEpsSeries (oneBucket 122640 420) .hour .none (seconds 126000) 420).series.map (fun series =>
      series.points.map (fun p => (p.stepStart, p.events))) =
      [[(seconds 122400, some 7), (seconds 122820, none), (seconds 123240, none), (seconds 123660, none),
        (seconds 124080, none), (seconds 124500, none), (seconds 124920, none), (seconds 125340, none)]] := by
  refine ⟨fun hexact => ?_, by decide⟩
  have hw : (stepGrid .hour (seconds 126000) 420).Whole .hour := stepGrid_whole ⟨by decide, by decide⟩
  have hpoint := hexact.points .none 0 _ _ rfl rfl 0 _ (getElem?_points.mpr ⟨by decide, rfl⟩) 7
  have htiled := (hpoint.mp (by decide)).1.2 { id := "edge" } (by decide)
  exact absurd (htiled.starts_onGrid hw (oneBucket_onGrid (by decide))) (by decide)

end Series

end QRadarDashboard.Fleet
