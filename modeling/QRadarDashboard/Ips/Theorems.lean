import QRadarDashboard.Ips.Lemmas.KeyedSearch
import QRadarDashboard.Ips.Lemmas.MeasuredZero

/-!
# Results about IPS collection
-/

namespace QRadarDashboard.Ips
open Lib Collectors Waf History

/-! ## The split driver -/

/-- For every provider, a dimension returns one outcome per (source, bucket) cell, in order, within the budget and `2 *
cells - 1` calls, and each says what the calls established. -/
theorem runDimension_honest (provider : IpsProvider) (dimension : IpsDimension) (group : IpsSourceGroup)
    (window : Int × Int) (bucketSeconds maxRows : Int) (budget : IpsSearchBudget) {start stop : Int}
    (hwindow : validateBucketedMetricWindow window.1 window.2 bucketSeconds = .ok (start, stop))
    (hne : group.sourceIds ≠ []) (hset : group.sourceIds.Nodup) :
    ∃ report n, runDimension provider dimension group window bucketSeconds maxRows budget = .ok report ∧
      0 < n ∧ stop = start + seconds (bucketSeconds * (n : Nat)) ∧
      report.outcomes.map (fun o => (o.qradarLogSourceId, o.bucketStart)) =
        (sortOn (fun source => source) group.sourceIds).flatMap (fun source =>
          (List.range n).map (fun i => (source, start + seconds (bucketSeconds * (i : Nat))))) ∧
      (∀ o ∈ report.outcomes, o.dimension = dimension) ∧
      (∀ i call, report.calls[i]? = some call → call.2 = provider i call.1) ∧
      report.calls.length ≤ min (budget.maxSearches - budget.used) (2 * group.sourceIds.length * n - 1) ∧
      report.budget.used = budget.used + report.calls.length ∧
      ∀ o ∈ report.outcomes, HonestCell bucketSeconds report.calls o := by
  obtain ⟨n, hn, hwidth, hstop, hcount⟩ := exists_count_of_validate hwindow
  have hsorted := sortOn_strict hset
  have hlength : (sortOn (fun source => source) group.sourceIds).length = group.sourceIds.length :=
    (sortOn_perm group.sourceIds).length_eq
  have hsources : sortOn (fun source => source) group.sourceIds ≠ [] := by
    apply List.ne_nil_of_length_pos
    rw [hlength]
    exact List.length_pos_of_ne_nil hne
  let a : DimensionArgs := ⟨provider, dimension, group.fields, start, bucketSeconds, maxRows⟩
  let r : IpsRegion := ⟨sortOn (fun source => source) group.sourceIds, 0, n, hsources, hn⟩
  have hcells := DimensionArgs.cells_sorted (a := a) hwidth (r := r) hsorted
  have hnew : ∀ k ∈ a.cells r, k ∉ Dict.keys ([] : Dict (Int ×ₗ Int) IpsCellOutcome) := by simp [Dict.keys]
  have hcovered : a.driver.Covered r ⟨budget, [], []⟩ (a.driver.search r 0 ⟨budget, [], []⟩) :=
    a.driver.covered_search r 0 (hcells.imp (fun h => ne_of_lt h)) hnew
  obtain ⟨calls, written, hs, hlen, hdecided⟩ := hcovered
  have hwritten : (a.driver.search r 0 ⟨budget, [], []⟩).cells = written := hs.cells_eq
  have hmade : (a.driver.search r 0 ⟨budget, [], []⟩).calls = calls := hs.calls_eq
  have hmem : ∀ o ∈ (sortOn (fun item => item.1) written).map (fun item => item.2),
      ∃ k, a.driver.Decided calls k o := by
    intro o ho
    obtain ⟨item, hitem, rfl⟩ := List.mem_map.mp ho
    exact ⟨item.1, hdecided item (mem_sortOn.mp hitem)⟩
  obtain ⟨hused, _, hleft⟩ := IpsSearchBudget.used_of_takes hs.takes
  refine ⟨⟨(sortOn (fun item => item.1) written).map (fun item => item.2),
    (a.driver.search r 0 ⟨budget, [], []⟩).budget, calls.map (fun call => (a.request call.1, call.2))⟩, n,
    ?_, hn, hstop, ?_, ?_, ?_, ?_, ?_, ?_⟩
  · rw [← hwritten, ← hmade]
    simp only [runDimension, hwindow, hsources, hcount, hn, bind, Except.bind, dite_false, dite_true, pure,
      Except.pure]
    rfl
  · -- Sorted by key, the outcomes stand in the order of the window's cells.
    have hkeys : Dict.keys (sortOn (fun item => item.1) written) = a.cells r :=
      keys_sortOn hs.keys_perm (hcells.imp (fun h => le_of_lt h))
    have hpairs : ∀ item ∈ sortOn (fun item => item.1) written,
        (item.2.qradarLogSourceId, item.2.bucketStart) = ofLex item.1 := fun item hitem =>
      (DimensionArgs.key_of_decided (hdecided item (mem_sortOn.mp hitem))).1
    calc ((sortOn (fun item => item.1) written).map (fun item => item.2)).map
            (fun o => (o.qradarLogSourceId, o.bucketStart))
        = (sortOn (fun item => item.1) written).map (fun item => ofLex item.1) := by
          rw [List.map_map]
          exact List.map_congr_left hpairs
      _ = (a.cells r).map ofLex := by
          rw [← hkeys]
          simp [Dict.keys]
      _ = _ := by
          simp only [DimensionArgs.cells, List.map_flatMap, List.map_map, r, ← List.range_eq_range']
          rfl
  · intro o ho
    obtain ⟨k, hk⟩ := hmem o ho
    exact (DimensionArgs.key_of_decided hk).2
  · intro i call hcall
    rw [List.getElem?_map, Option.map_eq_some_iff] at hcall
    obtain ⟨made, hmade, rfl⟩ := hcall
    have hasked := hs.asked i made hmade
    rw [List.length_nil, Nat.zero_add] at hasked
    exact hasked
  · have hbound : calls.length ≤ 2 * group.sourceIds.length * n - 1 := by
      have hcellsLen : (a.cells r).length = group.sourceIds.length * n := by
        rw [DimensionArgs.length_cells, ← hlength]
      rw [Nat.mul_assoc, ← hcellsLen]
      exact hlen
    rw [List.length_map]
    exact Nat.le_min.mpr ⟨hleft, hbound⟩
  · simpa using hused
  · intro o ho
    obtain ⟨k, hk⟩ := hmem o ho
    exact DimensionArgs.honest_of_decided hwidth hk

theorem runDimension_honest_twoSources :
    ∃ report, runDimension (fun k _ => .result ⟨[], k == 0⟩) .sourceIp ⟨[], [9, 4]⟩ (seconds 0, seconds 600) 300
        100 ⟨5, 1⟩ = .ok report ∧
      report.outcomes.map (fun o => (o.qradarLogSourceId, o.bucketStart)) =
        [(4, seconds 0), (4, seconds 300), (9, seconds 0), (9, seconds 300)] ∧
      report.calls.length ≤ 4 ∧ ∀ o ∈ report.outcomes, HonestCell 300 report.calls o := by
  have hwindow : validateBucketedMetricWindow (seconds 0) (seconds 600) 300 = .ok (seconds 0, seconds 600) := by
    decide
  obtain ⟨report, n, hrun, _, hstop, hcells, _, _, hlen, _, hhonest⟩ :=
    runDimension_honest (fun k _ => .result ⟨[], k == 0⟩) .sourceIp ⟨[], [9, 4]⟩ (seconds 0, seconds 600) 300
      100 ⟨5, 1⟩ hwindow (by decide) (by decide)
  have hn : n = 2 := by
    simp only [seconds] at hstop
    omega
  subst hn
  exact ⟨report, hrun, hcells.trans (by decide), le_trans hlen (by decide), hhonest⟩

/-! ## Measured zeros -/

/-- An entity stored at the end and read as an exact zero in a folded bucket had no event in it, when no entity inactive
before the bucket had traffic below the admission threshold in it. -/
theorem measured_zero_of_quiet {φ : Type} [PyFloat φ] {s₀ s : List HistoryIpsEntity}
    {tr : IpsTrace φ} (hrun : Run (ipsStep φ) ipsNext s₀ tr s) (horder : InOrder tr) :
    ∀ e ∈ tr, ∀ f ∈ e.output.folded, Quiet e.input.1 f → ∀ entity ∈ s, ∀ minCoverage : φ,
      HonestZero e.input.1 f entity minCoverage := by
  intro e he f hf hquiet entity hentity minCoverage hevents hexact outcome ho
  obtain ⟨hfold, _, hcovers, hstored⟩ := ipsRun_covers hrun horder e he f hf
  have hcovered : isEntityDimension entity.dimension = true → entity.firstSeenAt ≤ f.bucket.bucketStart →
      CoveredAt e.input.1.text f entity.key := fun hdimension hfirst =>
    hcovers entity.key entity hdimension (hstored entity hentity) hfirst hquiet
  exact events_eq_zero (no_events_of_zero hfold hcovered hevents hexact ho)

def plainText : IpsText := ⟨⟨fun c => c == ' ', fun _ => true⟩, fun name => name, some⟩

def fiveEvents : IpsHistoryArgs where
  text := plainText
  mapping := ⟨false, [], []⟩
  profileVersion := 1
  bucketSeconds := 300
  collectedAt := 0
  maxEntitiesPerBucket := 10
  policy := ⟨10, 100, 5⟩
  activeDays := 1
  maintenance := fun _ => false

def portBucket (start : Int) (events : Nat) (port : Int := 443) : HistoryIpsBucket where
  bucketStart := start
  outcomes := [
    (.totals, ⟨.totals, 7, start, .complete, [⟨7, start, max events 1, 1, none, none, none, none, none, none, none,
      none, none⟩], none, fun h => by cases h⟩),
    (.destinationPort, ⟨.destinationPort, 7, start, .complete,
      if events = 0 then [] else [⟨7, start, events, 1, some port, some 6, none, none, none, none, none, none, none⟩],
      none, fun h => by cases h⟩)]

/-- A port that was retired and, after a bucket of three events, admitted again: that bucket is read as an exact zero.
-/
theorem returning_entity_reads_zero :
    ∃ tr s, Run (ipsStep ℚ) ipsNext [] tr s ∧ InOrder tr ∧
      ∃ e ∈ tr, ∃ f ∈ e.output.folded, ∃ entity ∈ s, ¬ HonestZero e.input.1 f entity 1 := by
  obtain ⟨tr, s, hrun, hf⟩ := exists_run_of_replay (ipsStep ℚ) ipsNext [] [
      (fiveEvents, [portBucket (seconds 0) 10]),
      (fiveEvents, [portBucket (seconds 172800) 0]),
      (fiveEvents, [portBucket (seconds 173100) 3, portBucket (seconds 173400) 10])]
    (fun r : IpsTrace ℚ × List HistoryIpsEntity => decide (InOrder r.1) &&
      r.1.any (fun e => e.output.folded.any (fun f => r.2.any (fun entity =>
        decide ((entityCount (.of entity) (.of f.row) (metricEvents f.metrics entity.key) 1) =
          ⟨some 0, some .exact, none⟩) &&
        (f.bucket.outcomes.get? entity.dimension).any (fun outcome => outcome.rows.any (fun row =>
          decide (rowEntityKey e.input.1.text outcome.dimension row = some entity.valueKey) &&
            decide (0 < row.events)))))))
    true (by with_unfolding_all decide)
  simp only [Bool.and_eq_true, decide_eq_true_eq, List.any_eq_true, Option.any_eq_true] at hf
  obtain ⟨horder, e, he, f, hf, entity, hentity, hzero, outcome, ho, row, hrow, hkey, hpos⟩ := hf
  refine ⟨tr, s, hrun, horder, e, he, f, hf, entity, hentity, fun honest => ?_⟩
  have hnone := honest (by rw [hzero]) (by rw [hzero]) outcome ho row hrow hkey
  omega

theorem measured_zero_of_quiet_port :
    ∃ tr s, Run (ipsStep ℚ) ipsNext [] tr s ∧ InOrder tr ∧
      (∀ e ∈ tr, ∀ f ∈ e.output.folded, ∀ entity ∈ s, ∀ minCoverage, HonestZero e.input.1 f entity minCoverage) ∧
      ∃ e ∈ tr, ∃ f ∈ e.output.folded, ∃ entity ∈ s,
        entityCount (.of entity) (.of f.row) (metricEvents f.metrics entity.key) 1 = ⟨some 0, some .exact, none⟩ := by
  obtain ⟨tr, s, hrun, hf⟩ := exists_run_of_replay (ipsStep ℚ) ipsNext [] [
      (fiveEvents, [portBucket (seconds 0) 10, portBucket (seconds 300) 3]), (fiveEvents, [portBucket (seconds 600) 10 80])]
    (fun r : IpsTrace ℚ × List HistoryIpsEntity => decide (InOrder r.1) &&
      r.1.all (fun e => e.output.folded.all (fun f => f.before.all (fun item => item.2.active))) &&
      r.1.any (fun e => e.output.folded.any (fun f => r.2.any (fun entity => decide
        (entityCount (.of entity) (.of f.row) (metricEvents f.metrics entity.key) 1 = ⟨some 0, some .exact, none⟩)))))
    true (by with_unfolding_all decide)
  simp only [Bool.and_eq_true, decide_eq_true_eq, List.all_eq_true, List.any_eq_true] at hf
  obtain ⟨⟨horder, hactive⟩, hzero⟩ := hf
  refine ⟨tr, s, hrun, horder, ?_, hzero⟩
  intro e he f hf entity hentity minCoverage
  refine measured_zero_of_quiet hrun horder e he f hf ?_ entity hentity minCoverage
  intro key old outcome hget hidle
  have hon := hactive e he f hf _ (Dict.mem_of_get? hget)
  rw [hidle] at hon
  cases hon

end QRadarDashboard.Ips
