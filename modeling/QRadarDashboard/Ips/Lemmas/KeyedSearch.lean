import QRadarDashboard.Collectors.Lemmas.BucketedMetrics
import QRadarDashboard.Ips.KeyedSearch

/-!
# What a keyed IPS search leaves
-/

namespace QRadarDashboard.Ips
open Lib Collectors

theorem IpsSearchBudget.used_of_takes {n b b'} (h : SplitDriver.Takes IpsSearchBudget.tryTake n b b') :
    b'.used = b.used + n ∧ b'.maxSearches = b.maxSearches ∧ n ≤ b.maxSearches - b.used := by
  induction h with
  | zero b => exact ⟨rfl, rfl, Nat.zero_le _⟩
  | @succ n b b₁ b₂ ht _ ih =>
    unfold IpsSearchBudget.tryTake at ht
    split at ht
    · cases ht
    · cases ht
      simp only at ih
      exact ⟨by omega, ih.2.1, by omega⟩

structure HonestCell (bucketSeconds : Int) (calls : List (IpsRequest × IpsAnswer)) (o : IpsCellOutcome) :
    Prop where
  complete : o.state = .complete → ∃ call ∈ calls, ∃ result, call.2 = .result result ∧
    result.truncated = false ∧ DimensionArgs.contained call.1 result = true ∧
    o.qradarLogSourceId ∈ call.1.qradarLogSourceIds ∧
    call.1.windowStart ≤ o.bucketStart ∧ o.bucketStart < call.1.windowEnd ∧
    o.rows = result.rows.filter (fun row =>
      row.qradarLogSourceId = o.qradarLogSourceId ∧ row.bucketStart = o.bucketStart)
  lowerBound : o.state = .lowerBound → ∃ call ∈ calls, ∃ result, call.2 = .result result ∧
    result.truncated = true ∧ DimensionArgs.contained call.1 result = true ∧
    call.1.qradarLogSourceIds = [o.qradarLogSourceId] ∧
    call.1.windowStart = o.bucketStart ∧ call.1.windowEnd = o.bucketStart + seconds bucketSeconds
  unmeasured : o.state = .failed ∨ o.state = .rejected ∨ o.state = .notCollected → o.rows = []

theorem IpsCellOutcome.rows_eq_nil {o : IpsCellOutcome}
    (h : o.state = .failed ∨ o.state = .rejected ∨ o.state = .notCollected) : o.rows = [] := by
  apply o.rows_ok
  rcases h with h | h | h
  · rw [h]
    rfl
  · rw [h]
    rfl
  · rw [h]
    rfl

namespace DimensionArgs

variable {a : DimensionArgs}

theorem mem_cells {r key} (h : key ∈ a.cells r) :
    (ofLex key).1 ∈ r.sources ∧ ∃ i, r.first ≤ i ∧ i < r.first + r.count ∧ (ofLex key).2 = a.bucketAt i := by
  obtain ⟨source, hsource, hmem⟩ := List.mem_flatMap.mp h
  obtain ⟨i, hi, rfl⟩ := List.mem_map.mp hmem
  obtain ⟨hfirst, hlast⟩ := List.mem_range'_1.mp hi
  exact ⟨hsource, i, hfirst, hlast, rfl⟩

theorem split_eq_none {r} (h : split r = none) : r.count = 1 ∧ ∃ source, r.sources = [source] := by
  unfold split at h
  split at h
  · cases h
  · split at h
    · cases h
    · rename_i hcount hsources
      have hpos := List.length_pos_of_ne_nil r.sources_ok
      have hcount_ok := r.count_ok
      exact ⟨by omega, List.length_eq_one_iff.mp (by omega)⟩

theorem key_of_decided {calls key o} (h : a.driver.Decided calls key o) :
    (o.qradarLogSourceId, o.bucketStart) = ofLex key ∧ o.dimension = a.dimension := by
  cases h <;> exact ⟨rfl, rfl⟩

theorem honest_of_decided (hwidth : 0 < a.bucketSeconds) {calls : List (IpsRegion × IpsAnswer)}
    {key o} (h : a.driver.Decided calls key o) :
    HonestCell a.bucketSeconds (calls.map (fun call => (a.request call.1, call.2))) o := by
  refine ⟨?_, ?_, IpsCellOutcome.rows_eq_nil⟩
  · intro hstate
    cases h with
    | skipped _ => cases hstate
    | @answered r depth answer hk hcall _ =>
      obtain ⟨hsource, i, hfirst, hlast, hbucket⟩ := mem_cells hk
      have hstate : (verdict (a.request r) (some answer)).1 = .complete := hstate
      cases answer with
      | rejected => cases hstate
      | failed => cases hstate
      | result result =>
        simp only [verdict] at hstate
        split at hstate
        · cases hstate
        · rename_i hcontained
          split at hstate
          · cases hstate
          · rename_i hwhole
            have hcontained := not_not.mp hcontained
            refine ⟨_, List.mem_map.mpr ⟨_, hcall, rfl⟩, result, rfl, by simpa using hwhole, hcontained,
              hsource, ?_, ?_, ?_⟩
            · exact le_of_le_of_eq (bucketStartAt_le hwidth hfirst) hbucket.symm
            · exact lt_of_eq_of_lt hbucket (bucketStartAt_lt hwidth hlast)
            · have hrows : (verdict (a.request r) (some (.result result))).2 = result.rows := by
                simp [verdict, hcontained, hwhole]
              exact congrArg (List.filter _) hrows
  · intro hstate
    cases h with
    | skipped _ => cases hstate
    | @answered r depth answer hk hcall hcut =>
      obtain ⟨hsource, i, hfirst, hlast, hbucket⟩ := mem_cells hk
      have hstate : (verdict (a.request r) (some answer)).1 = .lowerBound := hstate
      cases answer with
      | rejected => cases hstate
      | failed => cases hstate
      | result result =>
        simp only [verdict] at hstate
        split at hstate
        · cases hstate
        · rename_i hcontained
          split at hstate
          · rename_i htruncated
            have hcontained := not_not.mp hcontained
            obtain ⟨hcount, source, hsources⟩ := split_eq_none
              (hcut (by simp [driver, cut, hcontained, htruncated]))
            have hi : i = r.first := by omega
            subst hi
            rw [hsources, List.mem_singleton] at hsource
            refine ⟨_, List.mem_map.mpr ⟨_, hcall, rfl⟩, result, rfl, htruncated, hcontained, ?_,
              hbucket.symm, ?_⟩
            · exact hsources.trans (by rw [← hsource]; rfl)
            · have hend : a.bucketAt (r.first + r.count) = a.bucketAt r.first + seconds a.bucketSeconds := by
                rw [hcount]
                exact bucketStartAt_succ _
              exact hend.trans (by rw [← hbucket]; rfl)
          · cases hstate

theorem cells_sorted (hwidth : 0 < a.bucketSeconds) {r}
    (hsources : r.sources.Pairwise (fun s t => s < t)) : (a.cells r).Pairwise (fun k k' => k < k') := by
  unfold cells
  rw [List.pairwise_flatMap]
  constructor
  · intro source _
    rw [List.pairwise_map]
    have hrange : (List.range' r.first r.count).Pairwise (fun i j => i < j) := List.pairwise_lt_range'
    refine hrange.imp ?_
    intro i j hij
    exact Prod.Lex.toLex_lt_toLex.mpr (Or.inr ⟨rfl, bucketStartAt_lt hwidth hij⟩)
  · refine hsources.imp ?_
    intro s t hst k hk k' hk'
    obtain ⟨i, _, rfl⟩ := List.mem_map.mp hk
    obtain ⟨j, _, rfl⟩ := List.mem_map.mp hk'
    exact Prod.Lex.toLex_lt_toLex.mpr (Or.inl hst)

theorem length_cells (r : IpsRegion) : (a.cells r).length = r.sources.length * r.count := by
  simp [cells, List.length_flatMap, List.map_const']

end DimensionArgs

theorem sortOn_strict {ids : List Int} (h : ids.Nodup) :
    (sortOn (fun source => source) ids).Pairwise (fun s t => s < t) := by
  have hsorted : (sortOn (fun source => source) ids).Pairwise (fun s t => s ≤ t) :=
    List.pairwise_insertionSort (fun s t : Int => s ≤ t) ids
  have hnodup : (sortOn (fun source => source) ids).Nodup := (sortOn_perm ids).nodup_iff.mpr h
  exact (hsorted.and hnodup).imp (fun hle => lt_of_le_of_ne hle.1 hle.2)

end QRadarDashboard.Ips
