import QRadarDashboard.Catchall.KeyedSearch
import QRadarDashboard.Collectors.Lemmas.BucketedMetrics

/-!
# The first bucket of a catch-all search
-/

namespace QRadarDashboard.Catchall
open Lib Collectors Ips

namespace CatchallArgs

variable {a : CatchallArgs}

def Cut (a : CatchallArgs) (first count k : Nat) : Prop :=
  ∃ h : 1 < count, cut (a.request ⟨first, count, by omega⟩)
    (a.provider (a.before + k) (a.request ⟨first, count, by omega⟩)) = true

def Reaches (a : CatchallArgs) (first count calls : Nat) (budget : IpsSearchBudget) : Prop :=
  ∃ k, budget.used + k < budget.maxSearches ∧ ¬ a.Cut first (count / 2 ^ k) (calls + k)

theorem reaches_iff {first count calls budget} : a.Reaches first count calls budget ↔
    budget.used < budget.maxSearches ∧
      (a.Cut first count calls → a.Reaches first (count / 2) (calls + 1) { budget with used := budget.used + 1 }) := by
  constructor
  · rintro ⟨k, hcap, hcut⟩
    refine ⟨by omega, fun hfirst => ?_⟩
    cases k with
    | zero => exact absurd (by simpa using hfirst) hcut
    | succ k =>
      refine ⟨k, by simp only; omega, ?_⟩
      rwa [Nat.div_div_eq_div_mul, ← Nat.pow_succ', Nat.add_assoc, Nat.add_comm 1 k]
  · rintro ⟨hcap, hnext⟩
    by_cases hcut : a.Cut first count calls
    · obtain ⟨k, hcap', hcut'⟩ := hnext hcut
      refine ⟨k + 1, by simp only at hcap'; omega, ?_⟩
      rwa [Nat.div_div_eq_div_mul, ← Nat.pow_succ', Nat.add_assoc, Nat.add_comm 1 k] at hcut'
    · exact ⟨0, hcap, by simpa using hcut⟩

theorem first_mem_cells (r : CatchallRegion) : a.bucketAt r.first ∈ a.cells r := by
  obtain ⟨rest, h⟩ := a.cells_cons r
  rw [h]
  exact List.mem_cons_self

theorem cells_sorted (hwidth : 0 < a.bucketSeconds) (r : CatchallRegion) :
    (a.cells r).Pairwise (fun k k' => k < k') := by
  unfold cells
  rw [List.pairwise_map]
  have hrange : (List.range' r.first r.count).Pairwise (fun i j => i < j) := List.pairwise_lt_range'
  exact hrange.imp (fun hlt => bucketStartAt_lt hwidth hlt)

theorem verdict_collected (request : CatchallRequest) (answer : Option CatchallAnswer) :
    (verdict request answer).1 ≠ .notCollected ↔ answer.isSome = true := by
  cases answer with
  | none => simp [verdict]
  | some answer =>
    cases answer with
    | rejected | failed => simp [verdict]
    | result result =>
      simp only [verdict, Option.isSome_some, iff_true]
      split
      · simp
      · split <;> simp

theorem driver_reaches (r : CatchallRegion) (calls : Nat) (budget : IpsSearchBudget) :
    a.driver.reaches r calls budget = true ↔ a.Reaches r.first r.count calls budget := by
  induction hn : r.count using Nat.strongRecOn generalizing r calls budget with
  | ind n ih =>
    subst hn
    rw [SplitDriver.reaches, reaches_iff]
    by_cases htake : budget.maxSearches ≤ budget.used
    · have hnone : a.driver.take budget = none := by simp [driver, IpsSearchBudget.tryTake, htake]
      simp only [hnone, Bool.false_eq_true, false_iff]
      rintro ⟨hcap, _⟩
      omega
    · have hsome : a.driver.take budget = some { budget with used := budget.used + 1 } := by
        simp [driver, IpsSearchBudget.tryTake, htake]
      have hcap : budget.used < budget.maxSearches := by omega
      simp only [hsome, hcap, true_and]
      by_cases hcut : a.driver.cut r (a.driver.ask calls r) = true
      · rw [if_pos hcut]
        by_cases hmany : 1 < r.count
        · have hfirst : a.Cut r.first r.count calls := ⟨hmany, hcut⟩
          split
          · rename_i x y hsplit
            have hx : x = ⟨r.first, r.count / 2, by omega⟩ := by
              simp only [driver, split, dif_pos hmany, Option.some.injEq, Prod.mk.injEq] at hsplit
              exact hsplit.1.symm
            rw [ih _ (by omega : r.count / 2 < r.count) x _ _ (by rw [hx]), hx]
            simp [hfirst]
          · rename_i hsplit
            simp [driver, split, hmany] at hsplit
        · split
          · rename_i x y hsplit
            simp [driver, split, hmany] at hsplit
          · simp only [true_iff]
            rintro ⟨hmany', _⟩
            exact absurd hmany' hmany
      · rw [if_neg hcut]
        simp only [true_iff]
        rintro ⟨_, hcut'⟩
        exact absurd hcut' hcut

end CatchallArgs

theorem runCatchallSearch_first {provider before types window bucketSeconds maxRows budget} (hwidth : 0 < bucketSeconds)
    {report} (h : runCatchallSearch provider before types window bucketSeconds maxRows budget = .ok report) :
    ∃ count : Nat, window.2 = window.1 + seconds (bucketSeconds * count) ∧
      ∃ first rest, report.outcomes = first :: rest ∧ first.bucketStart = window.1 ∧
        (first.state ≠ .notCollected ↔
          (CatchallArgs.mk provider before (sortOn (fun t => t) types.dedup) window.1 bucketSeconds maxRows
            hwidth).Reaches 0 count 0 budget) := by
  rw [runCatchallSearch] at h
  obtain ⟨⟨start, stop⟩, hspan, h⟩ := bind_ok h
  obtain ⟨count, hpos, _, hstop, hcount⟩ := exists_count_of_validate hspan
  have hwindow : start = window.1 ∧ stop = window.2 := by
    unfold validateBucketedMetricWindow at hspan
    repeat' split at hspan
    all_goals simp_all
  obtain ⟨rfl, rfl⟩ := hwindow
  refine ⟨count, hstop, ?_⟩
  split at h
  · cases h
  · simp only [hcount, hwidth, hpos, and_self, dif_pos] at h
    cases h
    generalize ha : CatchallArgs.mk provider before (sortOn (fun t => t) types.dedup) window.1 bucketSeconds maxRows
      hwidth = a
    have hstart : a.bucketAt 0 = window.1 := by
      rw [← ha]
      simp [CatchallArgs.bucketAt, bucketStartAt, seconds]
    have hsorted : (a.cells ⟨0, count, hpos⟩).Pairwise (fun k k' => k < k') := CatchallArgs.cells_sorted (ha ▸ hwidth) _
    have hnodup : (a.cells ⟨0, count, hpos⟩).Nodup := hsorted.imp (fun hlt => ne_of_lt hlt)
    obtain ⟨outcome, hget, r, depth, answer, _, houtcome, hanswer⟩ := SplitDriver.get?_search_first (d := a.driver)
      (r := ⟨0, count, hpos⟩) (fun r => a.bucketAt r.first) CatchallArgs.first_mem_cells
      (fun hsplit => by rw [(a.split_cells hsplit).2]) 0 ⟨budget, [], []⟩ hnodup (by simp [Dict.keys])
    obtain ⟨calls, written, hsearched, _⟩ := SplitDriver.covered_search a.driver ⟨0, count, hpos⟩ 0
      hnodup (show ∀ k ∈ _, k ∉ (SplitDriver.State.mk budget [] []).cells.keys by simp [Dict.keys])
    generalize a.driver.search ⟨0, count, hpos⟩ 0 ⟨budget, [], []⟩ = left at hget hsearched
    have hcells : left.cells = written := by rw [hsearched.cells_eq, List.nil_append]
    have hperm : left.cells.keys.Perm (a.cells ⟨0, count, hpos⟩) := hcells ▸ hsearched.keys_perm
    have hkeys := keys_sortOn hperm (hsorted.imp (fun hlt => le_of_lt hlt))
    obtain ⟨others, hothers⟩ := a.cells_cons ⟨0, count, hpos⟩
    rw [hothers] at hkeys
    cases hitems : sortOn (fun item => item.1) left.cells with
    | nil =>
      rw [hitems] at hkeys
      cases hkeys
    | cons item items =>
      rw [hitems] at hkeys
      have hitem : item.1 = a.bucketAt 0 := (List.cons.inj hkeys).1
      have hmem : item ∈ left.cells := mem_sortOn.mp (by rw [hitems]; exact List.mem_cons_self)
      have hvalue := (Dict.get?_eq_some_iff (hperm.nodup_iff.mpr hnodup)).mpr (show (item.1, item.2) ∈ left.cells from hmem)
      rw [hitem] at hvalue
      cases hvalue.symm.trans hget
      refine ⟨item.2, items.map (fun item => item.2), rfl, by rw [houtcome]; exact hstart, ?_⟩
      rw [houtcome, ← CatchallArgs.driver_reaches ⟨0, count, hpos⟩]
      have hstate : (a.driver.cell r depth answer (a.bucketAt 0)).state ≠ .notCollected ↔ answer.isSome = true :=
        CatchallArgs.verdict_collected _ answer
      rw [hstate, hanswer]
      rfl

end QRadarDashboard.Catchall
