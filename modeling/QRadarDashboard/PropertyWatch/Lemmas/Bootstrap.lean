import QRadarDashboard.History.Lemmas.PlannedChunks
import QRadarDashboard.PropertyWatch.Bootstrap

/-!
# The plan of a history step
-/

namespace QRadarDashboard.PropertyWatch
open Lib History

variable {φ : Type} [PyFloat φ] {st : PlannerSettings φ}

theorem pwPlannerSettings_span {s cadence} (h : pwPlannerSettings s cadence = .ok st) : 0 < st.maxSpanBuckets := by
  apply maxSpanBuckets_pos
  unfold pwPlannerSettings at h
  split_ifs at h with hbucket hmargin hrows hcounts hshare hhours
  cases h
  simp [maxSpanHours]

theorem exists_pwPlannerSettings {s : PwSettings φ} {cadence}
    (hbucket : 1 ≤ s.collectionIntervalSeconds ∧ 86400 % s.collectionIntervalSeconds = 0)
    (hmargin : 1 ≤ s.pwBootstrapFloorMarginHours ∧ s.pwBootstrapFloorMarginHours ≤ 168)
    (hrows : 1 ≤ s.pwMaxRowsPerSearch ∧ PyFloat.lt (PyFloat.ofInt 0) (rowTargetShare : φ) = true ∧
      PyFloat.le (rowTargetShare : φ) (PyFloat.ofInt 1) = true)
    (hcounts : 1 ≤ s.pwBootstrapMaxFailures ∧ (1 : Int) ≤ s.pwBootstrapSearchesPerTick)
    (hshare : PyFloat.le (PyFloat.ofInt 0) s.pwBootstrapMaxLowerBoundShare = true ∧
      PyFloat.le s.pwBootstrapMaxLowerBoundShare (PyFloat.ofInt 1) = true)
    (hhours : 1 ≤ s.pwBootstrapMaxHours ∧ 1 ≤ cadence) : ∃ st, pwPlannerSettings s cadence = .ok st := by
  unfold pwPlannerSettings
  rw [dif_pos hbucket, dif_pos hmargin, dif_pos hrows, dif_pos hcounts, dif_pos hshare, dif_pos hhours]
  exact ⟨_, rfl⟩

/-! ## Limits on a span -/

theorem trim_chunked {width start n limit chunks} (h : Chunked st width start chunks n)
    (hstart : st.bucket ∣ start) (hpos : 0 < limit) (hle : limit ≤ n) :
    ∃ chunks', trim st limit chunks = .ok chunks' ∧ Chunked st width start chunks' limit ∧
      chunks'.length ≤ chunks.length ∧ CutFrom st chunks' chunks := by
  induction h generalizing limit with
  | nil => omega
  | @cons start k m chunks hk hwidth rest ih =>
    have hbuckets := buckets_of_count hstart hk.le
    rw [trim, if_neg (not_le.mpr hpos), hbuckets]
    simp only [bind, Except.bind]
    by_cases hfits : k ≤ limit
    · rcases hfits.eq_or_lt with rfl | hlt
      · have hnil : ∀ chunks, trim st (k - k) chunks = .ok [] := by
          intro chunks
          cases chunks <;> simp [trim]
        refine ⟨[⟨start, start + k * st.bucket⟩], ?_, ?_, by simp, .cons .nil⟩
        · rw [if_pos (Int.le_refl k), hnil]
          rfl
        · simpa using Chunked.cons hk hwidth (Chunked.nil)
      · obtain ⟨chunks', htrim, hchunked, hlength, hcut⟩ := @ih (limit - k) (Chunked.dvd_next hstart) (by omega) (by omega)
        refine ⟨⟨start, start + k * st.bucket⟩ :: chunks', ?_, ?_, Nat.succ_le_succ hlength, .cons hcut⟩
        · rw [if_pos hfits, htrim]
          rfl
        · simpa using Chunked.cons hk hwidth hchunked
    · have hshorter := Int.mul_le_mul_of_nonneg_right (not_le.mp hfits).le st.bucket_pos.le
      refine ⟨[⟨start, start + limit * st.bucket⟩], ?_, ?_, by simp, .cut hpos (by omega)⟩
      · rw [if_neg hfits]
        rfl
      · simpa using Chunked.cons hpos (by omega : limit ≤ width) (Chunked.nil)

theorem pinLimit_bounds (st : PlannerSettings φ) (rows : Int) {limit} (hlimit : 0 < limit) :
    0 < (pinLimit st rows limit).1 ∧ (pinLimit st rows limit).1 ≤ limit := by
  unfold pinLimit
  split
  · dsimp only
    split
    · exact ⟨lt_of_lt_of_le one_pos (le_max_left _ _), le_of_lt ‹_›⟩
    · exact ⟨hlimit, Int.le_refl _⟩
  · exact ⟨hlimit, Int.le_refl _⟩

theorem pinLimit_rows (st : PlannerSettings φ) {rows limit n} (hrows : 0 < rows) (hn : 0 < n)
    (hle : n ≤ (pinLimit st rows limit).1) : rows * n ≤ st.rowTargetRows ∨ n = 1 := by
  have hcap : n ≤ max 1 (st.rowTargetRows / rows) := by
    unfold pinLimit at hle
    rw [if_pos hrows] at hle
    dsimp only at hle
    split at hle <;> simp only at hle <;> omega
  rcases le_max_iff.mp hcap with hone | hfits
  · exact .inr (by omega)
  · left
    rw [mul_comm]
    exact (Int.le_ediv_iff_mul_le hrows).mp hfits

/-- A scan that is reused covers the start of the step and ends on the grid. -/
structure Reuses (st : PlannerSettings φ) (start : Int) (scan : ScanSpanResult) : Prop where
  covers : scan.span.start ≤ start ∧ start < scan.span.stop
  aligned : st.bucket ∣ scan.span.stop

theorem scanLimit_bounds {start limit reused} (hstart : st.bucket ∣ start)
    (hreused : ∀ scan ∈ reused, Reuses st start scan) (hlimit : 0 < limit) :
    0 < (scanLimit st start reused limit).1 ∧ (scanLimit st start reused limit).1 ≤ limit ∧
      ∀ scan ∈ reused, start + (scanLimit st start reused limit).1 * st.bucket ≤ scan.span.stop := by
  unfold scanLimit
  cases reused with
  | none => exact ⟨hlimit, Int.le_refl _, fun scan hscan => by cases hscan⟩
  | some scan =>
    obtain ⟨hcovers, haligned⟩ := hreused scan rfl
    have hmul : (scan.span.stop - start) / st.bucket * st.bucket = scan.span.stop - start :=
      Int.ediv_mul_cancel (dvd_sub haligned hstart)
    have hbucket := st.bucket_pos
    dsimp only
    generalize (scan.span.stop - start) / st.bucket = room at hmul ⊢
    have hroom : 0 < room := by
      by_contra hneg
      have := Int.mul_le_mul_of_nonneg_right (show room ≤ 0 by omega) hbucket.le
      omega
    split
    · refine ⟨hroom, le_of_lt ‹_›, fun scan' hscan' => ?_⟩
      cases hscan'
      simp only
      omega
    · refine ⟨hlimit, Int.le_refl _, fun scan' hscan' => ?_⟩
      cases hscan'
      have := Int.mul_le_mul_of_nonneg_right (show limit ≤ room by omega) hbucket.le
      simp only
      omega

/-! ## The plan -/

variable {p : ScopeProgress Int φ} {start boundary now rows : Int} {budget : StepBudget φ} {reused scan : Option ScanSpanResult}

structure PlansPwRead (st : PlannerSettings φ) (p : ScopeProgress Int φ) (start boundary searches rows : Int)
    (reused : Option ScanSpanResult) (plan : PwStepPlan) (n : Int) : Prop where
  action : plan.step.action = .read
  chunks : plan.step.chunks = plan.groupedChunks
  chunked : Chunked st (chunkWidth p st) start plan.groupedChunks n
  pos : 0 < n
  before : start + n * st.bucket ≤ boundary
  inScan : ∀ scan ∈ reused, start + n * st.bucket ≤ scan.span.stop
  totals : plan.totalsSpan = if reused.isSome then none else some ⟨start, start + n * st.bucket⟩
  pinned : plan.pinnedSpan = if rows > 0 then some ⟨start, start + n * st.bucket⟩ else none
  reuses : plan.reusesScanTotals = reused.isSome
  paid : reservedSearches rows reused + plan.groupedChunks.length ≤ searches
  searches : plan.searches = reservedSearches rows reused + plan.groupedChunks.length

theorem planPwRead_plans (rows : Int) {step m searches} (hstep : PlansRead st p start boundary searches step m)
    (hstart : st.bucket ∣ start) (hreused : ∀ scan ∈ reused, Reuses st start scan) :
    ∃ plan n, planPwRead st step start rows reused = .ok plan ∧ CutFrom st plan.groupedChunks step.chunks ∧
      (0 < rows → rows * n ≤ st.rowTargetRows ∨ n = 1) ∧
      PlansPwRead st p start boundary (searches + reservedSearches rows reused) rows reused plan n := by
  obtain ⟨counts, hcounts, hsum⟩ := hstep.chunked.counts hstart
  obtain ⟨hpin, hpin_le⟩ := pinLimit_bounds st rows hstep.pos
  obtain ⟨hpos, hlimit_le, hin⟩ := scanLimit_bounds hstart hreused hpin
  have hfits := fun hrows => pinLimit_rows st hrows hpos hlimit_le
  unfold planPwRead
  rw [hcounts]
  simp only [bind, Except.bind, hsum]
  generalize hpinned : pinLimit st rows m = pinned at hpin hpin_le hpos hlimit_le hin hfits ⊢
  obtain ⟨pinned, pinNotes⟩ := pinned
  generalize scanLimit st start reused pinned = limit at hpos hlimit_le hin hfits ⊢
  obtain ⟨limit, scanNotes⟩ := limit
  have hle : limit ≤ m := hlimit_le.trans hpin_le
  obtain ⟨chunks, htrim, hchunked, hlength, hcut⟩ := trim_chunked hstep.chunked hstart hpos hle
  obtain ⟨first, hfirst, hfirst_start⟩ := hchunked.head hpos
  obtain ⟨last, hlast, hlast_stop⟩ := hchunked.last hpos
  have hspan := buckets_of_count hstart hpos.le
  have hbefore := Int.mul_le_mul_of_nonneg_right hle st.bucket_pos.le
  have hstop := hstep.before
  have hpaid := hstep.paid
  simp only [htrim, hfirst, hlast, hfirst_start, hlast_stop, hspan]
  refine ⟨_, limit, rfl, hcut, hfits, hstep.action, rfl, hchunked, hpos, by omega, hin, rfl, rfl, rfl, ?_, ?_⟩
  · simp only
    omega
  · simp only [reservedSearches]
    omega

theorem planPwStep_timeLimit (h : Unread st p start boundary now) (hrows : 0 ≤ rows)
    (hlate : now - p.startedAt > seconds (st.maxHours * 3600))
    (hreused : scan.filter (fun scan => (some start).any (reusable scan)) = reused) :
    ∃ plan, planPwStep st p now boundary budget rows true scan = .ok plan ∧ plan.step.action = .finish := by
  obtain ⟨step, hstep, haction⟩ := planStep_timeLimit (reduced budget (reservedSearches rows reused)) h hlate
  refine ⟨{ step := step }, ?_, haction⟩
  simp only [planPwStep, hrows, require, if_true, h.next, hreused, bind, Except.bind, hstep, haction, pure, Except.pure,
    budget.searches_nonneg]

theorem planPwStep_wait (h : Unread st p start boundary now) (hrows : 0 ≤ rows)
    (htime : ¬ now - p.startedAt > seconds (st.maxHours * 3600))
    (hreused : scan.filter (fun scan => (some start).any (reusable scan)) = reused)
    (hbudget : budget.searches ≤ reservedSearches rows reused) :
    ∃ plan, planPwStep st p now boundary budget rows true scan = .ok plan ∧ plan.step.action = .wait := by
  have hreduced : (reduced budget (reservedSearches rows reused)).searches ≤ 0 :=
    max_le (Int.le_refl 0) (by omega)
  obtain ⟨step, hstep, haction⟩ := planStep_wait h htime hreduced
  refine ⟨{ step := step }, ?_, haction⟩
  simp only [planPwStep, hrows, require, if_true, h.next, hreused, bind, Except.bind, hstep, haction, pure, Except.pure,
    budget.searches_nonneg]

theorem planPwStep_read (budget : StepBudget φ) (h : Unread st p start boundary now) (hrows : 0 ≤ rows)
    (htime : ¬ now - p.startedAt > seconds (st.maxHours * 3600)) (hspan : 0 < st.maxSpanBuckets)
    (hseconds : PyFloat.le budget.secondsLeft (PyFloat.ofInt 0) = false)
    (hreused : scan.filter (fun scan => (some start).any (reusable scan)) = reused)
    (hscan : ∀ scan ∈ reused, Reuses st start scan) (hbudget : reservedSearches rows reused < budget.searches) :
    ∃ plan n, planPwStep st p now boundary budget rows true scan = .ok plan ∧
      PlansPwRead st p start boundary budget.searches rows reused plan n := by
  have hreduced : (reduced budget (reservedSearches rows reused)).searches =
      budget.searches - reservedSearches rows reused := max_eq_right (by omega)
  obtain ⟨step, m, hstep, hreads⟩ := planStep_read (reduced budget (reservedSearches rows reused)) h htime hspan
    (by omega) hseconds
  obtain ⟨plan, n, hplan, -, -, hpw⟩ := planPwRead_plans rows hreads h.aligned.1 hscan
  rw [hreduced, sub_add_cancel] at hpw
  refine ⟨plan, n, ?_, hpw⟩
  have hpaid : plan.searches ≤ budget.searches := by
    rw [hpw.searches]
    exact hpw.paid
  simp only [planPwStep, hrows, require, if_true, h.next, hreused, bind, Except.bind, hstep, hreads.action, hplan,
    hpaid, pure, Except.pure]

end QRadarDashboard.PropertyWatch
