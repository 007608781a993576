import QRadarDashboard.History.Lemmas.FirstChunk

/-!
# The chunks of a planned step
-/

namespace QRadarDashboard.History
open Lib

variable {φ : Type} [PyFloat φ] {st : PlannerSettings φ}

inductive Chunked (st : PlannerSettings φ) (width : Int) : Int → List (Span Int) → Int → Prop
  | nil {start} : Chunked st width start [] 0
  | cons {start k n chunks} (hpos : 0 < k) (hwidth : k ≤ width) (rest : Chunked st width (start + k * st.bucket) chunks n) :
      Chunked st width start (⟨start, start + k * st.bucket⟩ :: chunks) (k + n)

theorem buckets_of_count {start k} (hstart : st.bucket ∣ start) (hk : 0 ≤ k) :
    (⟨start, start + k * st.bucket⟩ : Span Int).buckets st = .ok k := by
  have haligned : Span.Aligned st ⟨start, start + k * st.bucket⟩ := ⟨hstart, dvd_add hstart (Dvd.intro_left _ rfl)⟩
  have hbucket := st.bucket_pos
  have hle : start ≤ start + k * st.bucket := by
    have := Int.mul_nonneg hk hbucket.le
    omega
  rw [Span.buckets, bucketsBetween_aligned haligned hle, Span.count]
  simp only [add_sub_cancel_left]
  rw [Int.mul_ediv_cancel _ (by omega)]

namespace Chunked

variable {width start n : Int} {chunks : List (Span Int)}

theorem nonneg (h : Chunked st width start chunks n) : 0 ≤ n := by
  induction h with
  | nil => exact Int.le_refl 0
  | cons hpos _ _ ih => omega

theorem dvd_next {k} (hstart : st.bucket ∣ start) : st.bucket ∣ start + k * st.bucket :=
  dvd_add hstart (Dvd.intro_left _ rfl)

theorem counts (h : Chunked st width start chunks n) (hstart : st.bucket ∣ start) :
    ∃ counts, chunks.mapM (fun chunk => chunk.buckets st) = .ok counts ∧ counts.sum = n := by
  induction h with
  | nil => exact ⟨[], rfl, rfl⟩
  | cons hpos _ _ ih =>
    obtain ⟨counts, hcounts, hsum⟩ := ih (dvd_next hstart)
    refine ⟨_ :: counts, ?_, by rw [List.sum_cons, hsum]⟩
    rw [List.mapM_cons, buckets_of_count hstart hpos.le, hcounts]
    rfl

theorem head (h : Chunked st width start chunks n) (hn : 0 < n) :
    ∃ first, chunks.head? = some first ∧ first.start = start := by
  cases h with
  | nil => exact absurd hn (lt_irrefl 0)
  | cons hpos _ _ => exact ⟨_, rfl, rfl⟩

theorem eq_nil (h : Chunked st width start chunks n) (hn : n = 0) : chunks = [] := by
  cases h with
  | nil => rfl
  | cons hpos _ rest =>
    have := rest.nonneg
    omega

theorem last (h : Chunked st width start chunks n) (hn : 0 < n) :
    ∃ last, chunks.getLast? = some last ∧ last.stop = start + n * st.bucket := by
  induction h with
  | nil => exact absurd hn (lt_irrefl 0)
  | @cons start k m chunks hpos _ rest ih =>
    rcases rest.nonneg.eq_or_lt' with rfl | hm
    · rw [rest.eq_nil rfl]
      exact ⟨_, rfl, by simp⟩
    · obtain ⟨last, hlast, hstop⟩ := ih hm
      refine ⟨last, ?_, by rw [hstop]; ring⟩
      rw [List.getLast?_cons, hlast]
      rfl

end Chunked

theorem tileChunks_chunked {width} (hwidth : 0 < width) : ∀ (rounds : Nat) (cursor left : Int), 0 ≤ left →
    left ≤ rounds → Chunked st width cursor (tileChunks st width rounds cursor left) left := by
  intro rounds
  induction rounds with
  | zero =>
    intro cursor left hnonneg hle
    have hzero : left = 0 := by omega
    subst hzero
    exact .nil
  | succ rounds ih =>
    intro cursor left hnonneg hle
    rw [tileChunks]
    by_cases hleft : left > 0
    · have hmin : 0 < min width left := lt_min hwidth hleft
      have hmin_le : min width left ≤ left := min_le_right _ _
      have hrest := ih (cursor + min width left * st.bucket) (left - min width left) (by omega)
        (by push_cast at hle; omega)
      rw [if_pos hleft]
      simpa using Chunked.cons hmin (min_le_left _ _) hrest
    · have hzero : left = 0 := by omega
      subst hzero
      simpa using Chunked.nil

theorem length_tileChunks {width} (hwidth : 0 < width) : ∀ (rounds : Nat) (cursor left : Int) {m : Nat},
    left ≤ width * m → (tileChunks st width rounds cursor left).length ≤ m := by
  intro rounds
  induction rounds with
  | zero => intro cursor left m _; exact Nat.zero_le _
  | succ rounds ih =>
    intro cursor left m hle
    rw [tileChunks]
    by_cases hleft : left > 0
    · cases m with
      | zero => simp at hle; omega
      | succ m =>
        rw [if_pos hleft, List.length_cons]
        refine Nat.succ_le_succ (ih _ _ ?_)
        have hexpand : width * ((m + 1 : Nat) : Int) = width * m + width := by push_cast; ring
        have hrest : 0 ≤ width * (m : Int) := Int.mul_nonneg hwidth.le (Int.natCast_nonneg m)
        rcases min_choice width left with hmin | hmin <;> rw [hmin] <;> omega
    · rw [if_neg hleft]
      exact Nat.zero_le _

theorem maxSpanBuckets_pos (h : 24 ≤ st.maxSpanHours) : 0 < st.maxSpanBuckets := by
  obtain ⟨hpos, hday⟩ := st.bucketSeconds_ok
  have hle : st.bucketSeconds ≤ 86400 := Int.le_of_dvd (by norm_num) (Int.dvd_of_emod_eq_zero hday)
  unfold PlannerSettings.maxSpanBuckets
  have : 1 ≤ st.maxSpanHours * 3600 / st.bucketSeconds := (Int.le_ediv_iff_mul_le (by omega)).mpr (by omega)
  omega

/-! ## The plan of a known floor -/

variable {p : ScopeProgress Int φ} {start stop now : Int} {budget : StepBudget φ}

structure PlansRead (st : PlannerSettings φ) (p : ScopeProgress Int φ) (start stop searches : Int) (plan : StepPlan)
    (n : Int) : Prop where
  action : plan.action = .read
  chunked : Chunked st (chunkWidth p st) start plan.chunks n
  pos : 0 < n
  before : start + n * st.bucket ≤ stop
  paid : (plan.chunks.length : Int) ≤ searches

theorem planRead_plans (hstart : st.bucket ∣ start) (hstop : st.bucket ∣ stop) (hlt : start < stop)
    (hspan : 0 < st.maxSpanBuckets) (hpaid : 0 < budget.searches) :
    ∃ plan n, planRead p start stop budget st = .ok plan ∧ PlansRead st p start stop budget.searches plan n := by
  have hwidth := chunkWidth_pos p st
  have hremaining := bucketsBetween_aligned (s := ⟨start, stop⟩) ⟨hstart, hstop⟩ hlt.le
  have haligned : Span.Aligned st ⟨start, stop⟩ := ⟨hstart, hstop⟩
  have hcount := Span.count_mul haligned
  have hbucket := st.bucket_pos
  generalize hn : Span.count st ⟨start, stop⟩ = remaining at hremaining hcount
  have hremaining_pos : 0 < remaining := by
    by_contra hneg
    have := Int.mul_le_mul_of_nonneg_right (show remaining ≤ 0 by omega) hbucket.le
    simp only at hcount
    omega
  generalize hleft : min (min remaining st.maxSpanBuckets) (chunkWidth p st * budget.searches) = left
  have hpos : 0 < left := by
    rw [← hleft]
    exact lt_min (lt_min hremaining_pos hspan) (Int.mul_pos hwidth hpaid)
  have hchunked : Chunked st (chunkWidth p st) start (tileChunks st (chunkWidth p st) left.toNat start left) left :=
    tileChunks_chunked hwidth left.toNat start left hpos.le (by omega)
  generalize hchunks : tileChunks st (chunkWidth p st) left.toNat start left = chunks at hchunked
  have hplan : ∃ plan, planRead p start stop budget st = .ok plan ∧ plan.action = .read ∧ plan.chunks = chunks := by
    simp only [planRead, requireAligned_ok.mpr hstart, hremaining, bind, Except.bind, pure, Except.pure, hleft, hchunks]
    exact ⟨_, rfl, rfl, rfl⟩
  obtain ⟨plan, hplan, haction, rfl⟩ := hplan
  refine ⟨plan, left, hplan, haction, hchunked, hpos, ?_, ?_⟩
  · have hle : left ≤ remaining := by
      rw [← hleft]
      exact (min_le_left _ _).trans (min_le_left _ _)
    have := Int.mul_le_mul_of_nonneg_right hle hbucket.le
    simp only at hcount
    omega
  · have hle : left ≤ chunkWidth p st * (budget.searches.toNat : Int) := by
      rw [Int.toNat_of_nonneg hpaid.le, ← hleft]
      exact min_le_right _ _
    have hlength : (tileChunks st (chunkWidth p st) left.toNat start left).length ≤ budget.searches.toNat :=
      length_tileChunks hwidth left.toNat start left hle
    rw [hchunks] at hlength
    omega

/-- What is asked of a step before it is planned: an end on the grid, a reading that goes on and buckets to read. -/
structure Unread (st : PlannerSettings φ) (p : ScopeProgress Int φ) (start stop now : Int) : Prop where
  next : nextStart p st = some start
  aligned : st.bucket ∣ start ∧ st.bucket ∣ stop
  unread : start < stop

theorem planStep_timeLimit (budget : StepBudget φ) (h : Unread st p start stop now)
    (hlate : now - p.startedAt > seconds (st.maxHours * 3600)) :
    ∃ plan, planStep p now stop budget st = .ok plan ∧ plan.action = .finish := by
  refine ⟨{ action := .finish, reason := s!"the reading did not finish in {st.maxHours} h", trigger := some .timeLimit },
    ?_, rfl⟩
  have hunread := not_le.mpr h.unread
  simp [planStep, requireAligned_ok.mpr h.aligned.2, h.next, hunread, hlate, bind, Except.bind, pure, Except.pure]

theorem planStep_wait (h : Unread st p start stop now) (htime : ¬ now - p.startedAt > seconds (st.maxHours * 3600))
    (hbudget : budget.searches ≤ 0) : ∃ plan, planStep p now stop budget st = .ok plan ∧ plan.action = .wait := by
  refine ⟨{ action := .wait, reason := "waiting for search budget" }, ?_, rfl⟩
  have hunread := not_le.mpr h.unread
  simp [planStep, requireAligned_ok.mpr h.aligned.2, h.next, hunread, htime, hbudget, bind, Except.bind, pure,
    Except.pure]

theorem planStep_read (budget : StepBudget φ) (h : Unread st p start stop now)
    (htime : ¬ now - p.startedAt > seconds (st.maxHours * 3600)) (hspan : 0 < st.maxSpanBuckets)
    (hbudget : 0 < budget.searches) (hseconds : PyFloat.le budget.secondsLeft (PyFloat.ofInt 0) = false) :
    ∃ plan n, planStep p now stop budget st = .ok plan ∧ PlansRead st p start stop budget.searches plan n := by
  obtain ⟨plan, n, hplan, hreads⟩ := planRead_plans (p := p) h.aligned.1 h.aligned.2 h.unread hspan hbudget
  refine ⟨plan, n, ?_, hreads⟩
  have hunread := not_le.mpr h.unread
  have hpaid := not_le.mpr hbudget
  rw [← hplan]
  simp [planStep, requireAligned_ok.mpr h.aligned.2, h.next, hunread, htime, hpaid, hseconds, bind, Except.bind]

end QRadarDashboard.History
