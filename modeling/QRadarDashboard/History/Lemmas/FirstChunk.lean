import QRadarDashboard.History.Lemmas.Accounting

/-!
# The first chunk of a step
-/

namespace QRadarDashboard.History
open Lib QRadarDashboard.Catchall

variable {φ μ : Type} [PyFloat φ] {st : PlannerSettings φ}

/-! ## Planning -/

theorem chunkWidth_pos (p : ScopeProgress Int φ) (st : PlannerSettings φ) : 0 < chunkWidth p st := by
  have := st.chunkWidths_ok.1
  unfold chunkWidth
  exact lt_of_lt_of_le (by omega) (le_max_left _ _)

theorem planRead_first {p start stop budget plan} (h : planRead p start stop budget st = .ok plan) {chunk rest}
    (hchunks : plan.chunks = chunk :: rest) : ∃ n, 0 < n ∧ n ≤ chunkWidth p st ∧ chunk.buckets st = .ok n := by
  rw [planRead] at h
  obtain ⟨_, halign, h⟩ := bind_ok h
  obtain ⟨remaining, _, h⟩ := bind_ok h
  cases h
  simp only at hchunks
  have hstart := requireAligned_ok.mp halign
  generalize min (min remaining st.maxSpanBuckets) (chunkWidth p st * budget.searches) = left at hchunks
  cases hrounds : left.toNat with
  | zero => simp [hrounds, tileChunks] at hchunks
  | succ rounds =>
    have hpos : left > 0 := by omega
    simp only [hrounds, tileChunks, hpos, if_true, List.cons.injEq] at hchunks
    have hn : 0 < min (chunkWidth p st) left := lt_min (chunkWidth_pos p st) hpos
    have haligned : Span.Aligned st ⟨start, start + min (chunkWidth p st) left * st.bucket⟩ :=
      ⟨hstart, dvd_add hstart (Dvd.intro_left _ rfl)⟩
    have hbucket := st.bucket_pos
    have hmul := Int.mul_pos hn hbucket
    refine ⟨min (chunkWidth p st) left, hn, min_le_left _ _, ?_⟩
    rw [← hchunks.1, Span.buckets, bucketsBetween_aligned haligned (by simp only; omega), Span.count]
    simp only [add_sub_cancel_left]
    rw [Int.mul_ediv_cancel _ (by omega)]

theorem planStep_read_ok {p now stop budget enabled stopRequested plan}
    (h : planStep p now stop budget st enabled stopRequested = .ok plan) (hread : plan.action = .read) :
    ∃ start, nextStart p st = some start ∧ st.bucket ∣ stop ∧ start < stop ∧ 0 < budget.searches ∧
      planRead p start stop budget st = .ok plan := by
  rw [planStep] at h
  obtain ⟨_, hstop, h⟩ := bind_ok h
  simp only at h
  split at h
  · cases h
    cases hread
  · split at h
    · cases h
      cases hread
    · split at h
      · cases h
        cases hread
      · rename_i hunread
        split at h
        · cases h
          cases hread
        · split at h
          · cases h
            cases hread
          · rename_i hbudget
            cases hstart : nextStart p st with
            | none =>
              simp only [hstart, planFloorScan] at h
              obtain ⟨scan, _, h⟩ := bind_ok h
              cases hspan : scan.span with
              | none =>
                rw [hspan] at h
                cases h
                cases hread
              | some span =>
                rw [hspan] at h
                cases h
                cases hread
            | some start =>
              simp only [hstart] at h hunread
              refine ⟨start, rfl, requireAligned_ok.mp hstop, ?_, ?_, h⟩
              · simpa using hunread
              · exact not_le.mp (fun hle => hbudget (.inl hle))

theorem planStep_first {p now stop budget enabled stopRequested plan}
    (h : planStep p now stop budget st enabled stopRequested = .ok plan) (hread : plan.action = .read) {chunk rest}
    (hchunks : plan.chunks = chunk :: rest) : ∃ n, 0 < n ∧ n ≤ chunkWidth p st ∧ chunk.buckets st = .ok n := by
  obtain ⟨start, _, _, _, _, hplan⟩ := planStep_read_ok h hread
  exact planRead_first hplan hchunks

/-! ## Settling -/

theorem chunkWidth_congr {p q} (hbuckets : p.chunkBuckets = q.chunkBuckets)
    (hceiling : p.chunkCeiling = q.chunkCeiling) : chunkWidth p st = chunkWidth q st := by
  unfold chunkWidth
  rw [hbuckets, hceiling]

theorem settleStep_notRun {p r rs stop o} (h : settleStep p (r :: rs) stop st = .ok o) (hr : r.status = .notRun) :
    o.writeSpans = [] ∧ chunkWidth o.progress st = chunkWidth p st := by
  obtain ⟨start, pre, v, -, -, hpre, hv, rfl⟩ := settleStep_parts h
  rw [readPrefix] at hpre
  obtain ⟨n, hn, hpre⟩ := bind_ok hpre
  have hundone : r.done n = false := by simp [ChunkResult.done, hr]
  simp only [hundone, Bool.false_eq_true, if_false, Except.ok.injEq] at hpre
  subst hpre
  simp only [settleBlocker, hn, hr] at hv
  cases hv
  refine ⟨rfl, ?_⟩
  obtain ⟨x, hupd, _⟩ := gates_updated st (settleNotRun (afterPrefix p (r :: rs)
    { through := p.through, blocker := some r }) 0 (chunkWidth p st) st) stop
  simp only [hupd]
  exact chunkWidth_congr rfl rfl

theorem settleStep_done {p r rs stop o} (h : settleStep p (r :: rs) stop st = .ok o) (hr : r.isDone st = true) :
    o.writeSpans ≠ [] := by
  obtain ⟨_, _, _, hs⟩ := settleStep_ok h
  rw [hs.write]
  simp [donePrefix, hr]

/-! ## Chunk results -/

theorem PhaseA.chunkResults_first {chunk} {completed : Dict Int (CompletedBucket μ)} {searches failed rs n}
    (hn : chunk.buckets st = .ok n) (hpos : 0 < n) (h : PhaseA.chunkResults chunk completed st searches failed = .ok rs)
    (hfirst : (completed.get? chunk.start).isSome) : ∃ r rs', rs = r :: rs' ∧ r.status = .complete := by
  rw [PhaseA.chunkResults] at h
  obtain ⟨n', hn', h⟩ := bind_ok h
  cases hn.symm.trans hn'
  have hdone : PhaseA.prefixLength completed st.bucket n.toNat chunk.start ≠ 0 := by
    rw [Ne, PhaseA.prefixLength_eq_zero]
    rintro (hzero | hempty)
    · omega
    · simp [hfirst] at hempty
  simp only [hdone, if_false] at h
  split at h
  · obtain ⟨rest, _, h⟩ := bind_ok h
    cases h
    exact ⟨_, _, rfl, rfl⟩
  · cases h
    exact ⟨_, _, rfl, rfl⟩

theorem PhaseA.chunkResults_notRun {chunk} {completed : Dict Int (CompletedBucket μ)} {searches rs n}
    (hn : chunk.buckets st = .ok n) (hpos : 0 < n) (h : PhaseA.chunkResults chunk completed st searches none = .ok rs)
    (hempty : completed.get? chunk.start = none) : ∃ r rs', rs = r :: rs' ∧ r.status = .notRun := by
  rw [PhaseA.chunkResults] at h
  obtain ⟨n', hn', h⟩ := bind_ok h
  cases hn.symm.trans hn'
  have hzero : PhaseA.prefixLength completed st.bucket n.toNat chunk.start = 0 := by
    rw [PhaseA.prefixLength_eq_zero]
    exact Or.inr (by simp [hempty])
  simp only [hzero, Nat.cast_zero, hpos, if_true, List.nil_append] at h
  obtain ⟨rest, hrest, h⟩ := bind_ok h
  cases h
  cases hrest
  exact ⟨_, _, rfl, rfl⟩

theorem Catchall.chunkResults_first (first : CatchallBucketOutcome) (rest : List CatchallBucketOutcome)
    (bucketSeconds : Int) (searches : Nat) :
    ∃ r rs, Catchall.chunkResults (first :: rest) bucketSeconds searches = r :: rs ∧
      (first.state = .notCollected → r.status = .notRun) ∧ (first.state = .complete → r.status = .complete) ∧
      (first.state = .lowerBound → r.status = .truncated ∧
        r.span = ⟨first.bucketStart, first.bucketStart + seconds bucketSeconds⟩) := by
  obtain ⟨run, others, hruns⟩ := Catchall.runs_cons first rest
  obtain ⟨last, hlast⟩ : ∃ last, (first :: run).getLast? = some last := ⟨_, List.getLast?_eq_some_getLast (by simp)⟩
  unfold Catchall.chunkResults
  rw [hruns, List.flatMap_cons]
  unfold Catchall.runResults
  simp only [List.head?_cons, hlast]
  cases hst : first.state with
  | complete | failed | rejected | notCollected => exact ⟨_, _, rfl, by simp [Catchall.freeResult]⟩
  | lowerBound => exact ⟨_, _, rfl, by simp [Catchall.freeResult]⟩

end QRadarDashboard.History
