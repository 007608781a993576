import QRadarDashboard.History.Lemmas.Failures
import QRadarDashboard.History.Lemmas.Lifecycle
import QRadarDashboard.History.Lemmas.PhaseAFold
import QRadarDashboard.History.Lemmas.Restart
import QRadarDashboard.History.Lemmas.Stalls

/-!
# What the history reading guarantees
-/

namespace QRadarDashboard.History
open Lib

section Planner

variable {φ : Type} [PyFloat φ] {st : PlannerSettings φ}

def defaultSettings : PlannerSettings ℚ where
  bucketSeconds_ok := by decide
  floorMarginHours_ok := by decide
  maxSpanHours_ok := by decide
  rowTarget_ok := by norm_num [PyFloat.lt, PyFloat.le, PyFloat.ofInt, PyFloat.ofRat]
  chunkWidths_ok := by decide
  counts_ok := by decide
  maxLowerBoundShare_ok := by norm_num [PyFloat.le, PyFloat.ofInt, PyFloat.ofRat]
  hours_ok := by decide

def floorFound : ScopeProgress Int ℚ := { targetStart := 0, startedAt := 0, floor := some 0 }

def searched (start stop : Int) (status : SearchStatus) : ChunkResult :=
  { span := ⟨seconds start, seconds stop⟩, status, searches_nonneg := by decide }

/-! ## No bucket is lost, repeated or invented -/

/-- From a progress that has read nothing, every run of `settleStep` accounts for each bucket between the floor and the
next start exactly once: written, or in a gap; their count is the buckets read plus those of the gaps. -/
theorem settle_run_tiles {p₀ p : ScopeProgress Int φ} {tr : List (SettledStep φ)} {floor : Int}
    (hf : p₀.floor = some floor) (ht : p₀.through = none) (hg : p₀.gaps = []) (hr : p₀.bucketsRead = 0)
    (h : SettleRun st p₀ tr p) :
    ∃ next, nextStart p st = some next ∧
      Tiles floor (coveredSpans tr) next ∧
      (∀ x, floor ≤ x → x < next → (coveredSpans tr).countP (fun s => decide (Covers s x)) = 1) ∧
      (∀ e ∈ tr, ∃ a b, nextStart e.before st = some a ∧ nextStart e.output.progress st = some b ∧ a ≤ b) ∧
      p.gaps = recordedGaps tr ∧
      (∃ ns gs, (writtenSpans tr).mapM (·.buckets st) = .ok ns ∧ p.bucketsRead = ns.sum ∧
        p.gaps.mapM (·.span.buckets st) = .ok gs ∧
        (p.bucketsRead + gs.sum) * st.bucket = next - floor ∧
        (coveredSpans tr ≠ [] ∨ st.bucket ∣ floor →
          bucketsBetween floor next st = .ok (p.bucketsRead + gs.sum))) ∧
      (p.gaps.length : Int) ≤ st.maxGaps := by
  obtain ⟨next, acc⟩ := h.accounts hf ht hg hr
  refine ⟨next, acc.next_eq, acc.tiles, fun x hx hx' => acc.tiles.countP_covers hx hx', acc.forward,
    acc.gaps, ?_, acc.gaps_le⟩
  refine ⟨_, _, mapM_ok acc.written_buckets, acc.read, mapM_ok acc.gap_buckets, acc.total, fun hgrid => ?_⟩
  have hdvd : st.bucket ∣ floor := hgrid.elim acc.floor_aligned id
  have hspan : Span.Aligned st ⟨floor, next⟩ := ⟨hdvd, acc.next_aligned hdvd⟩
  rw [bucketsBetween_aligned hspan acc.tiles.le]
  exact congrArg Except.ok (Int.ediv_eq_of_eq_mul_left (ne_of_gt st.bucket_pos) acc.total.symm)

theorem settle_run_tiles_read_then_gap : ∃ tr p, SettleRun defaultSettings floorFound tr p ∧
    coveredSpans tr = [(0, 300000000), (300000000, 600000000)] ∧ p.gaps.length = 1 ∧
    ∃ next, nextStart p defaultSettings = some next ∧ Tiles 0 (coveredSpans tr) next := by
  obtain ⟨tr, p, h, hv⟩ := exists_run_of_replay
    (fun p i => settleStep p i.1 i.2 defaultSettings) (·.progress) floorFound
    [([searched 0 300 .complete, searched 300 600 .failed], seconds 3000),
      ([searched 300 600 .failed], seconds 3000), ([searched 300 600 .failed], seconds 3000)]
    (fun r => (coveredSpans r.1, r.2.gaps.length))
    ([(0, 300000000), (300000000, 600000000)], 1) (by with_unfolding_all decide)
  obtain ⟨hcov, hgaps⟩ := Prod.mk.inj hv
  obtain ⟨next, hnext, htiles, _⟩ := settle_run_tiles rfl rfl rfl rfl h
  exact ⟨tr, p, h, hcov, hgaps, next, hnext, htiles⟩

/-! ## A span is given up for its own failures -/

/-- If no step reads something and then meets a blocker while failures are counted, the failures behind every gap are
failures of the span given up. -/
theorem gapsEarned_of_keepsSpan {p₀ p : ScopeProgress Int φ} {tr : List (SettledStep φ)} (h₀ : p₀.failures = 0)
    (h : SettleRun st p₀ tr p) (hC : ∀ e ∈ tr, KeepsSpan st e) : GapsEarned st tr :=
  (h.counts h₀ hC).earned

theorem gapsEarned_of_keepsSpan_three_failures :
    ∃ tr p, SettleRun defaultSettings floorFound tr p ∧ (recordedGaps tr).map Gap.start = [0] ∧
      GapsEarned defaultSettings tr := by
  obtain ⟨tr, p, h, hv⟩ := exists_run_of_replay
    (fun p i => settleStep p i.1 i.2 defaultSettings) (·.progress) floorFound
    (List.replicate 3 ([searched 0 300 .failed], seconds 3000))
    (fun r => ((recordedGaps r.1).map Gap.start, decide (∀ e ∈ r.1, KeepsSpan defaultSettings e)))
    ([0], true) (by decide)
  obtain ⟨hgaps, hkeeps⟩ := Prod.mk.inj hv
  exact ⟨tr, p, h, hgaps, gapsEarned_of_keepsSpan rfl h (of_decide_eq_true hkeeps)⟩

/-- Two failures of the first bucket, which is then read, count against the second. -/
theorem gap_after_one_failure :
    ∃ tr p, SettleRun defaultSettings floorFound tr p ∧ ¬ GapsEarned defaultSettings tr := by
  obtain ⟨tr, p, h, hv⟩ := exists_run_of_replay
    (fun p i => settleStep p i.1 i.2 defaultSettings) (·.progress) floorFound
    [([searched 0 300 .failed], seconds 3000), ([searched 0 300 .failed], seconds 3000),
      ([searched 0 300 .complete, searched 300 600 .failed], seconds 3000)]
    (fun r => (failedStarts defaultSettings r.1, r.1.map (fun e => e.output.newGap.map Gap.start)))
    ([0, 0, 300000000], [none, none, some 300000000]) (by with_unfolding_all decide)
  obtain ⟨hfailed, hgaps⟩ := Prod.mk.inj hv
  refine ⟨tr, p, h, fun hearned => ?_⟩
  simp only [List.map_eq_cons_iff, List.map_eq_nil_iff, Option.map_eq_some_iff] at hgaps
  obtain ⟨e₁, _, rfl, _, e₂, _, rfl, _, e₃, _, rfl, ⟨g, hg, hstart⟩, rfl⟩ := hgaps
  obtain ⟨older, last, hsplit, hlast, _⟩ := hearned [e₁, e₂] e₃ [] g rfl hg
  have hall : failedStarts defaultSettings older ++ failedStarts defaultSettings last =
      [0, 0, 300000000] := by
    rw [← hfailed, failedStarts, failedStarts, ← List.filterMap_append, ← hsplit]
    rfl
  rw [hlast, hstart] at hall
  have hnil : failedStarts defaultSettings older = [] := by
    have hlen := congrArg List.length hall
    rw [List.length_append, List.length_replicate] at hlen
    exact List.eq_nil_of_length_eq_zero (Nat.add_right_cancel (m := 3) hlen)
  rw [hnil] at hall
  exact absurd hall (by decide)

/-! ## The floor scan -/

/-- The scan cursor moves forward, over COMPLETE spans only. A floor is set only after every bucket before the first
event was reported silent, as the aligned margin after it. History is unavailable only after the allowed number of
unproved spans at one cursor, a whole silent window, or a floor at the end. -/
theorem floor_scan_skips_nothing {T0 startedAt : Int} {p₀ p : ScopeProgress Int φ}
    (h₀ : newProgress T0 startedAt st = .ok p₀) {tr : List (ScanStep φ)}
    (hrun : Run (interpret st) ScanDecision.progress p₀ tr p) :
    (∀ e ∈ tr, CursorMoves e) ∧
    ∀ pre e post, tr = pre ++ e :: post →
      (e.output.outcome = .floorFound → ∃ r b0 floor, r ∈ e.input.results ∧ FirstEvent st r b0 ∧
        (∀ t, T0 - st.margin ≤ t → t < b0 → Silent (pre ++ [e]) t) ∧
        e.output.progress.firstEventBucket = some b0 ∧ e.output.progress.floor = some floor ∧
        IsFloor st T0 b0 floor ∧ floor < e.input.stop) ∧
      (e.output.outcome = .unavailable →
        (∃ c n, st.maxFailures ≤ n ∧ e.before.scanCursor = some c ∧ FailedAt (pre ++ [e]) c n) ∨
        (∀ t, T0 - st.margin ≤ t → t < e.input.stop → Silent (pre ++ [e]) t) ∨
        ∃ r b0 floor, r ∈ e.input.results ∧ FirstEvent st r b0 ∧
          (∀ t, T0 - st.margin ≤ t → t < b0 → Silent (pre ++ [e]) t) ∧
          IsFloor st T0 b0 floor ∧ e.input.stop ≤ floor) := by
  have hstart : Proved T0 (T0 - st.margin) [] p₀ := by
    rw [newProgress] at h₀
    obtain ⟨_, _, h₀⟩ := bind_ok h₀
    cases h₀
    exact ⟨rfl, _, rfl, le_refl _, fun _ => ⟨fun t hlo hhi => absurd hlo (by omega), failedAt_zero [] _⟩⟩
  obtain ⟨_, hsteps⟩ : Proved T0 (T0 - st.margin) tr p ∧ ∀ pre e post, tr = pre ++ e :: post →
      Reached st T0 (T0 - st.margin) pre e ∧ CursorMoves e := by
    refine hrun.invariant' (fun tr p => Proved T0 (T0 - st.margin) tr p ∧ ∀ pre e post, tr = pre ++ e :: post →
      Reached st T0 (T0 - st.margin) pre e ∧ CursorMoves e) ⟨hstart, by simp⟩ ?_
    intro tr p call d hI hs
    obtain ⟨hproved, hreached, hmoves⟩ := hI.1.step hs
    refine ⟨hproved, fun pre e post heq => ?_⟩
    rcases List.eq_nil_or_concat post with rfl | ⟨post, last, rfl⟩
    · obtain ⟨rfl, he⟩ := List.append_inj' heq rfl
      cases he
      exact ⟨hreached, hmoves⟩
    · rw [List.concat_eq_append, ← List.cons_append, ← List.append_assoc] at heq
      exact hI.2 pre e post (List.append_inj' heq rfl).1
  refine ⟨fun e he => ?_, fun pre e post htr => ⟨fun hfound => ?_, fun hnone => ?_⟩⟩
  · obtain ⟨pre, post, htr⟩ := List.append_of_mem he
    exact (hsteps pre e post htr).2
  · cases (hsteps pre e post htr).1 with
    | retry h => simp [h] at hfound
    | «continue» h => simp [h] at hfound
    | failed c n h => simp [h] at hfound
    | empty h => simp [h] at hfound
    | event r b0 floor hr hfirst hsilent hfloor hb0 hcases =>
      rcases hcases with ⟨_, h⟩ | ⟨hlt, _, hset⟩
      · simp [h] at hfound
      · exact ⟨r, b0, floor, hr, hfirst, hsilent, hb0, hset, hfloor, hlt⟩
  · cases (hsteps pre e post htr).1 with
    | retry h => simp [h] at hnone
    | «continue» h => simp [h] at hnone
    | failed c n _ hn hc hfailed => exact Or.inl ⟨c, n, hn, hc, hfailed⟩
    | empty _ hsilent => exact Or.inr (Or.inl hsilent)
    | event r b0 floor hr hfirst hsilent hfloor hb0 hcases =>
      rcases hcases with ⟨hge, _⟩ | ⟨_, h, _⟩
      · exact Or.inr (Or.inr ⟨r, b0, floor, hr, hfirst, hsilent, hfloor, hge⟩)
      · simp [h] at hnone

def scannedHour (start : Int) (status : SearchStatus) (totals : List (Int × Int)) : ScanCall where
  results := [{
    span := ⟨seconds start, seconds (start + 3600)⟩
    status := status
    totals := totals
    span_ok := Int.mul_le_mul_of_nonneg_right (Int.le_add_of_nonneg_right (by decide)) (by decide) }]
  stop := seconds 604800

theorem floor_scan_skips_nothing_found :
    ∃ (p₀ : ScopeProgress Int ℚ) (tr : List (ScanStep ℚ)) (p : ScopeProgress Int ℚ),
      newProgress (seconds 86400) 0 defaultSettings = .ok p₀ ∧
      Run (interpret defaultSettings) ScanDecision.progress p₀ tr p ∧
      tr.map (fun e => e.output.outcome) = [.continue, .retry, .floorFound] ∧ ∀ e ∈ tr, CursorMoves e := by
  obtain ⟨p₀, h₀, hview⟩ := exists_ok_of_toOption (x := newProgress (seconds 86400) 0 defaultSettings)
    (f := fun p₀ => (replay (interpret defaultSettings) ScanDecision.progress p₀ [scannedHour 0 .complete [],
      scannedHour 3600 .failed [],
      scannedHour 3600 .complete [(seconds 3900, 0), (seconds 4200, 5)]]).toOption.map
        (fun r => r.1.map (fun e => e.output.outcome)))
    (b := some [.continue, .retry, .floorFound]) (by decide)
  obtain ⟨tr, p, hrun, houtcomes⟩ := exists_run_of_replay _ _ _ _ _ _ hview
  exact ⟨p₀, tr, p, h₀, hrun, houtcomes, (floor_scan_skips_nothing h₀ hrun).1⟩

/-! ## The searches of a reading -/

/-- What Phase A and the catch-all family read of a chunk is counted exactly if the first result of the chunk ran, and
over a run if that holds of every chunk. -/
theorem searches_exact_iff {μ : Type} (bucketSeconds : Int) :
    (∀ {p : ScopeProgress Int φ} {read : PhaseA.ChunkRead μ} {stop : Int} {o : StepSettlement φ},
      PhaseA.settleReads p [read] stop st = .ok o →
        (o.progress.searches = p.searches + read.searches ↔ read.Charged)) ∧
    (∀ {p₀ p : ScopeProgress Int φ}
        {tr : List (Taken (ScopeProgress Int φ) (ReadStep φ (PhaseA.ChunkRead μ)) (StepSettlement φ))},
      Run PhaseA.settle StepSettlement.progress p₀ tr p →
        (p.searches = p₀.searches +
            ((tr.flatMap (fun e => e.input.reads)).map (fun read => (read.searches : Int))).sum ↔
          ∀ e ∈ tr, ∀ read ∈ e.input.reads, read.Charged)) ∧
    (∀ {p : ScopeProgress Int φ} {read : Catchall.SpanRead} {stop : Int} {o : StepSettlement φ},
      Catchall.settleReads p [read] bucketSeconds stop st = .ok o →
        (o.progress.searches = p.searches + read.searches ↔ read.Charged)) ∧
    ∀ {p₀ p : ScopeProgress Int φ}
        {tr : List (Taken (ScopeProgress Int φ) (ReadStep φ Catchall.SpanRead) (StepSettlement φ))},
      Run (Catchall.settle bucketSeconds) StepSettlement.progress p₀ tr p →
        (p.searches = p₀.searches +
            ((tr.flatMap (fun e => e.input.reads)).map (fun read => (read.searches : Int))).sum ↔
          ∀ e ∈ tr, ∀ read ∈ e.input.reads, read.Charged) := by
  have hphase : ∀ {p₀ p : ScopeProgress Int φ}
      {tr : List (Taken (ScopeProgress Int φ) (ReadStep φ (PhaseA.ChunkRead μ)) (StepSettlement φ))},
      Run PhaseA.settle StepSettlement.progress p₀ tr p →
        (p.searches = p₀.searches +
            ((tr.flatMap (fun e => e.input.reads)).map (fun read => (read.searches : Int))).sum ↔
          ∀ e ∈ tr, ∀ read ∈ e.input.reads, read.Charged) :=
    fun hrun => run_searches_iff PhaseA.ChunkRead.searches PhaseA.ChunkRead.Charged (fun _ => Or.inl)
      (fun hs => PhaseA.settleReads_searches hs) hrun
  have hcatchall : ∀ {p₀ p : ScopeProgress Int φ}
      {tr : List (Taken (ScopeProgress Int φ) (ReadStep φ Catchall.SpanRead) (StepSettlement φ))},
      Run (Catchall.settle bucketSeconds) StepSettlement.progress p₀ tr p →
        (p.searches = p₀.searches +
            ((tr.flatMap (fun e => e.input.reads)).map (fun read => (read.searches : Int))).sum ↔
          ∀ e ∈ tr, ∀ read ∈ e.input.reads, read.Charged) :=
    fun hrun => run_searches_iff Catchall.SpanRead.searches Catchall.SpanRead.Charged (fun _ => Or.inl)
      (fun hs => Catchall.settleReads_searches hs) hrun
  refine ⟨fun {p read stop o} h => ?_, hphase, fun {p read stop o} h => ?_, hcatchall⟩
  · have hone : Run PhaseA.settle StepSettlement.progress p [⟨p, ⟨st, [read], stop⟩, o⟩] o.progress := Run.nil.snoc h
    simpa using hphase hone
  · have hone : Run (Catchall.settle bucketSeconds) StepSettlement.progress p [⟨p, ⟨st, [read], stop⟩, o⟩] o.progress :=
      Run.nil.snoc h
    simpa using hcatchall hone

def cappedRead (completed : Dict Int (CompletedBucket Unit)) (searches : Nat) : PhaseA.ChunkRead Unit :=
  ⟨⟨0, seconds 600⟩, completed, searches, none⟩

theorem searches_exact_iff_prefix : ∃ o : StepSettlement ℚ,
    PhaseA.settleReads floorFound [cappedRead [(0, ⟨[()], 0, seconds 300, 1, 1⟩)] 2] (seconds 3600) defaultSettings = .ok o ∧
      o.progress.searches = floorFound.searches + 2 := by
  obtain ⟨o, ho, _⟩ := exists_ok_of_toOption (x := PhaseA.settleReads floorFound
    [cappedRead [(0, ⟨[()], 0, seconds 300, 1, 1⟩)] 2] (seconds 3600) defaultSettings) (f := fun _ => ()) (b := ())
    (by decide)
  exact ⟨o, ho, ((searches_exact_iff 300).1 ho).mpr (by decide)⟩

/-- The only search was cut and the cap ended the reading before the first bucket: it is not counted. -/
theorem cut_search_not_counted : ∃ o : StepSettlement ℚ,
    PhaseA.settleReads floorFound [cappedRead [] 1] (seconds 3600) defaultSettings = .ok o ∧
      o.progress.searches = floorFound.searches := by
  exact exists_ok_of_toOption (f := fun o : StepSettlement ℚ => o.progress.searches) (by decide)

/-! ## The width of a search -/

/-- A step that read all its chunks and saw no event does not lower the width, unless it is the clean step that releases
a failure ceiling while the width is above the initial one. -/
theorem silent_step_keeps_width_iff {p : ScopeProgress Int φ} {rs : List ChunkResult} {stop : Int}
    {o : StepSettlement φ} (h : settleStep p rs stop st = .ok o) (hwhole : ∀ r ∈ rs, r.isDone st = true)
    (hsilent : ∀ r ∈ rs, r.nonSilentBuckets = 0) :
    chunkWidth p st ≤ chunkWidth o.progress st ↔ ¬ (p.chunkCeiling.isSome = true ∧
      ceilingReleaseSteps ≤ p.ceilingSuccesses + 1 ∧ st.initialChunkBuckets < chunkWidth p st) := by
  have hnone := blockerOf_eq_none hwhole
  cases settleStep_width h with
  | sized u hu hrecent hblocker hwidths =>
    exact widthAfterStep_silent hu (hrecent.trans (stepDensity_silent hsilent)) hwidths
  | kept b hblocker | failed b hblocker | truncated b hblocker =>
    rw [hnone] at hblocker
    cases hblocker

theorem silent_step_keeps_width_iff_first_day : ∃ o,
    settleStep floorFound [searched 0 86400 .complete] (seconds 9000000) defaultSettings = .ok o ∧
      chunkWidth floorFound defaultSettings ≤ chunkWidth o.progress defaultSettings := by
  obtain ⟨o, h, -⟩ := exists_ok_of_toOption
    (x := settleStep floorFound [searched 0 86400 .complete] (seconds 9000000) defaultSettings)
    (f := fun _ => ()) (b := ()) (by decide)
  exact ⟨o, h, (silent_step_keeps_width_iff h (by decide) (by decide)).mpr (by decide)⟩

def silentAfterFailure : List (List ChunkResult × Int) :=
  [searched 0 86400 .complete, searched 86400 259200 .complete, searched 259200 604800 .complete,
    searched 604800 1209600 .failed, searched 604800 907200 .complete, searched 907200 1209600 .complete,
    searched 1209600 1512000 .complete].map (fun r => ([r], seconds 9000000))

theorem silent_step_narrows : ∃ tr p, SettleRun defaultSettings floorFound tr p ∧ ∃ e ∈ tr,
    (∀ r ∈ e.input.1, r.isDone defaultSettings = true) ∧ (∀ r ∈ e.input.1, r.nonSilentBuckets = 0) ∧
      chunkWidth e.output.progress defaultSettings < chunkWidth e.before defaultSettings := by
  obtain ⟨tr, p, h, hv⟩ := exists_run_of_replay
    (fun p i => settleStep p i.1 i.2 defaultSettings) (·.progress) floorFound silentAfterFailure
    (fun r => r.1.any (fun e => decide ((∀ r ∈ e.input.1, r.isDone defaultSettings = true) ∧
      (∀ r ∈ e.input.1, r.nonSilentBuckets = 0) ∧
        chunkWidth e.output.progress defaultSettings < chunkWidth e.before defaultSettings))) true (by with_unfolding_all decide)
  obtain ⟨e, he, hnarrows⟩ := List.any_eq_true.mp hv
  exact ⟨tr, p, h, e, he, of_decide_eq_true hnarrows⟩

/-- The width stays between the minimum and the span of a search and below the failure ceiling. A step doubles it at
most, unless it is the first that sees a density, and one that sees one fits the rows. -/
theorem lawful_widths {st : PlannerSettings ℚ} {p₀ p : ScopeProgress Int ℚ} {tr : List (SettledStep ℚ)}
    (hbuckets : p₀.chunkBuckets = none) (hceiling : p₀.chunkCeiling = none)
    (hspan : st.minChunkBuckets ≤ st.maxSpanBuckets) (h : SettleRun st p₀ tr p)
    (hplanned : ∀ e ∈ tr, PlannedStep st e) :
    LawfulWidths st p ∧ ∀ tr₁ e tr₂, tr = tr₁ ++ e :: tr₂ → LawfulWidths st e.output.progress ∧
      (∀ w, e.output.progress.chunkBuckets = some w → w ≤ 2 * chunkWidth e.before st ∨
        (stepDensity st e.input.1 ≠ none ∧ ∀ e' ∈ tr₁, stepDensity st e'.input.1 = none)) ∧
      ((∀ b ∈ blockerOf st e.input.1, b.status = .notRun) → ∀ ρ, stepDensity st e.input.1 = some ρ → 0 < ρ →
        ∃ w, e.output.progress.chunkBuckets = some w ∧
          (w = st.minChunkBuckets ∨ 1.25 * ρ * w ≤ st.rowTargetRows)) := by
  refine ⟨(h.widths hbuckets hceiling hspan hplanned).1, fun tr₁ e tr₂ htr => ?_⟩
  subst htr
  obtain ⟨hlawful, hunsized⟩ := SettleRun.widths h.before hbuckets hceiling hspan
    (fun e' he' => hplanned e' (List.mem_append_left _ he'))
  have hstep := h.taken e (by simp)
  have heffect := settleStep_width hstep
  obtain ⟨hnext, hgrows, -⟩ :=
    hlawful.step hspan (fun r hr => ((hplanned e (by simp)).counts r hr).2) heffect
  refine ⟨hnext, fun w hw => (hgrows w hw).imp id (fun hfirst => ⟨hfirst.2, hunsized hfirst.1⟩), ?_⟩
  intro hread ρ hρ hpos
  cases heffect with
  | sized u hu hrecent _ hwidths =>
    obtain ⟨_, w, hw, _, hfits⟩ := hlawful.sized hspan hu hwidths
    exact ⟨w, hw, rows_le_of_fit hpos (hnext.buckets w hw).1 (hfits ρ (hrecent.trans hρ))⟩
  | kept _ _ _ hdensity =>
    rw [hdensity] at hρ
    cases hρ
  | failed b hblocker hstatus | truncated b hblocker hstatus =>
    rw [hread b hblocker] at hstatus
    cases hstatus

def tenSearches : StepBudget ℚ := ⟨10, 60, by decide⟩

theorem lawful_widths_dense_day : ∃ tr p, SettleRun defaultSettings floorFound tr p ∧ LawfulWidths defaultSettings p ∧
    p.chunkBuckets = some 57 := by
  obtain ⟨tr, p, h, hv⟩ := exists_run_of_replay
    (fun p i => settleStep p i.1 i.2 defaultSettings) (·.progress) floorFound
    [([{ searched 0 86400 .complete with rows := 16000, nonSilentBuckets := 288 }], seconds 9000000)]
    (fun r => (r.1.all (fun e => (planStep e.before 0 e.input.2 tenSearches defaultSettings).toOption.any (fun plan =>
      plan.action = .read && (e.input.1.map (·.span)).isPrefixOf plan.chunks)), r.2.chunkBuckets))
    (true, some 57) (by with_unfolding_all decide)
  obtain ⟨hplanned, hwidth⟩ := Prod.mk.inj hv
  refine ⟨tr, p, h, (lawful_widths rfl rfl (by decide) h (fun e he => ?_)).1, hwidth⟩
  exact plannedStep_of_plan 0 tenSearches (List.all_eq_true.mp hplanned e he)

/-! ## A stretch that cannot be read -/

/-- Steps whose first chunk comes back failed or truncated stay where they are while the width halves and the failures
at the minimum are counted, if none is truncated at the minimum width. -/
theorem stalled_steps_bounded {p₀ p : ScopeProgress Int φ} {tr tr₁ tr₂ tr₃ : List (SettledStep φ)}
    (hspan : st.minChunkBuckets ≤ st.maxSpanBuckets) (hfailures : 0 ≤ p₀.failures) (h : SettleRun st p₀ tr p)
    (htr : tr = tr₁ ++ tr₂ ++ tr₃) (hplanned : ∀ e ∈ tr₂, PlannedStep st e) (hblocked : ∀ e ∈ tr₂, FirstChunkBlocked e)
    (hcond : ∀ e ∈ tr₂, ¬ TruncatedAtMinimum st e) (hstalled : ∀ e ∈ tr₂, Stalled st e) :
    (tr₂.length : Int) ≤ Nat.clog 2 st.maxSpanBuckets.toNat + st.maxFailures := by
  subst htr
  obtain ⟨s, h, -⟩ := h.split
  obtain ⟨s₁, h₁, h₂⟩ := h.split
  have hused := SettleRun.stalled h₂ hplanned hblocked hstalled hcond
  have hleft : (stallsLeft st s₁ : Int) ≤ _ := stallsLeft_le hspan (SettleRun.failures_nonneg h₁ hfailures)
  omega

def hourlySettings : PlannerSettings ℚ := { defaultSettings with minChunkBuckets := 12, chunkWidths_ok := by decide }

def failedDown : List (List ChunkResult × Int) :=
  [86400, 43200, 21600, 10800, 5400, 3600, 3600].map (fun stop => ([searched 0 stop .failed], seconds 9000000))

def stallCheck (status : SearchStatus) (r : List (SettledStep ℚ) × ScopeProgress Int ℚ) : Bool :=
  r.1.all (fun e => (planStep e.before 0 e.input.2 tenSearches hourlySettings).toOption.any (fun plan =>
      plan.action = .read && (e.input.1.map (·.span)).isPrefixOf plan.chunks) &&
    e.input.1.length = 1 && e.input.1.all (fun b => b.status = status) && e.output.trigger.isNone &&
    decide (nextStart e.output.progress hourlySettings = nextStart e.before hourlySettings))

theorem stallCheck_steps {status r}
    (h : stallCheck status r = true) : ∀ e ∈ r.1, PlannedStep hourlySettings e ∧ Stalled hourlySettings e ∧
      ∃ b, e.input.1 = [b] ∧ b.status = status := by
  intro e he
  have hcheck := List.all_eq_true.mp h e he
  simp only [Bool.and_eq_true, decide_eq_true_eq, Option.isNone_iff_eq_none] at hcheck
  obtain ⟨⟨⟨⟨hplan, hlength⟩, hstatus⟩, htrigger⟩, hstay⟩ := hcheck
  obtain ⟨b, hb⟩ := List.length_eq_one_iff.mp hlength
  rw [hb] at hstatus
  exact ⟨plannedStep_of_plan 0 tenSearches hplan, ⟨hstay, htrigger⟩, b, hb, by simpa using hstatus⟩

theorem stalled_steps_bounded_failed_down : ∃ tr p, SettleRun hourlySettings floorFound tr p ∧ tr.length = 7 ∧
    (tr.length : Int) ≤ Nat.clog 2 hourlySettings.maxSpanBuckets.toNat + hourlySettings.maxFailures := by
  obtain ⟨tr, p, h, hv⟩ := exists_run_of_replay
    (fun p i => settleStep p i.1 i.2 hourlySettings) (·.progress) floorFound failedDown
    (fun r => (stallCheck .failed r, r.1.length)) (true, 7) (by with_unfolding_all decide)
  obtain ⟨hcheck, hlength⟩ := Prod.mk.inj hv
  have hsteps := stallCheck_steps hcheck
  refine ⟨tr, p, h, hlength, stalled_steps_bounded (by decide) (Int.le_refl 0) h
    (show tr = [] ++ tr ++ [] by simp) (fun e he => (hsteps e he).1)
      (fun e he => ?_) (fun e he => ?_) (fun e he => (hsteps e he).2.1)⟩
  · obtain ⟨-, -, b, hb, hstatus⟩ := hsteps e he
    exact ⟨b, [], hb, .inl hstatus⟩
  · rintro ⟨-, b, rest, hb, hstatus, -⟩
    obtain ⟨-, -, b', hb', hstatus'⟩ := hsteps e he
    cases hb'.symm.trans hb
    rw [hstatus'] at hstatus
    cases hstatus

def truncatedHour : List (List ChunkResult × Int) :=
  [86400, 43200, 21600, 10800, 5400, 3600, 3600, 3600, 3600, 3600, 3600, 3600, 3600, 3600, 3600].map
    (fun stop => ([searched 0 stop .truncated], seconds 9000000))

theorem truncated_hour_not_passed : ∃ tr p, SettleRun hourlySettings floorFound tr p ∧
    (∀ e ∈ tr, PlannedStep hourlySettings e ∧ FirstChunkBlocked e ∧ Stalled hourlySettings e) ∧
      Nat.clog 2 hourlySettings.maxSpanBuckets.toNat + hourlySettings.maxFailures < (tr.length : Int) := by
  obtain ⟨tr, p, h, hv⟩ := exists_run_of_replay
    (fun p i => settleStep p i.1 i.2 hourlySettings) (·.progress) floorFound truncatedHour
    (fun r => (stallCheck .truncated r, r.1.length)) (true, 15) (by with_unfolding_all decide)
  obtain ⟨hcheck, hlength⟩ := Prod.mk.inj hv
  refine ⟨tr, p, h, fun e he => ?_, ?_⟩
  · obtain ⟨hplanned, hstalled, b, hb, hstatus⟩ := stallCheck_steps hcheck e he
    exact ⟨hplanned, ⟨b, [], hb, .inr hstatus⟩, hstalled⟩
  · rw [hlength]
    decide

end Planner

section Lifecycle

variable {φ : Type} {family : HistoryFamily} {instanceId : String}

/-! ## A scope reads only behind an anchor -/

/-- The times of each stored row agree with its state and `scopeAction` does not raise on it. The READING rows all have
an anchor exactly when no tick restarts a finished row without one while there is no live data. -/
theorem scope_run_anchored_iff {tr : List (TickTaken φ)} {stored : Option (ScopeRow φ)} (hw : ConsoleWide family)
    (h : ScopeRun instanceId family tr stored) :
    (∀ e ∈ tr, ∀ row, e.output = some row → RowOk row) ∧
    (∀ decision live switchOn, ∃ action, scopeAction family (consoleMode decision) decision
      (stored.map (·.toScopeRowView)) live.isSome live switchOn = .ok action) ∧
    ((∀ e ∈ tr, Anchored e.output) ↔ ∀ e ∈ tr, ¬ RestartsUnanchored e) := by
  obtain ⟨hrows, hlast⟩ := h.rowOk hw
  refine ⟨hrows, fun d live switchOn => scopeAction_total hw hlast d live switchOn, ?_, h.anchored hw⟩
  intro hall e he hr
  exact hr.unanchored hw (h.taken e he) (hall e he)

def yes (start stop : Option Int) : DecisionView where
  answer := .yes
  days := some 30
  startRequestedAt := start
  startRequestedBy := start.map (fun _ => "admin")
  stopRequestedAt := stop
  stopRequestedBy := stop.map (fun _ => "admin")
  days_ok := by simp
  start_ok := by simp
  stop_ok := by simp
  requests_ok := fun _ => rfl

theorem scope_run_anchored_iff_waits_then_reads : ∃ tr stored,
    ScopeRun (φ := ℚ) "lab" .phaseA tr stored ∧
    stored.map (fun row => (row.state, row.anchor)) = some (.reading, some 600) ∧
    ∀ e ∈ tr, Anchored e.output := by
  obtain ⟨tr, stored, h, hv⟩ := exists_run_of_replay (tick (φ := ℚ) "lab" .phaseA) id none
    [{ decision := some (yes none none), liveAnchor := none, switchOn := true, now := 500 },
      { decision := some (yes none none), liveAnchor := some 600, switchOn := true, now := 900 }]
    (fun r => (r.2.map (fun row => (row.state, row.anchor)),
      r.1.all (fun e => (e.input.decision.bind (·.startRequestedAt)).isNone)))
    (some (.reading, some 600), true) (by decide)
  obtain ⟨hrow, hnostart⟩ := Prod.mk.inj hv
  refine ⟨tr, stored, h, hrow, (scope_run_anchored_iff ⟨rfl, rfl⟩ h).2.2.mpr ?_⟩
  rintro e he ⟨row, d, _, hd, ⟨_, _, _, started, _, hstart, _⟩, _⟩
  have := List.all_eq_true.mp hnostart e he
  simp [hd, hstart] at this

/-- A scope that is stopped while it waits and then restarted reads without an anchor. -/
theorem restart_reads_unanchored : ∃ tr stored, ScopeRun (φ := ℚ) "lab" .phaseA tr stored ∧
    (∀ e ∈ tr, e.input.liveAnchor = none) ∧ ¬ ∀ e ∈ tr, Anchored e.output := by
  obtain ⟨tr, stored, h, hv⟩ := exists_run_of_replay (tick (φ := ℚ) "lab" .phaseA) id none
    [{ decision := some (yes none none), liveAnchor := none, switchOn := true, now := 0 },
      { decision := some (yes none (some 5)), liveAnchor := none, switchOn := true, now := 10 },
      { decision := some (yes (some 20) (some 5)), liveAnchor := none, switchOn := true, now := 30 }]
    (fun r => (r.1.all (fun e => e.input.liveAnchor.isNone),
      r.1.getLast?.bind (fun e => e.output.map (fun row => (row.state, row.anchor)))))
    (true, some (.reading, none)) (by decide)
  obtain ⟨hlive, hlast⟩ := Prod.mk.inj hv
  refine ⟨tr, stored, h, fun e he => by simpa using List.all_eq_true.mp hlive e he, fun hall => ?_⟩
  obtain ⟨e, he, hrow⟩ := Option.bind_eq_some_iff.mp hlast
  obtain ⟨row, hout, hrow⟩ := Option.map_eq_some_iff.mp hrow
  obtain ⟨hst, hanchor⟩ := Prod.mk.inj hrow
  have := hall e (List.mem_of_getLast? he) row hout hst
  simp [hanchor] at this

end Lifecycle

section Codec

variable {φ : Type} [PyFloat φ]

/-! ## Stored progress is read back -/

/-- A document of version `v` is read back exactly when `v` is not 1, the release counter is not negative and UTC can
represent its times; what the decoder accepts can be stored again. -/
theorem stored_progress_decodes_iff {p : ScopeProgress DateTime φ} {v : Int}
    (hv : v = 1 ∨ v = 2 ∨ v = 3) (haware : p.All (fun t => t.utcoffset.isSome = true))
    (hfinite : ∀ x ∈ p.recentRowsPerBucket, PyFloat.isfinite x = true) (repr : Json φ → String)
    (adapter : JsonObject φ) :
    ((storedProgress v p adapter >>= decodeProgress repr) =
        .ok ⟨restored v (p.map DateTime.utc), adapter⟩ ↔
      v ≠ 1 ∧ 0 ≤ p.ceilingSuccesses ∧ p.All DateTime.InRange) ∧
    storedProgress 3 p adapter = encodeProgress p adapter ∧
    (p.All DateTime.InRange →
      (p.map DateTime.utc).map DateTime.timestamp = p.map DateTime.timestamp) ∧
    (∀ data r, decodeProgress repr data = .ok r →
      ∃ data', encodeProgress r.progress r.adapter = .ok data' ∧ decodeProgress repr data' = .ok r) := by
  refine ⟨⟨fun h => ?_, ?_⟩, ?_, fun hrange => ?_, fun data r h => ?_⟩
  · obtain ⟨doc, hdoc, h⟩ := bind_ok h
    obtain ⟨body, hbody, _⟩ := bind_ok hdoc
    have henc := encodable_of_encodeBody hbody
    rw [storedProgress_ok henc hfinite] at hdoc
    cases hdoc
    rw [decodeProgress_document repr hv] at h
    obtain ⟨hkeys, hfields, _⟩ := decodeFields_ok h
    have hne : v ≠ 1 := by
      rintro rfl
      rw [keysAre_version1] at hkeys
      cases hkeys
    have hceiling := (decodable_of_decodeBody hfields).ceiling
    rw [show (restored v (p.map DateTime.utc)).ceilingSuccesses = p.ceilingSuccesses from
      if_neg (by omega)] at hceiling
    exact ⟨hne, hceiling, henc.imp (fun _ ht => ht.2)⟩
  · rintro ⟨hne, hceiling, hrange⟩
    have henc : p.All Encodable := haware.and hrange
    rw [storedProgress_ok henc hfinite]
    exact decodeProgress_stored (hv.resolve_left hne) (decodable_map_utc henc hceiling hfinite) repr adapter
  · unfold storedProgress encodeProgress
    have hall : ∀ body : JsonObject φ, body.filter (fun m => !(absentAt 3).contains m.1) = body :=
      fun body => List.filter_eq_self.mpr (fun _ _ => rfl)
    simp only [hall]
    rfl
  · rw [ScopeProgress.map_map]
    refine ((haware.and hrange).imp (fun t ht => ?_)).map_congr
    obtain ⟨o, ho⟩ := Option.isSome_iff_exists.mp ht.1
    exact (DateTime.utc_spec ho ht.2).2
  · have hdec := decodable_of_decodeProgress h
    refine ⟨_, encodeProgress_ok hdec.encodable hdec.density r.adapter, ?_⟩
    rw [hdec.map_utc]
    exact decodeProgress_stored (Or.inr rfl) hdec repr r.adapter

def noonPlusThree : DateTime where
  year := 2026
  month := 9
  day := 1
  hour := 12
  minute := 0
  second := 0
  microsecond := 0
  utcoffset := some 10800000000
  date_ok := by decide
  time_ok := by decide
  offset_ok := by rintro _ ⟨⟩; decide

def justStarted : ScopeProgress DateTime ℚ := { targetStart := noonPlusThree, startedAt := noonPlusThree }

theorem justStarted_all {P : DateTime → Prop} (h : P noonPlusThree) : justStarted.All P :=
  ⟨h, h, by simp [justStarted], by simp [justStarted], by simp [justStarted], by simp [justStarted],
    by simp [justStarted]⟩

theorem stored_progress_decodes_iff_version2 :
    (storedProgress 2 justStarted [("sources", .arr [])] >>= decodeProgress (fun _ => "")) =
      .ok ⟨restored 2 (justStarted.map DateTime.utc), [("sources", .arr [])]⟩ := by
  refine (stored_progress_decodes_iff (by decide) (justStarted_all rfl) (by simp [justStarted]) _ _).1.mpr
    ⟨by decide, by decide, justStarted_all ?_⟩
  intro o ho
  cases ho
  exact Or.inr (by decide)

theorem version1_document_refused : ∃ doc, storedProgress 1 justStarted [] = .ok doc ∧
    ∀ repr r, decodeProgress (φ := ℚ) repr doc ≠ .ok r := by
  have henc : justStarted.All Encodable := by
    refine justStarted_all ⟨rfl, fun o ho => ?_⟩
    cases ho
    exact Or.inr (by decide)
  refine ⟨_, storedProgress_ok henc (by simp [justStarted]) 1 [], fun repr r h => ?_⟩
  rw [decodeProgress_document repr (Or.inl rfl)] at h
  have hkeys := (decodeFields_ok h).1
  rw [keysAre_version1] at hkeys
  cases hkeys

end Codec

section Restart

variable {φ : Type} [PyFloat φ] {instanceId scopeKey : String} {family : HistoryFamily}

/-! ## A restarted reading starts anew -/

/-- A scope restarted at `now` and then only deferred or written reads as not started exactly if the finished reading
started before `now`, or the reason is still the restart's; a step's progress is read back exactly if it no longer is.
-/
theorem restarted_not_continued_iff {mode : ConsoleMode} {decision : DecisionView} {row : ScopeRowView φ}
    {hasLiveData : Bool} {liveAnchor : Option Int} {switchOn : Bool} {action : ScopeAction} {now target : Int}
    {restarted stored : ScopeRow φ} {repr : Json φ → String} {body : JsonObject φ} {finished : DecodedProgress φ}
    {tr : List (Taken (ScopeRow φ) IdleWrite (ScopeRow φ))}
    (haction : scopeAction family mode (some decision) (some row) hasLiveData liveAnchor switchOn = .ok action)
    (htrigger : action.trigger = some .restart) (hbody : row.progress = some body)
    (hfinished : decodeProgress repr (.obj body) = .ok finished) (htarget : row.targetStart = some target)
    (hrestarted : transitionRow action instanceId family scopeKey row decision now = .ok restarted)
    (hrun : Run (idleWrite instanceId family scopeKey) id restarted tr stored) :
    (decodeScope repr stored.toScopeRowView = .ok none ↔
      finished.progress.startedAt.timestamp < now ∨ heldReason (tr.map Taken.input) = restartReason) ∧
    ∀ {changes : RowChanges φ} {p : ScopeProgress DateTime φ} {adapter body' : JsonObject φ},
      encodeProgress p adapter = .ok (.obj body') → changes.progress = some body' →
      (changedRow stored changes).targetStart = some p.targetStart.timestamp →
      (∀ started ∈ (changedRow stored changes).startedAt, started ≤ p.startedAt.timestamp) →
      (decodeScope repr (changedRow stored changes).toScopeRowView = .ok (some ⟨p.map DateTime.utc, adapter⟩) ↔
        (changedRow stored changes).reason ≠ some restartReason ∧ 0 ≤ p.ceilingSuccesses ∧
          (changedRow stored changes).state ≠ .waiting ∧ (changedRow stored changes).state ≠ .notEligible) := by
  constructor
  · have hold := (transitionRow_restart (scopeAction_restart haction htrigger) hrestarted hbody).run hrun
    rw [htarget] at hold
    exact hold.decode hfinished
  · intro changes p adapter body' hstored hchanges hwindow hstarted
    exact decodeScope_stored hstored (by simp [changedRow, stepRow, hchanges]) hwindow hstarted

def justStartedBody : JsonObject ℚ :=
  [("version", .int 3), ("progress", .obj (storedBody 3 (justStarted.map DateTime.utc))), ("adapter", .obj [])]

theorem encode_justStarted : encodeProgress justStarted [] = .ok (.obj justStartedBody) := by
  have henc : justStarted.All Encodable := by
    refine justStarted_all ⟨rfl, fun o ho => ?_⟩
    cases ho
    exact Or.inr (by decide)
  exact encodeProgress_ok henc (by simp [justStarted]) []

theorem decode_justStarted :
    decodeProgress (fun _ => "") (.obj justStartedBody) = .ok ⟨justStarted.map DateTime.utc, []⟩ :=
  (decode_of_encodeProgress encode_justStarted _).2.mpr (by decide)

def finishedReading : ScopeRowView ℚ where
  state := .complete
  targetStart := some noonPlusThree.timestamp
  startedAt := some noonPlusThree.timestamp
  finishedAt := some noonPlusThree.timestamp
  progress := some justStartedBody

def readAgain : DecisionView := yes (some (noonPlusThree.timestamp + seconds 1)) none

def topUp : ScopeAction where
  kind := .transition
  state := some .reading
  trigger := some .restart
  reason := restartReason
  anchor := some noonPlusThree.timestamp

theorem scopeAction_topUp : scopeAction .phaseA .active (some readAgain) (some finishedReading) true
    (some noonPlusThree.timestamp) true = .ok topUp := by
  obtain ⟨action, haction, heq⟩ := exists_ok_of_toOption (f := fun action => action) (b := topUp)
    (x := scopeAction .phaseA .active (some readAgain) (some finishedReading) true (some noonPlusThree.timestamp) true)
    (by decide)
  rw [haction, heq]

def toppedUp : ScopeRow ℚ where
  toScopeRowView := { finishedReading with
    state := .reading
    daysRequested := some 30
    anchor := some noonPlusThree.timestamp
    finishedAt := none
    reason := some restartReason }
  instanceId := "lab"
  family := .phaseA
  scopeKey := ""

theorem transitionRow_toppedUp :
    transitionRow topUp "lab" .phaseA "" finishedReading readAgain noonPlusThree.timestamp = .ok toppedUp := by
  have hreason : boundedReason restartReason = restartReason := by decide
  unfold transitionRow
  simp only [topUp, hreason]
  rfl

theorem restarted_not_continued_iff_roundTrip :
    decodeScope (fun _ => "") toppedUp.toScopeRowView = .ok none ∧
    decodeScope (fun _ => "")
      (changedRow toppedUp { reason := some "read 2 bucket(s)", progress := some justStartedBody }).toScopeRowView =
      .ok (some ⟨justStarted.map DateTime.utc, []⟩) := by
  have hreason : boundedReason "read 2 bucket(s)" ≠ restartReason := by decide
  have h := restarted_not_continued_iff scopeAction_topUp rfl rfl decode_justStarted rfl transitionRow_toppedUp
    (Run.nil.snoc (i := .roundTrip) (o := toppedUp) rfl)
  refine ⟨h.1.mpr (Or.inr rfl), (h.2 encode_justStarted rfl rfl ?_).mpr ⟨?_, by decide, by decide, by decide⟩⟩
  · exact fun started hs => le_of_eq (Option.some.inj hs).symm
  · simp [changedRow, stepRow, hreason]

/-- Deferred once, with the clock where it was, it is the finished reading's row. -/
theorem deferred_restart_continues :
    scopeAction .phaseA .active (some readAgain) (some finishedReading) true (some noonPlusThree.timestamp) true =
      .ok topUp ∧
    transitionRow topUp "lab" .phaseA "" finishedReading readAgain noonPlusThree.timestamp = .ok toppedUp ∧
    ∃ stored tr, Run (idleWrite "lab" .phaseA "") id toppedUp tr stored ∧
    tr.map Taken.input = [.deferred "deferred: no Ariel permit within 30 s"] ∧
    decodeScope (fun _ => "") stored.toScopeRowView = .ok (some ⟨justStarted.map DateTime.utc, []⟩) := by
  have hwrite : idleWrite "lab" .phaseA "" toppedUp (.deferred "deferred: no Ariel permit within 30 s") =
      .ok { toppedUp with reason := some (boundedReason "deferred: no Ariel permit within 30 s") } := rfl
  have hreason : boundedReason "deferred: no Ariel permit within 30 s" ≠ restartReason := by decide
  refine ⟨scopeAction_topUp, transitionRow_toppedUp, _, _, Run.nil.snoc hwrite, rfl, ?_⟩
  refine (decodeScope_stored encode_justStarted rfl rfl ?_).mpr ⟨?_, by decide, by decide, by decide⟩
  · exact fun started hs => le_of_eq (Option.some.inj hs).symm
  · simp [hreason]

end Restart

section Rows

variable {φ : Type} [PyFloat φ]

/-! ## Phase A rows do not depend on how the reading is cut -/

open PhaseA in
/-- Folding completed buckets step by step gives what one step gives, and each source is written from its floor on. -/
theorem fold_partition {args : FoldArgs φ} {calls : List (List (Int × CollectedBucket φ))}
    (h : Ascending args calls.flatten) :
    (∀ floors, ∃ fold, foldStep args calls.flatten floors = .ok fold ∧ foldSteps args calls floors = .ok fold) ∧
    ∀ fold, foldSteps args calls {} = .ok fold →
      (∀ row ∈ fold.rows, ∃ source ∈ args.monitored.ids, row.logSourceId = source.2) ∧
      ∀ source ∈ args.monitored.ids, ∀ bucket,
        fold.rows.filter (fun row => row.logSourceId = source.2 && row.bucketStart = bucket) =
          expectedRows args calls.flatten source bucket := by
  constructor
  · intro floors
    obtain ⟨_, _, hfold⟩ := foldStep_ok h floors
    exact ⟨_, hfold, (foldSteps_eq h floors).trans hfold⟩
  · intro fold hfold
    exact foldStep_rows h ((foldSteps_eq h {}).symm.trans hfold)

def oneSource : PhaseA.FoldArgs ℚ where
  monitored := ⟨[(7, "source")], by decide, by decide⟩
  readStart := 0
  targetStart := 0
  settings := defaultSettings
  source := ⟨"metric_collector", "MockProvider", none, [], true⟩

def collected (samples : List (LogSourceMetricSample ℚ)) : CollectedBucket ℚ :=
  { samples := samples, searchWindowStart := 0, searchWindowEnd := seconds 300, searchBucketCount := 1, splitDepth := 0 }

def dayApart : List (List (Int × CollectedBucket ℚ)) :=
  [[(0, collected [{ qradarId := 7, bucketStart := 0, eventCount := 3 }])], [(seconds 86400, collected [])]]

theorem fold_partition_day_apart : ∃ fold, PhaseA.foldStep oneSource dayApart.flatten {} = .ok fold ∧
    PhaseA.foldSteps oneSource dayApart {} = .ok fold ∧
    fold.rows.map (fun row => (row.logSourceId, row.bucketStart, row.columns.eventCount)) =
      [("source", seconds 86400, 0)] := by
  have hascending : PhaseA.Ascending oneSource dayApart.flatten :=
    ⟨by decide, by decide, by decide⟩
  obtain ⟨fold, hfold, hrows⟩ := exists_ok_of_toOption (x := PhaseA.foldSteps oneSource dayApart {})
    (f := fun fold => fold.rows.map (fun row => (row.logSourceId, row.bucketStart, row.columns.eventCount)))
    (b := [("source", seconds 86400, 0)]) (by decide)
  obtain ⟨fold', hone, hsteps⟩ := (fold_partition hascending).1 {}
  cases hfold.symm.trans hsteps
  exact ⟨fold, hone, hfold, hrows⟩

end Rows

end QRadarDashboard.History
