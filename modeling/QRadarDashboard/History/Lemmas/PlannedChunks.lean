import QRadarDashboard.History.Lemmas.Width

/-!
# Steps over planned chunks
-/

namespace QRadarDashboard.History
open Lib

variable {φ : Type} [PyFloat φ] {st : PlannerSettings φ} {p q : ScopeProgress Int φ} {rs : List ChunkResult}

/-! ## The chunks of a plan -/

theorem count_of_count {start k} : Span.count st ⟨start, start + k * st.bucket⟩ = k := by
  have hbucket := st.bucket_pos
  rw [Span.count]
  simp only [add_sub_cancel_left]
  exact Int.mul_ediv_cancel _ (by omega)

theorem Chunked.count_of_mem {width start n chunks} (h : Chunked st width start chunks n)
    {chunk} (hmem : chunk ∈ chunks) : 0 < chunk.count st ∧ chunk.count st ≤ width := by
  induction h with
  | nil => cases hmem
  | cons hpos hwidth _ ih =>
    rcases List.mem_cons.mp hmem with rfl | hmem
    · rw [count_of_count]
      exact ⟨hpos, hwidth⟩
    · exact ih hmem

theorem Chunked.tiles {width start n chunks} (h : Chunked st width start chunks n) :
    Tiles start (chunks.map Span.pair) (start + n * st.bucket) := by
  induction h with
  | nil => simp [Tiles]
  | @cons start k n chunks hpos _ _ ih =>
    have hbucket := Int.mul_pos hpos st.bucket_pos
    rw [List.map_cons]
    refine ⟨rfl, ?_, ?_⟩
    · simp only [Span.pair]
      omega
    · rw [add_mul, ← add_assoc]
      exact ih

theorem Chunked.aligned {width start n chunks} (h : Chunked st width start chunks n)
    (hstart : st.bucket ∣ start) : ∀ chunk ∈ chunks, chunk.Aligned st := by
  induction h with
  | nil => exact fun _ hmem => by cases hmem
  | cons _ _ _ ih =>
    intro chunk hmem
    rcases List.mem_cons.mp hmem with rfl | hmem
    · exact ⟨hstart, Chunked.dvd_next hstart⟩
    · exact ih (Chunked.dvd_next hstart) chunk hmem

structure PlannedChunks (st : PlannerSettings φ) (p : ScopeProgress Int φ) (start stop searches : Int)
    (chunks : List (Span Int)) (n : Int) : Prop where
  next : nextStart p st = some start
  start_aligned : st.bucket ∣ start
  stop_aligned : st.bucket ∣ stop
  chunked : Chunked st (chunkWidth p st) start chunks n
  full : ∀ chunk ∈ chunks.dropLast, chunk.count st = chunkWidth p st
  before : start + n * st.bucket ≤ stop
  within : n ≤ max 0 st.maxSpanBuckets
  pos : 1 ≤ st.maxSpanBuckets → 0 < n
  paid : (chunks.length : Int) ≤ searches

theorem tileChunks_full {width} : ∀ (rounds : Nat) (cursor left : Int),
    ∀ chunk ∈ (tileChunks st width rounds cursor left).dropLast, chunk.count st = width := by
  intro rounds
  induction rounds with
  | zero => intro cursor left chunk hmem; cases hmem
  | succ rounds ih =>
    intro cursor left chunk hmem
    rw [tileChunks] at hmem
    split at hmem
    · dsimp only at hmem
      cases hrest : tileChunks st width rounds (cursor + min width left * st.bucket) (left - min width left) with
      | nil => simp [hrest] at hmem
      | cons next rest =>
        rw [hrest, List.dropLast_cons_cons, ← hrest] at hmem
        rcases List.mem_cons.mp hmem with rfl | hmem
        · -- a chunk that is followed by another one has not used up what is left
          have hmore : width ≤ left := by
            by_contra hless
            have hzero : left - min width left ≤ 0 := by omega
            cases rounds with
            | zero => simp [tileChunks] at hrest
            | succ rounds => simp [tileChunks, show ¬ width < left by omega] at hrest
          rw [count_of_count, min_eq_left hmore]
        · exact ih _ _ chunk hmem
    · cases hmem

theorem planStep_chunks {now stop budget enabled stopRequested plan}
    (h : planStep p now stop budget st enabled stopRequested = .ok plan) (hread : plan.action = .read) :
    ∃ start n, start < stop ∧ PlannedChunks st p start stop budget.searches plan.chunks n := by
  obtain ⟨start, hnext, hstop, hlt, hpaid, hplan⟩ := planStep_read_ok h hread
  rw [planRead] at hplan
  obtain ⟨_, halign, hplan⟩ := bind_ok hplan
  obtain ⟨remaining, hremaining, hplan⟩ := bind_ok hplan
  cases hplan
  have hstart := requireAligned_ok.mp halign
  have haligned : Span.Aligned st ⟨start, stop⟩ := ⟨hstart, hstop⟩
  have hcount := Span.count_mul haligned
  have hwidth := chunkWidth_pos p st
  have hbucket := st.bucket_pos
  rw [bucketsBetween_aligned haligned hlt.le] at hremaining
  cases hremaining
  generalize hn : Span.count st ⟨start, stop⟩ = remaining at hcount
  have hremaining_pos : 0 < remaining := by
    by_contra hneg
    have := Int.mul_le_mul_of_nonneg_right (show remaining ≤ 0 by omega) hbucket.le
    simp only at hcount
    omega
  have hproduct := Int.mul_pos hwidth hpaid
  generalize hleft : min (min remaining st.maxSpanBuckets) (chunkWidth p st * budget.searches) = left
  refine ⟨start, max 0 left, hlt, hnext, hstart, hstop, ?_, tileChunks_full _ _ _, ?_, by omega, by omega, ?_⟩
  · by_cases hpos : 0 ≤ left
    · rw [max_eq_right hpos]
      exact tileChunks_chunked hwidth left.toNat start left hpos (by omega)
    · rw [show left.toNat = 0 by omega, max_eq_left (by omega)]
      exact .nil
  · have hle : max 0 left ≤ remaining := by omega
    have := Int.mul_le_mul_of_nonneg_right hle hbucket.le
    simp only at hcount
    omega
  · have hle : left ≤ chunkWidth p st * (budget.searches.toNat : Int) := by
      rw [Int.toNat_of_nonneg hpaid.le, ← hleft]
      exact min_le_right _ _
    have hlength : (tileChunks st (chunkWidth p st) left.toNat start left).length ≤ _ :=
      length_tileChunks hwidth left.toNat start left hle
    simp only
    omega

/-- The first spans of a list, the last of them cut at a whole bucket. -/
inductive CutFrom (st : PlannerSettings φ) : List (Span Int) → List (Span Int) → Prop
  | nil {chunks} : CutFrom st [] chunks
  | cut {start stop k rest} (hpos : 0 < k) (hle : start + k * st.bucket ≤ stop) :
      CutFrom st [⟨start, start + k * st.bucket⟩] (⟨start, stop⟩ :: rest)
  | cons {chunk spans chunks} (rest : CutFrom st spans chunks) : CutFrom st (chunk :: spans) (chunk :: chunks)

theorem CutFrom.of_isPrefix : ∀ {spans chunks : List (Span Int)}, spans <+: chunks → CutFrom st spans chunks := by
  intro spans
  induction spans with
  | nil => exact fun _ => .nil
  | cons span spans ih =>
    intro chunks h
    obtain ⟨rest, rfl⟩ := h
    exact .cons (ih (List.prefix_append spans rest))

theorem CutFrom.chunked {spans chunks} (h : CutFrom st spans chunks) : ∀ {width start n : Int},
    Chunked st width start chunks n → ∃ m, m ≤ n ∧ Chunked st width start spans m := by
  induction h with
  | nil => exact fun hchunks => ⟨0, hchunks.nonneg, .nil⟩
  | @cut start stop k rest hpos hle =>
    intro width start' n hchunks
    cases hchunks with
    | @cons _ whole n _ hwhole hwidth hrest =>
      have hk : k ≤ whole := by
        by_contra hlt
        have := Int.mul_le_mul_of_nonneg_right (show whole + 1 ≤ k by omega) st.bucket_pos.le
        have hbucket := st.bucket_pos
        rw [add_mul, one_mul] at this
        omega
      have hrest := hrest.nonneg
      exact ⟨k + 0, by omega, .cons hpos (hk.trans hwidth) .nil⟩
  | cons _ ih =>
    intro width start n hchunks
    cases hchunks with
    | cons hpos hwidth hrest =>
      obtain ⟨m, hm, hspans⟩ := ih hrest
      exact ⟨_, by omega, .cons hpos hwidth hspans⟩

/-- The step was planned to read, and its results are over the chunks of the plan, as far as they go. -/
def PlannedStep (st : PlannerSettings φ) (e : SettledStep φ) : Prop :=
  ∃ now budget enabled stopRequested plan, planStep e.before now e.input.2 budget st enabled stopRequested = .ok plan ∧
    plan.action = .read ∧ CutFrom st (e.input.1.map (·.span)) plan.chunks

theorem PlannedStep.counts {e} (h : PlannedStep st e) :
    ∀ r ∈ e.input.1, 0 < r.span.count st ∧ r.span.count st ≤ chunkWidth e.before st := by
  obtain ⟨now, budget, enabled, stopRequested, plan, hplan, hread, hcut⟩ := h
  obtain ⟨start, n, -, hplanned⟩ := planStep_chunks hplan hread
  obtain ⟨m, -, hspans⟩ := hcut.chunked hplanned.chunked
  intro r hr
  exact hspans.count_of_mem (List.mem_map.mpr ⟨r, hr, rfl⟩)

theorem plannedStep_of_plan {e} (now : Int) (budget : StepBudget φ)
    (h : (planStep e.before now e.input.2 budget st).toOption.any (fun plan =>
      plan.action = .read && (e.input.1.map (·.span)).isPrefixOf plan.chunks) = true) : PlannedStep st e := by
  obtain ⟨plan, hplan, hcheck⟩ := Option.any_eq_true _ _ |>.mp h
  rw [Bool.and_eq_true, decide_eq_true_eq] at hcheck
  obtain ⟨plan, hok, rfl⟩ := exists_ok_of_toOption (congrArg (Option.map id) hplan)
  exact ⟨now, budget, true, false, plan, hok, hcheck.1, .of_isPrefix (List.isPrefixOf_iff_prefix.mp hcheck.2)⟩

/-! ## Results that are accepted -/

theorem checkContiguous_of_tiles : ∀ {start m : Int}, Tiles start (rs.map (·.span.pair)) m →
    checkContiguous start rs = .ok () := by
  induction rs with
  | nil => exact fun _ => rfl
  | cons r rs ih =>
    rintro start m ⟨hstart, hlt, hrest⟩
    exact checkContiguous_cons.mpr ⟨hstart, hlt, ih hrest⟩

theorem readPrefix_accepts : ∀ {acc : ReadPrefix}, (∀ r ∈ rs, r.span.Aligned st ∧ r.span.start ≤ r.span.stop) →
    ∃ pre, readPrefix st acc rs = .ok pre := by
  induction rs with
  | nil => exact fun _ => ⟨_, rfl⟩
  | cons r rs ih =>
    intro acc h
    obtain ⟨haligned, hle⟩ := h r List.mem_cons_self
    simp only [readPrefix, Span.buckets, bucketsBetween_aligned haligned hle, bind, Except.bind]
    split
    · exact ih (fun r hr => h r (List.mem_cons_of_mem _ hr))
    · exact ⟨_, rfl⟩

theorem settleStep_accepts {start m stop} (hnext : nextStart p st = some start) (hstop : st.bucket ∣ stop)
    (htiles : Tiles start (rs.map (·.span.pair)) m) (haligned : ∀ r ∈ rs, r.span.Aligned st) :
    ∃ o, settleStep p rs stop st = .ok o := by
  have hcontiguous := checkContiguous_of_tiles htiles
  have hle : ∀ r ∈ rs, r.span.start ≤ r.span.stop := fun r hr =>
    (htiles.nonempty r.span.pair (List.mem_map.mpr ⟨r, hr, rfl⟩)).le
  obtain ⟨pre, hpre⟩ : ∃ pre, readPrefix st { through := p.through } rs = .ok pre :=
    readPrefix_accepts (fun r hr => ⟨haligned r hr, hle r hr⟩)
  obtain ⟨mid, hspec⟩ := readPrefix_spec hpre hcontiguous rfl
  have hblocker : ∃ v, settleBlocker (afterPrefix p rs pre) pre (chunkWidth p st) st = .ok v := by
    unfold settleBlocker
    cases hb : pre.blocker with
    | none => exact ⟨_, rfl⟩
    | some b =>
      have hmem : b ∈ rs := List.mem_of_find?_eq_some (hspec.blocker ▸ hb)
      simp only [Span.buckets, bucketsBetween_aligned (haligned b hmem) (hle b hmem), bind, Except.bind]
      cases b.status <;> exact ⟨_, rfl⟩
  obtain ⟨v, hv⟩ := hblocker
  simp only [settleStep, hnext, requireAligned_ok.mpr hstop, hcontiguous, hpre, hv, bind, Except.bind, pure, Except.pure]
  exact ⟨_, rfl⟩

theorem PlannedChunks.accepts {start stop searches n chunks} (h : PlannedChunks st p start stop searches chunks n)
    (hcut : CutFrom st (rs.map (·.span)) chunks) : ∃ o, settleStep p rs stop st = .ok o := by
  obtain ⟨m, -, hspans⟩ := hcut.chunked h.chunked
  have htiles := hspans.tiles
  rw [List.map_map] at htiles
  exact settleStep_accepts h.next h.stop_aligned htiles
    (fun r hr => hspans.aligned h.start_aligned r.span (List.mem_map.mpr ⟨r, hr, rfl⟩))

/-! ## Runs over planned chunks -/

theorem rows_le_of_fit {st : PlannerSettings ℚ} {ρ w} (hρ : 0 < ρ) (hw : st.minChunkBuckets ≤ w)
    (hfit : w ≤ max st.minChunkBuckets (rowFitBuckets ρ st)) :
    w = st.minChunkBuckets ∨ 1.25 * ρ * w ≤ st.rowTargetRows := by
  have hpos : PyFloat.le ρ (PyFloat.ofInt 0) = false := by simp [PyFloat.le, PyFloat.ofInt, hρ]
  simp only [rowFitBuckets, hpos, Bool.false_eq_true, if_false] at hfit
  by_cases hmin : w = st.minChunkBuckets
  · exact .inl hmin
  · right
    have hfloor : w ≤ ⌊(st.rowTargetRows : ℚ) / (1.25 * ρ)⌋ := by
      simp only [PyFloat.floor, PyFloat.div, PyFloat.ofInt, PyFloat.mul, PyFloat.ofRat] at hfit
      omega
    have hdensity : 0 < 1.25 * ρ := by positivity
    have := (le_div_iff₀ hdensity).mp (Int.le_floor.mp hfloor)
    linarith

theorem SettleRun.widths {p₀ tr} (h : SettleRun st p₀ tr p)
    (hbuckets : p₀.chunkBuckets = none) (hceiling : p₀.chunkCeiling = none)
    (hspan : st.minChunkBuckets ≤ st.maxSpanBuckets) (hplanned : ∀ e ∈ tr, PlannedStep st e) :
    LawfulWidths st p ∧ (p.chunkBuckets = none → ∀ e ∈ tr, stepDensity st e.input.1 = none) := by
  refine h.invariant (fun tr p => LawfulWidths st p ∧
    (p.chunkBuckets = none → ∀ e ∈ tr, stepDensity st e.input.1 = none)) (PlannedStep st) ?_ ?_ hplanned
  · refine ⟨⟨fun w hw => ?_, fun c hc => ?_⟩, fun _ e he => by cases he⟩
    · rw [hbuckets] at hw
      cases hw
    · rw [hceiling] at hc
      cases hc
  · intro tr p i o ⟨hlawful, hdensity⟩ hstep_planned hstep
    obtain ⟨hnext, -, hunsized⟩ :=
      hlawful.step hspan (fun r hr => (hstep_planned.counts r hr).2) (settleStep_width hstep)
    refine ⟨hnext, fun hnone e he => ?_⟩
    obtain ⟨hbefore, hnow⟩ := hunsized hnone
    rcases List.mem_append.mp he with he | he
    · exact hdensity hbefore e he
    · rw [List.mem_singleton.mp he]
      exact hnow

end QRadarDashboard.History
