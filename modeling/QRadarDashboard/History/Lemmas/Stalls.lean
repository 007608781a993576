import QRadarDashboard.History.Lemmas.PlannedChunks

/-!
# Steps that do not advance
-/

namespace QRadarDashboard.History
open Lib

variable {φ : Type} [PyFloat φ] {st : PlannerSettings φ} {p : ScopeProgress Int φ} {stop : Int} {o : StepSettlement φ}
  {b : ChunkResult} {rest : List ChunkResult}

def FirstChunkBlocked (e : SettledStep φ) : Prop :=
  ∃ b rest, e.input.1 = b :: rest ∧ (b.status = .failed ∨ b.status = .truncated)

def Stalled (st : PlannerSettings φ) (e : SettledStep φ) : Prop :=
  nextStart e.output.progress st = nextStart e.before st ∧ e.output.trigger = none

/-- A step of the minimum width whose first chunk has more than one bucket and comes back truncated. -/
def TruncatedAtMinimum (st : PlannerSettings φ) (e : SettledStep φ) : Prop :=
  chunkWidth e.before st ≤ st.minChunkBuckets ∧
    ∃ b rest, e.input.1 = b :: rest ∧ b.status = .truncated ∧ b.span.count st ≠ 1

def halvingsLeft (st : PlannerSettings φ) (width : Int) : Nat :=
  if width ≤ st.minChunkBuckets then 0 else Nat.log 2 width.toNat

/-- The halvings left before the minimum width, and the failures left before a gap. -/
def stallsLeft (st : PlannerSettings φ) (p : ScopeProgress Int φ) : Nat :=
  halvingsLeft st (chunkWidth p st) + (st.maxFailures - p.failures).toNat

/-! ## One blocked step -/

theorem gates_trigger {v t} (h : v.trigger = some t) : (finishGate (densityGate v st) stop st).trigger = some t := by
  have hdensity : densityGate v st = v := by simp [densityGate, h]
  rw [hdensity]
  simp [finishGate, h]

theorem settleStep_tooManyGaps {rs} (h : settleStep p rs stop st = .ok o)
    (hb : blockerOf st rs = some b) (hm : MinFailure st b) (hlimit : st.maxFailures ≤ p.failures + 1)
    (hfull : st.maxGaps ≤ (p.gaps.length : Int)) : o.trigger = some .tooManyGaps := by
  obtain ⟨start, pre, v, -, hc, hp, hv, rfl⟩ := settleStep_parts h
  obtain ⟨mid, sp⟩ := readPrefix_spec hp hc rfl
  obtain ⟨hstart, hlt, -⟩ := sp.blocked b hb
  unfold settleBlocker at hv
  rw [sp.blocker, hb] at hv
  obtain ⟨n, hn, hv⟩ := bind_ok hv
  obtain ⟨_, rfl⟩ := Span.buckets_ok hn (by omega)
  simp only [hm.1, Except.ok.injEq] at hv
  subst hv
  refine gates_trigger ?_
  simp [settleFailed, hm.2, afterPrefix, hlimit, hfull]

theorem blockerOf_cons (hdone : b.isDone st = false) : blockerOf st (b :: rest) = some b := by
  simp [blockerOf, hdone]

theorem Settled.first_not_done {start mid next} (h : Settled st p (b :: rest) o start mid next)
    (hstall : nextStart o.progress st = nextStart p st) : b.isDone st = false := by
  by_contra hdone
  have hpre : donePrefix st (b :: rest) = b :: donePrefix st rest := by
    simp [donePrefix, Bool.not_eq_false _ ▸ hdone]
  have htiles := h.tiles
  rw [hpre] at htiles
  obtain ⟨hstart, hlt, hrest⟩ := htiles
  have hle := hrest.le
  have hnext : next = start := Option.some.inj (h.stop_eq.symm.trans (hstall.trans h.start_eq))
  have hmid : mid ≤ next := by
    rw [h.stop_cases]
    cases h.effect with
    | clean _ _ hg | held _ _ _ _ hg | counted _ _ _ _ hg _ => simp [hg]
    | gap b' g hb' _ _ hg hspan _ _ =>
      obtain ⟨hstart', hlt', -⟩ := h.blocked b' hb'
      have hstop : g.stop = b'.span.stop := congrArg Span.stop hspan
      simp only [hg]
      omega
  simp only [Span.pair] at hle hlt
  omega

theorem narrower_halves (hwidth : b.span.count st ≤ chunkWidth p st) {q}
    (hbuckets : q.chunkBuckets = some (narrower st b)) :
    chunkWidth q st ≤ max st.minChunkBuckets (chunkWidth p st / 2) := by
  have hmin := st.chunkWidths_ok.1
  have hpos : narrower st b ≠ 0 := by
    unfold narrower
    omega
  have hle : chunkWidth q st ≤ max st.minChunkBuckets (narrower st b) := by
    unfold chunkWidth
    simp only [hbuckets, if_neg hpos]
    cases q.chunkCeiling <;> simp only <;> omega
  unfold narrower at hle
  omega

theorem halvingsLeft_halved {width next} (hnext : next ≤ max st.minChunkBuckets (width / 2)) :
    halvingsLeft st next ≤ halvingsLeft st width ∧
      (st.minChunkBuckets < width → halvingsLeft st next < halvingsLeft st width) := by
  have hmin := st.chunkWidths_ok.1
  unfold halvingsLeft
  by_cases hwide : st.minChunkBuckets < width
  · have hpos : 0 < Nat.log 2 width.toNat := Nat.log_pos (by omega) (by omega)
    have hlt : (if next ≤ st.minChunkBuckets then 0 else Nat.log 2 next.toNat) < Nat.log 2 width.toNat := by
      split
      · exact hpos
      · have hhalf : Nat.log 2 next.toNat ≤ Nat.log 2 (width.toNat / 2) := Nat.log_mono_right (by omega)
        rw [Nat.log_div_base] at hhalf
        omega
    rw [if_neg (not_le.mpr hwide)]
    exact ⟨hlt.le, fun _ => hlt⟩
  · refine ⟨?_, fun hwide' => absurd hwide' hwide⟩
    rw [if_pos (by omega)]
    exact Nat.zero_le _

theorem stallsLeft_lt {e} (h : settleStep e.before e.input.1 e.input.2 st = .ok e.output) (hplanned : PlannedStep st e)
    (hblocked : FirstChunkBlocked e) (hstall : Stalled st e) (hcond : ¬ TruncatedAtMinimum st e) :
    stallsLeft st e.output.progress < stallsLeft st e.before := by
  obtain ⟨b, rest, hrs, hstatus⟩ := hblocked
  obtain ⟨hstay, htrigger⟩ := hstall
  obtain ⟨hpos, hwidth⟩ := hplanned.counts b (by rw [hrs]; exact List.mem_cons_self)
  have hmin := st.chunkWidths_ok.1
  obtain ⟨start, mid, next, hs⟩ := settleStep_ok h
  have hnext : next = start := Option.some.inj (hs.stop_eq.symm.trans (hstay.trans hs.start_eq))
  rw [hrs] at hs
  have hb : blockerOf st (b :: rest) = some b := blockerOf_cons (hs.first_not_done hstay)
  rw [← hrs] at hs hb
  have hbuckets : e.output.progress.chunkBuckets = some (narrower st b) := by
    have heffect := settleStep_width h
    cases heffect with
    | failed b' hb' _ hq | truncated b' hb' _ hq =>
      cases hb.symm.trans hb'
      exact congrArg Widths.chunkBuckets hq
    | kept b' hb' hrun =>
      cases hb.symm.trans hb'
      rw [hrun] at hstatus
      rcases hstatus with hstatus | hstatus <;> cases hstatus
    | sized u _ _ hrun =>
      rw [hrun b hb] at hstatus
      rcases hstatus with hstatus | hstatus <;> cases hstatus
  obtain ⟨hle, hlt⟩ := halvingsLeft_halved (narrower_halves hwidth hbuckets)
  unfold stallsLeft
  cases hs.effect with
  | clean hnone =>
    rw [hb] at hnone
    cases hnone
  | held b' hb' hnot hfailures _ =>
    cases hb.symm.trans hb'
    have hwide : st.minChunkBuckets < chunkWidth e.before st := by
      by_contra hnarrow
      rcases hstatus with hstatus | hstatus
      · exact hnot ⟨hstatus, by omega⟩
      · refine hcond ⟨by omega, b, rest, hrs, hstatus, fun hone => ?_⟩
        have hdone : b.isDone st = true := by simp [ChunkResult.isDone, ChunkResult.done, hstatus, hone]
        have hblocks := List.find?_some hb
        simp [hdone] at hblocks
    have := hlt hwide
    omega
  | counted b' hb' hm hfailures _ hlimit =>
    have hroom : e.before.failures + 1 < st.maxFailures := by
      rcases hlimit with hlimit | hfull
      · exact hlimit
      · by_contra hmany
        rw [settleStep_tooManyGaps h hb' hm (by omega) hfull] at htrigger
        cases htrigger
    omega
  | gap b' g hb' _ _ hg hspan' =>
    obtain ⟨hstart, hlt, -⟩ := hs.blocked b' hb'
    have hnext' := hs.stop_cases
    have hstop : g.stop = b'.span.stop := congrArg Span.stop hspan'
    have hmid := hs.tiles.le
    simp only [hg] at hnext'
    omega

/-! ## Runs -/

theorem stallsLeft_le (hspan : st.minChunkBuckets ≤ st.maxSpanBuckets) (h : 0 ≤ p.failures) :
    (stallsLeft st p : Int) ≤ Nat.clog 2 st.maxSpanBuckets.toNat + st.maxFailures := by
  have hle := chunkWidth_le p st
  have hcounts := st.counts_ok.1
  have hlog : Nat.log 2 (chunkWidth p st).toNat ≤ Nat.clog 2 st.maxSpanBuckets.toNat :=
    (Nat.log_mono_right (by omega)).trans (Nat.log_le_clog 2 _)
  unfold stallsLeft halvingsLeft
  split <;> omega

theorem SettleRun.failures_nonneg {p₀ tr} (h : SettleRun st p₀ tr p) (h₀ : 0 ≤ p₀.failures) : 0 ≤ p.failures := by
  refine h.invariant' (fun _ p => 0 ≤ p.failures) h₀ ?_
  intro tr p i o hp hstep
  obtain ⟨start, mid, next, hs⟩ := settleStep_ok hstep
  cases hs.effect with
  | clean _ hf | gap _ _ _ _ hf => exact hf.ge
  | held _ _ _ hf | counted _ _ _ hf => omega

theorem SettleRun.stalled {tr q} (h : SettleRun st p tr q) (hplanned : ∀ e ∈ tr, PlannedStep st e)
    (hblocked : ∀ e ∈ tr, FirstChunkBlocked e) (hstalled : ∀ e ∈ tr, Stalled st e)
    (hcond : ∀ e ∈ tr, ¬ TruncatedAtMinimum st e) : stallsLeft st q + tr.length ≤ stallsLeft st p := by
  refine h.invariant (fun tr q => stallsLeft st q + tr.length ≤ stallsLeft st p)
    (fun e => PlannedStep st e ∧ FirstChunkBlocked e ∧ Stalled st e ∧ ¬ TruncatedAtMinimum st e)
    (Nat.le_refl _) ?_ (fun e he => ⟨hplanned e he, hblocked e he, hstalled e he, hcond e he⟩)
  intro tr q i o hq ⟨hplanned, hblocked, hstall, hcond⟩ hstep
  have := stallsLeft_lt hstep hplanned hblocked hstall hcond
  rw [List.length_append, List.length_singleton]
  simp only at this
  omega

end QRadarDashboard.History
