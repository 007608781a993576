import QRadarDashboard.History.Lemmas.Chunks
import QRadarDashboard.History.Lemmas.SettleRun

/-!
# The width of the next step
-/

namespace QRadarDashboard.History
open Lib

variable {φ : Type} [PyFloat φ] {st : PlannerSettings φ} {p q : ScopeProgress Int φ} {rs : List ChunkResult}

structure Widths where
  chunkBuckets : Option Int
  chunkCeiling : Option Int
  ceilingSuccesses : Int

def ScopeProgress.widths (p : ScopeProgress Int φ) : Widths := ⟨p.chunkBuckets, p.chunkCeiling, p.ceilingSuccesses⟩

def stepDensity (st : PlannerSettings φ) (rs : List ChunkResult) : Option φ :=
  let nonSilent := ((donePrefix st rs).map (fun r => r.nonSilentBuckets)).sum
  if nonSilent ≠ 0 then some (PyFloat.divInt ((donePrefix st rs).map (fun r => r.rows)).sum nonSilent) else none

def narrower (st : PlannerSettings φ) (b : ChunkResult) : Int := max st.minChunkBuckets (b.span.count st / 2)

inductive WidthEffect (st : PlannerSettings φ) (p : ScopeProgress Int φ) (rs : List ChunkResult)
    (q : ScopeProgress Int φ) : Prop
  | sized (u : ScopeProgress Int φ) (hu : u.widths = p.widths) (hrecent : u.recentRowsPerBucket = stepDensity st rs)
      (hblocker : ∀ b ∈ blockerOf st rs, b.status = .notRun)
      (h : q.widths = (widthAfterStep u (chunkWidth p st) st).1.widths)
  | kept (b : ChunkResult) (hblocker : blockerOf st rs = some b) (hstatus : b.status = .notRun)
      (hdensity : stepDensity st rs = none) (h : q.widths = p.widths)
  | failed (b : ChunkResult) (hblocker : blockerOf st rs = some b) (hstatus : b.status = .failed)
      (h : q.widths = ⟨some (narrower st b), some (narrower st b), 0⟩)
  | truncated (b : ChunkResult) (hblocker : blockerOf st rs = some b) (hstatus : b.status = .truncated)
      (h : q.widths = ⟨some (narrower st b), p.chunkCeiling, p.ceilingSuccesses⟩)

theorem readPrefix_density : ∀ {acc pre : ReadPrefix} {c : Int}, readPrefix st acc rs = .ok pre →
    checkContiguous c rs = .ok () →
    pre.rows = acc.rows + ((donePrefix st rs).map (fun r => r.rows)).sum ∧
      pre.nonSilent = acc.nonSilent + ((donePrefix st rs).map (fun r => r.nonSilentBuckets)).sum := by
  induction rs with
  | nil =>
    intro acc pre c h _
    cases h
    simp [donePrefix]
  | cons r rs ih =>
    intro acc pre c h hc
    obtain ⟨_, hlt, hrest⟩ := checkContiguous_cons.mp hc
    simp only [readPrefix] at h
    obtain ⟨n, hn, h⟩ := bind_ok h
    obtain ⟨_, rfl⟩ := Span.buckets_ok hn (by omega)
    split at h
    · rename_i hdone
      have hd : r.isDone st = true := hdone
      obtain ⟨hrows, hsilent⟩ := ih h hrest
      have hpre : donePrefix st (r :: rs) = r :: donePrefix st rs := by simp [donePrefix, hd]
      rw [hpre, hrows, hsilent]
      simp only [List.map_cons, List.sum_cons]
      exact ⟨by ring, by ring⟩
    · rename_i hdone
      have hd : r.isDone st = false := Bool.eq_false_iff.mpr hdone
      cases h
      simp [donePrefix, hd]

theorem PrefixSpec.done_eq_nil {acc pre c mid} (h : PrefixSpec st acc pre rs c mid)
    (hacc : acc.read = 0) (hread : pre.read = 0) : donePrefix st rs = [] := by
  have htiles := h.tiles
  have hlengths := htiles.sum_lengths
  have haligned : ∀ s ∈ (donePrefix st rs).map (fun r => r.span), s.Aligned st := fun s hs => by
    obtain ⟨r, hr, rfl⟩ := List.mem_map.mp hs
    exact h.aligned r hr
  have hcounts := sum_counts_mul haligned
  have hzero : ((donePrefix st rs).map (fun r => r.span.count st)).sum = 0 := by
    have := h.read
    omega
  simp only [List.map_map, Function.comp_def] at hcounts hlengths hzero
  rw [hzero, hlengths] at hcounts
  cases hdone : donePrefix st rs with
  | nil => rfl
  | cons r done =>
    rw [hdone] at htiles
    obtain ⟨_, hlt, hrest⟩ := htiles
    have := hrest.le
    omega

theorem settleFailed_widths (u : ScopeProgress Int φ) (b : ChunkResult) :
    (settleFailed u b (b.span.count st) st).updated.widths = ⟨some (narrower st b), some (narrower st b), 0⟩ := by
  unfold settleFailed
  dsimp only
  split
  · split
    · split <;> rfl
    · rfl
  · rfl

theorem settleBlocker_width {pre v u} (hpre : pre.blocker = blockerOf st rs) (hu : u.widths = p.widths)
    (hrecent : u.recentRowsPerBucket = stepDensity st rs)
    (hblk : ∀ b, blockerOf st rs = some b → b.span.start < b.span.stop)
    (hnone : pre.read = 0 → stepDensity st rs = none) (h : settleBlocker u pre (chunkWidth p st) st = .ok v) :
    WidthEffect st p rs v.updated := by
  unfold settleBlocker at h
  rw [hpre] at h
  cases hb : blockerOf st rs with
  | none =>
    simp only [hb, Except.ok.injEq] at h
    subst h
    exact .sized { u with failures := 0 } hu hrecent (fun b hmem => by rw [hb] at hmem; cases hmem) rfl
  | some b =>
    simp only [hb] at h
    obtain ⟨n, hn, h⟩ := bind_ok h
    obtain ⟨_, rfl⟩ := Span.buckets_ok hn (hblk b hb)
    cases hst : b.status with
    | failed =>
      simp only [hst, Except.ok.injEq] at h
      subst h
      exact .failed b hb hst (settleFailed_widths u b)
    | truncated =>
      simp only [hst, Except.ok.injEq] at h
      subst h
      refine .truncated b hb hst ?_
      rw [show p.chunkCeiling = u.chunkCeiling from (congrArg Widths.chunkCeiling hu).symm,
        show p.ceilingSuccesses = u.ceilingSuccesses from (congrArg Widths.ceilingSuccesses hu).symm]
      rfl
    | complete =>
      have hnot := List.find?_some hb
      simp [ChunkResult.isDone, ChunkResult.done, hst] at hnot
    | notRun =>
      simp only [hst, Except.ok.injEq] at h
      subst h
      unfold settleNotRun
      dsimp only
      split
      · refine .sized u hu hrecent (fun b' hmem => ?_) rfl
        rw [hb] at hmem
        cases hmem
        exact hst
      · rename_i hread
        exact .kept b hb hst (hnone (not_not.mp hread)) hu

theorem settleStep_width {stop o} (h : settleStep p rs stop st = .ok o) : WidthEffect st p rs o.progress := by
  obtain ⟨start, pre, v, hs, hc, hp, hv, rfl⟩ := settleStep_parts h
  obtain ⟨mid, sp⟩ := readPrefix_spec hp hc rfl
  obtain ⟨hrows, hsilent⟩ := readPrefix_density hp hc
  have hlt : ∀ b, blockerOf st rs = some b → b.span.start < b.span.stop := by
    intro b hb
    have := sp.blocked b hb
    omega
  have hrecent : (afterPrefix p rs pre).recentRowsPerBucket = stepDensity st rs := by
    simp only [afterPrefix, stepDensity, hrows, hsilent, zero_add]
  have heffect := settleBlocker_width sp.blocker rfl hrecent hlt (fun hread => by
    simp [stepDensity, sp.done_eq_nil rfl hread]) hv
  obtain ⟨x, hupd, _⟩ := gates_updated st v stop
  -- the gates after the branch set a flag only
  have hwidths : ScopeProgress.widths (finishGate (densityGate v st) stop st).updated = v.updated.widths := by
    rw [hupd]
    rfl
  cases heffect with
  | sized u hu hrecent hblocker h => exact .sized u hu hrecent hblocker (hwidths.trans h)
  | kept b hblocker hstatus hdensity h => exact .kept b hblocker hstatus hdensity (hwidths.trans h)
  | failed b hblocker hstatus h => exact .failed b hblocker hstatus (hwidths.trans h)
  | truncated b hblocker hstatus h => exact .truncated b hblocker hstatus (hwidths.trans h)

/-! ## The bounds of a width -/

theorem chunkWidth_ge (p : ScopeProgress Int φ) (st : PlannerSettings φ) : st.minChunkBuckets ≤ chunkWidth p st :=
  le_max_left _ _

theorem chunkWidth_le (p : ScopeProgress Int φ) (st : PlannerSettings φ) :
    chunkWidth p st ≤ max st.minChunkBuckets st.maxSpanBuckets :=
  max_le_max (Int.le_refl _) (min_le_right _ _)

theorem chunkWidth_le_ceiling {ceiling} (h : p.chunkCeiling = some ceiling) :
    chunkWidth p st ≤ max st.minChunkBuckets ceiling := by
  simp only [chunkWidth, h]
  exact max_le_max (Int.le_refl _) ((min_le_left _ _).trans (min_le_right _ _))

theorem chunkWidth_of_none {width} (hbuckets : p.chunkBuckets = some width) (hpos : 0 < width)
    (hceiling : p.chunkCeiling = none) : chunkWidth p st = max st.minChunkBuckets (min width st.maxSpanBuckets) := by
  simp [chunkWidth, hbuckets, hceiling, hpos.ne']

theorem chunkWidth_of_some {width ceiling} (hbuckets : p.chunkBuckets = some width) (hpos : 0 < width)
    (hceiling : p.chunkCeiling = some ceiling) :
    chunkWidth p st = max st.minChunkBuckets (min (min width ceiling) st.maxSpanBuckets) := by
  simp [chunkWidth, hbuckets, hceiling, hpos.ne']

/-! ## The sizing of a width -/

structure WidthTarget (st : PlannerSettings φ) (u : ScopeProgress Int φ) (current fit target : Int) : Prop where
  grows : target ≤ 2 * current ∨ (u.chunkBuckets = none ∧ u.recentRowsPerBucket ≠ none)
  fits : ∀ ρ, u.recentRowsPerBucket = some ρ → fit ≤ rowFitBuckets ρ st ∧ target ≤ rowFitBuckets ρ st
  silent : u.recentRowsPerBucket = none → fit = st.initialChunkBuckets ∧ target = 2 * current

def underCeiling (st : PlannerSettings φ) (w : Widths) (current fit target : Int) : Widths :=
  let clamped (width : Int) : Option Int := some (max st.minChunkBuckets (min width st.maxSpanBuckets))
  match w.chunkCeiling with
  | none => ⟨clamped target, none, w.ceilingSuccesses⟩
  | some ceiling =>
    if w.ceilingSuccesses + 1 ≥ ceilingReleaseSteps then
      if 2 * ceiling ≥ fit then ⟨clamped (min fit (2 * current)), none, 0⟩
      else ⟨clamped (min target (2 * ceiling)), some (2 * ceiling), 0⟩
    else ⟨clamped (min target ceiling), some ceiling, w.ceilingSuccesses + 1⟩

theorem widthAfterStep_widths (st : PlannerSettings φ) (u : ScopeProgress Int φ) (current : Int) : ∃ fit target,
    WidthTarget st u current fit target ∧
      (widthAfterStep u current st).1.widths = underCeiling st u.widths current fit target := by
  cases hrecent : u.recentRowsPerBucket with
  | none =>
    refine ⟨st.initialChunkBuckets, 2 * current, ⟨.inl (Int.le_refl _), fun ρ hρ => ?_, fun _ => ⟨rfl, rfl⟩⟩, ?_⟩
    · rw [hrecent] at hρ
      cases hρ
    · simp only [widthAfterStep, hrecent, underCeiling, ScopeProgress.widths]
      cases u.chunkCeiling with
      | none => rfl
      | some c => dsimp only; split_ifs <;> rfl
  | some ρ =>
    cases hbuckets : u.chunkBuckets with
    | none =>
      refine ⟨rowFitBuckets ρ st, rowFitBuckets ρ st, ⟨.inr ⟨hbuckets, by rw [hrecent]; exact Option.some_ne_none ρ⟩,
        fun ρ' hρ => ?_, fun hnone => by rw [hrecent] at hnone; cases hnone⟩, ?_⟩
      · cases hrecent.symm.trans hρ
        exact ⟨Int.le_refl _, Int.le_refl _⟩
      · simp only [widthAfterStep, hrecent, hbuckets, underCeiling, ScopeProgress.widths]
        cases u.chunkCeiling with
        | none => rfl
        | some c => dsimp only; split_ifs <;> rfl
    | some w =>
      refine ⟨rowFitBuckets ρ st, min (rowFitBuckets ρ st) (2 * current), ⟨.inl (min_le_right _ _), fun ρ' hρ => ?_,
        fun hnone => by rw [hrecent] at hnone; cases hnone⟩, ?_⟩
      · cases hrecent.symm.trans hρ
        exact ⟨Int.le_refl _, min_le_left _ _⟩
      · simp only [widthAfterStep, hrecent, hbuckets, underCeiling, ScopeProgress.widths]
        cases u.chunkCeiling with
        | none => rfl
        | some c => dsimp only; split_ifs <;> rfl

/-! ## A silent step -/

theorem blockerOf_eq_none (h : ∀ r ∈ rs, r.isDone st = true) : blockerOf st rs = none := by
  rw [blockerOf, List.find?_eq_none]
  intro r hr
  simp [h r hr]

theorem stepDensity_silent (h : ∀ r ∈ rs, r.nonSilentBuckets = 0) : stepDensity st rs = none := by
  have hsum : ((donePrefix st rs).map (fun r => r.nonSilentBuckets)).sum = 0 := by
    refine List.sum_eq_zero (fun n hn => ?_)
    obtain ⟨r, hr, rfl⟩ := List.mem_map.mp hn
    exact h r ((List.takeWhile_prefix _).subset hr)
  simp [stepDensity, hsum]

theorem widthAfterStep_silent {u} (hu : u.widths = p.widths)
    (hrecent : u.recentRowsPerBucket = none) (h : q.widths = (widthAfterStep u (chunkWidth p st) st).1.widths) :
    chunkWidth p st ≤ chunkWidth q st ↔ ¬ (p.chunkCeiling.isSome = true ∧
      ceilingReleaseSteps ≤ p.ceilingSuccesses + 1 ∧ st.initialChunkBuckets < chunkWidth p st) := by
  obtain ⟨hmin, hinitial⟩ := st.chunkWidths_ok
  have hge := chunkWidth_ge p st
  have hle := chunkWidth_le p st
  obtain ⟨fit, target, htarget, hafter⟩ := widthAfterStep_widths st u (chunkWidth p st)
  obtain ⟨rfl, rfl⟩ := htarget.silent hrecent
  rw [hafter, hu] at h
  cases hc : p.chunkCeiling with
  | none =>
    generalize chunkWidth p st = current at hge hle h ⊢
    simp only [underCeiling, ScopeProgress.widths, hc] at h
    rw [chunkWidth_of_none (congrArg Widths.chunkBuckets h) (by omega) (congrArg Widths.chunkCeiling h)]
    simp only [Option.isSome_none, Bool.false_eq_true, false_and, not_false_eq_true, iff_true]
    omega
  | some ceiling =>
    have hle_ceiling : chunkWidth p st ≤ max st.minChunkBuckets ceiling := chunkWidth_le_ceiling hc
    generalize chunkWidth p st = current at hge hle hle_ceiling h ⊢
    simp only [underCeiling, ScopeProgress.widths, hc] at h
    by_cases hrelease : ceilingReleaseSteps ≤ p.ceilingSuccesses + 1
    · by_cases hfit : 2 * ceiling ≥ st.initialChunkBuckets
      · -- the ceiling is released, and the width is the initial one at most
        rw [if_pos hrelease, if_pos hfit] at h
        rw [chunkWidth_of_none (congrArg Widths.chunkBuckets h) (by omega) (congrArg Widths.chunkCeiling h)]
        simp only [Option.isSome_some, true_and]
        omega
      · rw [if_pos hrelease, if_neg hfit] at h
        rw [chunkWidth_of_some (congrArg Widths.chunkBuckets h) (by omega) (congrArg Widths.chunkCeiling h)]
        simp only [Option.isSome_some, true_and]
        omega
    · rw [if_neg hrelease] at h
      rw [chunkWidth_of_some (congrArg Widths.chunkBuckets h) (by omega) (congrArg Widths.chunkCeiling h)]
      simp only [Option.isSome_some, true_and]
      omega

/-! ## Lawful widths -/

/-- A stored width lies between the minimum and the span of a search, and below the failure ceiling. -/
structure LawfulWidths (st : PlannerSettings φ) (p : ScopeProgress Int φ) : Prop where
  buckets : ∀ w, p.chunkBuckets = some w → st.minChunkBuckets ≤ w ∧ w ≤ st.maxSpanBuckets
  ceiling : ∀ c, p.chunkCeiling = some c → st.minChunkBuckets ≤ c ∧ ∃ w, p.chunkBuckets = some w ∧ w ≤ c

theorem LawfulWidths.of_widths (h : LawfulWidths st p) (hw : q.widths = p.widths) : LawfulWidths st q := by
  have hbuckets : q.chunkBuckets = p.chunkBuckets := congrArg Widths.chunkBuckets hw
  have hceiling : q.chunkCeiling = p.chunkCeiling := congrArg Widths.chunkCeiling hw
  refine ⟨fun w hsome => h.buckets w (hbuckets ▸ hsome), fun c hsome => ?_⟩
  rw [hbuckets]
  exact h.ceiling c (hceiling ▸ hsome)

theorem LawfulWidths.chunkWidth_eq (h : LawfulWidths st p) {w} (hbuckets : p.chunkBuckets = some w) :
    chunkWidth p st = w := by
  have hmin := st.chunkWidths_ok.1
  obtain ⟨hlow, hhigh⟩ := h.buckets w hbuckets
  cases hc : p.chunkCeiling with
  | none =>
    rw [chunkWidth_of_none hbuckets (by omega) hc]
    omega
  | some c =>
    obtain ⟨_, w', hw', hle⟩ := h.ceiling c hc
    cases hbuckets.symm.trans hw'
    rw [chunkWidth_of_some hbuckets (by omega) hc]
    omega

theorem lawfulWidths_of_clamped (hspan : st.minChunkBuckets ≤ st.maxSpanBuckets) {x successes c}
    (hw : q.widths = ⟨some (max st.minChunkBuckets (min x st.maxSpanBuckets)), c, successes⟩)
    (hc : ∀ ceiling, c = some ceiling → st.minChunkBuckets ≤ ceiling ∧ x ≤ ceiling) : LawfulWidths st q := by
  have hbuckets : q.chunkBuckets = some (max st.minChunkBuckets (min x st.maxSpanBuckets)) :=
    congrArg Widths.chunkBuckets hw
  have hceiling : q.chunkCeiling = c := congrArg Widths.chunkCeiling hw
  refine ⟨fun w hsome => ?_, fun ceiling hsome => ?_⟩
  · cases hbuckets.symm.trans hsome
    omega
  · obtain ⟨hlow, hle⟩ := hc ceiling (hceiling.symm.trans hsome)
    exact ⟨hlow, _, hbuckets, by omega⟩

/-- The width grows to twice the current one at most, unless it was never sized and a density is there, and stays within
the row fit. -/
structure SizedWidth (st : PlannerSettings φ) (p q u : ScopeProgress Int φ) (w : Int) : Prop where
  buckets : q.chunkBuckets = some w
  grows : w ≤ 2 * chunkWidth p st ∨ (p.chunkBuckets = none ∧ u.recentRowsPerBucket ≠ none)
  fits : ∀ ρ, u.recentRowsPerBucket = some ρ → w ≤ max st.minChunkBuckets (rowFitBuckets ρ st)

theorem WidthTarget.sized {u fit target x successes c} (h : WidthTarget st u (chunkWidth p st) fit target)
    (hu : u.widths = p.widths) (hq : q.widths = ⟨some (max st.minChunkBuckets (min x st.maxSpanBuckets)), c, successes⟩)
    (hx : x ≤ target ∨ x = min fit (2 * chunkWidth p st)) : ∃ w, SizedWidth st p q u w := by
  have hge := chunkWidth_ge p st
  have hmin := st.chunkWidths_ok.1
  have hgrows := h.grows
  rw [show u.chunkBuckets = p.chunkBuckets from congrArg Widths.chunkBuckets hu] at hgrows
  refine ⟨_, congrArg Widths.chunkBuckets hq, ?_, fun ρ hρ => ?_⟩
  · rcases hgrows with hgrows | hfirst
    · exact .inl (by omega)
    · rcases hx with hx | hx
      · exact .inr hfirst
      · exact .inl (by omega)
  · obtain ⟨hfit, htarget⟩ := h.fits ρ hρ
    omega

theorem LawfulWidths.sized (h : LawfulWidths st p) (hspan : st.minChunkBuckets ≤ st.maxSpanBuckets) {u}
    (hu : u.widths = p.widths) (hq : q.widths = (widthAfterStep u (chunkWidth p st) st).1.widths) :
    LawfulWidths st q ∧ ∃ w, SizedWidth st p q u w := by
  have hmin := st.chunkWidths_ok.1
  obtain ⟨fit, target, htarget, hafter⟩ := widthAfterStep_widths st u (chunkWidth p st)
  rw [hafter, hu] at hq
  cases hc : p.chunkCeiling with
  | none =>
    simp only [underCeiling, ScopeProgress.widths, hc] at hq
    exact ⟨lawfulWidths_of_clamped hspan hq (fun ceiling hsome => by cases hsome),
      htarget.sized hu hq (.inl (Int.le_refl _))⟩
  | some ceiling =>
    obtain ⟨hlow, -⟩ := h.ceiling ceiling hc
    simp only [underCeiling, ScopeProgress.widths, hc] at hq
    split_ifs at hq
    · exact ⟨lawfulWidths_of_clamped hspan hq (fun ceiling hsome => by cases hsome), htarget.sized hu hq (.inr rfl)⟩
    · refine ⟨lawfulWidths_of_clamped hspan hq (fun ceiling' hsome => ?_), htarget.sized hu hq (.inl (min_le_left _ _))⟩
      cases hsome
      exact ⟨by omega, min_le_right _ _⟩
    · refine ⟨lawfulWidths_of_clamped hspan hq (fun ceiling' hsome => ?_), htarget.sized hu hq (.inl (min_le_left _ _))⟩
      cases hsome
      exact ⟨hlow, min_le_right _ _⟩

theorem LawfulWidths.step (h : LawfulWidths st p) (hspan : st.minChunkBuckets ≤ st.maxSpanBuckets)
    (hfits : ∀ r ∈ rs, r.span.count st ≤ chunkWidth p st) (heffect : WidthEffect st p rs q) :
    LawfulWidths st q ∧ (∀ w, q.chunkBuckets = some w →
      w ≤ 2 * chunkWidth p st ∨ (p.chunkBuckets = none ∧ stepDensity st rs ≠ none)) ∧
      (q.chunkBuckets = none → p.chunkBuckets = none ∧ stepDensity st rs = none) := by
  have hmin := st.chunkWidths_ok.1
  have hge := chunkWidth_ge p st
  have hle := chunkWidth_le p st
  have hnarrow : ∀ b, blockerOf st rs = some b → st.minChunkBuckets ≤ narrower st b ∧
      narrower st b ≤ st.maxSpanBuckets ∧ narrower st b ≤ chunkWidth p st := by
    intro b hb
    have := hfits b (List.mem_of_find?_eq_some hb)
    unfold narrower
    omega
  cases heffect with
  | sized u hu hrecent _ hq =>
    obtain ⟨hlawful, w, hbuckets, hgrows, _⟩ := h.sized hspan hu hq
    rw [hrecent] at hgrows
    refine ⟨hlawful, fun w' hw' => ?_, fun hnone => ?_⟩
    · cases hbuckets.symm.trans hw'
      exact hgrows
    · rw [hbuckets] at hnone
      cases hnone
  | kept b _ _ hdensity hq =>
    have hbuckets : q.chunkBuckets = p.chunkBuckets := congrArg Widths.chunkBuckets hq
    refine ⟨h.of_widths hq, fun w hw => .inl ?_, fun hnone => ⟨hbuckets ▸ hnone, hdensity⟩⟩
    rw [h.chunkWidth_eq (hbuckets.symm.trans hw)]
    have := (h.buckets w (hbuckets.symm.trans hw)).1
    omega
  | failed b hblocker _ hq =>
    have hbuckets : q.chunkBuckets = some (narrower st b) := congrArg Widths.chunkBuckets hq
    have hceiling : q.chunkCeiling = some (narrower st b) := congrArg Widths.chunkCeiling hq
    obtain ⟨hlow, hhigh, hwidth⟩ := hnarrow b hblocker
    refine ⟨⟨fun w hw => ?_, fun c hc => ?_⟩, fun w hw => .inl ?_, fun hnone => ?_⟩
    · cases hbuckets.symm.trans hw
      exact ⟨hlow, hhigh⟩
    · cases hceiling.symm.trans hc
      exact ⟨hlow, _, hbuckets, Int.le_refl _⟩
    · cases hbuckets.symm.trans hw
      omega
    · rw [hbuckets] at hnone
      cases hnone
  | truncated b hblocker _ hq =>
    have hbuckets : q.chunkBuckets = some (narrower st b) := congrArg Widths.chunkBuckets hq
    have hceiling : q.chunkCeiling = p.chunkCeiling := congrArg Widths.chunkCeiling hq
    obtain ⟨hlow, hhigh, hwidth⟩ := hnarrow b hblocker
    refine ⟨⟨fun w hw => ?_, fun c hc => ?_⟩, fun w hw => .inl ?_, fun hnone => ?_⟩
    · cases hbuckets.symm.trans hw
      exact ⟨hlow, hhigh⟩
    · rw [hceiling] at hc
      have hle_ceiling : chunkWidth p st ≤ _ := chunkWidth_le_ceiling hc
      obtain ⟨hlow', _⟩ := h.ceiling c hc
      exact ⟨hlow', _, hbuckets, by omega⟩
    · cases hbuckets.symm.trans hw
      omega
    · rw [hbuckets] at hnone
      cases hnone

end QRadarDashboard.History
