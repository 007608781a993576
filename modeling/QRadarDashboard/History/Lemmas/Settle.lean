import QRadarDashboard.History.Planner
import QRadarDashboard.Lib.Except
import QRadarDashboard.Lib.Intervals

/-!
# What one settled step does
-/

namespace QRadarDashboard.History
open Lib

variable {φ : Type} [PyFloat φ] {st : PlannerSettings φ}

/-! ## Buckets -/

theorem PlannerSettings.bucket_pos (st : PlannerSettings φ) : 0 < st.bucket := by
  have := st.bucketSeconds_ok.1
  unfold bucket seconds
  omega

def Span.count (st : PlannerSettings φ) (s : Span Int) : Int := (s.stop - s.start) / st.bucket

def Span.Aligned (st : PlannerSettings φ) (s : Span Int) : Prop :=
  st.bucket ∣ s.start ∧ st.bucket ∣ s.stop

theorem dvd_bucket_iff {t} : st.bucket ∣ t ↔ t % 1000000 = 0 ∧ (t / 1000000) % st.bucketSeconds = 0 := by
  have hb := st.bucketSeconds_ok.1
  unfold PlannerSettings.bucket seconds
  constructor
  · rintro ⟨k, rfl⟩
    have e : st.bucketSeconds * 1000000 * k = st.bucketSeconds * k * 1000000 := by ring
    rw [e]
    exact ⟨by omega, by rw [Int.mul_ediv_cancel _ (by norm_num)]; exact Int.mul_emod_right _ _⟩
  · rintro ⟨h₁, h₂⟩
    obtain ⟨k, hk⟩ := Int.dvd_of_emod_eq_zero h₂
    refine ⟨k, ?_⟩
    have e : t = t / 1000000 * 1000000 := by omega
    rw [e, hk]
    ring

theorem requireAligned_ok {t name} : requireAligned t name st = .ok () ↔ st.bucket ∣ t := by
  rw [dvd_bucket_iff]
  unfold requireAligned isAligned epoch
  by_cases h₁ : t % 1000000 = 0
  · by_cases h₂ : t / 1000000 % st.bucketSeconds = 0
    · simp [h₁, h₂, bind, Except.bind, pure, Except.pure]
    · simp [h₁, h₂, bind, Except.bind, pure, Except.pure, throw, throwThe, MonadExceptOf.throw]
  · simp [h₁, bind, Except.bind]

theorem epoch_of_dvd {t} (h : st.bucket ∣ t) : epoch t = .ok (t / 1000000) := by
  have := (dvd_bucket_iff.mp h).1
  simp [epoch, this]

theorem ediv_bucket {s : Span Int} (h : s.Aligned st) :
    (s.stop / 1000000 - s.start / 1000000) / st.bucketSeconds = s.count st := by
  obtain ⟨⟨a, ha⟩, ⟨b, hb⟩⟩ := h
  have hpos := st.bucketSeconds_ok.1
  unfold Span.count
  rw [ha, hb]
  unfold PlannerSettings.bucket seconds
  have e₁ : st.bucketSeconds * 1000000 * b / 1000000 = st.bucketSeconds * b := by
    rw [show st.bucketSeconds * 1000000 * b = st.bucketSeconds * b * 1000000 by ring]
    exact Int.mul_ediv_cancel _ (by norm_num)
  have e₂ : st.bucketSeconds * 1000000 * a / 1000000 = st.bucketSeconds * a := by
    rw [show st.bucketSeconds * 1000000 * a = st.bucketSeconds * a * 1000000 by ring]
    exact Int.mul_ediv_cancel _ (by norm_num)
  rw [e₁, e₂, ← mul_sub, ← mul_sub, Int.mul_ediv_cancel_left _ (by omega),
    Int.mul_ediv_cancel_left _ (by omega)]

theorem bucketsBetween_aligned {s : Span Int} (h : s.Aligned st) (hle : s.start ≤ s.stop) :
    bucketsBetween s.start s.stop st = .ok (s.count st) := by
  have hpos := st.bucket_pos
  unfold bucketsBetween
  rw [requireAligned_ok.mpr h.1, requireAligned_ok.mpr h.2, epoch_of_dvd h.1, epoch_of_dvd h.2]
  simp only [bind, Except.bind, pure, Except.pure, Except.ok.injEq]
  rw [ediv_bucket h]
  have : 0 ≤ s.count st := Int.ediv_nonneg (by omega) (by omega)
  omega

theorem Span.buckets_ok {s : Span Int} {n} (h : s.buckets st = .ok n)
    (hlt : s.start < s.stop) : s.Aligned st ∧ n = s.count st := by
  have hal : s.Aligned st := by
    unfold Span.buckets bucketsBetween at h
    obtain ⟨_, h₁, h⟩ := bind_ok h
    obtain ⟨_, h₂, _⟩ := bind_ok h
    exact ⟨requireAligned_ok.mp h₁, requireAligned_ok.mp h₂⟩
  refine ⟨hal, ?_⟩
  rw [Span.buckets, bucketsBetween_aligned hal (le_of_lt hlt)] at h
  simpa using h.symm

theorem Span.count_mul {s : Span Int} (h : s.Aligned st) : s.count st * st.bucket = s.stop - s.start :=
  Int.ediv_mul_cancel (dvd_sub h.2 h.1)

/-! ## The completed prefix -/

def Span.pair (s : Span Int) : Int × Int := (s.start, s.stop)

def Gap.span (g : Gap Int) : Span Int := ⟨g.start, g.stop⟩

def ChunkResult.isDone (st : PlannerSettings φ) (r : ChunkResult) : Bool := r.done (r.span.count st)

def donePrefix (st : PlannerSettings φ) (rs : List ChunkResult) : List ChunkResult :=
  rs.takeWhile (·.isDone st)

def blockerOf (st : PlannerSettings φ) (rs : List ChunkResult) : Option ChunkResult :=
  rs.find? (fun r => !r.isDone st)

theorem checkContiguous_cons {c r rs} :
    checkContiguous c (r :: rs) = .ok () ↔
      r.span.start = c ∧ c < r.span.stop ∧ checkContiguous r.span.stop rs = .ok () := by
  simp only [checkContiguous]
  split
  · rename_i hbad
    simp only [reduceCtorEq, false_iff]
    rintro ⟨rfl, hlt, _⟩
    rcases hbad with h | h
    · exact h rfl
    · omega
  · rename_i hok
    have hs : r.span.start = c := by
      by_contra h
      exact hok (Or.inl h)
    have hlt : c < r.span.stop := by
      by_contra h
      exact hok (Or.inr (by omega))
    simp [hs, hlt]

structure PrefixSpec (st : PlannerSettings φ) (acc pre : ReadPrefix) (rs : List ChunkResult)
    (c mid : Int) : Prop where
  write : pre.write = acc.write ++ (donePrefix st rs).map (·.span)
  read : pre.read = acc.read + ((donePrefix st rs).map (·.span.count st)).sum
  blocker : pre.blocker = blockerOf st rs
  tiles : Tiles c ((donePrefix st rs).map (·.span.pair)) mid
  aligned : ∀ r ∈ donePrefix st rs, r.span.Aligned st
  blocked : ∀ b, blockerOf st rs = some b →
    b.span.start = mid ∧ mid < b.span.stop ∧ b.span.Aligned st
  through : pre.through = if donePrefix st rs = [] then acc.through else some (mid - st.bucket)

/-- The loop of `settle_step`, by induction on the results. -/
theorem readPrefix_spec {rs} : ∀ {acc pre : ReadPrefix} {c : Int},
    readPrefix st acc rs = .ok pre → checkContiguous c rs = .ok () → acc.blocker = none →
    ∃ mid, PrefixSpec st acc pre rs c mid := by
  induction rs with
  | nil =>
    intro acc pre c h _ hb
    simp only [readPrefix, Except.ok.injEq] at h
    subst h
    exact ⟨c, by simp [donePrefix], by simp [donePrefix], by simpa [blockerOf] using hb,
      by simp [donePrefix, Tiles], by simp [donePrefix], by simp [blockerOf], by simp [donePrefix]⟩
  | cons r rs ih =>
    intro acc pre c h hc hb
    obtain ⟨hs, hlt, hrest⟩ := checkContiguous_cons.mp hc
    simp only [readPrefix] at h
    obtain ⟨n, hn, h⟩ := bind_ok h
    obtain ⟨hal, rfl⟩ := Span.buckets_ok hn (by omega)
    split at h
    · rename_i hdone
      have hd : r.isDone st = true := hdone
      obtain ⟨mid, sp⟩ := ih h hrest hb
      have hpre : donePrefix st (r :: rs) = r :: donePrefix st rs := by simp [donePrefix, hd]
      have hblk : blockerOf st (r :: rs) = blockerOf st rs := by simp [blockerOf, hd]
      refine ⟨mid, ?_, ?_, hblk ▸ sp.blocker, ?_, ?_, hblk ▸ sp.blocked, ?_⟩
      · rw [sp.write, hpre]; simp
      · rw [sp.read, hpre, List.map_cons, List.sum_cons, add_assoc]
      · rw [hpre]; exact ⟨hs, hlt, sp.tiles⟩
      · rw [hpre]
        intro q hq
        rcases List.mem_cons.mp hq with rfl | hq
        · exact hal
        · exact sp.aligned q hq
      · rw [hpre, if_neg (List.cons_ne_nil _ _), sp.through]
        by_cases hnil : donePrefix st rs = []
        · have hmid : r.span.stop = mid := by simpa [hnil, Tiles] using sp.tiles
          rw [if_pos hnil, hmid]
        · rw [if_neg hnil]
    · rename_i hdone
      have hd : r.isDone st = false := Bool.eq_false_iff.mpr hdone
      simp only [Except.ok.injEq] at h
      subst h
      have hpre : donePrefix st (r :: rs) = [] := by simp [donePrefix, hd]
      have hblk : blockerOf st (r :: rs) = some r := by simp [blockerOf, hd]
      refine ⟨c, by simp [hpre], by simp [hpre], hblk.symm, by simp [hpre, Tiles], by simp [hpre],
        ?_, by simp [hpre]⟩
      intro b hbeq
      rw [hblk] at hbeq
      cases hbeq
      exact ⟨hs, hlt, hal⟩

/-! ## The branch on the blocker -/

def MinFailure (st : PlannerSettings φ) (b : ChunkResult) : Prop :=
  b.status = .failed ∧ b.span.count st ≤ st.minChunkBuckets

inductive BlockerEffect (st : PlannerSettings φ) (p : ScopeProgress Int φ) (rs : List ChunkResult)
    (failures : Int) (newGap : Option (Gap Int)) : Prop
  | clean (hb : blockerOf st rs = none) (hf : failures = 0) (hg : newGap = none)
  | held (b : ChunkResult) (hb : blockerOf st rs = some b) (hm : ¬ MinFailure st b)
      (hf : failures = p.failures) (hg : newGap = none)
  | counted (b : ChunkResult) (hb : blockerOf st rs = some b) (hm : MinFailure st b)
      (hf : failures = p.failures + 1) (hg : newGap = none)
      (hlim : p.failures + 1 < st.maxFailures ∨ st.maxGaps ≤ (p.gaps.length : Int))
  | gap (b : ChunkResult) (g : Gap Int) (hb : blockerOf st rs = some b) (hm : MinFailure st b)
      (hf : failures = 0) (hg : newGap = some g) (hspan : g.span = b.span)
      (hlim : st.maxFailures ≤ p.failures + 1) (hroom : (p.gaps.length : Int) < st.maxGaps)

@[simp] theorem widthAfterStep_floor (p : ScopeProgress Int φ) (current : Int) :
    (widthAfterStep p current st).1.floor = p.floor := rfl

@[simp] theorem widthAfterStep_through (p : ScopeProgress Int φ) (current : Int) :
    (widthAfterStep p current st).1.through = p.through := rfl

@[simp] theorem widthAfterStep_bucketsRead (p : ScopeProgress Int φ) (current : Int) :
    (widthAfterStep p current st).1.bucketsRead = p.bucketsRead := rfl

@[simp] theorem widthAfterStep_gaps (p : ScopeProgress Int φ) (current : Int) :
    (widthAfterStep p current st).1.gaps = p.gaps := rfl

@[simp] theorem widthAfterStep_failures (p : ScopeProgress Int φ) (current : Int) :
    (widthAfterStep p current st).1.failures = p.failures := rfl

theorem densityGate_updated (st : PlannerSettings φ) (v : Verdict φ) : ∃ x,
    (densityGate v st).updated = { v.updated with densityChecked := x } ∧
      (densityGate v st).newGap = v.newGap := by
  unfold densityGate
  split
  · dsimp only
    split <;> exact ⟨true, rfl, rfl⟩
  · exact ⟨v.updated.densityChecked, rfl, rfl⟩

theorem finishGate_updated (st : PlannerSettings φ) (v : Verdict φ) (stop : Int) :
    (finishGate v stop st).updated = v.updated ∧ (finishGate v stop st).newGap = v.newGap := by
  unfold finishGate
  split
  · split
    · exact ⟨rfl, rfl⟩
    · split <;> exact ⟨rfl, rfl⟩
  · exact ⟨rfl, rfl⟩

theorem gates_updated (st : PlannerSettings φ) (v : Verdict φ) (stop : Int) : ∃ x,
    (finishGate (densityGate v st) stop st).updated = { v.updated with densityChecked := x } ∧
      (finishGate (densityGate v st) stop st).newGap = v.newGap := by
  obtain ⟨x, hd, hdg⟩ := densityGate_updated st v
  obtain ⟨hf, hfg⟩ := finishGate_updated st (densityGate v st) stop
  exact ⟨x, hf.trans hd, hfg.trans hdg⟩

/-- The verdict of the branches on the blocker, before the gates: `p` before the step, `u` after its completed prefix.
-/
structure Branch (st : PlannerSettings φ) (p u : ScopeProgress Int φ) (rs : List ChunkResult)
    (v : Verdict φ) : Prop where
  floor : v.updated.floor = u.floor
  bucketsRead : v.updated.bucketsRead = u.bucketsRead
  gaps : v.updated.gaps = u.gaps ++ v.newGap.toList
  through : v.updated.through = match v.newGap with
    | none => u.through
    | some g => some (g.stop - st.bucket)
  effect : BlockerEffect st p rs v.updated.failures v.newGap

theorem settleFailed_branch {p u rs b}
    (hb : blockerOf st rs = some b) (hst : b.status = .failed) (hf : u.failures = p.failures)
    (hg : u.gaps = p.gaps) : Branch st p u rs (settleFailed u b (b.span.count st) st) := by
  unfold settleFailed
  dsimp only
  split
  · rename_i hmin
    have hm : MinFailure st b := ⟨hst, hmin⟩
    split
    · rename_i hlim
      split
      · rename_i hfull
        exact ⟨rfl, rfl, by simp, rfl, .counted b hb hm (by simp [hf]) rfl (Or.inr (by rw [← hg]; exact hfull))⟩
      · rename_i hroom
        exact ⟨rfl, rfl, rfl, rfl, .gap b _ hb hm rfl rfl rfl (by rw [← hf]; exact hlim)
          (by rw [← hg]; exact not_le.mp hroom)⟩
    · rename_i hlim
      exact ⟨rfl, rfl, by simp, rfl, .counted b hb hm (by simp [hf]) rfl
        (Or.inl (by rw [← hf]; exact not_le.mp hlim))⟩
  · rename_i hmin
    exact ⟨rfl, rfl, by simp, rfl, .held b hb (fun hm => hmin hm.2) hf rfl⟩

theorem settleBlocker_branch {p u : ScopeProgress Int φ} {rs pre current v}
    (hpre : pre.blocker = blockerOf st rs) (hblk : ∀ b, blockerOf st rs = some b → b.span.start < b.span.stop)
    (hf : u.failures = p.failures) (hg : u.gaps = p.gaps) (h : settleBlocker u pre current st = .ok v) :
    Branch st p u rs v := by
  unfold settleBlocker at h
  rw [hpre] at h
  cases hb : blockerOf st rs with
  | none =>
    simp only [hb, Except.ok.injEq] at h
    subst h
    exact ⟨rfl, rfl, by simp [settleClean, withWidth], rfl, .clean hb rfl rfl⟩
  | some b =>
    simp only [hb] at h
    obtain ⟨n, hn, h⟩ := bind_ok h
    obtain ⟨_, rfl⟩ := Span.buckets_ok hn (hblk b hb)
    have hheld : b.status ≠ .failed → ¬ MinFailure st b := fun hne hm => hne hm.1
    cases hst : b.status with
    | failed =>
      simp only [hst, Except.ok.injEq] at h
      subst h
      exact settleFailed_branch hb hst hf hg
    | truncated =>
      simp only [hst, Except.ok.injEq] at h
      subst h
      exact ⟨rfl, rfl, by simp [settleTruncated], rfl, .held b hb (hheld (by simp [hst])) hf rfl⟩
    | complete | notRun =>
      simp only [hst, Except.ok.injEq] at h
      subst h
      have hh := hheld (by simp [hst])
      unfold settleNotRun
      dsimp only
      split
      · exact ⟨rfl, rfl, by simp [withWidth], rfl, .held b hb hh hf rfl⟩
      · exact ⟨rfl, rfl, by simp, rfl, .held b hb hh hf rfl⟩

/-! ## One settled step -/

/-- What an accepted step from `start` does: it reads up to `mid`, and the next one starts at `stop`. -/
structure Settled (st : PlannerSettings φ) (p : ScopeProgress Int φ) (rs : List ChunkResult)
    (o : StepSettlement φ) (start mid stop : Int) : Prop where
  start_eq : nextStart p st = some start
  stop_eq : nextStart o.progress st = some stop
  floor : o.progress.floor = p.floor
  write : o.writeSpans = (donePrefix st rs).map (·.span)
  read : o.progress.bucketsRead = p.bucketsRead + ((donePrefix st rs).map (·.span.count st)).sum
  gaps : o.progress.gaps = p.gaps ++ o.newGap.toList
  tiles : Tiles start ((donePrefix st rs).map (·.span.pair)) mid
  aligned : ∀ r ∈ donePrefix st rs, r.span.Aligned st
  blocked : ∀ b, blockerOf st rs = some b →
    b.span.start = mid ∧ mid < b.span.stop ∧ b.span.Aligned st
  stop_cases : stop = match o.newGap with
    | none => mid
    | some g => g.stop
  effect : BlockerEffect st p rs o.progress.failures o.newGap

theorem nextStart_some_floor {p n} (h : nextStart p st = some n) :
    ∃ f, p.floor = some f ∧ n = match p.through with
      | none => f
      | some t => t + st.bucket := by
  unfold nextStart at h
  cases hf : p.floor with
  | none => simp [hf] at h
  | some f =>
    cases ht : p.through with
    | none => simp only [hf, ht, Option.some.injEq] at h; exact ⟨f, rfl, h.symm⟩
    | some t => simp only [hf, ht, Option.some.injEq] at h; exact ⟨f, rfl, h.symm⟩

theorem Branch.nextStart {p rs start mid pre v} (hs : nextStart p st = some start)
    (sp : PrefixSpec st { through := p.through } pre rs start mid) (br : Branch st p (afterPrefix p rs pre) rs v) :
    nextStart v.updated st = some (match v.newGap with
      | none => mid
      | some g => g.stop) := by
  obtain ⟨f, hf, hstart⟩ := nextStart_some_floor hs
  have hfloor : v.updated.floor = some f := by rw [br.floor]; exact hf
  have hthrough := br.through
  unfold History.nextStart
  cases hg : v.newGap with
  | some g =>
    simp only [hg] at hthrough
    simp [hfloor, hthrough]
  | none =>
    simp only [hg] at hthrough
    have hpre : v.updated.through = if donePrefix st rs = [] then p.through else some (mid - st.bucket) := by
      rw [hthrough]; exact sp.through
    by_cases hnil : donePrefix st rs = []
    · have hmid : start = mid := by simpa [hnil, Tiles] using sp.tiles
      rw [if_pos hnil] at hpre
      rw [hfloor, hpre, ← hmid, hstart]
      cases p.through <;> rfl
    · rw [if_neg hnil] at hpre
      simp [hfloor, hpre]

theorem settleStep_parts {p rs stop o}
    (h : settleStep p rs stop st = .ok o) : ∃ start pre v, nextStart p st = some start ∧
      checkContiguous start rs = .ok () ∧ readPrefix st { through := p.through } rs = .ok pre ∧
      settleBlocker (afterPrefix p rs pre) pre (chunkWidth p st) st = .ok v ∧
      let gated := finishGate (densityGate v st) stop st
      o = ⟨gated.updated, pre.write, !pre.write.isEmpty, String.intercalate "; " gated.reasons, gated.trigger,
        gated.newGap⟩ := by
  unfold settleStep at h
  cases hs : nextStart p st with
  | none => simp [hs] at h
  | some start =>
    simp only [hs] at h
    obtain ⟨_, _, h⟩ := bind_ok h
    obtain ⟨_, hc, h⟩ := bind_ok h
    obtain ⟨pre, hp, h⟩ := bind_ok h
    obtain ⟨v, hv, h⟩ := bind_ok h
    cases h
    exact ⟨start, pre, v, rfl, hc, hp, hv, rfl⟩

/-- The inversion lemma: everything an accepted `settleStep` can do. -/
theorem settleStep_ok {p rs stop o} (h : settleStep p rs stop st = .ok o) :
    ∃ start mid next, Settled st p rs o start mid next := by
  obtain ⟨start, pre, v, hs, hc, hp, hv, rfl⟩ := settleStep_parts h
  obtain ⟨mid, sp⟩ := readPrefix_spec hp hc rfl
  have hlt : ∀ b, blockerOf st rs = some b → b.span.start < b.span.stop := by
    intro b hb
    have := sp.blocked b hb
    omega
  have br := settleBlocker_branch (p := p) (u := afterPrefix p rs pre) sp.blocker hlt rfl rfl hv
  have hnext := br.nextStart hs sp
  obtain ⟨x, hupd, hgap⟩ := gates_updated st v stop
  refine ⟨start, mid, _, hs, ?_, ?_, ?_, ?_, ?_, sp.tiles, sp.aligned, sp.blocked, rfl, ?_⟩
  · rw [hupd, hgap]; exact hnext
  · rw [hupd]; exact br.floor
  · rw [sp.write]; rfl
  · rw [hupd]; exact br.bucketsRead.trans (by simp [afterPrefix, sp.read])
  · rw [hupd, hgap]; exact br.gaps
  · rw [hupd, hgap]; exact br.effect

end QRadarDashboard.History
