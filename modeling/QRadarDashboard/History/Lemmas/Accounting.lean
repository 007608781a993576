import QRadarDashboard.History.Catchall
import QRadarDashboard.History.Lemmas.Settle
import QRadarDashboard.History.PhaseAFold
import QRadarDashboard.Lib.Run

/-!
# The searches a settlement counts
-/

namespace QRadarDashboard.History
open Lib Ips QRadarDashboard.Catchall

variable {φ μ : Type} [PyFloat φ] {st : PlannerSettings φ}

/-! ## Settling -/

@[simp] theorem widthAfterStep_searches (p : ScopeProgress Int φ) (current : Int) :
    (widthAfterStep p current st).1.searches = p.searches := rfl

theorem settleFailed_searches (u : ScopeProgress Int φ) (b : ChunkResult) (n : Int) :
    (settleFailed u b n st).updated.searches = u.searches := by
  unfold settleFailed
  dsimp only
  split
  · split
    · split <;> rfl
    · rfl
  · rfl

theorem settleBlocker_searches {u pre current v}
    (h : settleBlocker u pre current st = .ok v) : v.updated.searches = u.searches := by
  unfold settleBlocker at h
  cases hb : pre.blocker with
  | none =>
    simp only [hb, Except.ok.injEq] at h
    subst h
    rfl
  | some b =>
    simp only [hb] at h
    obtain ⟨n, _, h⟩ := bind_ok h
    cases hst : b.status with
    | failed =>
      simp only [hst, Except.ok.injEq] at h
      subst h
      exact settleFailed_searches u b n
    | truncated =>
      simp only [hst, Except.ok.injEq] at h
      subst h
      rfl
    | complete | notRun =>
      simp only [hst, Except.ok.injEq] at h
      subst h
      unfold settleNotRun
      dsimp only
      split <;> rfl

theorem settleStep_searches {p rs stop o}
    (h : settleStep p rs stop st = .ok o) : o.progress.searches = p.searches + searchesSpent rs := by
  obtain ⟨start, pre, v, -, -, -, hv, rfl⟩ := settleStep_parts h
  obtain ⟨x, hupd, _⟩ := gates_updated st v stop
  rw [hupd]
  exact settleBlocker_searches hv

theorem searchesSpent_append (rs rs' : List ChunkResult) :
    searchesSpent (rs ++ rs') = searchesSpent rs + searchesSpent rs' := by
  simp [searchesSpent]

theorem searchesSpent_singleton (r : ChunkResult) :
    searchesSpent [r] = if r.status = .notRun then 0 else r.searches := by
  by_cases h : r.status = .notRun <;> simp [searchesSpent, h]

theorem searchesSpent_flatten (rss : List (List ChunkResult)) :
    searchesSpent rss.flatten = (rss.map searchesSpent).sum := by
  induction rss with
  | nil => rfl
  | cons rs rss ih => rw [List.flatten_cons, searchesSpent_append, ih, List.map_cons, List.sum_cons]

theorem sum_map_eq_iff {α : Type} {f g : α → Int} {l : List α} (h : ∀ x ∈ l, f x ≤ g x) :
    (l.map f).sum = (l.map g).sum ↔ ∀ x ∈ l, f x = g x := by
  induction l with
  | nil => simp
  | cons x l ih =>
    have hx := h x List.mem_cons_self
    have htail : ∀ y ∈ l, f y ≤ g y := fun y hy => h y (List.mem_cons_of_mem x hy)
    have hle : (l.map f).sum ≤ (l.map g).sum := List.sum_le_sum htail
    rw [List.map_cons, List.map_cons, List.sum_cons, List.sum_cons, List.forall_mem_cons, ← ih htail]
    omega

theorem Span.buckets_eq {s : Span Int} {n} (h : s.buckets st = .ok n) : s.Aligned st ∧ n = max 0 (s.count st) := by
  unfold Span.buckets bucketsBetween at h
  obtain ⟨_, h₁, h⟩ := bind_ok h
  obtain ⟨_, h₂, h⟩ := bind_ok h
  have haligned : s.Aligned st := ⟨requireAligned_ok.mp h₁, requireAligned_ok.mp h₂⟩
  simp only [epoch_of_dvd haligned.1, epoch_of_dvd haligned.2, bind, Except.bind, pure, Except.pure,
    Except.ok.injEq, ediv_bucket haligned] at h
  exact ⟨haligned, h.symm⟩

theorem Span.buckets_pos_iff {s : Span Int} {n} (h : s.buckets st = .ok n) : 0 < n ↔ s.start < s.stop := by
  obtain ⟨haligned, rfl⟩ := Span.buckets_eq h
  have hmul := Span.count_mul haligned
  have hbucket := st.bucket_pos
  rw [lt_max_iff, or_iff_right (lt_irrefl 0)]
  constructor
  · intro hpos
    have := Int.mul_pos hpos hbucket
    omega
  · intro hlt
    by_contra hneg
    have := Int.mul_le_mul_of_nonneg_right (not_lt.mp hneg) (le_of_lt hbucket)
    omega

/-! ## Runs of steps -/

structure ReadStep (φ ρ : Type) [PyFloat φ] where
  st : PlannerSettings φ
  reads : List ρ
  stop : Int

theorem run_searches {ρ : Type} {settle : ScopeProgress Int φ → ReadStep φ ρ → Except Exc (StepSettlement φ)}
    {cost : ρ → Int} (hstep : ∀ {p i o}, settle p i = .ok o → o.progress.searches = p.searches + (i.reads.map cost).sum)
    {p₀ p tr} (hrun : Run settle StepSettlement.progress p₀ tr p) :
    p.searches = p₀.searches + ((tr.flatMap (fun e => e.input.reads)).map cost).sum := by
  refine hrun.invariant' (fun tr p =>
    p.searches = p₀.searches + ((tr.flatMap (fun e => e.input.reads)).map cost).sum) (by simp) ?_
  intro tr p i o hI hs
  rw [hstep hs, hI]
  simp [add_assoc]

theorem run_searches_iff {ρ : Type} {settle : ScopeProgress Int φ → ReadStep φ ρ → Except Exc (StepSettlement φ)}
    (searches : ρ → Nat) (Charged : ρ → Prop) [DecidablePred Charged] (hzero : ∀ r, searches r = 0 → Charged r)
    (hstep : ∀ {p i o}, settle p i = .ok o →
      o.progress.searches = p.searches + (i.reads.map (fun r => if Charged r then (searches r : Int) else 0)).sum)
    {p₀ p : ScopeProgress Int φ} {tr}
    (hrun : Run settle StepSettlement.progress p₀ tr p) :
    p.searches = p₀.searches + ((tr.flatMap (fun e => e.input.reads)).map (fun r => (searches r : Int))).sum ↔
      ∀ e ∈ tr, ∀ r ∈ e.input.reads, Charged r := by
  rw [run_searches hstep hrun, add_right_inj, sum_map_eq_iff]
  · constructor
    · intro h e he r hr
      have hr := h r (List.mem_flatMap.mpr ⟨e, he, hr⟩)
      by_contra hc
      rw [if_neg hc] at hr
      exact hc (hzero r (by omega))
    · intro h r hr
      obtain ⟨e, he, hr⟩ := List.mem_flatMap.mp hr
      rw [if_pos (h e he r hr)]
  · intro r _
    split <;> omega

/-! ## Phase A -/

namespace PhaseA

/-- The searches of the chunk are on a result that ran. -/
def ChunkRead.Charged (read : ChunkRead μ) : Prop :=
  read.searches = 0 ∨ read.chunk.start < read.chunk.stop ∧
    ((read.completed.get? read.chunk.start).isSome ∨ read.failed.isSome)

instance (read : ChunkRead μ) : Decidable read.Charged := inferInstanceAs (Decidable (_ ∨ _))

theorem prefixLength_eq_zero (completed : Dict Int (CompletedBucket μ)) (bucket : Int) (count : Nat) (start : Int) :
    prefixLength completed bucket count start = 0 ↔ count = 0 ∨ (completed.get? start).isSome = false := by
  cases count with
  | zero => simp [prefixLength]
  | succ count =>
    by_cases h : (completed.get? start).isSome <;> simp [prefixLength, h]

theorem searchesSpent_results {read : ChunkRead μ} {rs} (h : read.results st = .ok rs) :
    searchesSpent rs = if read.Charged then (read.searches : Int) else 0 := by
  rw [ChunkRead.results, chunkResults] at h
  obtain ⟨count, hcount, h⟩ := bind_ok h
  have hpos := Span.buckets_pos_iff hcount
  have hzero := prefixLength_eq_zero read.completed st.bucket count.toNat read.chunk.start
  generalize prefixLength read.completed st.bucket count.toNat read.chunk.start = done at h hzero
  have hrest : ∀ {searches : Nat} {r : ChunkResult},
      restResult read.chunk (read.chunk.start + done * st.bucket) searches read.failed = .ok r →
      r.searches = searches ∧ (r.status = .notRun ↔ read.failed.isSome = false) := by
    intro searches r hr
    unfold restResult at hr
    cases hf : read.failed with
    | none =>
      rw [hf] at hr
      cases hr
      simp
    | some failed =>
      simp only [hf] at hr
      split at hr
      · cases hr
      · cases hr
        simp
  by_cases hdone : done = 0
  · -- Nothing was read: the searches are on what follows.
    subst hdone
    have hnone := hzero.mp rfl
    simp only [if_true, List.nil_append] at h
    split at h
    · rename_i hlt
      obtain ⟨r, hr, h⟩ := bind_ok h
      cases h
      obtain ⟨hsearches, hstatus⟩ := hrest hr
      have hempty : (read.completed.get? read.chunk.start).isSome = false := by
        rcases hnone with hcount0 | hnone
        · omega
        · exact hnone
      rw [searchesSpent_singleton, hsearches]
      have hchunk := hpos.mp (by omega)
      by_cases hf : read.failed.isSome
      · simp [ChunkRead.Charged, hstatus, hf, hchunk]
      · by_cases hs : read.searches = 0
        · simp [hs]
        · simp [ChunkRead.Charged, hstatus, hf, hempty, hs]
    · rename_i hlt
      cases h
      have hchunk : ¬ read.chunk.start < read.chunk.stop := fun hc => hlt (by simpa using hpos.mpr hc)
      by_cases hs : read.searches = 0
      · simp [searchesSpent, hs]
      · simp [searchesSpent, ChunkRead.Charged, hs, hchunk]
  · have hread : ¬ (count.toNat = 0 ∨ (read.completed.get? read.chunk.start).isSome = false) := fun hc => hdone (hzero.mpr hc)
    have hcharged : read.Charged := by
      refine Or.inr ⟨hpos.mp ?_, Or.inl ?_⟩
      · by_contra hneg
        exact hread (Or.inl (by omega))
      · by_contra hneg
        exact hread (Or.inr (by simpa using hneg))
    simp only [hdone, if_false] at h
    split at h
    · obtain ⟨r, hr, h⟩ := bind_ok h
      cases h
      rw [searchesSpent_append, searchesSpent_singleton, searchesSpent_singleton, (hrest hr).1]
      simp [prefixResult, hcharged]
    · cases h
      rw [searchesSpent_singleton]
      simp [prefixResult, hcharged]

theorem settleReads_searches {p : ScopeProgress Int φ} {reads : List (ChunkRead μ)} {stop o}
    (h : settleReads p reads stop st = .ok o) :
    o.progress.searches = p.searches +
      (reads.map (fun read => if read.Charged then (read.searches : Int) else 0)).sum := by
  rw [settleReads] at h
  obtain ⟨rss, hrss, h⟩ := bind_ok h
  rw [settleStep_searches h, searchesSpent_flatten, map_eq_of_mapM (fun _ _ => searchesSpent_results) hrss]

def settle (p : ScopeProgress Int φ) (i : ReadStep φ (ChunkRead μ)) : Except Exc (StepSettlement φ) :=
  settleReads p i.reads i.stop i.st

end PhaseA

/-! ## Catch-all -/

namespace Catchall

/-- The searches of the span are on a result that ran. -/
def SpanRead.Charged (read : SpanRead) : Prop :=
  read.searches = 0 ∨ ∃ first, read.outcomes.head? = some first ∧ first.state ≠ .notCollected

instance (read : SpanRead) : Decidable read.Charged :=
  decidable_of_iff (read.searches = 0 ∨ read.outcomes.head?.any (fun first => first.state ≠ .notCollected))
    (by simp [SpanRead.Charged, Option.any_eq_true])

theorem searchesSpent_free {rs} (h : ∀ r ∈ rs, r.searches = 0) : searchesSpent rs = 0 := by
  simp only [searchesSpent]
  refine List.sum_eq_zero (fun n hn => ?_)
  obtain ⟨r, hr, rfl⟩ := List.mem_map.mp hn
  exact h r (List.mem_of_mem_filter hr)

theorem searchesSpent_chargeFirst {rs} (h : ∀ r ∈ rs, r.searches = 0) (searches : Nat) :
    searchesSpent (chargeFirst searches rs) =
      if (rs.head?.any (fun first => first.status ≠ .notRun)) then (searches : Int) else 0 := by
  cases rs with
  | nil => rfl
  | cons first rest =>
    have hrest := searchesSpent_free (fun r hr => h r (List.mem_cons_of_mem first hr))
    rw [chargeFirst, ← List.singleton_append, searchesSpent_append, searchesSpent_singleton, hrest]
    by_cases hst : first.status = .notRun <;> simp [hst]

theorem runResults_free {width run} : ∀ r ∈ runResults width run, r.searches = 0 := by
  intro r hr
  unfold runResults at hr
  split at hr
  · rename_i first last _ _
    cases hst : first.state with
    | lowerBound =>
      simp only [hst, List.mem_map] at hr
      obtain ⟨_, _, rfl⟩ := hr
      rfl
    | complete | failed | rejected | notCollected =>
      simp only [hst, List.mem_singleton] at hr
      rw [hr]
      rfl
  · cases hr

theorem runResults_head (width : Int) (first : CatchallBucketOutcome) (rest : List CatchallBucketOutcome) :
    ∃ r rs, runResults width (first :: rest) = r :: rs ∧ (r.status = .notRun ↔ first.state = .notCollected) := by
  obtain ⟨last, hlast⟩ : ∃ last, (first :: rest).getLast? = some last := ⟨_, List.getLast?_eq_some_getLast (by simp)⟩
  unfold runResults
  simp only [List.head?_cons, hlast]
  cases hst : first.state <;> exact ⟨_, _, rfl, by simp [freeResult]⟩

theorem runs_cons (first : CatchallBucketOutcome) (rest : List CatchallBucketOutcome) :
    ∃ run others, runs (first :: rest) = (first :: run) :: others := by
  have hne : runs (first :: rest) ≠ [] := by simp [runs]
  cases hruns : runs (first :: rest) with
  | nil => exact absurd hruns hne
  | cons run others =>
    have hflat : (runs (first :: rest)).flatten = first :: rest := List.flatten_splitBy _ _
    rw [hruns, List.flatten_cons] at hflat
    cases run with
    | nil =>
      have hmem : ([] : List CatchallBucketOutcome) ∈ runs (first :: rest) := by simp [hruns]
      exact absurd hmem (List.nil_notMem_splitBy _ _)
    | cons first' run =>
      rw [List.cons_append] at hflat
      cases (List.cons.inj hflat).1
      exact ⟨run, others, rfl⟩

theorem searchesSpent_results (read : SpanRead) (bucketSeconds : Int) :
    searchesSpent (read.results bucketSeconds) = if read.Charged then (read.searches : Int) else 0 := by
  rw [SpanRead.results, chunkResults, searchesSpent_chargeFirst]
  · cases houtcomes : read.outcomes with
    | nil =>
      by_cases hs : read.searches = 0
      · simp [hs]
      · simp [SpanRead.Charged, hs, houtcomes, runs]
    | cons first rest =>
      obtain ⟨run, others, hruns⟩ := runs_cons first rest
      obtain ⟨r, rs, hr, hstatus⟩ := runResults_head (seconds bucketSeconds) first run
      simp only [hruns, List.flatMap_cons, hr, List.cons_append, List.head?_cons, Option.any_some]
      by_cases hs : read.searches = 0
      · simp [hs]
      · by_cases hst : first.state = .notCollected
        · simp [SpanRead.Charged, hs, houtcomes, hst, hstatus.mpr hst]
        · have hran : r.status ≠ .notRun := fun hc => hst (hstatus.mp hc)
          simp [SpanRead.Charged, houtcomes, hst, hran]
  · intro r hr
    obtain ⟨run, _, hr⟩ := List.mem_flatMap.mp hr
    exact runResults_free r hr

theorem settleReads_searches {p : ScopeProgress Int φ} {reads : List SpanRead} {bucketSeconds stop o}
    (h : settleReads p reads bucketSeconds stop st = .ok o) :
    o.progress.searches = p.searches +
      (reads.map (fun read => if read.Charged then (read.searches : Int) else 0)).sum := by
  rw [settleReads] at h
  rw [settleStep_searches h, List.flatMap_def, searchesSpent_flatten, List.map_map]
  simp only [Function.comp_def, searchesSpent_results]

def settle (bucketSeconds : Int) (p : ScopeProgress Int φ) (i : ReadStep φ SpanRead) : Except Exc (StepSettlement φ) :=
  settleReads p i.reads bucketSeconds i.stop i.st

end Catchall

end QRadarDashboard.History
