import QRadarDashboard.Catchall.Lemmas.KeyedSearch
import QRadarDashboard.Collectors.MetricCollector
import QRadarDashboard.History.Lemmas.FirstChunk

/-!
# The first chunk a step searches
-/

namespace QRadarDashboard.Collectors
open Lib History QRadarDashboard.Catchall Ips

variable {φ μ : Type} [PyFloat φ] {st : PlannerSettings φ}

/-! ## Phase A -/

def WindowArgs.Cut (a : WindowArgs μ) (first : Int) (count k : Nat) : Prop :=
  1 < count ∧ ∃ batch, a.provider.bucketed (a.before + k) first (a.bucketAt first count) = .ok batch ∧
    batch.truncated = true

/-- The left-first search comes to a search that is not cut, within the cap and the time. -/
def WindowArgs.Reaches (a : WindowArgs μ) (first : Int) (count searches : Nat) : Prop :=
  ∃ k, searches + k < a.maxSearches ∧ (∀ j ≤ k, a.late (searches + j) = false) ∧
    ¬ a.Cut first (count / 2 ^ k) (searches + k)

variable {a : WindowArgs μ}

theorem WindowArgs.reaches_iff {first count searches} : a.Reaches first count searches ↔
    searches < a.maxSearches ∧ a.late searches = false ∧
      (a.Cut first count searches → a.Reaches first (count / 2) (searches + 1)) := by
  constructor
  · rintro ⟨k, hcap, hlate, hcut⟩
    refine ⟨by omega, hlate 0 (Nat.zero_le k), fun hfirst => ?_⟩
    cases k with
    | zero => exact absurd (by simpa using hfirst) hcut
    | succ k =>
      refine ⟨k, by omega, fun j hj => ?_, ?_⟩
      · have := hlate (j + 1) (by omega)
        rwa [show searches + (j + 1) = searches + 1 + j by omega] at this
      · rwa [Nat.div_div_eq_div_mul, ← Nat.pow_succ', Nat.add_assoc, Nat.add_comm 1 k]
  · rintro ⟨hcap, hlate, hnext⟩
    by_cases hcut : a.Cut first count searches
    · obtain ⟨k, hcap', hlate', hcut'⟩ := hnext hcut
      refine ⟨k + 1, by omega, fun j hj => ?_, ?_⟩
      · cases j with
        | zero => exact hlate
        | succ j =>
          have := hlate' j (by omega)
          rwa [show searches + 1 + j = searches + (j + 1) by omega] at this
      · rwa [Nat.div_div_eq_div_mul, ← Nat.pow_succ', Nat.add_assoc, Nat.add_comm 1 k] at hcut'
    · exact ⟨0, hcap, fun j hj => by simpa [Nat.le_zero.mp hj] using hlate, by simpa using hcut⟩

def Keeps (found found' : WindowSearch μ) : Prop :=
  ∀ k, (found.completed.get? k).isSome → (found'.completed.get? k).isSome

theorem keeps_complete (found : WindowSearch μ) (first : Int) (count depth : Nat) (samples : Int → List μ) :
    Keeps found (a.complete first count depth samples found) := by
  intro k hk
  have h := Dict.get?_foldl_set (fun index : Nat => a.bucketAt first index)
    (fun index => CompletedBucket.mk (samples (a.bucketAt first index)) first (a.bucketAt first count) count depth)
    (List.range count) found.completed k
  simp only [WindowArgs.complete]
  cases hget : Dict.get? ((List.range count).foldl (fun completed index => completed.set (a.bucketAt first index)
      (CompletedBucket.mk (samples (a.bucketAt first index)) first (a.bucketAt first count) count depth))
      found.completed) k with
  | some v => rfl
  | none =>
    simp only [hget] at h
    rw [h.1] at hk
    cases hk

theorem completes_first (found : WindowSearch μ) {count} (hcount : 0 < count) (first : Int) (depth : Nat)
    (samples : Int → List μ) : ((a.complete first count depth samples found).completed.get? first).isSome := by
  have h := Dict.get?_foldl_set (fun index : Nat => a.bucketAt first index)
    (fun index => CompletedBucket.mk (samples (a.bucketAt first index)) first (a.bucketAt first count) count depth)
    (List.range count) found.completed first
  simp only [WindowArgs.complete]
  cases hget : Dict.get? ((List.range count).foldl (fun completed index => completed.set (a.bucketAt first index)
      (CompletedBucket.mk (samples (a.bucketAt first index)) first (a.bucketAt first count) count depth))
      found.completed) first with
  | some v => rfl
  | none =>
    simp only [hget] at h
    exact absurd (by simp [WindowArgs.bucketAt, seconds]) (h.2 0 (List.mem_range.mpr hcount))

theorem keeps_search (first : Int) (count depth : Nat) (found : WindowSearch μ) :
    Keeps found (a.search first count depth found) := by
  induction hn : count using Nat.strongRecOn generalizing first count depth found with
  | ind n ih =>
    subst hn
    rw [WindowArgs.search]
    split
    · exact fun _ h => h
    · split
      · exact fun _ h => h
      · simp only
        split
        · rename_i hcount
          split
          · exact fun _ h => h
          · split
            · have hleft := ih _ (by omega : count / 2 < count) first (count / 2) (depth + 1)
                { found with searches := found.searches + 1, splits := found.splits + 1 } rfl
              split
              · exact hleft
              · exact fun k hk => ih _ (by omega : count - count / 2 < count) _ _ _ _ rfl k (hleft k hk)
            · exact keeps_complete { found with searches := found.searches + 1 } first count depth _
        · split
          · exact fun _ h => h
          · exact keeps_complete { found with searches := found.searches + 1 } first count depth _

theorem search_first (first : Int) {count} (hcount : 0 < count) (depth : Nat) (found : WindowSearch μ)
    (hfound : found.failure = none) :
    (a.Reaches first count found.searches ∧ ((a.search first count depth found).failure ≠ none ∨
        ((a.search first count depth found).completed.get? first).isSome)) ∨
      (¬ a.Reaches first count found.searches ∧
        (a.search first count depth found).completed = found.completed ∧
        (a.search first count depth found).failed = found.failed ∧
        (a.search first count depth found).capped = true) := by
  induction hn : count using Nat.strongRecOn generalizing count depth found with
  | ind n ih =>
    subst hn
    rw [WindowArgs.search, WindowArgs.reaches_iff, if_neg (by simp [hfound])]
    by_cases hstop : a.maxSearches ≤ found.searches ∨ a.late found.searches
    · rw [if_pos hstop]
      refine Or.inr ⟨?_, rfl, rfl, rfl⟩
      rintro ⟨hcap, hlate, _⟩
      rcases hstop with hstop | hstop
      · omega
      · simp [hlate] at hstop
    · rw [if_neg hstop]
      have hcap : found.searches < a.maxSearches := by
        by_contra hcap
        exact hstop (Or.inl (not_lt.mp hcap))
      have hlate : a.late found.searches = false := by
        by_contra hlate
        exact hstop (Or.inr (by simpa using hlate))
      simp only [hcap, hlate, true_and]
      by_cases hmany : 1 < count
      · simp only [if_pos hmany]
        cases hanswer : a.provider.bucketed (a.before + found.searches) first (a.bucketAt first count) with
        | error error =>
          refine Or.inl ⟨?_, Or.inl (by simp [WindowArgs.fail])⟩
          rintro ⟨_, batch, hbatch, _⟩
          simp [hanswer] at hbatch
        | ok batch =>
          by_cases htruncated : batch.truncated
          · have hcut : a.Cut first count found.searches := ⟨hmany, batch, hanswer, htruncated⟩
            simp only [htruncated, if_true, hcut, true_imp_iff]
            rcases ih _ (by omega : count / 2 < count) (by omega : 0 < count / 2) (depth + 1)
              { found with searches := found.searches + 1, splits := found.splits + 1 } hfound rfl with
              ⟨hreach, hread⟩ | ⟨hreach, hleft⟩
            · refine Or.inl ⟨hreach, ?_⟩
              split
              · exact hread
              · rename_i hon
                rcases hread with hfail | hread
                · exact absurd (Or.inr (Option.isSome_iff_ne_none.mpr hfail)) hon
                · exact Or.inr (keeps_search _ _ _ _ _ hread)
            · refine Or.inr ⟨hreach, ?_⟩
              rw [if_pos (Or.inl hleft.2.2)]
              exact hleft
          · simp only [htruncated, Bool.false_eq_true, if_false]
            refine Or.inl ⟨?_, Or.inr (completes_first _ hcount first depth _)⟩
            rintro ⟨_, batch', hbatch', htruncated'⟩
            rw [hanswer] at hbatch'
            cases hbatch'
            exact absurd htruncated' htruncated
      · simp only [if_neg hmany]
        have hcut : a.Cut first count found.searches → a.Reaches first (count / 2) (found.searches + 1) :=
          fun hcut => absurd hcut.1 hmany
        refine Or.inl ⟨hcut, ?_⟩
        cases hanswer : a.provider.metrics (a.before + found.searches) first (a.bucketAt first count) with
        | error error => exact Or.inl (by simp [WindowArgs.fail])
        | ok samples => exact Or.inr (completes_first _ hcount first depth _)

theorem readChunks_first {s : PhaseAStep μ} {budget chunk rest n} (hn : chunk.buckets st = .ok n)
    (hbudget : 0 < budget) {readings} (h : readChunks s st budget 0 (chunk :: rest) = .ok readings) :
    ∃ more, readings = ⟨chunk, searchWindow (s.window st budget 0) chunk.start n.toNat⟩ :: more := by
  rw [readChunks, if_neg (by omega)] at h
  obtain ⟨n', hn', h⟩ := bind_ok h
  cases hn.symm.trans hn'
  simp only at h
  split at h
  · cases h
    exact ⟨_, rfl⟩
  · obtain ⟨more, _, h⟩ := bind_ok h
    cases h
    exact ⟨more, rfl⟩

theorem phaseAStep_sent {s p chunks anchor budget} {readings : List (PhaseAReading μ)} {step}
    (h : phaseAStep s st p chunks anchor budget = .ok (some (readings, step))) (hsent : 0 < step.searches) :
    0 < budget ∧ ∃ chunk rest, chunks = chunk :: rest := by
  rw [phaseAStep] at h
  obtain ⟨readings', hreadings, h⟩ := bind_ok h
  split at h
  · cases h
  · obtain ⟨settlement, _, h⟩ := bind_ok h
    cases h
    cases chunks with
    | nil =>
      cases hreadings
      cases hsent
    | cons chunk rest =>
      refine ⟨?_, chunk, rest, rfl⟩
      by_contra hbudget
      rw [readChunks, if_pos (by omega)] at hreadings
      cases hreadings
      cases hsent

/-- A step writes if its first chunk's search was reached. Else it leaves the position and the width. -/
def Settles (st : PlannerSettings φ) (p : ScopeProgress Int φ) (o : StepSettlement φ) (reached : Prop) : Prop :=
  (reached ∧ o.writeSpans ≠ []) ∨ (¬ reached ∧ o.writeSpans = [] ∧ chunkWidth o.progress st = chunkWidth p st)

theorem phaseAStep_first {s : PhaseAStep μ} {p chunk rest anchor budget readings step n}
    (hn : chunk.buckets st = .ok n) (hpos : 0 < n) (hbudget : 0 < budget)
    (h : phaseAStep s st p (chunk :: rest) anchor budget = .ok (some (readings, step)))
    (hfail : ∀ r ∈ readings, r.found.failure = none) :
    Settles st p step.settlement ((s.window st budget 0).Reaches chunk.start n.toNat 0) := by
  rw [phaseAStep] at h
  obtain ⟨readings', hreadings, h⟩ := bind_ok h
  split at h
  · cases h
  · obtain ⟨settlement, hsettle, h⟩ := bind_ok h
    cases h
    obtain ⟨more, rfl⟩ := readChunks_first hn hbudget hreadings
    rw [List.map_cons, PhaseA.settleReads, List.mapM_cons] at hsettle
    obtain ⟨rss, hrss, hsettle⟩ := bind_ok hsettle
    obtain ⟨rs, hrs, hrss⟩ := bind_ok hrss
    obtain ⟨others, _, hrss⟩ := bind_ok hrss
    cases hrss
    simp only [PhaseAReading.read, PhaseA.ChunkRead.results] at hrs
    rcases search_first (a := s.window st budget 0) chunk.start (by omega : 0 < n.toNat) 0 {} rfl with
      ⟨hreach, hread⟩ | ⟨hreach, hcompleted, hfailed, _⟩
    · have hfirst := hread.resolve_left (fun hne => hne (hfail _ List.mem_cons_self))
      obtain ⟨r, rs', rfl, hstatus⟩ := PhaseA.chunkResults_first hn hpos hrs hfirst
      exact Or.inl ⟨hreach, settleStep_done hsettle (by simp [ChunkResult.isDone, ChunkResult.done, hstatus])⟩
    · simp only [searchWindow, hcompleted, hfailed] at hrs
      obtain ⟨r, rs', rfl, hstatus⟩ := PhaseA.chunkResults_notRun hn hpos hrs rfl
      exact Or.inr ⟨hreach, settleStep_notRun hsettle hstatus⟩

/-! ## Catch-all -/

def CatchallStep.args (s : CatchallStep) (st : PlannerSettings φ) (start : Int) : CatchallArgs where
  provider := s.provider
  before := 0
  types := sortOn (fun t => t) s.typeIds.dedup
  start := start
  bucketSeconds := st.bucketSeconds
  maxRows := s.maxRowsPerSearch
  width_ok := by
    have := st.bucketSeconds_ok
    omega

theorem catchallStep_sent {s p chunks anchor budget readings step}
    (h : catchallStep s st p chunks anchor budget = .ok (readings, step)) (hsent : 0 < step.searches) :
    ∃ chunk rest, chunks = chunk :: rest := by
  rw [catchallStep] at h
  obtain ⟨readings', hreadings, h⟩ := bind_ok h
  obtain ⟨settlement, _, h⟩ := bind_ok h
  cases h
  cases chunks with
  | nil =>
    cases hreadings
    cases hsent
  | cons chunk rest => exact ⟨chunk, rest, rfl⟩

theorem catchallStep_first {s p chunk rest anchor budget readings step n}
    (hn : chunk.buckets st = .ok n) (h : catchallStep s st p (chunk :: rest) anchor budget = .ok (readings, step))
    (hfail : ∀ r ∈ readings, ∀ o ∈ r.outcomes, o.state ≠ .failed ∧ o.state ≠ .rejected) :
    Settles st p step.settlement ((s.args st chunk.start).Reaches 0 n.toNat 0 ⟨budget, 0⟩) := by
  rw [catchallStep] at h
  obtain ⟨readings', hreadings, h⟩ := bind_ok h
  obtain ⟨settlement, hsettle, h⟩ := bind_ok h
  cases h
  rw [readSpans] at hreadings
  obtain ⟨report, hreport, hreadings⟩ := bind_ok hreadings
  obtain ⟨more, _, hreadings⟩ := bind_ok hreadings
  cases hreadings
  obtain ⟨count, hstop, first, others, houtcomes, hstart, hcollected⟩ :=
    runCatchallSearch_first (s.args st chunk.start).width_ok hreport
  have hcount : n.toNat = count := by
    have hbucket := st.bucket_pos
    have hwidth : chunk.stop - chunk.start = count * st.bucket := by
      have hstop : chunk.stop = chunk.start + seconds (st.bucketSeconds * count) := hstop
      rw [hstop, PlannerSettings.bucket, seconds, seconds]
      ring
    rw [(Span.buckets_eq hn).2, Span.count, hwidth, Int.mul_ediv_cancel _ (by omega)]
    omega
  obtain ⟨r, rs, hresults, hnotRun, hcomplete, hlower⟩ :=
    Catchall.chunkResults_first first others st.bucketSeconds report.budget.used
  have hresults : (History.Catchall.SpanRead.mk report.outcomes (report.budget.used - 0)).results st.bucketSeconds =
      r :: rs := by
    rw [History.Catchall.SpanRead.results, houtcomes]
    exact hresults
  rw [History.Catchall.settleReads, List.flatMap_cons, hresults, List.cons_append] at hsettle
  rw [hcount]
  by_cases hstate : first.state = .notCollected
  · exact Or.inr ⟨fun hreach => hcollected.mpr hreach hstate, settleStep_notRun hsettle (hnotRun hstate)⟩
  · refine Or.inl ⟨hcollected.mp hstate, settleStep_done hsettle ?_⟩
    have hfail := hfail _ List.mem_cons_self first (by simp [houtcomes])
    cases hst : first.state with
    | complete => simp [ChunkResult.isDone, ChunkResult.done, hcomplete hst]
    | lowerBound =>
      obtain ⟨hstatus, hspan⟩ := hlower hst
      have hone : r.span.count st = 1 := by
        rw [hspan, Span.count, add_sub_cancel_left]
        exact Int.ediv_self (by have := st.bucket_pos; unfold PlannerSettings.bucket at this; omega)
      simp [ChunkResult.isDone, ChunkResult.done, hstatus, hone]
    | failed => exact absurd hst hfail.1
    | rejected => exact absurd hst hfail.2
    | notCollected => exact absurd hst hstate

end QRadarDashboard.Collectors
