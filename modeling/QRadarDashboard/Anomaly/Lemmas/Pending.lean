import QRadarDashboard.Anomaly.Pending
import QRadarDashboard.Lib.Run

/-!
# One tick over the pending buckets of a source
-/

namespace QRadarDashboard.Anomaly
open Lib

/-! ## Live buckets -/

namespace MetricTable

variable {t : MetricTable} {sourceId : String}

theorem mem_live {metric} : metric ∈ t.live sourceId ↔
    ∃ row, t.rows.get? (sourceId, metric.bucketStart) = some row ∧ row.isLive ∧
      row.bucketSeconds = metric.bucketSeconds := by
  simp only [live, mem_sortOn, List.mem_map, List.mem_filter, decide_eq_true_eq]
  constructor
  · rintro ⟨⟨⟨id, bucket⟩, row⟩, ⟨hmem, hid, hlive⟩, rfl⟩
    have hid : id = sourceId := hid
    subst hid
    exact ⟨row, (Dict.get?_eq_some_iff t.unique).mpr hmem, hlive, rfl⟩
  · rintro ⟨row, hget, hlive, hseconds⟩
    refine ⟨((sourceId, metric.bucketStart), row), ⟨Dict.mem_of_get? hget, rfl, hlive⟩, ?_⟩
    simp [hseconds]

theorem pairwise_live (t : MetricTable) (sourceId : String) :
    (t.live sourceId).Pairwise (fun a b => a.bucketStart < b.bucketStart) := by
  refine pairwise_lt_sortOn ?_
  have hkeys := Dict.nodup_keys_filter t.unique (fun item => item.1.1 = sourceId ∧ item.2.isLive)
  have hne := List.pairwise_map.mp hkeys
  refine List.pairwise_map.mpr (List.pairwise_map.mpr ?_)
  refine hne.imp_of_mem ?_
  intro a b ha hb hab hbucket
  -- Two rows of one source differ in their bucket.
  have ha : a.1.1 = sourceId := (of_decide_eq_true (List.mem_filter.mp ha).2).1
  have hb : b.1.1 = sourceId := (of_decide_eq_true (List.mem_filter.mp hb).2).1
  exact hab (Prod.ext (ha.trans hb.symm) hbucket)

theorem live_insert {bucket row} (hlive : row.isLive) (hnew : ∀ metric ∈ t.live sourceId, metric.bucketStart < bucket) :
    (t.insert (sourceId, bucket) row).live sourceId = t.live sourceId ++ [⟨bucket, row.bucketSeconds⟩] := by
  have : Std.Antisymm (fun a b : Metric => a.bucketStart < b.bucketStart) :=
    ⟨fun a b hab hba => absurd hab (lt_asymm hba)⟩
  have : Std.Irrefl (fun a b : Metric => a.bucketStart < b.bucketStart) := ⟨fun a => lt_irrefl _⟩
  refine (pairwise_live _ _).eq_of_mem_iff ?_ ?_
  · refine List.pairwise_append.mpr ⟨pairwise_live t sourceId, List.pairwise_singleton _ _, ?_⟩
    intro a ha b hb
    rw [List.mem_singleton.mp hb]
    exact hnew a ha
  · intro metric
    rw [List.mem_append, List.mem_singleton, mem_live, mem_live]
    simp only [insert, Dict.get?_set, Prod.mk.injEq, true_and]
    by_cases hb : metric.bucketStart = bucket
    · simp only [hb, if_true]
      constructor
      · rintro ⟨row', hrow, -, hseconds⟩
        cases hrow
        exact Or.inr (by cases metric; simp_all)
      · rintro (⟨row', hget, hlive', hseconds⟩ | rfl)
        · exact absurd (hnew metric (mem_live.mpr ⟨row', hb ▸ hget, hlive', hseconds⟩)) (by omega)
        · exact ⟨row, rfl, hlive, rfl⟩
    · have hne : metric ≠ ⟨bucket, row.bucketSeconds⟩ := fun h => hb (by rw [h])
      simp [hb, hne]

theorem live_foldl_insert {arrivals : List (Int × MetricRow)} (hlive : ∀ row ∈ arrivals, row.2.isLive)
    (hsorted : arrivals.Pairwise (fun a b => a.1 < b.1))
    (hnew : ∀ metric ∈ t.live sourceId, ∀ row ∈ arrivals, metric.bucketStart < row.1) :
    (arrivals.foldl (fun table row => table.insert (sourceId, row.1) row.2) t).live sourceId =
      t.live sourceId ++ arrivals.map (fun row => ⟨row.1, row.2.bucketSeconds⟩) := by
  induction arrivals generalizing t with
  | nil => simp
  | cons row arrivals ih =>
    have hrow := live_insert (hlive row List.mem_cons_self) (fun metric hm => hnew metric hm row List.mem_cons_self)
    obtain ⟨hfirst, hsorted⟩ := List.pairwise_cons.mp hsorted
    rw [List.foldl_cons, ih (fun r hr => hlive r (List.mem_cons_of_mem row hr)) hsorted ?_, hrow]
    · simp
    · intro metric hm r hr
      rw [hrow] at hm
      rcases List.mem_append.mp hm with hm | hm
      · exact hnew metric hm r (List.mem_cons_of_mem row hr)
      · rw [List.mem_singleton.mp hm]
        exact hfirst r hr

end MetricTable

/-! ## Fault rows -/

namespace FaultTable

variable (faults : FaultTable) (key : String × Int)

theorem recordFailure_fst (errorClass : String) (at_ : Int) :
    (faults.recordFailure key errorClass at_).1 = faults.attempts key + 1 := by
  simp only [recordFailure, attempts]
  cases faults.get? key <;> simp

theorem attempts_recordFailure (errorClass : String) (at_ : Int) (k : String × Int) :
    (faults.recordFailure key errorClass at_).2.attempts k = faults.attempts k + if k = key then 1 else 0 := by
  simp only [recordFailure, attempts, Dict.get?_set]
  by_cases hk : k = key
  · subst hk
    cases faults.get? k <;> simp
  · simp [hk]

theorem attempts_giveUp (at_ : Int) (k : String × Int) : (faults.giveUp key at_).attempts k = faults.attempts k := by
  have h := Dict.get?_mapValues faults (fun k fault =>
    if k = key then { fault with givenUpAt := some at_ } else fault) k
  simp only [giveUp, attempts, h]
  cases faults.get? k with
  | none => rfl
  | some fault => by_cases hk : k = key <;> simp [hk]

theorem attempts_resolve (sourceId : String) (at_ : Int) (k : String × Int) :
    (faults.resolve sourceId at_).attempts k = faults.attempts k := by
  have h := Dict.get?_mapValues faults (fun k fault =>
    if k.1 = sourceId ∧ fault.isOpen then { fault with resolvedAt := some at_ } else fault) k
  simp only [resolve, attempts, h]
  cases faults.get? k with
  | none => rfl
  | some fault => by_cases hk : k.1 = sourceId ∧ fault.isOpen <;> simp [hk]

variable {faults key}

theorem givenUp_recordFailure {k} (h : faults.givenUp k) (errorClass : String) (at_ : Int) :
    (faults.recordFailure key errorClass at_).2.givenUp k := by
  obtain ⟨fault, hget, hgiven⟩ := h
  simp only [recordFailure, givenUp, Dict.get?_set]
  by_cases hk : k = key
  · subst hk
    simpa [hget] using hgiven
  · simpa [hk, hget] using hgiven

theorem givenUp_giveUp {k} (h : faults.givenUp k) (at_ : Int) : (faults.giveUp key at_).givenUp k := by
  obtain ⟨fault, hget, hgiven⟩ := h
  have h := Dict.get?_mapValues faults (fun k fault =>
    if k = key then { fault with givenUpAt := some at_ } else fault) k
  refine ⟨_, h.trans (by rw [hget]; rfl), ?_⟩
  by_cases hk : k = key <;> simp [hk, hgiven]

theorem givenUp_giveUp_self (h : 0 < faults.attempts key) (at_ : Int) : (faults.giveUp key at_).givenUp key := by
  have hmap := Dict.get?_mapValues faults (fun k fault =>
    if k = key then { fault with givenUpAt := some at_ } else fault) key
  cases hget : faults.get? key with
  | none => simp [attempts, hget] at h
  | some fault =>
    refine ⟨_, hmap.trans (by rw [hget]; rfl), ?_⟩
    simp

theorem givenUp_resolve {k} (h : faults.givenUp k) (sourceId : String) (at_ : Int) :
    (faults.resolve sourceId at_).givenUp k := by
  obtain ⟨fault, hget, hgiven⟩ := h
  have h := Dict.get?_mapValues faults (fun k fault =>
    if k.1 = sourceId ∧ fault.isOpen then { fault with resolvedAt := some at_ } else fault) k
  refine ⟨_, h.trans (by rw [hget]; rfl), ?_⟩
  by_cases hk : k.1 = sourceId ∧ fault.isOpen <;> simp [hk, hgiven]

end FaultTable

/-! ## One bucket -/

variable {ω : Type} {engine : PendingEngine ω} {source : MonitoredSource} {metric : Metric} {st st' : PendingStore ω}

def Passed (st : PendingStore ω) (key : String × Int) : Prop :=
  (key, BucketOutcome.judged) ∈ st.attempted ∨ st.faults.givenUp key

def tries (st : PendingStore ω) (key : String × Int) : Nat := st.attempted.countP (fun attempt => attempt.1 = key)

structure Tried (limit : Nat) (source : MonitoredSource) (metric : Metric) (outcome : BucketOutcome)
    (st st' : PendingStore ω) : Prop where
  metrics : st'.metrics = st.metrics
  attempted : st'.attempted = st.attempted ++ [((source.id, metric.bucketStart), outcome)]
  through : st'.through source.id =
    if outcome = .retry then st.through source.id else some metric.bucketStart
  attempts : ∀ key, st'.faults.attempts key = st.faults.attempts key +
    if key = (source.id, metric.bucketStart) ∧ outcome ≠ .judged then 1 else 0
  kept : ∀ key, st.faults.givenUp key → st'.faults.givenUp key
  closed : outcome = .givenUp → st'.faults.givenUp (source.id, metric.bucketStart)
  bound : outcome = .retry → st'.faults.attempts (source.id, metric.bucketStart) < limit

def Told : BucketOutcome → Except Bool PendingReport → Prop
  | .judged, result => ∃ report, result = .ok report
  | .givenUp, result => result = .error true
  | .retry, result => result = .error false

theorem through_mark (bucket now : Int) (id : String) :
    (st.mark source.id bucket now).through id = if id = source.id then some bucket else st.through id := by
  simp only [PendingStore.through, PendingStore.mark, Dict.get?_set]
  by_cases h : id = source.id <;> simp [h]

theorem clearFailure_spec (engine : PendingEngine ω) (source : MonitoredSource) (st : PendingStore ω) :
    (clearFailure engine source st).metrics = st.metrics ∧
    (clearFailure engine source st).attempted = st.attempted ∧
    (clearFailure engine source st).watermarks = st.watermarks ∧
    (∀ key, (clearFailure engine source st).faults.attempts key = st.faults.attempts key) ∧
    ∀ key, st.faults.givenUp key → (clearFailure engine source st).faults.givenUp key := by
  by_cases h : source.id ∈ st.openFaultSources
  · simp only [clearFailure, h, if_true, true_and]
    exact ⟨FaultTable.attempts_resolve _ _ _, fun key hkey => FaultTable.givenUp_resolve hkey _ _⟩
  · simp [clearFailure, h]

theorem tried_judged (source : MonitoredSource) {report world}
    (h : engine.evaluateInterval st.world metric = .ok (report, world)) :
    Tried engine.settings.maxBucketAttempts source metric .judged st (tryBucket engine source metric st).2 ∧
      Told .judged (tryBucket engine source metric st).1 := by
  simp only [tryBucket, h]
  obtain ⟨hmetrics, hattempted, hmarks, hattempts, hkept⟩ := clearFailure_spec engine source
    { ({ st with world := world }.mark source.id metric.bucketStart (engine.clock st.reads)) with
      attempted := st.attempted ++ [((source.id, metric.bucketStart), .judged)] }
  refine ⟨⟨hmetrics, hattempted, ?_, ?_, hkept, by simp, by simp⟩, report, rfl⟩
  · simp only [PendingStore.through, PendingStore.mark] at hmarks ⊢
    rw [hmarks]
    simp [Dict.get?_set]
  · intro key
    refine (hattempts key).trans ?_
    simp [PendingStore.mark]

theorem tried_failed (source : MonitoredSource) (hrec : engine.recordable metric) {errorClass}
    (h : engine.evaluateInterval st.world metric = .error errorClass) :
    ∃ outcome, outcome ≠ .judged ∧
      Tried engine.settings.maxBucketAttempts source metric outcome st (tryBucket engine source metric st).2 ∧
      Told outcome (tryBucket engine source metric st).1 := by
  have hpos := engine.settings.attempts_range.1
  have hcount := FaultTable.recordFailure_fst st.faults (source.id, metric.bucketStart) errorClass
    (engine.clock st.reads)
  have hattempts := FaultTable.attempts_recordFailure st.faults (source.id, metric.bucketStart) errorClass
    (engine.clock st.reads)
  by_cases hmax : engine.settings.maxBucketAttempts ≤ st.faults.attempts (source.id, metric.bucketStart) + 1
  · have hnext : nextAttempt (st.faults.attempts (source.id, metric.bucketStart) + 1)
        engine.settings.maxBucketAttempts = .ok .giveUp := by
      simp [nextAttempt, hmax]
      omega
    refine ⟨.givenUp, by simp, ?_⟩
    simp only [tryBucket, h, recordFailure, hrec, hcount, hnext, if_true]
    refine ⟨⟨rfl, rfl, ?_, ?_, ?_, ?_, by simp⟩, rfl⟩
    · rw [through_mark]
      simp
    · intro key
      simp only [PendingStore.mark, FaultTable.attempts_giveUp, hattempts]
      simp
    · intro key hkey
      exact FaultTable.givenUp_giveUp (FaultTable.givenUp_recordFailure hkey _ _) _
    · intro _
      refine FaultTable.givenUp_giveUp_self ?_ _
      rw [hattempts]
      simp
  · have hnext : nextAttempt (st.faults.attempts (source.id, metric.bucketStart) + 1)
        engine.settings.maxBucketAttempts = .ok .retry := by
      simp [nextAttempt, hmax]
      omega
    refine ⟨.retry, by simp, ?_⟩
    simp only [tryBucket, h, recordFailure, hrec, hcount, hnext, if_true]
    refine ⟨⟨rfl, rfl, by simp [PendingStore.through], ?_, ?_, by simp, ?_⟩, rfl⟩
    · intro key
      rw [hattempts]
      simp
    · intro key hkey
      exact FaultTable.givenUp_recordFailure hkey _ _
    · intro _
      rw [hattempts]
      simp only [if_true]
      omega

theorem tryBucket_spec (source : MonitoredSource) (st : PendingStore ω) (hrec : engine.recordable metric) :
    ∃ outcome, Tried engine.settings.maxBucketAttempts source metric outcome st (tryBucket engine source metric st).2 ∧
      Told outcome (tryBucket engine source metric st).1 ∧
      (outcome = .judged ↔ ∃ r, engine.evaluateInterval st.world metric = .ok r) := by
  cases h : engine.evaluateInterval st.world metric with
  | ok r =>
    obtain ⟨htried, htold⟩ := tried_judged source h
    exact ⟨.judged, htried, htold, by simp⟩
  | error errorClass =>
    obtain ⟨outcome, hne, htried, htold⟩ := tried_failed source hrec h
    exact ⟨outcome, htried, htold, by simp [hne]⟩

def Ahead (source : MonitoredSource) (st : PendingStore ω) (bucket : Int) : Prop :=
  ∀ m, st.through source.id = some m → m < bucket

/-- No bucket was evaluated more than `limit` times, and an evaluation of one still ahead is a recorded failure below
the limit. -/
def Bounded (limit : Nat) (source : MonitoredSource) (st : PendingStore ω) : Prop :=
  ∀ bucket, tries st (source.id, bucket) ≤ limit ∧ (Ahead source st bucket →
    tries st (source.id, bucket) ≤ st.faults.attempts (source.id, bucket) ∧
    (tries st (source.id, bucket) = 0 ∨ st.faults.attempts (source.id, bucket) < limit))

namespace Tried

variable {limit : Nat} {outcome : BucketOutcome}

theorem kept_passed (h : Tried limit source metric outcome st st') {key} (hp : Passed st key) : Passed st' key := by
  rcases hp with hp | hp
  · exact Or.inl (by rw [h.attempted]; exact List.mem_append_left _ hp)
  · exact Or.inr (h.kept key hp)

theorem passed (h : Tried limit source metric outcome st st') (hne : outcome ≠ .retry) :
    Passed st' (source.id, metric.bucketStart) := by
  cases outcome with
  | judged => exact Or.inl (by simp [h.attempted])
  | retry => exact absurd rfl hne
  | givenUp => exact Or.inr (h.closed rfl)

theorem tries_eq (h : Tried limit source metric outcome st st') (key : String × Int) :
    tries st' key = tries st key + if key = (source.id, metric.bucketStart) then 1 else 0 := by
  simp only [tries, h.attempted, List.countP_append, List.countP_singleton, decide_eq_true_eq]
  by_cases hk : key = (source.id, metric.bucketStart)
  · simp [hk]
  · simp [hk, Ne.symm hk]

theorem ahead (h : Tried limit source metric outcome st st') (hm : Ahead source st metric.bucketStart) {bucket}
    (hb : Ahead source st' bucket) : Ahead source st bucket := by
  by_cases hr : outcome = .retry
  · have hthrough := h.through
    rw [if_pos hr] at hthrough
    exact fun m hst => hb m (hthrough.trans hst)
  · have hlt := hb metric.bucketStart (by rw [h.through, if_neg hr])
    exact fun m hst => lt_trans (hm m hst) hlt

theorem bounded (h : Tried limit source metric outcome st st') (hpos : 1 ≤ limit)
    (hm : Ahead source st metric.bucketStart) (hb : Bounded limit source st) : Bounded limit source st' := by
  intro bucket
  by_cases hk : bucket = metric.bucketStart
  · subst hk
    obtain ⟨hfailed, hroom⟩ := (hb metric.bucketStart).2 hm
    have htries := h.tries_eq (source.id, metric.bucketStart)
    have hattempts := h.attempts (source.id, metric.bucketStart)
    simp only [if_true, true_and] at htries hattempts
    refine ⟨by omega, fun hahead => ?_⟩
    by_cases hr : outcome = .retry
    · have hbound := h.bound hr
      simp only [hr, ne_eq, reduceCtorEq, not_false_eq_true, if_true] at hattempts
      omega
    · -- A bucket that was judged or given up is no longer ahead.
      exact absurd (hahead metric.bucketStart (by rw [h.through, if_neg hr])) (lt_irrefl _)
  · have htries := h.tries_eq (source.id, bucket)
    have hattempts := h.attempts (source.id, bucket)
    simp only [Prod.mk.injEq, hk, and_false, false_and, if_false, add_zero] at htries hattempts
    rw [htries, hattempts]
    exact ⟨(hb bucket).1, fun hahead => (hb bucket).2 (h.ahead hm hahead)⟩

end Tried

/-! ## The loop over the pending buckets -/

structure Swept (limit : Nat) (source : MonitoredSource) (metrics : List Metric) (m : Int)
    (st st' : PendingStore ω) : Prop where
  table : st'.metrics = st.metrics
  bounded : Bounded limit source st → Bounded limit source st'
  kept : ∀ key, Passed st key → Passed st' key
  moved : ∃ m', st'.through source.id = some m' ∧ m ≤ m' ∧ (m' = m ∨ ∃ x ∈ metrics, x.bucketStart = m') ∧
    ∀ x ∈ metrics, x.bucketStart ≤ m' → Passed st' (source.id, x.bucketStart)
  first : ∀ x, metrics.head? = some x → st'.through source.id ≠ some m ∨ Tried limit source x .retry st st'

theorem evaluateMetrics_swept (hrec : ∀ metric, engine.recordable metric) {metrics}
    (hsorted : metrics.Pairwise (fun a b => a.bucketStart < b.bucketStart)) {m}
    (hahead : ∀ x ∈ metrics, m < x.bucketStart) (hm : st.through source.id = some m) (combined : PendingReport) :
    Swept engine.settings.maxBucketAttempts source metrics m st
      (evaluateMetrics engine source metrics combined st).2 := by
  induction metrics generalizing m st combined with
  | nil => exact ⟨rfl, id, fun _ h => h, ⟨m, hm, le_refl m, Or.inl rfl, by simp⟩, by simp⟩
  | cons x metrics ih =>
    have hpos := engine.settings.attempts_range.1
    have hx := hahead x List.mem_cons_self
    have hxahead : Ahead source st x.bucketStart := by
      intro m' hm'
      rw [hm] at hm'
      cases hm'
      exact hx
    obtain ⟨hfirst, hsorted⟩ := List.pairwise_cons.mp hsorted
    obtain ⟨outcome, htried, htold, -⟩ := tryBucket_spec source st (hrec x)
    -- Once the bucket is passed, the loop goes on from its own start.
    have hgo : outcome ≠ .retry → ∀ combined',
        Swept engine.settings.maxBucketAttempts source (x :: metrics) m st
          (evaluateMetrics engine source metrics combined' (tryBucket engine source x st).2).2 := by
      intro hne combined'
      have hthrough : (tryBucket engine source x st).2.through source.id = some x.bucketStart := by
        rw [htried.through, if_neg hne]
      have hrest := ih hsorted hfirst hthrough combined'
      obtain ⟨m', hm', hle, hlast, hpassed⟩ := hrest.moved
      refine ⟨hrest.table.trans htried.metrics, fun hb => hrest.bounded (htried.bounded hpos hxahead hb),
        fun key hkey => hrest.kept key (htried.kept_passed hkey), ⟨m', hm', by omega, Or.inr ?_, ?_⟩, ?_⟩
      · rcases hlast with rfl | ⟨y, hy, hym⟩
        · exact ⟨x, List.mem_cons_self, rfl⟩
        · exact ⟨y, List.mem_cons_of_mem x hy, hym⟩
      · intro y hy hym
        rcases List.mem_cons.mp hy with rfl | hy
        · exact hrest.kept _ (htried.passed hne)
        · exact hpassed y hy hym
      · intro y _
        refine Or.inl ?_
        rw [hm']
        intro heq
        cases heq
        omega
    simp only [evaluateMetrics]
    cases outcome with
    | judged =>
      obtain ⟨report, hreport⟩ := htold
      rw [← Prod.eta (tryBucket engine source x st), hreport]
      exact hgo (by simp) _
    | givenUp =>
      rw [← Prod.eta (tryBucket engine source x st), htold]
      exact hgo (by simp) _
    | retry =>
      rw [← Prod.eta (tryBucket engine source x st), htold]
      have hthrough : (tryBucket engine source x st).2.through source.id = some m := by
        rw [htried.through, if_pos rfl, hm]
      refine ⟨htried.metrics, htried.bounded hpos hxahead, fun key => htried.kept_passed,
        ⟨m, hthrough, le_refl m, Or.inl rfl, ?_⟩, ?_⟩
      · intro y hy hym
        exact absurd (hahead y hy) (by omega)
      · intro y hy
        cases hy
        exact Or.inr htried

/-! ## The tick -/

def pendingBuckets (source : MonitoredSource) (st : PendingStore ω) : List Metric :=
  match st.through source.id with
  | none => st.metrics.live source.id
  | some m => st.metrics.liveAfter source.id m

def target (source : MonitoredSource) (st : PendingStore ω) : Option Metric :=
  match st.through source.id with
  | none => st.metrics.latestLive source.id
  | some m => (st.metrics.liveAfter source.id m).head?

def Advances (source : MonitoredSource) (st st' : PendingStore ω) : Prop :=
  ∃ m', st'.through source.id = some m' ∧ ∀ m, st.through source.id = some m → m < m'

/-- The watermark does not move back, and what it moves past was judged or is recorded as given up. -/
def MovesOverPassed (source : MonitoredSource) (st st' : PendingStore ω) : Prop :=
  ∀ m, st.through source.id = some m → ∃ m', st'.through source.id = some m' ∧ m ≤ m' ∧
    ∀ x ∈ st'.metrics.live source.id, m < x.bucketStart → x.bucketStart ≤ m' →
      Passed st' (source.id, x.bucketStart)

structure Evaluated (engine : PendingEngine ω) (source : MonitoredSource) (st st' : PendingStore ω) : Prop where
  table : st'.metrics = st.metrics
  bounded : Bounded engine.settings.maxBucketAttempts source st → Bounded engine.settings.maxBucketAttempts source st'
  moved : MovesOverPassed source st st'
  first : ∀ x, target source st = some x →
    Advances source st st' ∨ Tried engine.settings.maxBucketAttempts source x .retry st st'
  judged : st.through source.id = none → ∀ x, st.metrics.latestLive source.id = some x → ∀ r,
    engine.evaluateInterval st.world x = .ok r → Advances source st st'

theorem evaluated_idle (h : target source st = none) : Evaluated engine source st st := by
  refine ⟨rfl, id, ?_, by simp [h], ?_⟩
  · exact fun m hm => ⟨m, hm, le_refl m, fun x _ hlt hle => absurd hlt (by omega)⟩
  · intro hnone x hx
    simp [target, hnone, hx] at h

theorem evaluateFirst_snd (source : MonitoredSource) (metric : Metric) (st : PendingStore ω) :
    (evaluateFirst engine source metric st).2 = (tryBucket engine source metric st).2 := by
  simp only [evaluateFirst]
  split <;> simp_all

theorem evaluated_first (hrec : ∀ metric, engine.recordable metric) (hnone : st.through source.id = none)
    (hx : st.metrics.latestLive source.id = some metric) :
    Evaluated engine source st (tryBucket engine source metric st).2 := by
  obtain ⟨outcome, htried, -, hjudged⟩ := tryBucket_spec source st (hrec metric)
  have hahead : Ahead source st metric.bucketStart := by simp [Ahead, hnone]
  have hadvances : outcome ≠ .retry → Advances source st (tryBucket engine source metric st).2 := by
    intro hne
    refine ⟨metric.bucketStart, ?_, by simp [hnone]⟩
    rw [htried.through, if_neg hne]
  refine ⟨htried.metrics, htried.bounded engine.settings.attempts_range.1 hahead, by simp [MovesOverPassed, hnone],
    ?_, ?_⟩
  · intro x htarget
    simp only [target, hnone, hx, Option.some.injEq] at htarget
    subst htarget
    by_cases hr : outcome = .retry
    · exact Or.inr (hr ▸ htried)
    · exact Or.inl (hadvances hr)
  · intro _ x hx' r hr
    rw [hx] at hx'
    cases hx'
    refine hadvances ?_
    rw [hjudged.mpr ⟨r, hr⟩]
    simp

theorem evaluated_loop (hrec : ∀ metric, engine.recordable metric) {m} (hm : st.through source.id = some m)
    (combined : PendingReport) :
    Evaluated engine source st (evaluateMetrics engine source
      ((st.metrics.liveAfter source.id m).take engine.settings.maxBucketsPerEvaluation) combined st).2 := by
  have hsorted : (st.metrics.liveAfter source.id m).Pairwise (fun a b => a.bucketStart < b.bucketStart) :=
    (MetricTable.pairwise_live st.metrics source.id).filter _
  have hafter : ∀ x ∈ (st.metrics.liveAfter source.id m).take engine.settings.maxBucketsPerEvaluation,
      m < x.bucketStart :=
    fun x hx => of_decide_eq_true (List.mem_filter.mp (List.mem_of_mem_take hx)).2
  obtain ⟨htable, hbounded, -, ⟨m', hm', hle, hlast, hpassed⟩, hfirst⟩ :=
    evaluateMetrics_swept hrec (hsorted.sublist (List.take_sublist _ _)) hafter hm combined
  refine ⟨htable, hbounded, ?_, ?_, by simp [hm]⟩
  · intro m₁ hm₁
    rw [hm] at hm₁
    cases hm₁
    refine ⟨m', hm', hle, ?_⟩
    intro x hx hlt hxm'
    rw [htable] at hx
    have hxafter : x ∈ st.metrics.liveAfter source.id m := List.mem_filter.mpr ⟨hx, by simpa using hlt⟩
    rw [← List.take_append_drop engine.settings.maxBucketsPerEvaluation (st.metrics.liveAfter source.id m)] at hxafter
    rcases List.mem_append.mp hxafter with hxtake | hxdrop
    · exact hpassed x hxtake hxm'
    · -- A bucket beyond the limit starts after every bucket the tick reached.
      rcases hlast with rfl | ⟨y, hy, rfl⟩
      · omega
      · have hsplit := hsorted
        rw [← List.take_append_drop engine.settings.maxBucketsPerEvaluation (MetricTable.liveAfter _ _ _)] at hsplit
        have hyx := (List.pairwise_append.mp hsplit).2.2 y hy x hxdrop
        omega
  · intro x hx
    have hhead : ((st.metrics.liveAfter source.id m).take engine.settings.maxBucketsPerEvaluation).head? = some x := by
      have hpos : engine.settings.maxBucketsPerEvaluation ≠ 0 := by
        have := engine.settings.buckets_range.1
        omega
      simpa [target, hm, List.head?_take, hpos] using hx
    rcases hfirst x hhead with hne | htried
    · refine Or.inl ⟨m', hm', fun m₁ hm₁ => ?_⟩
      rw [hm] at hm₁
      cases hm₁
      have hne' : m' ≠ m := fun h => hne (by rw [hm', h])
      omega
    · exact Or.inr htried

theorem evaluatePending_evaluated (hmon : source.monitoringEnabled) (hrec : ∀ metric, engine.recordable metric)
    (st : PendingStore ω) : Evaluated engine source st (evaluatePending engine source st).2 := by
  simp only [evaluatePending, hmon, if_true]
  cases hmark : st.watermarks.get? source.id with
  | none =>
    have hnone : st.through source.id = none := by simp [PendingStore.through, hmark]
    cases hx : st.metrics.latestLive source.id with
    | none => exact evaluated_idle (by simp [target, hnone, hx])
    | some metric =>
      simp only [evaluateFirst_snd]
      exact evaluated_first hrec hnone hx
  | some watermark =>
    have hm : st.through source.id = some watermark.evaluatedThrough := by simp [PendingStore.through, hmark]
    have hloop := evaluated_loop hrec hm { logSourceId := source.id, intervalStart := none }
    cases hl : (st.metrics.liveAfter source.id watermark.evaluatedThrough).take
        engine.settings.maxBucketsPerEvaluation with
    | nil =>
      rw [hl] at hloop
      simpa only [hl, evaluateMetrics] using hloop
    | cons x metrics =>
      rw [hl] at hloop
      simpa only [hl] using hloop

/-! ## Runs of ticks -/

abbrev PendingStep (ω : Type) := Taken (PendingStore ω) (PendingTick ω) (PendingReport × PendingStore ω)

/-- The tick's arrivals are live, in increasing order and after every live bucket there is, and the bookkeeping
succeeds. -/
structure Orderly (source : MonitoredSource) (e : PendingStep ω) : Prop where
  live : ∀ row ∈ e.input.arrivals, row.2.isLive
  increasing : e.input.arrivals.Pairwise (fun a b => a.1 < b.1)
  newer : ∀ metric ∈ e.before.metrics.live source.id, ∀ row ∈ e.input.arrivals, metric.bucketStart < row.1
  recordable : ∀ metric, e.input.recordable metric

def Found (source : MonitoredSource) (e : PendingStep ω) : Prop :=
  pendingBuckets source (e.before.arrived source e.input) ≠ []

/-- Without a watermark, a newest live bucket with a failed attempt is not replaced by a newer one that fails as well.
-/
def Steady (settings : PendingSettings) (source : MonitoredSource) (e : PendingStep ω) : Prop :=
  1 < settings.maxBucketAttempts → e.before.through source.id = none →
  ∀ x, e.before.metrics.latestLive source.id = some x → 0 < e.before.faults.attempts (source.id, x.bucketStart) →
    e.input.arrivals = [] ∨ ∀ y, (e.before.arrived source e.input).metrics.latestLive source.id = some y →
      ∃ r, e.input.evaluateInterval e.before.world y = .ok r

variable {settings : PendingSettings} {e : PendingStep ω}

theorem arrived_live (h : Orderly source e) :
    (e.before.arrived source e.input).metrics.live source.id =
      e.before.metrics.live source.id ++ e.input.arrivals.map (fun row => ⟨row.1, row.2.bucketSeconds⟩) :=
  MetricTable.live_foldl_insert h.live h.increasing h.newer

theorem arrived_latestLive (h : e.input.arrivals = []) :
    (e.before.arrived source e.input).metrics.latestLive source.id = e.before.metrics.latestLive source.id := by
  simp [PendingStore.arrived, h]

theorem arrived_head (h : Orderly source e) {m x} (hx : (e.before.metrics.liveAfter source.id m).head? = some x) :
    ((e.before.arrived source e.input).metrics.liveAfter source.id m).head? = some x := by
  simp only [MetricTable.liveAfter] at hx ⊢
  rw [arrived_live h, List.filter_append, List.head?_append, hx]
  rfl

theorem target_of_found (h : Found source e) : ∃ x, target source (e.before.arrived source e.input) = some x := by
  simp only [Found, pendingBuckets] at h
  simp only [target]
  cases hthrough : (e.before.arrived source e.input).through source.id with
  | none =>
    simp only [hthrough] at h
    exact ⟨_, List.getLast?_eq_some_getLast h⟩
  | some m =>
    simp only [hthrough] at h
    exact ⟨_, List.head?_eq_some_head h⟩

theorem pendingTick_evaluated (hmon : source.monitoringEnabled) (h : Orderly source e)
    (hs : pendingTick settings source e.before e.input = .ok e.output) :
    Evaluated (e.input.evaluator settings) source (e.before.arrived source e.input) e.output.2 := by
  simp only [pendingTick, Except.ok.injEq] at hs
  rw [← hs]
  exact evaluatePending_evaluated hmon h.recordable _

def Stuck (limit n : Nat) (source : MonitoredSource) (st : PendingStore ω) : Prop :=
  0 < n → ∃ x, target source st = some x ∧ n ≤ st.faults.attempts (source.id, x.bucketStart) ∧
    st.faults.attempts (source.id, x.bucketStart) < limit

theorem Tried.stuck {limit n x} (h : Tried limit source x .retry st st') (hx : target source st = some x)
    (hn : n ≤ st.faults.attempts (source.id, x.bucketStart)) : Stuck limit (n + 1) source st' := by
  have hattempts := h.attempts (source.id, x.bucketStart)
  have hthrough := h.through
  simp only [ne_eq, reduceCtorEq, not_false_eq_true, and_self, if_true] at hattempts hthrough
  refine fun _ => ⟨x, ?_, by omega, h.bound rfl⟩
  simpa only [target, hthrough, h.metrics] using hx

theorem stuck_step (hmon : source.monitoringEnabled) (h : Orderly source e) (hfound : Found source e)
    (hsteady : Steady settings source e) (hs : pendingTick settings source e.before e.input = .ok e.output)
    (hstay : ¬ Advances source e.before e.output.2) {n} (hstuck : Stuck settings.maxBucketAttempts n source e.before) :
    Stuck settings.maxBucketAttempts (n + 1) source e.output.2 := by
  have heval := pendingTick_evaluated hmon h hs
  rcases Nat.eq_zero_or_pos n with rfl | hpos
  · obtain ⟨y, hy⟩ := target_of_found hfound
    exact ((heval.first y hy).resolve_left hstay).stuck hy (Nat.zero_le _)
  · obtain ⟨x, hx, hn, hlimit⟩ := hstuck hpos
    have htarget : target source (e.before.arrived source e.input) = some x := by
      cases hthrough : e.before.through source.id with
      | some m =>
        simp only [target, hthrough] at hx
        have hthrough' : (e.before.arrived source e.input).through source.id = some m := hthrough
        simpa only [target, hthrough'] using arrived_head h hx
      | none =>
        simp only [target, hthrough] at hx
        have hthrough' : (e.before.arrived source e.input).through source.id = none := hthrough
        rcases hsteady (by omega) hthrough x hx (by omega) with hnil | hok
        · simpa only [target, hthrough', arrived_latestLive hnil] using hx
        · obtain ⟨y, hy⟩ := target_of_found hfound
          simp only [target, hthrough'] at hy
          obtain ⟨r, hr⟩ := hok y hy
          exact absurd (heval.judged hthrough' y hy r hr) hstay
    exact ((heval.first x htarget).resolve_left hstay).stuck htarget hn

theorem stuck_run (hmon : source.monitoringEnabled) {tr : List (PendingStep ω)}
    (hrun : Run (pendingTick settings source) Prod.snd st tr st')
    (h : ∀ e ∈ tr, Orderly source e ∧ Found source e ∧ Steady settings source e ∧
      ¬ Advances source e.before e.output.2) : Stuck settings.maxBucketAttempts tr.length source st' := by
  refine hrun.invariant (fun tr st => Stuck settings.maxBucketAttempts tr.length source st) _
    (fun h => absurd h (lt_irrefl 0)) ?_ h
  intro tr s i o hstuck ⟨horderly, hfound, hsteady, hstay⟩ hs
  rw [List.length_append]
  exact stuck_step hmon horderly hfound hsteady hs hstay hstuck

end QRadarDashboard.Anomaly
