import QRadarDashboard.Collectors.MetricCollector
import QRadarDashboard.History.Waf
import QRadarDashboard.Lib.Run

/-!
# The WAF volume step (`app/collectors/waf_endpoint_collector.py`, `app/services/waf_pipeline.py`)

The totals of the floor scan are the second statement of its keyed search, and its buckets are reused when it finds
the floor.
-/

namespace QRadarDashboard.Collectors
open Lib History

variable {φ : Type} [PyFloat φ]

structure WafObservationBuckets where
  buckets : Dict Int WafObservationBatch := []
  truncated : Bool := false

/-- What `_observations_one` and `_observations_keyed` answer to the `k`-th search of a step. -/
structure WafProvider where
  one : Nat → Span Int → Except ProviderError WafObservationBatch
  keyed : Nat → Span Int → Except ProviderError WafObservationBuckets

inductive WafStepError where
  | permitUnavailable
  | raised (e : Exc)

structure WafVolumeSearch where
  status : SearchStatus
  keyed : Option WafObservationBuckets
  searches : Nat
  error : Option ProviderError

/-- `_history_volume_search`: a span of one bucket is never truncated. -/
def historyVolumeSearch (p : WafProvider) (k : Nat) (span : Span Int) (bucketSeconds : Int) :
    Except WafStepError WafVolumeSearch :=
  let single : Bool := span.stop - span.start = seconds bucketSeconds
  let answer : Except ProviderError WafObservationBuckets :=
    if single then (p.one k span).map (fun batch => { buckets := [(span.start, batch)] }) else p.keyed k span
  match answer with
  | .error .permitUnavailable => .error .permitUnavailable
  | .error e => .ok ⟨.failed, none, 1, some e⟩
  | .ok keyed =>
    if !single && keyed.truncated then .ok ⟨.truncated, none, 1, none⟩ else .ok ⟨.complete, some keyed, 1, none⟩

def bucketsIn (keyed : WafObservationBuckets) (span : Span Int) : List (Int × WafObservationBatch) :=
  keyed.buckets.filter (fun item => span.start ≤ item.1 && item.1 < span.stop)

def lowerBoundBatch (minCoverage : φ) (batch : WafObservationBatch) : Bool :=
  let parsed := (batch.groups.map (fun group => group.requestCount)).sum
  let coverage : φ :=
    if 0 < batch.totalEvents then PyFloat.divInt parsed batch.totalEvents else PyFloat.ofInt 1
  batch.truncated || PyFloat.lt coverage minCoverage

def historyChunkResult (minCoverage : φ) (span : Span Int) (keyed : Option WafObservationBuckets)
    (status : SearchStatus) (searches : Nat) : ChunkResult :=
  match keyed with
  | none => { span := span, status := status, searches := searches, searches_nonneg := Int.natCast_nonneg searches }
  | some keyed =>
    let batches := (bucketsIn keyed span).map (fun item => item.2)
    { span := span
      status := status
      rows := ((batches.map (fun batch => batch.groups.length)).sum : Nat)
      nonSilentBuckets := (batches.countP (fun batch => !batch.groups.isEmpty || batch.totalEvents ≠ 0) : Nat)
      lowerBoundBuckets := (batches.countP (lowerBoundBatch minCoverage) : Nat)
      searches := searches
      searches_nonneg := Int.natCast_nonneg searches }

def historyVolumeBuckets (collectedAt : Int) (intervalSeconds : Int) (keyed : WafObservationBuckets)
    (span : Span Int) : List (HistoryVolumeBucket φ) :=
  (sortOn (fun item : Int × WafObservationBatch => item.1) (bucketsIn keyed span)).map (fun item =>
    { batch := item.2
      collectedAt := collectedAt
      searchProvenance := some [
        ("search_window_start", .str (isoformatUtc span.start)),
        ("search_window_end", .str (isoformatUtc span.stop)),
        ("search_bucket_count", .int ((span.stop - span.start) / 1000000 / intervalSeconds)),
        ("bucket_key", .str s!"starttime / {intervalSeconds * 1000}")] })

/-- What a step reads of its tick. `elapsed k` is the time before its `k`-th chunk, `permit` whether the permit was
granted, and `persist` the metric rows a bulk write folds. -/
structure WafTick (φ : Type) where
  now : Int
  boundary : Int
  budget : StepBudget φ
  permit : Bool
  provider : WafProvider
  elapsed : Nat → φ
  collectedAt : Int
  persist : List (HistoryVolumeBucket φ) → Int → Except Exc Nat

structure WafHistoryStep (φ : Type) where
  progress : ScopeProgress Int φ
  reason : String
  trigger : Option HistoryTrigger := none
  rowsWritten : Nat := 0
  searches : Nat := 0
  permitUnavailable : Bool := false
  error : Option ProviderError := none

def raising {α : Type} (x : Except Exc α) : Except WafStepError α := x.mapError WafStepError.raised

variable (minCoverage : φ) (st : PlannerSettings φ) (tick : WafTick φ)

/-! ## The floor scan -/

def scanTotals (keyed : Option WafObservationBuckets) : List (Int × Int) :=
  match keyed with
  | none => []
  | some keyed =>
    (sortOn (fun item : Int × WafObservationBatch => item.1) keyed.buckets).map
      (fun item => (item.1, item.2.totalEvents))

def scanBranch (progress : ScopeProgress Int φ) (span : Span Int) (hspan : span.start ≤ span.stop) :
    Except WafStepError (WafHistoryStep φ) := do
  let found ← historyVolumeSearch tick.provider 0 span st.bucketSeconds
  let decision ← raising (interpretScan progress [⟨span, found.status, scanTotals found.keyed, hspan⟩] tick.boundary st)
  let updated := decision.progress
  let scanned : WafHistoryStep φ :=
    { progress := updated
      reason := decision.reason
      trigger := decision.trigger
      searches := if found.status ≠ .notRun then 1 else 0
      error := found.error }
  match decision.outcome, found.keyed, updated.floor with
  | .floorFound, some keyed, some floor =>
    if floor ≥ span.stop then return scanned
    else do
      let reuse : Span Int := ⟨floor, span.stop⟩
      let result := historyChunkResult minCoverage reuse (some keyed) .complete 0
      let settled ← raising (settleStep updated [result] tick.boundary st)
      let rows ← raising (tick.persist
        (historyVolumeBuckets tick.collectedAt st.bucketSeconds keyed reuse) floor)
      return {
        progress := settled.progress
        reason := s!"{decision.reason}; {settled.reason}"
        trigger := settled.trigger
        rowsWritten := rows
        searches := 1
        error := found.error }
  | _, _, _ => return scanned

/-! ## Reading -/

structure WafChunkReads where
  results : List ChunkResult := []
  keyedBySpan : List (Span Int × WafObservationBuckets) := []
  error : Option ProviderError := none

/-- The loop over the planned chunks, from the `k`-th on: it stops when the time is used up and after a search
that was not whole. -/
def readWafChunks : Nat → List (Span Int) → Except WafStepError WafChunkReads
  | _, [] => .ok {}
  | k, chunk :: chunks => do
      if PyFloat.le tick.budget.secondsLeft (tick.elapsed k) then return {}
      else
        let found ← historyVolumeSearch tick.provider k chunk st.bucketSeconds
        let result := historyChunkResult minCoverage chunk found.keyed found.status found.searches
        let keyed := match found.keyed, found.status with
          | some keyed, .complete => [(chunk, keyed)]
          | _, _ => []
        let rest ← match found.status with
          | .failed | .truncated => pure {}
          | _ => readWafChunks (k + 1) chunks
        return {
          results := result :: rest.results
          keyedBySpan := keyed ++ rest.keyedBySpan
          error := found.error.or rest.error }

def readBranch (progress : ScopeProgress Int φ) (chunks : List (Span Int)) :
    Except WafStepError (WafHistoryStep φ) := do
  let reads ← readWafChunks minCoverage st tick 0 chunks
  if reads.results.isEmpty then return { progress := progress, reason := "waiting for the history time budget" }
  else
    let settled ← raising (settleStep progress reads.results tick.boundary st)
    let values := settled.writeSpans.flatMap (fun span =>
      match reads.keyedBySpan.find? (fun item => item.1 = span) with
      | none => []
      | some item => historyVolumeBuckets tick.collectedAt st.bucketSeconds item.2 span)
    let rows ←
      if values.isEmpty then pure 0
      else
        match settled.progress.floor with
        | none => raising (.error (.assertion "settled.progress.floor is not None"))
        | some floor => raising (tick.persist values floor)
    return {
      progress := settled.progress
      reason := settled.reason
      trigger := settled.trigger
      rowsWritten := rows
      searches := (reads.results.map (fun result => result.searches.toNat)).sum
      error := reads.error }

/-! ## The step -/

def historyVolumeStep (progress : ScopeProgress Int φ) : Except WafStepError (WafHistoryStep φ) := do
  let plan ← raising (planStep progress tick.now tick.boundary tick.budget st)
  match plan.action with
  | .finish => return { progress := progress, reason := plan.reason, trigger := plan.trigger }
  | .wait => return { progress := progress, reason := plan.reason }
  | .scan =>
    if !tick.permit then
      return { progress := progress, reason := "waiting for a global WAF Ariel permit", permitUnavailable := true }
    else
      match plan.scanSpan with
      | none => raising (.error (.assertion "plan.scan_span is not None"))
      | some span =>
        -- `plan_scan` plans no span that ends before it starts
        if hspan : span.start ≤ span.stop then scanBranch minCoverage st tick progress span hspan
        else raising (.error (.assertion "plan.scan_span is a span"))
  | .read =>
    if !tick.permit then
      return { progress := progress, reason := "waiting for a global WAF Ariel permit", permitUnavailable := true }
    else readBranch minCoverage st tick progress plan.chunks

/-! ## The scope -/

structure WafScope (φ : Type) where
  state : HistoryState
  progress : ScopeProgress Int φ

/-- One tick of the pipeline for a scope that is `READING`: the step, and the state its trigger leads to. -/
def historyTick (scope : WafScope φ) : Except WafStepError (WafScope φ) := do
  require (scope.state = .reading) (WafStepError.raised (.lifecycle "the scope is not reading"))
  let step ← historyVolumeStep minCoverage st tick scope.progress
  match step.trigger with
  | none => return { state := .reading, progress := step.progress }
  | some trigger => do
      let change ← raising (nextState .reading trigger)
      return { state := change.state, progress := step.progress }

end QRadarDashboard.Collectors
