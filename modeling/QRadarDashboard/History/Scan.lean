import QRadarDashboard.History.Planner
import QRadarDashboard.Lib.DateTime
import QRadarDashboard.Lib.Except
import QRadarDashboard.Lib.Sort

/-!
# The floor scan (`app/history/planner.py`)

Before a reading starts, the planner looks for the first event of the scope, span by span.
-/

namespace QRadarDashboard.History
open Lib

variable {φ : Type} [PyFloat φ]

/-- The margin, rounded up to whole buckets. Of integers below 2^20 `math.ceil` of the float quotient is that of the
quotient. -/
def PlannerSettings.margin (st : PlannerSettings φ) : Int :=
  -(-(st.floorMarginHours * 3600) / st.bucketSeconds) * st.bucket

def alignUp (value : Int) (st : PlannerSettings φ) : Except Exc Int := do
  let epoch ← epoch value
  return seconds (-(-epoch / st.bucketSeconds) * st.bucketSeconds)

/-- `isoformat()` of a UTC time. -/
def isoformatUtc (t : Int) : String :=
  match DateTime.ofWall (t + DateTime.epochWall) with
  | none => ""
  | some d => String.ofList d.isoformat

def newProgress (targetStart startedAt : Int) (st : PlannerSettings φ) : Except Exc (ScopeProgress Int φ) := do
  requireAligned targetStart "target_start" st
  return { targetStart := targetStart, startedAt := startedAt, scanCursor := some (targetStart - st.margin) }

inductive ScanOutcome where
  | floorFound
  /-- No event yet: scan the next span. -/
  | continue
  /-- A span proved nothing: scan it again. -/
  | retry
  | unavailable
deriving DecidableEq

def SearchStatus.lower : SearchStatus → String
  | .complete => "complete"
  | .truncated => "truncated"
  | .failed => "failed"
  | .notRun => "not_run"

/-- The TOTALS result of one scan span: `(bucket_start, total_events)` per bucket. -/
structure ScanSpanResult where
  span : Span Int
  status : SearchStatus
  totals : List (Int × Int) := []
  span_ok : span.start ≤ span.stop

structure ScanPlan where
  span : Option (Span Int)
  reason : String

structure ScanDecision (φ : Type) where
  outcome : ScanOutcome
  progress : ScopeProgress Int φ
  reason : String
  trigger : Option HistoryTrigger := none

/-- The next floor-scan span: from the cursor, at most `maxSpanHours`, never past `stop`. -/
def planScan (progress : ScopeProgress Int φ) (stop : Int) (st : PlannerSettings φ) : Except Exc ScanPlan := do
  requireAligned stop "end" st
  match progress.scanCursor with
  | none => throw (.plannerInput "progress has no scan cursor")
  | some cursor =>
    if cursor ≥ stop then return ⟨none, "the scan reached the end of the window"⟩
    else return ⟨some ⟨cursor, min stop (cursor + st.maxSpanBuckets * st.bucket)⟩,
      "scan for the first event of the scope"⟩

def checkTotals (st : PlannerSettings φ) (span : Span Int) : List (Int × Int) → Except Exc Unit
  | [] => .ok ()
  | (bucket, total) :: totals => do
      requireAligned bucket "bucket" st
      require (span.start ≤ bucket ∧ bucket < span.stop) (.plannerInput "a scan bucket lies outside its span")
      require (0 ≤ total) (.plannerInput "a bucket total cannot be negative")
      checkTotals st span totals

/-- `sorted(b for b, total in totals if total > 0)` -/
def eventBuckets (totals : List (Int × Int)) : List Int :=
  sortOn (fun b => b) ((totals.filter (fun item => item.2 > 0)).map (fun item => item.1))

def scanUnproved (st : PlannerSettings φ) (progress : ScopeProgress Int φ) (status : SearchStatus) :
    ScanDecision φ :=
  let failures := progress.scanFailures + 1
  if failures ≥ st.maxFailures then
    { outcome := .unavailable
      progress := { progress with scanFailures := failures }
      reason := s!"the floor scan failed {failures} times; history is unavailable"
      trigger := some .nothingToRead }
  else
    { outcome := .retry
      progress := { progress with scanFailures := failures }
      reason := s!"a scan search was {status.lower}; it proves nothing, so it is retried " ++
        s!"({failures} of {st.maxFailures})" }

/-- A COMPLETE span whose first bucket with events is `b0`. -/
def scanFound (st : PlannerSettings φ) (stop : Int) (progress : ScopeProgress Int φ) (span : Span Int) (b0 : Int) :
    Except Exc (ScanDecision φ) := do
  let aligned ← alignUp (b0 + st.margin) st
  let floor := max progress.targetStart aligned
  if floor ≥ stop then
    return {
      outcome := .unavailable
      progress := { progress with firstEventBucket := some b0, scanFailures := 0 }
      reason := "the first event is too recent to prove anything older: the margin of " ++
        s!"{st.floorMarginHours} h reaches the end of the window"
      trigger := some .nothingToRead }
  else
    return {
      outcome := .floorFound
      progress := { progress with
        firstEventBucket := some b0
        floor := some floor
        scanCursor := some span.stop
        scanFailures := 0 }
      reason := s!"QRadar holds events of the scope from {isoformatUtc b0}; history starts at " ++
        s!"{isoformatUtc floor}" ++
        (if floor > progress.targetStart + st.bucket then " (later than the asked start)" else "") }

def scanQuiet (stop : Int) (progress : ScopeProgress Int φ) (cursor : Int) : ScanDecision φ :=
  let progress := { progress with scanCursor := some cursor, scanFailures := 0 }
  if cursor ≥ stop then
    { outcome := .unavailable
      progress := progress
      reason := "no event of the scope in the whole window; nothing is written"
      trigger := some .nothingToRead }
  else
    { outcome := .continue
      progress := progress
      reason := "no event in the scanned span; scan the next one" }

/-- The loop of `interpret_scan`. Its cursor is its own: the one of `progress` stays until the loop returns. -/
def scanSpans (st : PlannerSettings φ) (stop : Int) (progress : ScopeProgress Int φ) :
    Int → List ScanSpanResult → Except Exc (ScanDecision φ)
  | cursor, [] => .ok (scanQuiet stop progress cursor)
  | cursor, result :: results =>
    if result.span.start ≠ cursor then
      .error (.plannerInput "scan results must be contiguous from the scan cursor")
    else if result.status ≠ .complete then .ok (scanUnproved st progress result.status)
    else do
      checkTotals st result.span result.totals
      match eventBuckets result.totals with
      | b0 :: _ => scanFound st stop progress result.span b0
      | [] => scanSpans st stop progress result.span.stop results

def scanSearches (results : List ScanSpanResult) : Int :=
  ((results.filter (fun r => r.status ≠ .notRun)).length : Int)

/-- Find `b0` and the floor, or say why none yet. Results come in time order from the cursor. -/
def interpretScan (progress : ScopeProgress Int φ) (results : List ScanSpanResult) (stop : Int)
    (st : PlannerSettings φ) : Except Exc (ScanDecision φ) := do
  requireAligned stop "end" st
  match progress.floor, progress.scanCursor with
  | none, some cursor =>
    if results.isEmpty then
      return { outcome := .retry, progress := progress, reason := "no scan result was provided" }
    else scanSpans st stop { progress with searches := progress.searches + scanSearches results } cursor results
  | _, _ => throw (.plannerInput "the floor is already known; there is nothing to scan")

/-! ## Planning a step (`plan_step` of `app/history/planner.py`) -/

structure StepBudget (φ : Type) where
  searches : Int
  secondsLeft : φ
  searches_nonneg : 0 ≤ searches

inductive StepAction where
  | scan | read | wait | finish
deriving DecidableEq

structure StepPlan where
  action : StepAction
  reason : String
  chunks : List (Span Int) := []
  scanSpan : Option (Span Int) := none
  chunkBuckets : Option Int := none
  trigger : Option HistoryTrigger := none
deriving DecidableEq

/-- Chunks of `width` buckets from `cursor` on, until `left` buckets are planned: the loop of `plan_step`. -/
def tileChunks (st : PlannerSettings φ) (width : Int) : Nat → Int → Int → List (Span Int)
  | 0, _, _ => []
  | rounds + 1, cursor, left =>
    if left > 0 then
      let n := min width left
      ⟨cursor, cursor + n * st.bucket⟩ :: tileChunks st width rounds (cursor + n * st.bucket) (left - n)
    else []

/-- The chunks a step reads from `start` on. -/
def planRead (progress : ScopeProgress Int φ) (start stop : Int) (budget : StepBudget φ) (st : PlannerSettings φ) :
    Except Exc StepPlan := do
  requireAligned start "start" st
  let width := chunkWidth progress st
  let remaining ← bucketsBetween start stop st
  let spanBuckets := min (min remaining st.maxSpanBuckets) (width * budget.searches)
  let chunks := tileChunks st width spanBuckets.toNat start spanBuckets
  return {
    action := .read
    reason := s!"read {spanBuckets} bucket(s) in {chunks.length} search(es) of up to {width}"
    chunks := chunks
    chunkBuckets := some width }

def planFloorScan (progress : ScopeProgress Int φ) (stop : Int) (st : PlannerSettings φ) : Except Exc StepPlan := do
  let scan ← planScan progress stop st
  match scan.span with
  | none => return {
      action := .finish
      reason := "no event of the scope in the whole window; nothing is written"
      trigger := some .nothingToRead }
  | some span => return { action := .scan, reason := scan.reason, scanSpan := some span }

/-- The next step. `stop` is the anchor, or the moving closed-bucket boundary. -/
def planStep (progress : ScopeProgress Int φ) (now stop : Int) (budget : StepBudget φ) (st : PlannerSettings φ)
    (enabled : Bool := true) (stopRequested : Bool := false) : Except Exc StepPlan := do
  requireAligned stop "end" st
  let start := nextStart progress st
  if !enabled then
    return { action := .finish, reason := "history reading was switched off", trigger := some .switchedOff }
  else if stopRequested then
    return { action := .finish, reason := "history reading was stopped by an operator",
             trigger := some .stoppedByOperator }
  else if start.any (fun start => start ≥ stop) then
    let (trigger, reason) := finishVerdict progress st
    return { action := .finish, reason := reason, trigger := some trigger }
  else if now - progress.startedAt > seconds (st.maxHours * 3600) then
    return { action := .finish, reason := s!"the reading did not finish in {st.maxHours} h",
             trigger := some .timeLimit }
  else if budget.searches ≤ 0 ∨ PyFloat.le budget.secondsLeft (PyFloat.ofInt 0) then
    return { action := .wait, reason := "waiting for search budget" }
  else
    match start with
    | none => planFloorScan progress stop st
    | some start => planRead progress start stop budget st

end QRadarDashboard.History
