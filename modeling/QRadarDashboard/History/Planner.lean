import QRadarDashboard.History.State
import QRadarDashboard.Lib.Json

/-!
# The history planner (`app/history/planner.py`)
-/

namespace QRadarDashboard.History
open Lib

variable {φ : Type} [PyFloat φ]

/-- The numbers a family passes in. The last fields are the checks of `__post_init__`. -/
structure PlannerSettings (φ : Type) [PyFloat φ] where
  bucketSeconds : Int := 300
  floorMarginHours : Int := 24
  maxSpanHours : Int := 168
  rowCap : Int := 5000
  rowTargetShare : φ := PyFloat.ofRat 0.8
  initialChunkBuckets : Int := 288
  minChunkBuckets : Int := 1
  maxFailures : Int := 3
  maxLowerBoundShare : φ := PyFloat.ofRat 0.05
  maxHours : Int := 72
  maxGaps : Int := 20
  searchesPerTick : Int := 10
  cadenceSeconds : Int := 300
  bucketSeconds_ok : 1 ≤ bucketSeconds ∧ 86400 % bucketSeconds = 0
  floorMarginHours_ok : 1 ≤ floorMarginHours ∧ floorMarginHours ≤ 168
  maxSpanHours_ok : 1 ≤ maxSpanHours ∧ maxSpanHours ≤ 168
  rowTarget_ok : 1 ≤ rowCap ∧ PyFloat.lt (PyFloat.ofInt 0) rowTargetShare = true ∧
    PyFloat.le rowTargetShare (PyFloat.ofInt 1) = true
  chunkWidths_ok : 1 ≤ minChunkBuckets ∧ minChunkBuckets ≤ initialChunkBuckets
  counts_ok : 1 ≤ maxFailures ∧ 1 ≤ maxGaps ∧ 1 ≤ searchesPerTick
  maxLowerBoundShare_ok : PyFloat.le (PyFloat.ofInt 0) maxLowerBoundShare = true ∧
    PyFloat.le maxLowerBoundShare (PyFloat.ofInt 1) = true
  hours_ok : 1 ≤ maxHours ∧ 1 ≤ cadenceSeconds

namespace PlannerSettings

def bucket (st : PlannerSettings φ) : Int := seconds st.bucketSeconds

def maxSpanBuckets (st : PlannerSettings φ) : Int := st.maxSpanHours * 3600 / st.bucketSeconds

def rowTargetRows (st : PlannerSettings φ) : Int :=
  max 1 (PyFloat.floor (PyFloat.add (PyFloat.mul (PyFloat.ofInt st.rowCap) st.rowTargetShare)
    (PyFloat.ofRat 1e-9)))

end PlannerSettings

/-! ## Time helpers -/

def epoch (value : Int) : Except Exc Int :=
  if value % 1000000 ≠ 0 then .error (.plannerInput "times must be whole seconds")
  else .ok (value / 1000000)

def isAligned (value : Int) (st : PlannerSettings φ) : Except Exc Bool := do
  return (← epoch value) % st.bucketSeconds = 0

def requireAligned (value : Int) (name : String) (st : PlannerSettings φ) : Except Exc Unit := do
  if ← isAligned value st then return ()
  else throw (.plannerInput s!"{name} must be aligned to the {st.bucketSeconds} s bucket")

/-- Whole buckets in `[start, stop)`; both must be aligned. -/
def bucketsBetween (start stop : Int) (st : PlannerSettings φ) : Except Exc Int := do
  requireAligned start "start" st
  requireAligned stop "end" st
  return max 0 (((← epoch stop) - (← epoch start)) / st.bucketSeconds)

/-! ## Shared types -/

/-- A half-open interval `[start, stop)` of whole buckets. -/
structure Span (τ : Type) where
  start : τ
  stop : τ
deriving DecidableEq

def Span.buckets (s : Span Int) (st : PlannerSettings φ) : Except Exc Int :=
  bucketsBetween s.start s.stop st

structure Gap (τ : Type) where
  start : τ
  stop : τ
  reason : String
deriving DecidableEq

/-- What the planner carries between ticks, with times in `τ` and the density in `φ`. -/
structure ScopeProgress (τ φ : Type) where
  targetStart : τ
  startedAt : τ
  floor : Option τ := none
  firstEventBucket : Option τ := none
  through : Option τ := none
  scanCursor : Option τ := none
  scanFailures : Int := 0
  chunkBuckets : Option Int := none
  chunkCeiling : Option Int := none
  ceilingSuccesses : Int := 0
  /-- Consecutive failures at the minimum width. -/
  failures : Int := 0
  searches : Int := 0
  bucketsRead : Int := 0
  lowerBoundBuckets : Int := 0
  rowsSeen : Int := 0
  nonSilentBuckets : Int := 0
  recentRowsPerBucket : Option φ := none
  densityChecked : Bool := false
  gaps : List (Gap τ) := []
deriving DecidableEq

def nextStart (progress : ScopeProgress Int φ) (st : PlannerSettings φ) : Option Int :=
  match progress.floor, progress.through with
  | none, _ => none
  | some floor, none => some floor
  | some _, some through => some (through + st.bucket)

inductive SearchStatus where
  | complete | truncated | failed | notRun
deriving DecidableEq

def floorIsCut (progress : ScopeProgress Int φ) (st : PlannerSettings φ) : Bool :=
  match progress.floor with
  | none => false
  | some floor => decide (floor > progress.targetStart + st.bucket)

/-! ## Widths -/

def rowFitBuckets (rowsPerBucket : φ) (st : PlannerSettings φ) : Int :=
  if PyFloat.le rowsPerBucket (PyFloat.ofInt 0) then st.maxSpanBuckets
  else
    let fit := PyFloat.floor (PyFloat.div (PyFloat.ofInt st.rowTargetRows)
      (PyFloat.mul (PyFloat.ofRat 1.25) rowsPerBucket))
    max st.minChunkBuckets (min st.maxSpanBuckets fit)

/-- `W` for the next step: the stored width, bounded by the failure ceiling. -/
def chunkWidth (progress : ScopeProgress Int φ) (st : PlannerSettings φ) : Int :=
  let width := match progress.chunkBuckets with
    | none => st.initialChunkBuckets
    | some w => if w = 0 then st.initialChunkBuckets else w
  let width := match progress.chunkCeiling with
    | none => width
    | some ceiling => min width ceiling
  max st.minChunkBuckets (min width st.maxSpanBuckets)

def finishVerdict (progress : ScopeProgress Int φ) (st : PlannerSettings φ) :
    HistoryTrigger × String :=
  let problems :=
    (if floorIsCut progress st then
      ["QRadar holds less than asked (the floor is later than the asked start)"] else []) ++
    (if progress.gaps.isEmpty then [] else [s!"{progress.gaps.length} span(s) could not be read"])
  if problems.isEmpty then
    (.finishedComplete, "reached the end with the whole asked window read")
  else (.finishedPartial, "reached the end; " ++ String.intercalate "; " problems)

/-! ## Settling a step -/

structure ChunkResult where
  span : Span Int
  status : SearchStatus
  rows : Int := 0
  nonSilentBuckets : Int := 0
  lowerBoundBuckets : Int := 0
  searches : Int := 1
  searches_nonneg : 0 ≤ searches

structure StepSettlement (φ : Type) where
  progress : ScopeProgress Int φ
  /-- The contiguous completed prefix: the only spans to persist. -/
  writeSpans : List (Span Int)
  advanced : Bool
  reason : String
  trigger : Option HistoryTrigger
  newGap : Option (Gap Int)

def ceilingReleaseSteps : Int := 3

/-- The progress and the note after a step that read what it could. The empty note is `none`. -/
def widthAfterStep (progress : ScopeProgress Int φ) (current : Int) (st : PlannerSettings φ) :
    ScopeProgress Int φ × Option String :=
  let (fit, target) := match progress.recentRowsPerBucket with
    | none => (st.initialChunkBuckets, 2 * current)
    | some recent =>
      let fit := rowFitBuckets recent st
      match progress.chunkBuckets with
      | none => (fit, fit)
      | some _ => (fit, min fit (2 * current))
  let (ceiling, successes, width, note) : Option Int × Int × Int × Option String :=
    match progress.chunkCeiling with
    | none => (none, progress.ceilingSuccesses, target, none)
    | some ceiling =>
      let successes := progress.ceilingSuccesses + 1
      if successes ≥ ceilingReleaseSteps then
        if 2 * ceiling ≥ fit then
          (none, 0, min fit (2 * current),
            some (s!"{ceilingReleaseSteps} clean steps brought the failure ceiling to " ++
              s!"the row fit of {fit}; the ceiling is released"))
        else
          (some (2 * ceiling), 0, min target (2 * ceiling),
            some (s!"{ceilingReleaseSteps} clean steps doubled the failure ceiling to " ++
              s!"{2 * ceiling}"))
      else (some ceiling, successes, min target ceiling, none)
  let width := max st.minChunkBuckets (min width st.maxSpanBuckets)
  ({ progress with chunkCeiling := ceiling, ceilingSuccesses := successes, chunkBuckets := some width },
    note)

/-- The results must tile contiguously from `cursor`. -/
def checkContiguous (cursor : Int) : List ChunkResult → Except Exc Unit
  | [] => .ok ()
  | r :: rs =>
    if r.span.start ≠ cursor ∨ r.span.stop ≤ r.span.start then
      .error (.plannerInput "chunk results must tile contiguously from the next bucket")
    else checkContiguous r.span.stop rs

structure ReadPrefix where
  write : List (Span Int) := []
  through : Option Int
  read : Int := 0
  lb : Int := 0
  rows : Int := 0
  nonSilent : Int := 0
  blocker : Option ChunkResult := none

/-- A chunk of `n` buckets was read: whole, or cut at one bucket (a lower bound). -/
def ChunkResult.done (r : ChunkResult) (n : Int) : Bool :=
  r.status = .complete ∨ (r.status = .truncated ∧ n = 1)

/-- The loop of `settle_step` over the results; it stops at the first one that was not read. -/
def readPrefix (st : PlannerSettings φ) (acc : ReadPrefix) : List ChunkResult → Except Exc ReadPrefix
  | [] => .ok acc
  | r :: rs => do
      let n ← r.span.buckets st
      if r.done n then
        readPrefix st
          { acc with
            write := acc.write ++ [r.span]
            through := some (r.span.stop - st.bucket)
            read := acc.read + n
            rows := acc.rows + r.rows
            nonSilent := acc.nonSilent + r.nonSilentBuckets
            lb := acc.lb + (if r.status = .complete then r.lowerBoundBuckets else 1) } rs
      else .ok { acc with blocker := some r }

def searchesSpent (results : List ChunkResult) : Int :=
  ((results.filter (fun r => r.status ≠ .notRun)).map (·.searches)).sum

def afterPrefix (progress : ScopeProgress Int φ) (results : List ChunkResult) (pre : ReadPrefix) :
    ScopeProgress Int φ :=
  { progress with
    through := pre.through
    searches := progress.searches + searchesSpent results
    bucketsRead := progress.bucketsRead + pre.read
    lowerBoundBuckets := progress.lowerBoundBuckets + pre.lb
    rowsSeen := progress.rowsSeen + pre.rows
    nonSilentBuckets := progress.nonSilentBuckets + pre.nonSilent
    recentRowsPerBucket :=
      if pre.nonSilent ≠ 0 then some (PyFloat.divInt pre.rows pre.nonSilent) else none }

/-- What the blocker branches of `settle_step` leave for the gates after them. -/
structure Verdict (φ : Type) where
  updated : ScopeProgress Int φ
  reasons : List String
  newGap : Option (Gap Int) := none
  trigger : Option HistoryTrigger := none

/-- The width follows the density of the step; `reasons` come before its note. -/
def withWidth (updated : ScopeProgress Int φ) (reasons : List String) (current : Int)
    (st : PlannerSettings φ) : Verdict φ :=
  let (updated, note) := widthAfterStep updated current st
  { updated, reasons := reasons ++ note.toList ++
      [s!"the width is {updated.chunkBuckets.getD 0} bucket(s)"] }

def settleClean (updated : ScopeProgress Int φ) (read current : Int) (st : PlannerSettings φ) :
    Verdict φ :=
  withWidth { updated with failures := 0 } [s!"read {read} bucket(s)"] current st

/-- The blocker of `n` buckets failed: narrow the width, count the failure, or record a gap. -/
def settleFailed (updated : ScopeProgress Int φ) (blocker : ChunkResult) (n : Int)
    (st : PlannerSettings φ) : Verdict φ :=
  let narrower := max st.minChunkBuckets (n / 2)
  let updated := { updated with
    chunkBuckets := some narrower, chunkCeiling := some narrower, ceilingSuccesses := 0 }
  if n ≤ st.minChunkBuckets then
    let failures := updated.failures + 1
    if failures ≥ st.maxFailures then
      if (updated.gaps.length : Int) ≥ st.maxGaps then
        { updated := { updated with failures }
          reasons := [s!"more than {st.maxGaps} unreadable spans"]
          trigger := some .tooManyGaps }
      else
        let newGap : Gap Int := ⟨blocker.span.start, blocker.span.stop,
          s!"search failed {failures} times at the minimum width"⟩
        { updated := { updated with
            failures := 0, gaps := updated.gaps ++ [newGap],
            through := some (blocker.span.stop - st.bucket) }
          reasons := [s!"recorded a gap: {newGap.reason}"]
          newGap := some newGap }
    else
      { updated := { updated with failures }
        reasons := [s!"a search failed at the minimum width ({failures} of " ++
          s!"{st.maxFailures}); the same span is tried again"] }
  else
    { updated, reasons := [s!"a search of {n} buckets failed; the width halves to {narrower}"] }

/-- The blocker of `n` buckets was truncated: it keeps nothing. -/
def settleTruncated (updated : ScopeProgress Int φ) (n : Int) (st : PlannerSettings φ) : Verdict φ :=
  let narrower := max st.minChunkBuckets (n / 2)
  { updated := { updated with chunkBuckets := some narrower }
    reasons := [s!"a search of {n} buckets was truncated and keeps nothing; the width halves " ++
      s!"to {narrower}"] }

def settleNotRun (updated : ScopeProgress Int φ) (read current : Int) (st : PlannerSettings φ) :
    Verdict φ :=
  let ended := "the budget ended before this span was searched"
  if read ≠ 0 then withWidth updated [ended] current st
  else { updated, reasons := [ended] }

/-- The branches of `settle_step` on the blocker. -/
def settleBlocker (updated : ScopeProgress Int φ) (pre : ReadPrefix) (current : Int)
    (st : PlannerSettings φ) : Except Exc (Verdict φ) :=
  match pre.blocker with
  | none => .ok (settleClean updated pre.read current st)
  | some blocker => do
      let n ← blocker.span.buckets st
      match blocker.status with
      | .failed => .ok (settleFailed updated blocker n st)
      | .truncated => .ok (settleTruncated updated n st)
      | _ => .ok (settleNotRun updated pre.read current st)

def densityGate (v : Verdict φ) (st : PlannerSettings φ) : Verdict φ :=
  if v.trigger = none ∧ v.updated.densityChecked = false ∧ v.updated.bucketsRead > 0 then
    let share : φ := PyFloat.divInt v.updated.lowerBoundBuckets v.updated.bucketsRead
    let v := { v with updated := { v.updated with densityChecked := true } }
    if PyFloat.lt st.maxLowerBoundShare share then
      { v with
        trigger := some .densityGate
        reasons := v.reasons ++ [s!"{PyFloat.percent share} of the buckets read are lower bounds (limit " ++
          s!"{PyFloat.percent st.maxLowerBoundShare}): too many distinct values per bucket, " ++
          "so history would be lower bounds"] }
    else v
  else v

def finishGate (v : Verdict φ) (stop : Int) (st : PlannerSettings φ) : Verdict φ :=
  if v.trigger = none then
    match nextStart v.updated st with
    | none => v
    | some nxt =>
      if nxt ≥ stop then
        let (trigger, verdict) := finishVerdict v.updated st
        { v with trigger := some trigger, reasons := v.reasons ++ [verdict] }
      else v
  else v

/-- Apply a step's results. `through` moves only past whole, completed chunks. -/
def settleStep (progress : ScopeProgress Int φ) (results : List ChunkResult) (stop : Int)
    (st : PlannerSettings φ) : Except Exc (StepSettlement φ) :=
  match nextStart progress st with
  | none => .error (.plannerInput "the floor is unknown; settle a scan with interpret_scan")
  | some start => do
      requireAligned stop "end" st
      checkContiguous start results
      let pre ← readPrefix st { through := progress.through } results
      let v ← settleBlocker (afterPrefix progress results pre) pre (chunkWidth progress st) st
      let v := finishGate (densityGate v st) stop st
      return {
        progress := v.updated
        writeSpans := pre.write
        advanced := !pre.write.isEmpty
        reason := String.intercalate "; " v.reasons
        trigger := v.trigger
        newGap := v.newGap }

end QRadarDashboard.History
