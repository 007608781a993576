import QRadarDashboard.History.Scan
import QRadarDashboard.PropertyWatch.Query

/-!
# Reading the past of a property watch (`app/property_watch/bootstrap.py`)

The adapter on the shared history planner.
-/

namespace QRadarDashboard.PropertyWatch
open Lib History

variable {φ : Type} [PyFloat φ]

/-! ## Settings -/

/-- The settings that the collection and the authoring of watches read (`app/core/config.py`). -/
structure PwSettings (φ : Type) [PyFloat φ] where
  collectionIntervalSeconds : Int := 300
  pwMaxEnabledWatches : Nat := 10
  pwMaxSearchesPerTick : Nat := 40
  pwMaxSearchesPerWatchPerTick : Nat := 12
  pwMaxSourcesPerSearch : Nat := 50
  pwMaxChunksPerWatch : Nat := 4
  pwMaxRowsPerSearch : Int := 5000
  pwMaxValuesPerBucket : Int := 50
  pwMaxNewValuesPerBucket : Nat := 20
  pwMaxActiveValuesPerWatch : Int := 200
  pwMaxPinnedValues : Nat := 10
  pwValueMaxLength : Int := 255
  pwMinAdmissionEvents : Int := 3
  pwValueActiveDays : Int := 7
  pwBootstrapEnabled : Bool := true
  pwBootstrapSearchesPerTick : Nat := 12
  pwBootstrapFloorMarginHours : Int := 24
  pwBootstrapMaxHours : Int := 72
  pwBootstrapMaxFailures : Int := 3
  pwBootstrapMaxLowerBoundShare : φ := PyFloat.ofRat 0.05
  sources_pos : 1 ≤ pwMaxSourcesPerSearch
  chunks_pos : 1 ≤ pwMaxChunksPerWatch
  admission_pos : 1 ≤ pwMinAdmissionEvents ∧ 1 ≤ pwMaxActiveValuesPerWatch ∧ 1 ≤ pwValueActiveDays

theorem defaultChunks_pos : 1 ≤ 4 := by decide

theorem defaultAdmission_pos : (1 : Int) ≤ 3 ∧ (1 : Int) ≤ 200 ∧ (1 : Int) ≤ 7 := by decide

def initialChunkBuckets : Int := 288

def minChunkBuckets : Int := 12

def rowTargetShare : φ := PyFloat.ofRat 0.8

def maxGaps : Int := 20

def maxSpanHours : Int := 168

def waitingForBudget : String := "waiting for search budget"

/-- `pw_planner_settings`, with the checks of the planner's settings. -/
def pwPlannerSettings (s : PwSettings φ) (cadenceSeconds : Int) : Except Exc (PlannerSettings φ) :=
  if hbucket : 1 ≤ s.collectionIntervalSeconds ∧ 86400 % s.collectionIntervalSeconds = 0 then
    if hmargin : 1 ≤ s.pwBootstrapFloorMarginHours ∧ s.pwBootstrapFloorMarginHours ≤ 168 then
      if hrows : 1 ≤ s.pwMaxRowsPerSearch ∧ PyFloat.lt (PyFloat.ofInt 0) (rowTargetShare : φ) = true ∧
          PyFloat.le (rowTargetShare : φ) (PyFloat.ofInt 1) = true then
        if hcounts : 1 ≤ s.pwBootstrapMaxFailures ∧ (1 : Int) ≤ s.pwBootstrapSearchesPerTick then
          if hshare : PyFloat.le (PyFloat.ofInt 0) s.pwBootstrapMaxLowerBoundShare = true ∧
              PyFloat.le s.pwBootstrapMaxLowerBoundShare (PyFloat.ofInt 1) = true then
            if hhours : 1 ≤ s.pwBootstrapMaxHours ∧ 1 ≤ cadenceSeconds then
              .ok {
                bucketSeconds := s.collectionIntervalSeconds
                floorMarginHours := s.pwBootstrapFloorMarginHours
                maxSpanHours := maxSpanHours
                rowCap := s.pwMaxRowsPerSearch
                rowTargetShare := rowTargetShare
                initialChunkBuckets := initialChunkBuckets
                minChunkBuckets := minChunkBuckets
                maxFailures := s.pwBootstrapMaxFailures
                maxLowerBoundShare := s.pwBootstrapMaxLowerBoundShare
                maxHours := s.pwBootstrapMaxHours
                maxGaps := maxGaps
                searchesPerTick := s.pwBootstrapSearchesPerTick
                cadenceSeconds := cadenceSeconds
                bucketSeconds_ok := hbucket
                floorMarginHours_ok := hmargin
                maxSpanHours_ok := by simp [maxSpanHours]
                rowTarget_ok := hrows
                chunkWidths_ok := by simp [minChunkBuckets, initialChunkBuckets]
                counts_ok := ⟨hcounts.1, by simp [maxGaps], hcounts.2⟩
                maxLowerBoundShare_ok := hshare
                hours_ok := hhours }
            else .error (.plannerInput "max_hours and cadence_seconds must be >= 1")
          else .error (.plannerInput "max_lower_bound_share must be in [0, 1]")
        else .error (.plannerInput "max_failures, max_gaps and searches_per_tick must be >= 1")
      else .error (.plannerInput "row_cap must be positive and row_target_share in (0, 1]")
    else .error (.plannerInput "floor_margin_hours must be 1..168")
  else .error (.plannerInput "bucket_seconds must be a positive divisor of one day")

/-! ## States -/

def toHistoryState : PwHistoryState → HistoryState
  | .notRequested => .notRequested
  | .reading => .reading
  | .complete => .complete
  | .partialHistory => .partly
  | .unavailable => .unavailable

def fromHistoryState : HistoryState → Except Exc PwHistoryState
  | .notRequested => .ok .notRequested
  | .reading => .ok .reading
  | .complete => .ok .complete
  | .partly => .ok .partialHistory
  | .unavailable => .ok .unavailable
  | .waiting => .error (.value "history state WAITING does not apply to a property watch")
  | .notEligible => .error (.value "history state NOT_ELIGIBLE does not apply to a property watch")

def applyTrigger (state : PwHistoryState) (trigger : HistoryTrigger) : Except Exc (PwHistoryState × String) := do
  let change ← nextState (toHistoryState state) trigger
  return (← fromHistoryState change.state, change.reason)

def startProgress (st : PlannerSettings φ) (historyDays boundary now : Int) : Except Exc (ScopeProgress Int φ) := do
  require (1 ≤ historyDays) (.value "history_days must ask for at least one day")
  newProgress (boundary - seconds (historyDays * 86400)) now st

/-! ## Planning -/

structure PwStepPlan where
  step : StepPlan
  totalsSpan : Option (Span Int) := none
  pinnedSpan : Option (Span Int) := none
  groupedChunks : List (Span Int) := []
  reusesScanTotals : Bool := false
  /-- What the step costs: TOTALS, PINNED and the GROUPED chunks. -/
  searches : Int := 0

def reusable (scan : ScanSpanResult) (start : Int) : Bool :=
  scan.status = .complete && decide (scan.span.start ≤ start) && decide (start < scan.span.stop)

def trim (st : PlannerSettings φ) : Int → List (Span Int) → Except Exc (List (Span Int))
  | _, [] => .ok []
  | left, chunk :: chunks =>
    if left ≤ 0 then .ok []
    else do
      let n ← chunk.buckets st
      if n ≤ left then return chunk :: (← trim st (left - n) chunks)
      else return [⟨chunk.start, chunk.start + left * st.bucket⟩]

def reduced (budget : StepBudget φ) (reserved : Int) : StepBudget φ where
  searches := max 0 (budget.searches - reserved)
  secondsLeft := budget.secondsLeft
  searches_nonneg := le_max_left _ _

def pinLimit (st : PlannerSettings φ) (pinnedRowsPerBucket limit : Int) : Int × List String :=
  if pinnedRowsPerBucket > 0 then
    let cap := max 1 (st.rowTargetRows / pinnedRowsPerBucket)
    if cap < limit then (cap, [s!"limited to {cap} bucket(s) by the pinned values"]) else (limit, [])
  else (limit, [])

def scanLimit (st : PlannerSettings φ) (start : Int) (reused : Option ScanSpanResult) (limit : Int) :
    Int × List String :=
  match reused with
  | none => (limit, [])
  | some scan =>
    let room := (scan.span.stop - start) / st.bucket
    if room < limit then (room, ["ending where the floor scan ends"]) else (limit, [])

/-- The READ branch of `plan_pw_step`. -/
def planPwRead (st : PlannerSettings φ) (step : StepPlan) (start pinnedRowsPerBucket : Int)
    (reused : Option ScanSpanResult) : Except Exc PwStepPlan := do
  let counts ← step.chunks.mapM (fun chunk => chunk.buckets st)
  let (limit, pinNotes) := pinLimit st pinnedRowsPerBucket counts.sum
  let (limit, scanNotes) := scanLimit st start reused limit
  let notes := pinNotes ++ scanNotes
  let chunks ← trim st limit step.chunks
  match chunks.head?, chunks.getLast? with
  | some first, some last =>
    let span : Span Int := ⟨first.start, last.stop⟩
    let buckets ← span.buckets st
    let width := match step.chunkBuckets with
      | none => "None"
      | some width => toString width
    let reason := s!"read {buckets} bucket(s) in {chunks.length} search(es) of up to {width}" ++
      (if notes.isEmpty then "" else "; " ++ String.intercalate "; " notes)
    return {
      step := { step with chunks := chunks, reason := reason }
      totalsSpan := if reused.isSome then none else some span
      pinnedSpan := if pinnedRowsPerBucket > 0 then some span else none
      groupedChunks := chunks
      reusesScanTotals := reused.isSome
      searches := (if reused.isSome then 0 else 1) + (if pinnedRowsPerBucket > 0 then 1 else 0) + chunks.length }
  | _, _ => throw .index

def reservedSearches (pinnedRowsPerBucket : Int) (reused : Option ScanSpanResult) : Int :=
  (if pinnedRowsPerBucket > 0 then 1 else 0) + (if reused.isSome then 0 else 1)

def planPwStep (st : PlannerSettings φ) (progress : ScopeProgress Int φ) (now boundary : Int) (budget : StepBudget φ)
    (pinnedRowsPerBucket : Int) (enabled : Bool) (scan : Option ScanSpanResult) : Except Exc PwStepPlan := do
  require (0 ≤ pinnedRowsPerBucket) (.plannerInput "pinned_rows_per_bucket cannot be negative")
  let start := nextStart progress st
  let reused := scan.filter (fun scan => start.any (reusable scan))
  let budgeted := match start with
    | none => budget
    | some _ => reduced budget (reservedSearches pinnedRowsPerBucket reused)
  let step ← planStep progress now boundary budgeted st enabled
  let plan ← match step.action, start with
    | .scan, _ => pure { step := step, totalsSpan := step.scanSpan, searches := 1 }
    | .read, some start => planPwRead st step start pinnedRowsPerBucket reused
    | .read, none => throw (.assertion "READ needs a known floor")
    | _, _ => pure { step := step }
  require (plan.searches ≤ budget.searches) (.assertion "a step never costs more than its budget")
  return plan

/-! ## Settling -/

def downgrade (wide : List SearchStatus) : Option SearchStatus :=
  if wide.any (fun s => s = .failed || s = .truncated) then some .failed
  else if wide.any (fun s => s = .notRun) then some .notRun
  else none

def downgraded (status : SearchStatus) (r : ChunkResult) : ChunkResult where
  span := r.span
  status := status
  searches := if r.status = .notRun then 0 else r.searches
  searches_nonneg := by
    split
    · exact Int.le_refl 0
    · exact r.searches_nonneg

def wideRan (totals : SearchStatus) (pinned : Option SearchStatus) (totalsReused : Bool) : Int :=
  (if totalsReused || totals = .notRun then 0 else 1) +
    (if pinned.any (fun s => s ≠ .notRun) then 1 else 0)

def settlePwStep (st : PlannerSettings φ) (progress : ScopeProgress Int φ) (totals : SearchStatus)
    (pinned : Option SearchStatus) (grouped : List ChunkResult) (totalsReused : Bool) (stop : Int) :
    Except Exc (StepSettlement φ) := do
  let results := match downgrade (totals :: pinned.toList) with
    | none => grouped
    | some status => grouped.map (downgraded status)
  let settlement ← settleStep progress results stop st
  return { settlement with
    progress := { settlement.progress with
      searches := settlement.progress.searches + wideRan totals pinned totalsReused } }

/-! ## Budget -/

/-- `pw_history_budget`: what live collection left over, capped. -/
def pwHistoryBudget (s : PwSettings φ) (liveRemaining : Int) (secondsLeft : φ) : StepBudget φ where
  searches := max 0 (min s.pwBootstrapSearchesPerTick liveRemaining)
  secondsLeft := secondsLeft
  searches_nonneg := le_max_left _ _

def historyStepSearches (pinned : Bool) : Nat := if pinned then 3 else 2

def historyStepParts (needed : Nat) : String :=
  if needed ≥ 3 then "TOTALS, PINNED and one GROUPED" else "TOTALS and one GROUPED"

def historyBudgetSentence (needed setting : Nat) : String :=
  s!"PW_BOOTSTRAP_SEARCHES_PER_TICK is {setting}; reading history for this watch needs at " ++
    s!"least {needed} searches per tick ({historyStepParts needed})"

/-!
## The capacity of property watches (`app/services/property_watches.py`)

What enabling a watch costs, and why it is refused. `memberCount` is the number of sources the inventory resolves a
watch's scope to, 0 where it says nothing.
-/

structure CapacityReason where
  code : String
  message : String

def capEnabled : String := "ENABLED_CAP"

def capGroupTooLarge : String := "GROUP_TOO_LARGE"

def capWatchSearchLimit : String := "WATCH_SEARCH_LIMIT"

def capTickBudget : String := "TICK_BUDGET"

def capHistoryBudget : String := "HISTORY_BUDGET"

def PropertyWatchRow.pinned (watch : PropertyWatchRow) : Bool := !watch.pinnedValues.isEmpty

/-- `math.ceil(member_count / max_sources)` -/
def groupChunks (memberCount maxSources : Nat) : Nat := (memberCount + maxSources - 1) / maxSources

def searchCost (scopeKind : PwScopeKind) (memberCount : Nat) (pinned : Bool) (maxSources : Nat) : Nat :=
  let chunks := match scopeKind with
    | .logSourceGroup => max 1 (groupChunks memberCount maxSources)
    | _ => 1
  chunks * (if pinned then 3 else 2)

/-- `static_costs` of one watch. -/
def staticCost (s : PwSettings φ) (memberCount : PropertyWatchRow → Nat) (watch : PropertyWatchRow) : Nat :=
  searchCost watch.scopeKind (memberCount watch) watch.pinned s.pwMaxSourcesPerSearch

def watchReadsHistory (watch : PropertyWatchRow) : Bool :=
  watch.historyDays.any (fun days => days ≥ 1) &&
    (watch.historyState = .notRequested || watch.historyState = .reading)

def historyBudgetReasons (s : PwSettings φ) (watch : PropertyWatchRow) (liveTotal : Nat) : List CapacityReason :=
  if !s.pwBootstrapEnabled || !watchReadsHistory watch then []
  else
    let needed := historyStepSearches watch.pinned
    let free := s.pwMaxSearchesPerTick - liveTotal
    let setting := s.pwBootstrapSearchesPerTick
    if min setting free ≥ needed then []
    else if setting ≤ free then [⟨capHistoryBudget, historyBudgetSentence needed setting⟩]
    else [⟨capHistoryBudget, s!"reading history needs at least {needed} free searches per tick " ++
      s!"({historyStepParts needed}), but {free} are left after the enabled watches' live cost of {liveTotal} of " ++
      s!"{s.pwMaxSearchesPerTick}"⟩]

/-- `enable_reasons`: why a watch cannot be enabled beside the others that are. -/
def enableReasons (s : PwSettings φ) (memberCount : PropertyWatchRow → Nat) (others : List PropertyWatchRow)
    (watch : PropertyWatchRow) : List CapacityReason :=
  let members := memberCount watch
  let ownCost := staticCost s memberCount watch
  let cap := s.pwMaxChunksPerWatch * s.pwMaxSourcesPerSearch
  let total := ownCost + (others.map (staticCost s memberCount)).sum
  (if others.length + 1 > s.pwMaxEnabledWatches then
    [⟨capEnabled, s!"at most {s.pwMaxEnabledWatches} property watches may be enabled at once"⟩] else []) ++
  (if watch.scopeKind = .logSourceGroup ∧ members > cap then
    [⟨capGroupTooLarge, s!"the group resolves to {members} sources, above the limit of {cap} " ++
      s!"({s.pwMaxChunksPerWatch} searches of {s.pwMaxSourcesPerSearch}); split the group"⟩] else []) ++
  (if ownCost > s.pwMaxSearchesPerWatchPerTick then
    [⟨capWatchSearchLimit, s!"this watch needs {ownCost} searches per tick, above the per-watch limit of " ++
      s!"{s.pwMaxSearchesPerWatchPerTick}"⟩] else []) ++
  (if total > s.pwMaxSearchesPerTick then
    [⟨capTickBudget, s!"the enabled watches would need {total} searches per tick against a budget of " ++
      s!"{s.pwMaxSearchesPerTick} (this watch needs {ownCost})"⟩] else []) ++
  historyBudgetReasons s watch total

end QRadarDashboard.PropertyWatch
