import QRadarDashboard.Services.CronFloor
import QRadarDashboard.Lib.DateTime
import QRadarDashboard.Lib.Except
import QRadarDashboard.Lib.Run
import QRadarDashboard.Lib.Sort

/-!
# Scheduled searches (`app/services/scheduled_search.py`, `app/services/search_scheduler.py`)

A cycle lists the enabled searches once; an edit can come between any two of its transactions. A search is its place
in the list. Instants are counted in microseconds.
-/

namespace QRadarDashboard.Services
open Lib

/-! ## What is stored -/

inductive ThresholdOperator where
  | GT | GE | LT | LE | EQ

inductive ExecutionStatus where
  | PENDING | QUEUED | RUNNING | COMPLETED | FAILED | TIMEOUT | CANCELLED
deriving DecidableEq

structure ScheduledSearch where
  name : String
  aqlQuery : String
  queryVersion : Nat
  scheduleCron : String
  scheduleTimezone : String
  thresholdValue : Option Rat
  thresholdOperator : ThresholdOperator
  timeoutSeconds : Nat
  maxResultRows : Nat
  enabled : Bool
  lastRunAt : Option Int := none
  nextRunAt : Option Int := none
  consecutiveFailures : Nat := 0

structure SearchQueryVersion where
  search : Nat
  version : Nat
  aqlQuery : String

structure SearchExecution where
  search : Nat
  runKey : List Char
  trigger : String
  queryVersion : Nat
  status : ExecutionStatus
  startedAt : Option Int := none
  createdAt : Option Int

structure SchedulerReport where
  considered : Nat := 0
  dispatched : List String := []
  seeded : List String := []
  skippedRunning : List String := []
  invalidCron : List String := []
  deferredCapacity : List String := []

structure Claim where
  search : Nat
  scheduledFor : Int
  runKey : List Char

structure Cycle where
  now : Int
  waiting : List Nat
  report : SchedulerReport
  claim : Option Claim := none

structure SchedulerState where
  searches : List ScheduledSearch := []
  versions : List SearchQueryVersion := []
  executions : List SearchExecution := []
  cycle : Option Cycle := none
  lastCycleAt : Option Int := none
  /-- no column of the store: the time of the last cycle that listed the search -/
  consideredAt : Nat → Option Int := fun _ => none

/-- `fromCrontab` is `CronTrigger.from_crontab`, none where it raises. -/
structure SchedulerEnv where
  fromCrontab : String → String → Option CronTrigger
  scheduledSearchesMaxEnabled : Nat
  searchMaxDispatchPerCycle : Nat

/-- Why `f"threshold {operator} {value:g} can never be reached: .."` -/
structure ThresholdReason where
  operator : ThresholdOperator
  threshold : Rat
  maxResultRows : Nat

inductive InvalidCronExpression where
  | unparsed (cron timezone : String)
  | noFutureFire (cron timezone : String)

inductive SearchError where
  | cronFloor (reason : Option CronFloorReason)
  | enabledLimit (limit : Nat)
  | thresholdUnreachable (reason : ThresholdReason)
  | notNull (column : String)
  | nameTaken
  | valueError (message : String)
  | notFound
  /-- not a step of the code: a second cycle, a clock that goes back, a claim while a search runs -/
  | outOfTurn

/-! ## The editor -/

section Editor

def unreachableThresholdReason (operator : Option ThresholdOperator) (thresholdValue : Option Rat)
    (maxResultRows : Option Nat) : Option ThresholdReason :=
  match thresholdValue, maxResultRows with
  | some threshold, some rows =>
    match operator with
    | some .GT => if (rows + 1 : Nat) ≤ threshold then some ⟨.GT, threshold, rows⟩ else none
    | some .GE => if (rows + 1 : Nat) < threshold then some ⟨.GE, threshold, rows⟩ else none
    | _ => none
  | _, _ => none

structure ScheduledSearchCreate where
  name : String
  aqlQuery : String
  scheduleCron : String
  scheduleTimezone : String := "UTC"
  thresholdValue : Option Rat := none
  thresholdOperator : ThresholdOperator := .GT
  timeoutSeconds : Nat := 300
  maxResultRows : Nat := 10000
  enabled : Bool := true
  /-- `_threshold_must_be_reachable` -/
  reachable : unreachableThresholdReason (some thresholdOperator) thresholdValue (some maxResultRows) = none := by rfl

structure ScheduledSearchUpdate where
  aqlQuery : Option (Option String) := none
  scheduleCron : Option (Option String) := none
  scheduleTimezone : Option (Option String) := none
  thresholdValue : Option (Option Rat) := none
  thresholdOperator : Option (Option ThresholdOperator) := none
  timeoutSeconds : Option (Option Nat) := none
  maxResultRows : Option (Option Nat) := none
  enabled : Option (Option Bool) := none

variable (env : SchedulerEnv)

def SchedulerState.countEnabled (st : SchedulerState) : Nat :=
  (st.searches.filter (fun search => search.enabled)).length

/-- `_refuse_over_cap`, for a search that takes a place. -/
def SchedulerState.checkCap (st : SchedulerState) (enabling : Bool) : Except SearchError Unit :=
  require (enabling → st.countEnabled < env.scheduledSearchesMaxEnabled) (.enabledLimit env.scheduledSearchesMaxEnabled)

def refuseFastCron (cron timezone : String) (clock : Int) : Except SearchError Unit :=
  match checkCronFloor env.fromCrontab cron timezone clock cronFloorSeconds cronFloorHorizon none with
  | .error message => .error (.valueError message)
  | .ok outcome => require outcome.accepted (.cronFloor outcome.reason)

def SchedulerState.create (st : SchedulerState) (payload : ScheduledSearchCreate) (clock : Int) :
    Except SearchError SchedulerState := do
  refuseFastCron env payload.scheduleCron payload.scheduleTimezone clock
  st.checkCap env payload.enabled
  require (∀ search ∈ st.searches, search.name ≠ payload.name) .nameTaken
  pure { st with
    searches := st.searches ++ [{
      name := payload.name
      aqlQuery := payload.aqlQuery
      queryVersion := 1
      scheduleCron := payload.scheduleCron
      scheduleTimezone := payload.scheduleTimezone
      thresholdValue := payload.thresholdValue
      thresholdOperator := payload.thresholdOperator
      timeoutSeconds := payload.timeoutSeconds
      maxResultRows := payload.maxResultRows
      enabled := payload.enabled }]
    versions := st.versions ++ [⟨st.searches.length, 1, payload.aqlQuery⟩] }

/-- `setattr` of a column that is not nullable: a null is refused at the flush. -/
def assigned {α : Type} (column : String) (value : Option (Option α)) (stored : α) : Except SearchError α :=
  match value with
  | none => .ok stored
  | some none => .error (.notNull column)
  | some (some a) => .ok a

/-- The loop of `setattr` and the flush. -/
def ScheduledSearchUpdate.assign (payload : ScheduledSearchUpdate) (search : ScheduledSearch) :
    Except SearchError ScheduledSearch := do
  let scheduleCron ← assigned "schedule_cron" payload.scheduleCron search.scheduleCron
  let scheduleTimezone ← assigned "schedule_timezone" payload.scheduleTimezone search.scheduleTimezone
  let thresholdOperator ← assigned "threshold_operator" payload.thresholdOperator search.thresholdOperator
  let timeoutSeconds ← assigned "timeout_seconds" payload.timeoutSeconds search.timeoutSeconds
  let maxResultRows ← assigned "max_result_rows" payload.maxResultRows search.maxResultRows
  let enabled ← assigned "enabled" payload.enabled search.enabled
  let thresholdValue := payload.thresholdValue.getD search.thresholdValue
  pure { search with
    scheduleCron, scheduleTimezone, thresholdValue, thresholdOperator, timeoutSeconds, maxResultRows, enabled }

def ScheduledSearchUpdate.floorTimezone (payload : ScheduledSearchUpdate) (search : ScheduledSearch) : String :=
  match payload.scheduleTimezone with
  | some (some timezone) => if timezone = "" then search.scheduleTimezone else timezone
  | _ => search.scheduleTimezone

def ScheduledSearchUpdate.checkCron (payload : ScheduledSearchUpdate) (search : ScheduledSearch) (clock : Int) :
    Except SearchError Unit :=
  match payload.scheduleCron with
  | some (some cron) =>
    if cron ≠ search.scheduleCron then refuseFastCron env cron (payload.floorTimezone search) clock else .ok ()
  | _ => .ok ()

def ScheduledSearchUpdate.checkThreshold (payload : ScheduledSearchUpdate) (search : ScheduledSearch) :
    Except SearchError Unit :=
  match unreachableThresholdReason (payload.thresholdOperator.getD (some search.thresholdOperator))
      (payload.thresholdValue.getD search.thresholdValue) (payload.maxResultRows.getD (some search.maxResultRows)) with
  | some reason => .error (.thresholdUnreachable reason)
  | none => .ok ()

def ScheduledSearchUpdate.newAql (payload : ScheduledSearchUpdate) (search : ScheduledSearch) : Option String :=
  payload.aqlQuery.join.filter (fun aql => aql ≠ search.aqlQuery)

def SchedulerState.update (st : SchedulerState) (i : Nat) (payload : ScheduledSearchUpdate) (clock : Int) :
    Except SearchError SchedulerState :=
  match st.searches[i]? with
  | none => .error .notFound
  | some search => do
      payload.checkCron env search clock
      st.checkCap env (payload.enabled = some (some true) && !search.enabled)
      payload.checkThreshold search
      let edited ← payload.assign search
      match payload.newAql search with
      | none => pure { st with searches := st.searches.set i edited }
      | some aql => pure { st with
          searches := st.searches.set i { edited with aqlQuery := aql, queryVersion := search.queryVersion + 1 }
          versions := st.versions ++ [⟨i, search.queryVersion + 1, aql⟩] }

end Editor

/-! ## The scheduler -/

section Scheduler

variable (env : SchedulerEnv)

def nextFireTime (cron timezone : String) (after : Option Int) (now : Int) : Except InvalidCronExpression Int :=
  match env.fromCrontab cron timezone with
  | none => .error (.unparsed cron timezone)
  | some trigger =>
    match trigger.getNextFireTime after now with
    | none => .error (.noFutureFire cron timezone)
    | some fire => .ok fire

/-- `strftime("%Y%m%dT%H%M%S")` -/
def stamp (instant : Int) : List Char :=
  match DateTime.ofWall (instant + DateTime.epochWall) with
  | none => []
  | some d => fixed 4 d.year ++ fixed 2 d.month ++ fixed 2 d.day ++
      'T' :: (fixed 2 d.hour ++ fixed 2 d.minute ++ fixed 2 d.second)

def scheduledRunKey (scheduledFor : Int) : List Char := "scheduled:".toList ++ stamp scheduledFor

def hasRunInFlight (executions : List SearchExecution) (i : Nat) (search : ScheduledSearch) (now : Int) : Bool :=
  let staleBefore := now - search.timeoutSeconds * 2 * secondSpan
  executions.any (fun execution =>
    execution.search = i && (execution.status = .PENDING || execution.status = .RUNNING) &&
      match execution.startedAt.or execution.createdAt with
      | none => true
      | some started => decide (staleBefore < started))

/-- `order_by(next_run_at.nulls_first())` -/
def dueKey (search : ScheduledSearch) : Bool ×ₗ Int :=
  match search.nextRunAt with
  | none => toLex (false, 0)
  | some next => toLex (true, next)

def SchedulerState.candidates (st : SchedulerState) : List Nat :=
  ((sortOn (fun item : ScheduledSearch × Nat => dueKey item.1) (st.searches.zipIdx.filter (fun item => item.1.enabled))).map
    Prod.snd)

def SchedulerState.nameOf (st : SchedulerState) (i : Nat) : String := (st.searches[i]?.map ScheduledSearch.name).getD ""

inductive ClaimOutcome where
  | gone
  | skippedRunning
  | disabled
  | seeded (fire : Int)
  | notDue
  | invalidCron (error : InvalidCronExpression)
  | claimed (scheduledFor : Int) (runKey : List Char)

def addPending (executions : List SearchExecution) (i : Nat) (search : ScheduledSearch) (runKey : List Char)
    (clock : Int) : List SearchExecution :=
  if executions.any (fun execution => execution.search = i && execution.runKey = runKey) then executions
  else executions ++ [{
    search := i, runKey, trigger := "SCHEDULED", queryVersion := search.queryVersion, status := .PENDING
    createdAt := some clock }]

def SchedulerState.claimLocked (st : SchedulerState) (i : Nat) (locked : Bool) (now clock : Int) :
    ClaimOutcome × SchedulerState :=
  match st.searches[i]? with
  | none => (.gone, st)
  | some search =>
    if locked then (.skippedRunning, st)
    else if ¬ search.enabled then (.disabled, st)
    else match search.nextRunAt with
      | none =>
        match nextFireTime env search.scheduleCron search.scheduleTimezone none now with
        | .error e => (.invalidCron e, st)
        | .ok fire => (.seeded fire, { st with searches := st.searches.set i { search with nextRunAt := some fire } })
      | some scheduledFor =>
        if now < scheduledFor then (.notDue, st)
        else if hasRunInFlight st.executions i search now then (.skippedRunning, st)
        else match nextFireTime env search.scheduleCron search.scheduleTimezone (some now) now with
          | .error e => (.invalidCron e, st)
          | .ok fire =>
            let runKey := scheduledRunKey scheduledFor
            (.claimed scheduledFor runKey, { st with
              searches := st.searches.set i { search with nextRunAt := some fire }
              executions := addPending st.executions i search runKey clock })

def SchedulerReport.note (report : SchedulerReport) (name : String) : ClaimOutcome → SchedulerReport
  | .skippedRunning => { report with skippedRunning := report.skippedRunning ++ [name] }
  | .seeded _ => { report with seeded := report.seeded ++ [name] }
  | .invalidCron _ => { report with invalidCron := report.invalidCron ++ [name] }
  | .gone | .disabled | .notDue | .claimed _ _ => report

def SchedulerState.deferred (st : SchedulerState) (waiting : List Nat) (now : Int) (room : Nat) : List String :=
  ((waiting.filter (fun i =>
    match st.searches[i]? with
    | none => false
    | some search =>
      match search.nextRunAt with
      | none => false
      | some next => decide (next ≤ now) &&
          (nextFireTime env search.scheduleCron search.scheduleTimezone none now).isOk &&
          !hasRunInFlight st.executions i search now)).take room).map st.nameOf

/-- `_record`; `written` unless the update of the search or the alert evaluation raised. -/
def SchedulerState.record (st : SchedulerState) (claim : Claim) (status : ExecutionStatus) (written : Bool) :
    SchedulerState :=
  match st.searches[claim.search]? with
  | none => st
  | some search =>
    if written then
      { st with searches := st.searches.set claim.search { search with
          lastRunAt := some claim.scheduledFor
          consecutiveFailures := if status = .COMPLETED then 0 else search.consecutiveFailures + 1 } }
    else st

inductive SchedulerEvent where
  | create (payload : ScheduledSearchCreate) (clock : Int)
  | update (search : Nat) (payload : ScheduledSearchUpdate) (clock : Int)
  /-- a cycle lists its candidates -/
  | start (now : Int)
  /-- the cycle takes its next candidate -/
  | claim (locked : Bool) (clock : Int)
  /-- the executor returned an execution of this status -/
  | record (status : ExecutionStatus) (capacity written : Bool)
  /-- the loop is over, or an exception ended the cycle -/
  | finish
  /-- what the executor, manual runs and the retention do to the executions -/
  | executions (rows : List SearchExecution)

inductive SchedulerOutcome where
  | done
  | considered (searches : List Nat)
  | claimed (search : Nat) (outcome : ClaimOutcome)
  | report (report : SchedulerReport)

/-- The time of the last listing, after one of `searches` at `now`. -/
def listedAt (consideredAt : Nat → Option Int) (searches : List Nat) (now : Int) (i : Nat) : Option Int :=
  if i ∈ searches then some now else consideredAt i

/-- One transaction of the editor, or one of the parts of `run_due`. -/
def SchedulerState.step (st : SchedulerState) : SchedulerEvent → Except SearchError (SchedulerState × SchedulerOutcome)
  | .create payload clock => (st.create env payload clock).map (fun st' => (st', .done))
  | .update i payload clock => (st.update env i payload clock).map (fun st' => (st', .done))
  | .start now =>
    if st.cycle.isSome ∨ st.lastCycleAt.any (fun last => now < last) then .error .outOfTurn
    else
      let candidates := st.candidates
      .ok ({ st with
        cycle := some { now, waiting := candidates, report := { considered := candidates.length } }
        lastCycleAt := some now
        consideredAt := listedAt st.consideredAt candidates now }, .considered candidates)
  | .claim locked clock =>
    match st.cycle with
    | some { now, waiting := i :: waiting, report, claim := none } =>
      if env.searchMaxDispatchPerCycle ≤ report.dispatched.length then .error .outOfTurn
      else
        let (outcome, st') := st.claimLocked env i locked now clock
        let claim := match outcome with
          | .claimed scheduledFor runKey => some ⟨i, scheduledFor, runKey⟩
          | _ => none
        .ok ({ st' with cycle := some { now, waiting, report := report.note (st.nameOf i) outcome, claim } },
          .claimed i outcome)
    | _ => .error .outOfTurn
  | .record status capacity written =>
    match st.cycle with
    | some { now, waiting, report, claim := some claim } =>
      let st' := st.record claim status written
      let report := { report with dispatched := report.dispatched ++ [st.nameOf claim.search] }
      if capacity then
        let room := env.searchMaxDispatchPerCycle - report.dispatched.length
        .ok ({ st' with cycle := none },
          .report { report with deferredCapacity := st'.deferred env waiting now room })
      else .ok ({ st' with cycle := some { now, waiting, report } }, .done)
    | _ => .error .outOfTurn
  | .finish =>
    match st.cycle with
    | some cycle => .ok ({ st with cycle := none }, .report cycle.report)
    | none => .error .outOfTurn
  | .executions rows => .ok ({ st with executions := rows }, .done)

end Scheduler

end QRadarDashboard.Services
