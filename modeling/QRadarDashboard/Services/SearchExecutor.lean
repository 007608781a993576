import QRadarDashboard.Lib.Double
import QRadarDashboard.Services.SearchAlerts

/-!
# The lifecycle of a search (`app/services/search_executor.py`, `app/services/ariel_errors.py`)

One event below is one await of the source with what came of it; the events of different executors interleave freely,
and QRadar ends a search when it will. Every executor has a permit budget.
-/

namespace QRadarDashboard.Services
open Lib

/-! ## The failures -/

inductive ExecutionErrorType where
  | VALIDATION | AUTH | RATE_LIMITED | TIMEOUT | SEARCH_FAILED | NETWORK | PARSING | CANCELLED | CAPACITY
deriving DecidableEq

/-- The exceptions that `classify` tells apart, with their texts. -/
inductive ArielException where
  | aqlValidation (text : String)
  | permitUnavailable (text : String)
  | providerAuth (text : String)
  | arielTimeout (text : String)
  | arielSearchFailed (text : String)
  | resultParsing (text : String)
  | providerUnavailable (text : String)
  | httpStatus (code : Nat) (text : String)
  | httpTimeout (text : String)
  | other (text : String)

def ArielException.text : ArielException → String
  | .aqlValidation text | .permitUnavailable text | .providerAuth text | .arielTimeout text | .arielSearchFailed text
  | .resultParsing text | .providerUnavailable text | .httpStatus _ text | .httpTimeout text | .other text => text

def classify : ArielException → ExecutionErrorType
  | .aqlValidation _ => .VALIDATION
  | .permitUnavailable _ => .CAPACITY
  | .providerAuth _ => .AUTH
  | .arielTimeout _ => .TIMEOUT
  | .arielSearchFailed _ => .SEARCH_FAILED
  | .resultParsing _ => .PARSING
  | .providerUnavailable _ => .NETWORK
  | .httpStatus code _ =>
    if code = 401 ∨ code = 403 then .AUTH
    else if code = 429 then .RATE_LIMITED
    else if 500 ≤ code then .NETWORK
    else .SEARCH_FAILED
  | .httpTimeout _ => .TIMEOUT
  | .other _ => .NETWORK

def isRetryable (e : ExecutionErrorType) : Bool := ¬ (e ∈ [.VALIDATION, .AUTH, .PARSING, .CANCELLED, .CAPACITY])

/-! ## What the executor reads and writes -/

structure ExecutorSettings where
  arielMaxRetries : Nat
  arielMaxTimeoutSeconds : Nat

/-- `valid` is what `validate_aql` makes of the stored query. -/
structure ExecutorSearch where
  valid : Except String Unit
  timeoutSeconds : Nat

structure ExecutionRow where
  status : ExecutionStatus := .PENDING
  retryCount : Nat := 0
  errorType : Option ExecutionErrorType := none
  errorMessage : Option String := none
  /-- the Ariel search, by its place -/
  arielSearchId : Option Nat := none
  arielStatus : Option String := none

structure ArielSearchStatus where
  status : String
  errorMessages : List String := []

def isTerminal (status : String) : Bool := ["COMPLETED", "CANCELED", "ERROR"].contains status

/-- What an executor awaits next. From `creating` to `fetching` it holds its permit. -/
inductive ExecutorPhase where
  /-- the head of `while True`: flush and checkpoint -/
  | starting
  | requesting
  | creating
  /-- the search's id is flushed -/
  | saving (k : Nat)
  | polling (k : Nat)
  /-- `_safe_cancel` -/
  | cancelling (k : Nat)
  | fetching (k : Nat)
  /-- the retry is flushed, and the backoff is slept -/
  | retrying
  | ended
deriving DecidableEq

structure Executor where
  search : ExecutorSearch
  row : ExecutionRow
  phase : ExecutorPhase

structure ArielSearch where
  running : Bool := true
  seenTerminal : Bool := false
  cancelSent : Bool := false
deriving DecidableEq

structure ExecutorState (ε : Type) where
  executor : ε → Option Executor
  searches : List ArielSearch := []

inductive ExecutorEvent where
  /-- `execute` begins on an execution of its own -/
  | execute (search : ExecutorSearch) (row : ExecutionRow) (capable : Bool)
  /-- a flush with its checkpoint, or its sleep -/
  | saved (raised : Option ArielException)
  | permit (refused : Option ArielException)
  | create (answer : Except ArielException String)
  /-- with the seconds since the polling began -/
  | status (answer : Except ArielException ArielSearchStatus) (elapsed : Int)
  | cancel (raised : Bool)
  | results (raised : Option ArielException)

inductive ExecutorMove (ε : Type) where
  | of (x : ε) (event : ExecutorEvent)
  /-- QRadar ends a search -/
  | ends (k : Nat)

section Lifecycle

variable (cfg : ExecutorSettings)

def ExecutionRow.fail (row : ExecutionRow) (errorType : ExecutionErrorType) (message : String) : ExecutionRow :=
  { row with
    errorType := some errorType
    errorMessage := some (String.ofList (message.toList.take 2000))
    status := match errorType with
      | .TIMEOUT => .TIMEOUT
      | .CANCELLED => .CANCELLED
      | _ => .FAILED }

/-- `execute`, from the head of the loop to its first await. -/
def Executor.begin (x : Executor) : Executor :=
  { x with
    row := { x.row with status := .RUNNING, errorType := none, errorMessage := none }
    phase := .starting }

/-- The `except` of `execute`: the attempt failed, and the permit with its block is gone. -/
def Executor.failed (x : Executor) (e : ArielException) : Executor :=
  let errorType := classify e
  let attempt := x.row.retryCount + 1
  if !isRetryable errorType || decide (cfg.arielMaxRetries + 1 ≤ attempt) then
    { x with row := x.row.fail errorType e.text, phase := .ended }
  else
    { x with
      row := { x.row with retryCount := attempt, errorType := some errorType, errorMessage := some e.text }
      phase := .retrying }

def Executor.goes (x : Executor) (phase : ExecutorPhase) : Executor := { x with phase }

/-- A result that cannot be read is a `ResultParsingError`. -/
def fetchFailure : ArielException → ArielException
  | .arielTimeout text => .arielTimeout text
  | .arielSearchFailed text => .arielSearchFailed text
  | e => .resultParsing s!"failed to fetch/parse results: {e.text}"

/-- One step of an executor, with what it does to the searches. An event out of its phase is refused. -/
def Executor.step (x : Executor) (searches : List ArielSearch) : ExecutorEvent → Except Unit (Executor × List ArielSearch)
  | .execute _ _ _ => .error ()
  | .saved raised =>
    match x.phase, raised with
    | .starting, none =>
      match x.search.valid with
      | .ok _ => .ok (x.goes .requesting, searches)
      | .error text => .ok (x.failed cfg (.aqlValidation text), searches)
    | .saving k, none => .ok (x.goes (.polling k), searches)
    | .saving _, some e => .ok (x.failed cfg e, searches)
    | .retrying, none => .ok (x.begin, searches)
    -- the exception leaves `execute`
    | .starting, some _ | .retrying, some _ => .ok (x.goes .ended, searches)
    | _, _ => .error ()
  | .permit refused =>
    match x.phase, refused with
    | .requesting, none => .ok (x.goes .creating, searches)
    | .requesting, some e => .ok (x.failed cfg e, searches)
    | _, _ => .error ()
  | .create answer =>
    match x.phase, answer with
    | .creating, .ok status =>
      let k := searches.length
      .ok ({ x with row := { x.row with arielSearchId := some k, arielStatus := some status }, phase := .saving k },
        searches ++ [{}])
    | .creating, .error e => .ok (x.failed cfg e, searches)
    | _, _ => .error ()
  | .status answer elapsed =>
    match x.phase, answer with
    | .polling k, .ok status =>
      let x := { x with row := { x.row with arielStatus := some status.status } }
      if isTerminal status.status then
        let searches := searches.modify k (fun search => { search with running := false, seenTerminal := true })
        if status.status = "ERROR" then
          let text := "; ".intercalate status.errorMessages
          .ok (x.failed cfg (.arielSearchFailed (if text = "" then "Ariel search failed" else text)), searches)
        else .ok (x.goes (.fetching k), searches)
      else if (min x.search.timeoutSeconds cfg.arielMaxTimeoutSeconds : Nat) ≤ elapsed then .ok (x.goes (.cancelling k), searches)
      else .ok (x.goes (.polling k), searches)
    | .polling _, .error e => .ok (x.failed cfg e, searches)
    | _, _ => .error ()
  | .cancel _ =>
    match x.phase with
    | .cancelling k =>
      let timeout := min x.search.timeoutSeconds cfg.arielMaxTimeoutSeconds
      .ok (x.failed cfg (.arielTimeout s!"search exceeded timeout of {timeout}s"),
        searches.modify k (fun search => { search with cancelSent := true }))
    | _ => .error ()
  | .results raised =>
    match x.phase, raised with
    | .fetching _, none =>
      .ok ({ x with row := { x.row with status := .COMPLETED, arielStatus := some "COMPLETED" }, phase := .ended }, searches)
    | .fetching _, some e => .ok (x.failed cfg (fetchFailure e), searches)
    | _, _ => .error ()

def ExecutorPhase.holds : ExecutorPhase → Bool
  | .creating | .saving _ | .polling _ | .cancelling _ | .fetching _ => true
  | .starting | .requesting | .retrying | .ended => false

def ExecutorPhase.search : ExecutorPhase → Option Nat
  | .saving k | .polling k | .cancelling k | .fetching k => some k
  | .starting | .requesting | .creating | .retrying | .ended => none

/-- `execute`, before its loop: a completed run is not run again, and a provider without AQL fails it. -/
def Executor.enter (search : ExecutorSearch) (row : ExecutionRow) (capable : Bool) : Executor :=
  if row.status = .COMPLETED then { search, row, phase := .ended }
  else if !capable then
    { search, row := row.fail .VALIDATION "configured provider cannot execute AQL", phase := .ended }
  else ({ search, row, phase := .starting } : Executor).begin

variable {ε : Type} [DecidableEq ε]

def ExecutorState.step (st : ExecutorState ε) : ExecutorMove ε → Except Unit (ExecutorState ε)
  | .of x event =>
    match st.executor x, event with
    | none, .execute search row capable =>
      .ok { st with executor := Function.update st.executor x (some (Executor.enter search row capable)) }
    | some executor, event => do
        let (executor, searches) ← executor.step cfg st.searches event
        return { executor := Function.update st.executor x (some executor), searches }
    | none, _ => .error ()
  | .ends k => .ok { st with searches := st.searches.modify k (fun search => { search with running := false }) }

end Lifecycle

/-! ## What a result stores -/

structure ArielResults (φ : Type) where
  rows : List (JsonObject φ) := []
  totalCount : Int := 0
  truncated : Bool := false

structure SearchResultMetric (φ : Type) where
  executionId : String
  searchId : String
  bucketStart : Int
  metricKey : String
  value : φ
  dimensions : JsonObject φ

def SearchResultMetric.primaryKey {φ : Type} (m : SearchResultMetric φ) : String × Int × String :=
  (m.executionId, m.bucketStart, m.metricKey)

/-- What leaves `execute`. -/
inductive ExecuteException where
  | integrityError
  | overflowError

section Metrics

variable {φ : Type} [PyFloat φ]

/-- `float(n)` -/
def floatOf (n : Int) : Except ExecuteException φ :=
  if Double.Overflows n then .error .overflowError else .ok (PyFloat.ofInt n)

def isCountColumn (col : String) : Bool :=
  ["count", "event_count", "total", "cnt"].contains (String.ofList (col.toList.map Char.toLower))

/-- The loop of `_row_to_metric`, at one column. -/
def readColumn (metric : Option String × φ) (item : String × Json φ) : Except ExecuteException (Option String × φ) :=
  match item.2, isCountColumn item.1 with
  | .bool b, true => (floatOf (if b then 1 else 0)).map (fun value => (metric.1, value))
  | .int n, true => (floatOf n).map (fun value => (metric.1, value))
  | .float x, true => .ok (metric.1, x)
  | .str label, _ => .ok (metric.1.or (some label), metric.2)
  | _, _ => .ok metric

def rowToMetric (str : Json φ → String) : JsonObject φ → Except ExecuteException (Option String × φ)
  | [] => .ok (none, PyFloat.ofRat 0)
  | first :: rest => do
      let (label, value) ← (first :: rest).foldlM readColumn (none, PyFloat.ofRat 1)
      return (some (label.getD (str first.2)), value)

def floorMinute (t : Int) : Int := t - t % seconds 60

def storeRow (str : Json φ → String) (executionId searchId : String) (bucketStart : Int) (row : JsonObject φ) :
    Except ExecuteException (Option (SearchResultMetric φ)) := do
  let (key, value) ← rowToMetric str row
  return key.map (fun key =>
    { executionId, searchId, bucketStart, metricKey := String.ofList (key.toList.take 255), value, dimensions := row })

def storeTotal (executionId searchId : String) (bucketStart : Int) (results : ArielResults φ) :
    Except ExecuteException (List (SearchResultMetric φ)) :=
  if results.truncated then .ok []
  else do
    let value ← floatOf results.totalCount
    return [{ executionId, searchId, bucketStart, metricKey := "total", value, dimensions := [] }]

def storeMetrics (str : Json φ → String) (executionId searchId : String) (completedAt : Int)
    (results : ArielResults φ) : Except ExecuteException (List (SearchResultMetric φ)) := do
  let bucketStart := floorMinute completedAt
  let total ← storeTotal executionId searchId bucketStart results
  let rows ← results.rows.mapM (storeRow str executionId searchId bucketStart)
  return total ++ rows.reduceOption

/-- `session.flush()`: two rows with one primary key do not go in. -/
def flush (metrics : List (SearchResultMetric φ)) : Except ExecuteException Unit :=
  if (metrics.map SearchResultMetric.primaryKey).Nodup then .ok () else .error .integrityError

end Metrics

/-! ## A whole run -/

structure RunSearch extends ScheduledSearch where
  id : String
  valid : Except String Unit

structure RunRow extends ExecutionRow where
  id : String
  completedAt : Option Int := none
  resultCount : Option Int := none
  truncated : Bool := false
  thresholdBreached : Bool := false

structure ArielAttempt (φ : Type) where
  permit : Option ArielException := none
  /-- the search's place and status -/
  create : Except ArielException (Nat × String)
  status : Nat → Except ArielException ArielSearchStatus
  /-- the microseconds since the polling began, at each status -/
  elapsed : Nat → Int
  /-- the sleep between two -/
  advances : ∀ i, elapsed i < elapsed (i + 1)
  results : Except ArielException (ArielResults φ)
  /-- the clock when the attempt is over -/
  completedAt : Int

section Run

variable {φ : Type}

def pollUntilTerminal (timeout : Nat) (a : ArielAttempt φ) (row : RunRow) (i : Nat) :
    RunRow × Except ArielException ArielSearchStatus :=
  match a.status i with
  | .error e => (row, .error e)
  | .ok status =>
    let row := { row with arielStatus := some status.status }
    if isTerminal status.status then (row, .ok status)
    else if hlate : seconds timeout ≤ a.elapsed i then
      (row, .error (.arielTimeout s!"search exceeded timeout of {timeout}s"))
    else pollUntilTerminal timeout a row (i + 1)
termination_by (seconds timeout - a.elapsed i).toNat
decreasing_by
  have hnext := a.advances i
  omega

/-- `_run_once`, after the polling. -/
def fetchResults (a : ArielAttempt φ) (status : ArielSearchStatus) : Except ArielException (ArielResults φ) :=
  if status.status = "ERROR" then
    let text := "; ".intercalate status.errorMessages
    .error (.arielSearchFailed (if text = "" then "Ariel search failed" else text))
  else a.results.mapError fetchFailure

def runOnce (cfg : ExecutorSettings) (search : RunSearch) (a : ArielAttempt φ) (row : RunRow) :
    RunRow × Except ArielException (ArielResults φ) :=
  match search.valid, a.permit, a.create with
  | .error text, _, _ => (row, .error (.aqlValidation text))
  | .ok _, some e, _ => (row, .error e)
  | .ok _, none, .error e => (row, .error e)
  | .ok _, none, .ok (k, status) =>
    let polled := pollUntilTerminal (min search.timeoutSeconds cfg.arielMaxTimeoutSeconds) a
      { row with arielSearchId := some k, arielStatus := some status } 0
    (polled.1, polled.2 >>= fetchResults a)

def RunRow.fail (row : RunRow) (errorType : ExecutionErrorType) (message : String) (now : Int) : RunRow :=
  { row with toExecutionRow := row.toExecutionRow.fail errorType message, completedAt := some now }

variable [PyFloat φ]

/-- The loop of `execute`, from the `k`-th attempt on. -/
def executeFrom (cfg : ExecutorSettings) (str : Json φ → String) (search : RunSearch)
    (attempts : Nat → ArielAttempt φ) (k : Nat) (row : RunRow) :
    Except ExecuteException (RunRow × List (SearchResultMetric φ)) :=
  let a := attempts k
  let attempt := row.retryCount + 1
  match runOnce cfg search a { row with status := .RUNNING, errorType := none, errorMessage := none } with
  | (row, .error e) =>
    let errorType := classify e
    if hlast : !isRetryable errorType || decide (cfg.arielMaxRetries + 1 ≤ attempt) then
      .ok (row.fail errorType e.text a.completedAt, [])
    else
      executeFrom cfg str search attempts (k + 1)
        { row with retryCount := attempt, errorType := some errorType, errorMessage := some e.text }
  | (row, .ok results) => do
      let row := { row with
        completedAt := some a.completedAt
        resultCount := some results.totalCount
        truncated := results.truncated
        arielStatus := some "COMPLETED"
        status := .COMPLETED }
      let metrics ← storeMetrics str row.id search.id a.completedAt results
      let row := { row with
        thresholdBreached := applyThreshold search.toScheduledSearch results.totalCount results.truncated }
      flush metrics
      return (row, metrics)
termination_by cfg.arielMaxRetries + 1 - row.retryCount
decreasing_by
  simp only [Bool.or_eq_true, decide_eq_true_eq, not_or, not_le] at hlast
  omega

def execute (cfg : ExecutorSettings) (str : Json φ → String) (capable : Bool) (search : RunSearch)
    (attempts : Nat → ArielAttempt φ) (row : RunRow) (now : Int) :
    Except ExecuteException (RunRow × List (SearchResultMetric φ)) :=
  if row.status = .COMPLETED then .ok (row, [])
  else if !capable then .ok (row.fail .VALIDATION "configured provider cannot execute AQL" now, [])
  else executeFrom cfg str search attempts 0 row

/-! ## A cycle -/

structure ClaimedRun (φ : Type) where
  search : RunSearch
  row : RunRow
  attempts : Nat → ArielAttempt φ
  now : Int

/-- The loop of `run_due` over the searches it claims: a run that raises leaves the cycle, and one that capacity refused
ends it. -/
def runDue (cfg : ExecutorSettings) (str : Json φ → String) (capable : Bool) (maxDispatch : Nat) :
    List (RunRow × List (SearchResultMetric φ)) → List (ClaimedRun φ) →
    Except ExecuteException (List (RunRow × List (SearchResultMetric φ)))
  | dispatched, [] => .ok dispatched
  | dispatched, run :: runs =>
    if maxDispatch ≤ dispatched.length then .ok dispatched
    else do
      let done ← execute cfg str capable run.search run.attempts run.row run.now
      if done.1.errorType = some .CAPACITY then return dispatched ++ [done]
      else runDue cfg str capable maxDispatch (dispatched ++ [done]) runs

end Run

end QRadarDashboard.Services
