import QRadarDashboard.Alerts.Service
import QRadarDashboard.Services.SearchScheduler

/-!
# Alerts of scheduled searches (`app/alerts/search_alerts.py`)
-/

namespace QRadarDashboard.Services
open Lib Alerts

def ThresholdOperator.value : ThresholdOperator → String
  | .GT => "GT"
  | .GE => "GE"
  | .LT => "LT"
  | .LE => "LE"
  | .EQ => "EQ"

def ThresholdOperator.holds : ThresholdOperator → ℤ → ℚ → Bool
  | .GT, n, t => t < n
  | .GE, n, t => t ≤ n
  | .LT, n, t => n < t
  | .LE, n, t => n ≤ t
  | .EQ, n, t => n = t

def ExecutionStatus.value : ExecutionStatus → String
  | .PENDING => "PENDING"
  | .QUEUED => "QUEUED"
  | .RUNNING => "RUNNING"
  | .COMPLETED => "COMPLETED"
  | .FAILED => "FAILED"
  | .TIMEOUT => "TIMEOUT"
  | .CANCELLED => "CANCELLED"

structure AlertedSearch extends ScheduledSearch where
  id : String
  owner : Option String := none
  category : Option String := none
  severity : Severity

structure FinishedExecution where
  id : String
  queryVersion : Nat
  status : ExecutionStatus
  resultCount : Option Int := none
  truncated : Bool := false
  thresholdBreached : Bool := false
  errorType : Option String := none
  errorMessage : Option String := none

/-! ## The threshold -/

/-- `_apply_threshold`. Of a truncated result only a bound is known, so it has a verdict for `GT` and `GE` alone. -/
def applyThreshold (search : ScheduledSearch) (value : Int) (truncated : Bool) : Bool :=
  match search.thresholdValue with
  | none => false
  | some t =>
    if truncated then
      -- the proven bound of the true count
      let bound := value + 1
      match search.thresholdOperator with
      | .GT => t < bound
      | .GE => t ≤ bound
      | .LT | .LE | .EQ => false
    else search.thresholdOperator.holds value t

/-- `execute` on success: the columns of the result. -/
def FinishedExecution.complete (execution : FinishedExecution) (search : ScheduledSearch) (totalCount : Int)
    (truncated : Bool) : FinishedExecution :=
  { execution with
    resultCount := some totalCount
    truncated
    status := .COMPLETED
    thresholdBreached := applyThreshold search totalCount truncated }

/-! ## The evaluator -/

def searchThresholdFingerprint (digest : Digest) (searchId : String) : String :=
  computeFingerprint digest "scheduled_search" searchId "search_threshold"

def searchFailureFingerprint (digest : Digest) (searchId : String) : String :=
  computeFingerprint digest "scheduled_search" searchId "search_failure"

section Evaluator

variable {φ : Type} [PyFloat φ]

def optionalStr (value : Option String) : Json φ := (value.map Json.str).getD .null

/-- The `context` of both conditions. -/
def searchContext (search : AlertedSearch) : JsonObject φ :=
  [("search", .str search.name), ("owner", optionalStr search.owner), ("category", optionalStr search.category)]

def thresholdInput (digest : Digest) (search : AlertedSearch) (execution : FinishedExecution) (t : ℚ) :
    AlertInput φ :=
  let observed : φ := PyFloat.ofInt (execution.resultCount.getD 0)
  let threshold : φ := PyFloat.ofRat t
  let atLeast := if execution.truncated then "at least " else ""
  { fingerprint := searchThresholdFingerprint digest search.id
    title := search.name ++ " crossed its threshold"
    severity := search.severity
    sourceType := "scheduled_search"
    sourceId := some search.id
    description := some (search.name ++ " returned " ++ atLeast ++ PyFloat.general observed ++ " (" ++
      search.thresholdOperator.value ++ " " ++ PyFloat.general threshold ++ ")")
    evidence := some [("observed_value", .float observed), ("expected_value", .float threshold),
      ("operator", .str search.thresholdOperator.value), ("execution_id", .str execution.id),
      ("query_version", .int execution.queryVersion), ("truncated", .bool execution.truncated)]
    context := some (searchContext search) }

def failureInput (digest : Digest) (search : AlertedSearch) (execution : FinishedExecution) : AlertInput φ :=
  let cause := match execution.errorType with
    | some errorType => if errorType = "" then execution.status.value else errorType
    | none => execution.status.value
  { fingerprint := searchFailureFingerprint digest search.id
    title := search.name ++ " is failing to run"
    severity := .high
    sourceType := "scheduled_search"
    sourceId := some search.id
    description := some (search.name ++ " failed " ++ toString search.consecutiveFailures ++ " consecutive runs (" ++
      cause ++ ")")
    evidence := some [("observed_value", .float (PyFloat.ofInt search.consecutiveFailures)),
      ("reason", optionalStr execution.errorMessage), ("error_type", optionalStr execution.errorType),
      ("status", .str execution.status.value), ("execution_id", .str execution.id)]
    context := some (searchContext search) }

def evaluateThreshold (svc : Service) (digest : Digest) (s : Session φ) (search : AlertedSearch)
    (execution : FinishedExecution) : Except Exc (Option AlertResult × Session φ) :=
  if execution.status ≠ .COMPLETED then .ok (none, s)
  else
    match search.thresholdValue with
    | none => .ok (none, s)
    | some t =>
      if !execution.thresholdBreached then
        -- a bound that crosses nothing is no verdict
        if execution.truncated then .ok (none, s)
        else
          resolveByFingerprint svc s
            { fingerprint := searchThresholdFingerprint digest search.id
              actor := "search-scheduler"
              reason := some "result back within threshold" }
      else
        let (result, s) := openOrUpdate svc s (thresholdInput digest search execution t)
        .ok (some result, s)

def evaluateFailure (svc : Service) (digest : Digest) (searchFailureAlertAfter : Nat) (s : Session φ)
    (search : AlertedSearch) (execution : FinishedExecution) : Except Exc (Option AlertResult × Session φ) :=
  if execution.status = .COMPLETED then
    resolveByFingerprint svc s
      { fingerprint := searchFailureFingerprint digest search.id
        actor := "search-scheduler"
        reason := some "search executed successfully" }
  else if search.consecutiveFailures < searchFailureAlertAfter then .ok (none, s)
  else
    let (result, s) := openOrUpdate svc s (failureInput digest search execution)
    .ok (some result, s)

def evaluate (svc : Service) (digest : Digest) (searchFailureAlertAfter : Nat) (s : Session φ)
    (search : AlertedSearch) (execution : FinishedExecution) : Except Exc (List AlertResult × Session φ) := do
  let (threshold, s) ← evaluateThreshold svc digest s search execution
  let (failure, s) ← evaluateFailure svc digest searchFailureAlertAfter s search execution
  return ([threshold, failure].filterMap id, s)

end Evaluator

end QRadarDashboard.Services
