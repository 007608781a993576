import QRadarDashboard.Alerts.Service
import QRadarDashboard.CustomRules.Fold
import QRadarDashboard.Lib.DateTime

/-!
# Storing a rule's tick (`app/custom_rules/engine.py`)

`foldItem` builds the fold's input from the stored rule and its breach row; `persist` and `saveBreach` write the
output back.
-/

namespace QRadarDashboard.CustomRules
open Lib Waf Alerts

variable {φ : Type}

/-- A row of `custom_rule`. The last fields are the table's checks. -/
structure CustomRule (φ : Type) where
  id : String
  name : String
  subjectKind : String
  metric : CustomRuleMetric
  operator : String
  thresholdValue : φ
  sustainBuckets : Nat
  recoveryBuckets : Nat
  severity : Severity
  enabled : Bool
  consecutiveBreaching : Nat := 0
  consecutiveUnder : Nat := 0
  lastEvaluatedBucketStart : Option Int := none
  activeBreachId : Option String := none
  lastEvaluatedAt : Option Int := none
  lastStatus : Option String := none
  lastStatusReason : Option String := none
  sustainBuckets_ok : 1 ≤ sustainBuckets
  recoveryBuckets_ok : 1 ≤ recoveryBuckets

structure CustomRuleBreach (φ : Type) where
  id : String
  ruleId : String
  state : AnomalyState
  firstBucketStart : Int
  lastBucketStart : Int
  openedAt : Int
  recoveringAt : Option Int
  resolvedAt : Option Int
  worstValue : Option φ
  worstMeasurement : Option WafMeasurement
  lastValue : Option φ
  lastMeasurement : Option WafMeasurement
  unmeasuredBuckets : Int
  subjectLabel : String
  details : JsonObject φ

/-- One bucket of the kind's grid: the subject's facts there, and its source's live maintenance window. A
bucket with no row has facts that are not `present`. -/
structure GridPoint (φ : Type) where
  facts : BucketFacts φ
  liveMaintenance : Bool := false

def readings [PyFloat φ] (metric : CustomRuleMetric) (grid : List (GridPoint φ)) :
    List (InterpretedReading φ) :=
  grid.map (fun point =>
    let reading := interpret metric point.facts
    if point.liveMaintenance then
      { reading with inMaintenance := true, reason := some "the source is in maintenance" }
    else reading)

/-- What the tick knows of a rule besides its rows: its subject, its family and the grid. -/
structure RuleTick (φ : Type) where
  subjectLabel : String
  retired : Bool := false
  retiredReason : Option String := none
  familyCollected : Bool := true
  familyReason : Option String := none
  staleReason : Option String := none
  grid : List (GridPoint φ)
  now : Int

/-- `breach_row` of `_load_rules`: a dangling pointer is not a breach. -/
def breachRow (rule : CustomRule φ) (rows : List (CustomRuleBreach φ)) : Option (CustomRuleBreach φ) :=
  match rule.activeBreachId with
  | none => none
  | some id => rows.find? (fun row => row.id = id)

def breachState (row : CustomRuleBreach φ) : BreachState φ :=
  { id := row.id
    state := row.state
    firstBucketStart := row.firstBucketStart
    lastBucketStart := row.lastBucketStart
    openedAt := row.openedAt
    recoveringAt := row.recoveringAt
    resolvedAt := row.resolvedAt
    worstValue := row.worstValue
    worstMeasurement := row.worstMeasurement.map WafMeasurement.value
    lastValue := row.lastValue
    lastMeasurement := row.lastMeasurement.map WafMeasurement.value
    unmeasuredBuckets := row.unmeasuredBuckets
    subjectLabel := row.subjectLabel
    details := row.details
    isNew := false }

def foldInput [PyFloat φ] (rule : CustomRule φ) (existing : Option (CustomRuleBreach φ))
    (tick : RuleTick φ) : FoldInput φ :=
  { ruleId := rule.id
    ruleName := rule.name
    severity := rule.severity
    metric := rule.metric
    operator := rule.operator
    thresholdValue := rule.thresholdValue
    sustainBuckets := rule.sustainBuckets
    recoveryBuckets := rule.recoveryBuckets
    consecutiveBreaching := rule.consecutiveBreaching
    consecutiveUnder := rule.consecutiveUnder
    lastEvaluatedBucketStart := rule.lastEvaluatedBucketStart
    previousStatus := rule.lastStatus
    previousReason := rule.lastStatusReason
    subjectKind := rule.subjectKind
    subjectLabel := tick.subjectLabel
    platformEnabled := true
    enabled := rule.enabled
    retired := tick.retired
    retiredReason := tick.retiredReason
    familyCollected := tick.familyCollected
    familyReason := tick.familyReason
    breach := existing.map breachState
    readings := readings rule.metric tick.grid
    now := tick.now
    collectionStaleReason := tick.staleReason }

def storedMeasurement (rt : Runtime) : Option String → Except Exc (Option WafMeasurement)
  | none => .ok none
  | some "EXACT" => .ok (some .exact)
  | some "LOWER_BOUND" => .ok (some .lowerBound)
  | some value => .error (.value (rt.repr value ++ " is not a valid WafMeasurement"))

/-- The columns `_save_breach` writes. -/
def breachColumns (rt : Runtime) (rule : CustomRule φ) (record : BreachState φ) :
    Except Exc (CustomRuleBreach φ) := do
  let worstMeasurement ← storedMeasurement rt record.worstMeasurement
  let lastMeasurement ← storedMeasurement rt record.lastMeasurement
  return {
    id := record.id
    ruleId := rule.id
    state := record.state
    firstBucketStart := record.firstBucketStart
    lastBucketStart := record.lastBucketStart
    openedAt := record.openedAt
    recoveringAt := record.recoveringAt
    resolvedAt := record.resolvedAt
    worstValue := record.worstValue
    worstMeasurement
    lastValue := record.lastValue
    lastMeasurement
    unmeasuredBuckets := record.unmeasuredBuckets
    subjectLabel := record.subjectLabel
    details := record.details }

/-- `uq_custom_rule_breach_active`: the rule of a row that is not RESOLVED has another such row. -/
def activeTaken (written : CustomRuleBreach φ) (rows : List (CustomRuleBreach φ)) : Bool :=
  written.state ≠ .resolved &&
    rows.any (fun row => row.id ≠ written.id && row.ruleId = written.ruleId && row.state ≠ .resolved)

/-- `_save_breach` and its flush: the live row is updated when the record is its own, else a row is added; a second live
row of the rule is refused. -/
def saveBreach (rt : Runtime) (rule : CustomRule φ) (record : BreachState φ)
    (existing : Option (CustomRuleBreach φ)) (rows : List (CustomRuleBreach φ)) :
    Except Exc (List (CustomRuleBreach φ)) := do
  let columns ← breachColumns rt rule record
  match existing.filter (fun row => row.id = record.id) with
  | some row =>
    let written := { columns with ruleId := row.ruleId }
    if activeTaken written rows then throw (.integrity "uq_custom_rule_breach_active")
    else return rows.map (fun r => if r.id = row.id then written else r)
  | none =>
    if activeTaken columns rows then throw (.integrity "uq_custom_rule_breach_active")
    else return rows ++ [columns]

/-- The rule columns `_persist` writes. -/
def storeRule (rule : CustomRule φ) (output : FoldOutput φ) (now : Int) : CustomRule φ :=
  { rule with
    consecutiveBreaching := output.consecutiveBreaching
    consecutiveUnder := output.consecutiveUnder
    lastEvaluatedBucketStart := output.lastEvaluatedBucketStart
    lastEvaluatedAt := if output.judged > 0 then some now else rule.lastEvaluatedAt
    lastStatus := if output.preserveStatus then rule.lastStatus else output.status
    lastStatusReason := if output.preserveStatus then rule.lastStatusReason else output.statusReason
    activeBreachId := output.breach.map (fun b => b.id) }

/-- The one record `_persist` saves: the resolved breach if there is one, else the live one. -/
def FoldOutput.record (output : FoldOutput φ) : Option (BreachState φ) :=
  match output.resolved with
  | some resolved => some resolved
  | none => output.breach

def persist (rt : Runtime) (rule : CustomRule φ) (existing : Option (CustomRuleBreach φ))
    (output : FoldOutput φ) (now : Int) (rows : List (CustomRuleBreach φ)) :
    Except Exc (CustomRule φ × List (CustomRuleBreach φ)) := do
  let stored := storeRule rule output now
  match output.record with
  | none => return (stored, rows)
  | some record => return (stored, ← saveBreach rt stored record existing rows)

/-- One rule's part of `run`: load, fold, persist. -/
def tickRule [PyFloat φ] (rt : Runtime) (rule : CustomRule φ) (rows : List (CustomRuleBreach φ))
    (tick : RuleTick φ) : Except Exc (FoldOutput φ × CustomRule φ × List (CustomRuleBreach φ)) := do
  let existing := breachRow rule rows
  let output := foldRule rt (foldInput rule existing tick)
  let (rule, rows) ← persist rt rule existing output tick.now rows
  return (output, rule, rows)

/-!
## The alert seam of custom rules (`app/custom_rules/alerts.py`)

`compileBatch` turns a tick's events into one `applyBulk` call. `applyInOrder` is the meaning the events have
one at a time.
-/

def sourceType : String := "custom_rule"

def evaluatorActor : String := "custom-rule-evaluator"

def reasonRecovered : String := "condition recovered"

structure AlertBatch (φ : Type) where
  opens : List (AlertInput φ)
  resolves : List AlertResolution

/-- `moment.isoformat()` of a time in UTC. -/
def isoUtc (moment : Int) : String :=
  match DateTime.ofWall (moment + DateTime.epochWall) with
  | some d => String.ofList d.isoformat
  | none => ""

def description [PyFloat φ] (event : CustomRuleAlertEvent φ) : String :=
  let unit := if event.unit = "" then "" else " " ++ event.unit
  let observed := match event.observedValue with
    | none => "unmeasured"
    | some value =>
      let bound := if event.measurement = some "LOWER_BOUND" then "at least " else ""
      bound ++ PyFloat.general value ++ unit
  event.ruleName ++ " observed " ++ observed ++ " (" ++ event.operator ++ " " ++
    PyFloat.general event.thresholdValue ++ unit ++ ")"

def alertInput [PyFloat φ] (digest : Digest) (event : CustomRuleAlertEvent φ) : AlertInput φ :=
  let metric := if event.unit = "" then event.metric else event.metric ++ " (" ++ event.unit ++ ")"
  let text (value : Option String) : Json φ := (value.map Json.str).getD .null
  { fingerprint := customRuleBreachFingerprint digest event.ruleId
    title := event.ruleName ++ " crossed its threshold"
    severity := event.severity
    sourceType
    sourceId := some event.ruleId
    description := some (description event)
    evidence := some [("observed_value", (event.observedValue.map Json.float).getD .null),
      ("measurement", text event.measurement), ("threshold", .float event.thresholdValue),
      ("operator", .str event.operator), ("first_bucket_start", .str (isoUtc event.firstBucketStart)),
      ("last_bucket_start", .str (isoUtc event.lastBucketStart)),
      ("unmeasured_buckets", .int event.unmeasuredBuckets)]
    context := some [("rule", .str event.ruleName), ("subject_kind", .str event.subjectKind),
      ("subject_label", .str event.subjectLabel), ("metric", .str metric)] }

/-- The resolution of a `resolve` event. -/
def alertResolution (digest : Digest) (event : CustomRuleAlertEvent φ) : AlertResolution :=
  { fingerprint := customRuleBreachFingerprint digest event.ruleId
    actor := evaluatorActor
    reason := some (orReason event.reason reasonRecovered) }

/-- The `resolve` events that are the first of their rule. -/
def firstResolves : List String → List (CustomRuleAlertEvent φ) → List (CustomRuleAlertEvent φ)
  | _, [] => []
  | seen, event :: events =>
    if event.action ≠ .resolve ∨ event.ruleId ∈ seen then firstResolves seen events
    else event :: firstResolves (event.ruleId :: seen) events

def compileBatch [PyFloat φ] (digest : Digest) (events : List (CustomRuleAlertEvent φ))
    (alertingEnabled : Bool) : Option (AlertBatch φ) :=
  if !alertingEnabled then none
  else
    some {
      opens := (events.filter (fun event => event.action ≠ .resolve)).map (alertInput digest)
      resolves := (firstResolves [] events).map (alertResolution digest) }

/-- The write of a tick: `compile_batch`, then `apply_bulk`. -/
def applyTick [PyFloat φ] (svc : Service) (digest : Digest) (s : Session φ)
    (events : List (CustomRuleAlertEvent φ)) : Session φ :=
  match compileBatch digest events true with
  | none => s
  | some batch => (applyBulk svc s batch.opens batch.resolves).2

def applyInOrder [PyFloat φ] (svc : Service) (digest : Digest) :
    Session φ → List (CustomRuleAlertEvent φ) → Except Exc (Session φ)
  | s, [] => .ok s
  | s, event :: events =>
    match event.action with
    | .resolve => do
        let (_, s) ← resolveByFingerprint svc s (alertResolution digest event)
        applyInOrder svc digest s events
    | _ => applyInOrder svc digest (openOrUpdate svc s (alertInput digest event)).2 events

def ownEvents (digest : Digest) (fingerprint : String) (events : List (CustomRuleAlertEvent φ)) :
    List (CustomRuleAlertEvent φ) :=
  events.filter (fun e => customRuleBreachFingerprint digest e.ruleId = fingerprint)

def EndsReopened (own : List (CustomRuleAlertEvent φ)) : Prop :=
  (∃ e ∈ own, e.action = .resolve) ∧ ∃ e, own.getLast? = some e ∧ e.action ≠ .resolve

end QRadarDashboard.CustomRules
