import QRadarDashboard.CustomRules.Reading

/-!
# The custom-rule fold (`fold_rule` of `app/custom_rules/evaluate.py`)
-/

namespace QRadarDashboard.CustomRules
open Lib Waf

variable {φ : Type}

inductive AnomalyState where
  | insufficientData | normal | candidate | opened | recovering | resolved | suppressed
deriving DecidableEq

def AnomalyState.value : AnomalyState → String
  | .insufficientData => "INSUFFICIENT_DATA"
  | .normal => "NORMAL"
  | .candidate => "CANDIDATE"
  | .opened => "OPEN"
  | .recovering => "RECOVERING"
  | .resolved => "RESOLVED"
  | .suppressed => "SUPPRESSED"

inductive RuleStatus where
  | notEnabled | subjectRetired | disabled | notCollected | opened | recovering | ok | noVerdict | stale

def RuleStatus.value : RuleStatus → String
  | .notEnabled => "NOT_ENABLED"
  | .subjectRetired => "SUBJECT_RETIRED"
  | .disabled => "DISABLED"
  | .notCollected => "NOT_COLLECTED"
  | .opened => "OPEN"
  | .recovering => "RECOVERING"
  | .ok => "OK"
  | .noVerdict => "NO_VERDICT"
  | .stale => "STALE"

inductive AlertAction where
  | opens | refresh | resolve
deriving DecidableEq

/-- One breach transition the sink should reflect as an alert (`app/custom_rules/alerts.py`). -/
structure CustomRuleAlertEvent (φ : Type) where
  action : AlertAction
  ruleId : String
  breachId : String
  ruleName : String
  severity : Severity
  subjectKind : String
  subjectLabel : String
  metric : String
  unit : String
  operator : String
  thresholdValue : φ
  observedValue : Option φ
  measurement : Option String
  firstBucketStart : Int
  lastBucketStart : Int
  unmeasuredBuckets : Int
  reason : Option String := none

structure BreachState (φ : Type) where
  id : String
  state : AnomalyState
  firstBucketStart : Int
  lastBucketStart : Int
  openedAt : Int
  recoveringAt : Option Int
  resolvedAt : Option Int
  worstValue : Option φ
  worstMeasurement : Option String
  lastValue : Option φ
  lastMeasurement : Option String
  unmeasuredBuckets : Int
  subjectLabel : String
  details : JsonObject φ
  isNew : Bool := false

structure FoldInput (φ : Type) where
  ruleId : String
  ruleName : String
  severity : Severity
  metric : CustomRuleMetric
  operator : String
  thresholdValue : φ
  sustainBuckets : Nat
  recoveryBuckets : Nat
  consecutiveBreaching : Nat
  consecutiveUnder : Nat
  lastEvaluatedBucketStart : Option Int
  previousStatus : Option String
  previousReason : Option String
  subjectKind : String
  subjectLabel : String
  platformEnabled : Bool
  enabled : Bool
  retired : Bool
  retiredReason : Option String
  familyCollected : Bool
  familyReason : Option String
  breach : Option (BreachState φ)
  readings : List (InterpretedReading φ)
  now : Int
  collectionStaleReason : Option String := none

structure FoldOutput (φ : Type) where
  status : Option String
  statusReason : Option String
  consecutiveBreaching : Nat
  consecutiveUnder : Nat
  lastEvaluatedBucketStart : Option Int
  breach : Option (BreachState φ)
  resolved : Option (BreachState φ)
  events : List (CustomRuleAlertEvent φ)
  judged : Nat
  preserveStatus : Bool

/-- What the fold takes from the runtime: the ids `uuid.uuid4()` hands out one after the other, and
`repr` of a string. -/
structure Runtime where
  uuid4 : Nat → String
  repr : String → String

inductive ReadingKind where
  | maintenance | insufficient | breach | under
deriving DecidableEq

structure Fold (φ : Type) where
  breach : Option (BreachState φ)
  resolved : Option (BreachState φ) := none
  events : List (CustomRuleAlertEvent φ) := []
  breaching : Nat
  under : Nat
  lastEvaluated : Option Int
  judged : Nat := 0
  lastKind : Option ReadingKind := none
  lastReason : Option String := none
  issued : Nat := 0

/-! ## One reading -/

/-- `_waf_measurement`: a label that is neither is unknown and supports no verdict. -/
def wafMeasurement (value : String) : Option WafMeasurement :=
  if value = "EXACT" ∨ value = "COMPLETE" then some .exact
  else if value = "LOWER_BOUND" then some .lowerBound
  else none

def increaseOperator (operator : String) : Bool := operator = "GT" ∨ operator = "GE"

def breaches [PyFloat φ] (operator : String) (value threshold : φ) : Option Bool :=
  if operator = "GT" then some (PyFloat.lt threshold value)
  else if operator = "GE" then some (PyFloat.le threshold value)
  else if operator = "LT" then some (PyFloat.lt value threshold)
  else if operator = "LE" then some (PyFloat.le value threshold)
  else if operator = "EQ" then some (PyFloat.eq value threshold)
  else none

/-- What `_consume` does with a reading it has not judged yet. -/
inductive Verdict where
  | maintenance (reason : String)
  | unmeasured (reason : String)
  | breach
  | under

/-- The last part of `_consume`: what the scope of a measured reading lets it conclude. -/
def scopedVerdict (spec : FoldInput φ) (decision : ScopeDecision) (direction : Bool) : Verdict :=
  match decision.scope with
  | .none => .unmeasured (orReason decision.reason "the bucket supports no verdict")
  | .increaseOnly =>
    if !increaseOperator spec.operator then
      .unmeasured "a lower bound cannot prove the reading is under the threshold"
    else if !direction then .unmeasured "a lower bound below the threshold proves nothing"
    else .breach
  | .full => if direction then .breach else .under

/-- `_consume` up to the handler it calls. -/
def verdict [PyFloat φ] (rt : Runtime) (spec : FoldInput φ) (reading : InterpretedReading φ) : Verdict :=
  if reading.inMaintenance then
    .maintenance (orReason reading.reason "the source is in maintenance")
  else
    match reading.value, reading.measurement with
    | some value, some label =>
      if !PyFloat.isfinite value then
        .unmeasured (orReason reading.reason "the bucket was not measured")
      else if !PyFloat.isfinite spec.thresholdValue then .unmeasured "threshold_value is not finite"
      else
        let decision := verdictScope (catalogEntry spec.metric).measurement.requirement
          (wafMeasurement label)
        match breaches spec.operator value spec.thresholdValue with
        | none => .unmeasured ("operator " ++ rt.repr spec.operator ++ " is not known")
        | some direction => scopedVerdict spec decision direction
    | _, _ => .unmeasured (orReason reading.reason "the bucket was not measured")

def noteLast (breach : BreachState φ) (reading : InterpretedReading φ) : BreachState φ :=
  { breach with
    lastBucketStart := reading.bucketStart
    lastValue := reading.value
    lastMeasurement := reading.measurement }

/-- The test of `_note_worst`. `EQ` keeps the first matching value: a later equal reading is not worse. -/
def worse [PyFloat φ] (operator : String) : Option φ → Option φ → Bool
  | none, _ => false
  | some _, none => true
  | some candidate, some current =>
    let increase := increaseOperator operator && PyFloat.lt current candidate
    let decrease := decide (operator = "LT" ∨ operator = "LE") && PyFloat.lt candidate current
    increase || decrease

def noteWorst [PyFloat φ] (operator : String) (breach : BreachState φ)
    (reading : InterpretedReading φ) : BreachState φ :=
  let noted := noteLast breach reading
  if worse operator reading.value breach.worstValue then
    { noted with worstValue := reading.value, worstMeasurement := reading.measurement }
  else noted

/-- `subject_label[:255]` -/
def boundedLabel (label : String) : String := String.ofList (label.toList.take 255)

/-- `_open`: the opening bucket is the one on which sustain was met. -/
def openBreach (spec : FoldInput φ) (id : String) (reading : InterpretedReading φ) : BreachState φ :=
  let label := boundedLabel spec.subjectLabel
  { id
    state := .opened
    firstBucketStart := reading.bucketStart
    lastBucketStart := reading.bucketStart
    openedAt := spec.now
    recoveringAt := none
    resolvedAt := none
    worstValue := reading.value
    worstMeasurement := reading.measurement
    lastValue := reading.value
    lastMeasurement := reading.measurement
    unmeasuredBuckets := 0
    subjectLabel := label
    details := [("metric", .str spec.metric.value), ("unit", .str (catalogEntry spec.metric).unit),
      ("operator", .str spec.operator), ("threshold", .float spec.thresholdValue),
      ("subject_kind", .str spec.subjectKind), ("subject_label", .str label)]
    isNew := true }

def event (spec : FoldInput φ) (action : AlertAction) (breach : BreachState φ)
    (reading : InterpretedReading φ) (reason : Option String) : CustomRuleAlertEvent φ :=
  { action
    ruleId := spec.ruleId
    breachId := breach.id
    ruleName := spec.ruleName
    severity := spec.severity
    subjectKind := spec.subjectKind
    subjectLabel := breach.subjectLabel
    metric := spec.metric.value
    unit := (catalogEntry spec.metric).unit
    operator := spec.operator
    thresholdValue := spec.thresholdValue
    observedValue := reading.value
    measurement := reading.measurement
    firstBucketStart := breach.firstBucketStart
    lastBucketStart := breach.lastBucketStart
    unmeasuredBuckets := breach.unmeasuredBuckets
    reason }

/-! ## The handlers -/

/-- `_unmeasured`: neither counter moves; a live breach counts the bucket. -/
def onUnmeasured (fold : Fold φ) (reason : String) : Fold φ :=
  { fold with
    breach := fold.breach.map (fun b => { b with unmeasuredBuckets := b.unmeasuredBuckets + 1 })
    lastKind := some .insufficient
    lastReason := some reason }

def onBreach [PyFloat φ] (rt : Runtime) (spec : FoldInput φ) (fold : Fold φ)
    (reading : InterpretedReading φ) : Fold φ :=
  let fold := { fold with
    breaching := fold.breaching + 1, under := 0, lastKind := some .breach, lastReason := none }
  match fold.breach with
  | none =>
    if fold.breaching ≥ spec.sustainBuckets then
      let opened := openBreach spec (rt.uuid4 fold.issued) reading
      { fold with
        breach := some opened
        events := fold.events ++ [event spec .opens opened reading none]
        issued := fold.issued + 1 }
    else fold
  | some breach =>
    let breach := noteWorst spec.operator { breach with state := .opened, recoveringAt := none } reading
    { fold with
      breach := some breach
      events := fold.events ++ [event spec .refresh breach reading none] }

def onUnder (spec : FoldInput φ) (fold : Fold φ) (reading : InterpretedReading φ) : Fold φ :=
  let fold := { fold with
    breaching := 0, under := fold.under + 1, lastKind := some .under, lastReason := none }
  match fold.breach with
  | none => fold
  | some breach =>
    let breach := noteLast breach reading
    if fold.under ≥ spec.recoveryBuckets then
      let breach := { breach with state := .resolved, resolvedAt := some spec.now }
      { fold with
        events := fold.events ++ [event spec .resolve breach reading (some "condition recovered")]
        resolved := some breach
        breach := none
        breaching := 0
        under := 0 }
    else
      { fold with
        breach := some { breach with
          state := .recovering
          recoveringAt := some (breach.recoveringAt.getD spec.now) } }

def alreadyJudged (lastEvaluated : Option Int) (reading : InterpretedReading φ) : Bool :=
  match lastEvaluated with
  | none => false
  | some last => reading.bucketStart ≤ last

def consume [PyFloat φ] (rt : Runtime) (spec : FoldInput φ) (fold : Fold φ)
    (reading : InterpretedReading φ) : Fold φ :=
  if alreadyJudged fold.lastEvaluated reading then fold
  else
    let fold := { fold with lastEvaluated := some reading.bucketStart, judged := fold.judged + 1 }
    match verdict rt spec reading with
    | .maintenance reason => { fold with lastKind := some .maintenance, lastReason := some reason }
    | .unmeasured reason => onUnmeasured fold reason
    | .breach => onBreach rt spec fold reading
    | .under => onUnder spec fold reading

/-! ## The whole tick -/

def Fold.output (fold : Fold φ) (status reason : Option String) (preserve : Bool) : FoldOutput φ :=
  { status
    statusReason := reason
    consecutiveBreaching := fold.breaching
    consecutiveUnder := fold.under
    lastEvaluatedBucketStart := fold.lastEvaluated
    breach := fold.breach
    resolved := fold.resolved
    events := fold.events
    judged := fold.judged
    preserveStatus := preserve }

/-- `_Fold.__init__` -/
def Fold.start (spec : FoldInput φ) : Fold φ :=
  { breach := spec.breach
    breaching := spec.consecutiveBreaching
    under := spec.consecutiveUnder
    lastEvaluated := spec.lastEvaluatedBucketStart }

/-- `_halt` and the stale check of `run`: the status of a rule that is not allowed to judge. -/
def halt (spec : FoldInput φ) : Option (RuleStatus × String) :=
  if !spec.platformEnabled then some (.notEnabled, "CUSTOM_RULES_ENABLED is off")
  else if !spec.enabled then some (.disabled, "the rule is disabled")
  else if spec.retired then
    some (.subjectRetired, orReason spec.retiredReason "the subject is retired")
  else if !spec.familyCollected then
    some (.notCollected, orReason spec.familyReason "the subject's family is not collected")
  else
    match spec.collectionStaleReason with
    | some reason => some (.stale, reason)
    | none => none

def finish (spec : FoldInput φ) (fold : Fold φ) : FoldOutput φ :=
  let undecided := fold.lastKind = some .insufficient ∨ fold.lastKind = some .maintenance
  if fold.judged = 0 then fold.output spec.previousStatus spec.previousReason true
  else
    match fold.breach with
    | some breach =>
      fold.output (some breach.state.value) (if undecided then fold.lastReason else none) false
    | none =>
      if undecided then fold.output (some RuleStatus.noVerdict.value) fold.lastReason false
      else fold.output (some RuleStatus.ok.value) none false

/-- The loop of `run`: the readings in bucket order. -/
def foldReadings [PyFloat φ] (rt : Runtime) (spec : FoldInput φ) : Fold φ :=
  (sortOn InterpretedReading.bucketStart spec.readings).foldl (consume rt spec) (Fold.start spec)

def foldRule [PyFloat φ] (rt : Runtime) (spec : FoldInput φ) : FoldOutput φ :=
  match halt spec with
  | some (status, reason) => (Fold.start spec).output (some status.value) (some reason) false
  | none => finish spec (foldReadings rt spec)

end QRadarDashboard.CustomRules
