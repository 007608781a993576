import QRadarDashboard.Alerts.Service
import QRadarDashboard.Anomaly.Lifecycle
import QRadarDashboard.Fleet.Classification
import QRadarDashboard.Lib.Except

/-!
# The anomaly engine (`app/anomaly/engine.py`)

Tables are dictionaries by key. The clock and the ids are those of the alert service.
-/

namespace QRadarDashboard.Anomaly
open Lib Alerts Fleet

variable {φ : Type}

/-! ## Rows -/

inductive EvidenceStatus where
  | notRequested | pending | complete | part | unavailable | failed

def AnomalyType.explainable : AnomalyType → Bool
  | .volumeSpike | .volumeDrop => true
  | _ => false

structure LogSource where
  id : String
  name : String
  owner : Option String
  criticality : String
  instanceId : Option String

structure Metric where
  bucketStart : Int
  bucketSeconds : Int

abbrev DetectorKey := String × AnomalyType

structure DetectorState where
  consecutiveAnomalous : Nat := 0
  consecutiveHealthy : Nat := 0
  isOpen : Bool := false
  lastIntervalStart : Option Int := none
  openAnomalyId : Option String := none
  state : AnomalyState := .normal
  activeAnomalyId : Option String := none

structure LogSourceAnomaly (φ : Type) where
  logSourceId : String
  anomalyType : AnomalyType
  severity : Severity
  state : AnomalyState
  detectedAt : Int
  resolvedAt : Option Int := none
  openedAt : Option Int := none
  anomalyStart : Option Int
  anomalyEnd : Option Int := none
  observedValue : Option φ
  expectedValue : Option φ
  deviationScore : Option φ
  confidence : Option φ
  deviationRatio : Option φ
  robustZ : Option φ
  absoluteDelta : Option φ
  consecutiveBuckets : Nat
  baselineVersion : Option Int
  policyVersion : Int
  evidenceStatus : EvidenceStatus
  explanation : Option String
  details : JsonObject φ
  suppressed : Bool
  suppressionReason : Option String

def LogSourceAnomaly.key (a : LogSourceAnomaly φ) : DetectorKey := (a.logSourceId, a.anomalyType)

structure AnomalyStateTransition (φ : Type) where
  anomalyId : String
  fromState : AnomalyState
  toState : AnomalyState
  occurredAt : Int
  bucketStart : Int
  reason : String
  actor : String
  observedValue : Option φ
  expectedValue : Option φ

structure EvaluationReport where
  opened : List String := []
  resolved : List String := []
  candidates : List String := []
  recovering : List String := []
  states : Dict String String := []

/-- The session: the tables hysteresis works on, the notifications it enqueued and the report. -/
structure World (φ : Type) where
  detectors : Dict DetectorKey DetectorState
  anomalies : Dict String (LogSourceAnomaly φ)
  transitions : List (AnomalyStateTransition φ) := []
  alerts : Session φ
  notifications : List (String × AlertTransition) := []
  report : EvaluationReport := {}

/-- The engine of one run: its settings, and the policies and classes it loaded. -/
structure AnomalyEngine where
  svc : Service
  digest : Digest
  policyVersion : Int
  explanationEnabled : Bool
  enqueues : Bool
  policies : List OutagePolicyRow
  classes : Dict String String
  outageAlertDefault : OutagePolicyMode

/-! ## Helpers -/

def asFloat [PyFloat φ] : Option (Json φ) → Option φ
  | some (.int n) => some (PyFloat.ofInt n)
  | some (.float x) => some x
  | some (.bool b) => some (PyFloat.ofInt (if b then 1 else 0))
  | _ => none

/-- `int(x)` of a float, towards zero. -/
def truncate [PyFloat φ] (x : φ) : Except Exc Int :=
  if PyFloat.isfinite x then
    if PyFloat.lt x (PyFloat.ofInt 0) then .ok (-PyFloat.floor (PyFloat.mul (PyFloat.ofInt (-1)) x))
    else .ok (PyFloat.floor x)
  else if PyFloat.eq x x then .error (.overflow "cannot convert float infinity to integer")
  else .error (.value "cannot convert float NaN to integer")

def asInt [PyFloat φ] : Option (Json φ) → Except Exc (Option Int)
  | some (.int n) => .ok (some n)
  | some (.float x) => (truncate x).map some
  | some (.bool b) => .ok (some (if b then 1 else 0))
  | _ => .ok none

/-- Whether `observed` is more extreme than the reading on record: the peak of a spike, else the trough. -/
def isWorse [PyFloat φ] (anomaly : LogSourceAnomaly φ) (observed : φ) : Bool :=
  match anomaly.observedValue with
  | none => true
  | some current =>
    if anomaly.anomalyType = .volumeSpike then PyFloat.lt current observed else PyFloat.lt observed current

variable (engine : AnomalyEngine)

namespace World

def now (w : World φ) : Int × World φ :=
  (engine.svc.clock w.alerts.reads, { w with alerts := w.alerts.tick })

def modify (w : World φ) (id : String) (f : LogSourceAnomaly φ → LogSourceAnomaly φ) : World φ :=
  match w.anomalies.get? id with
  | none => w
  | some anomaly => { w with anomalies := w.anomalies.set id (f anomaly) }

end World

/-- `_outage`: the class is read only where a CLASS row could need it. -/
def outage (source : LogSource) : ResolvedOutage :=
  let sourceClass := if engine.policies.any (fun row => row.scopeKind = .«class») then
    engine.classes.get? source.id else none
  resolve engine.policies (some source.id) sourceClass source.instanceId engine.outageAlertDefault

def recordOnly (source : LogSource) (evidence : AnomalyEvidence φ) : Bool :=
  evidence.anomalyType = .noEvents ∧ (outage engine source).mode = .recordOnly

def alertInput (source : LogSource) (evidence : AnomalyEvidence φ)
    (anomalyId : Option String) : AlertInput φ where
  fingerprint := anomalyFingerprint engine.digest source.id evidence.anomalyType.value
  title := evidence.anomalyType.value ++ " on " ++ source.name
  severity := evidence.severity
  sourceType := "log_source"
  sourceId := some source.id
  description := some evidence.reason
  evidence := some evidence.toDict
  sourceAnomalyIds := some anomalyId.toList
  context := some ([("log_source", .str source.name), ("owner", (source.owner.map Json.str).getD .null),
    ("criticality", .str source.criticality)] ++
      ((engine.classes.get? source.id).map (fun value => ("source_class", Json.str value))).toList)

/-! ## Incidents -/

def newIncident [PyFloat φ] (engine : AnomalyEngine) (source : LogSource) (metric : Metric)
    (evidence : AnomalyEvidence φ) (inMaintenance : Bool) (baselineVersion : Option Int) : LogSourceAnomaly φ where
  logSourceId := source.id
  anomalyType := evidence.anomalyType
  severity := evidence.severity
  state := .candidate
  detectedAt := metric.bucketStart
  anomalyStart := some metric.bucketStart
  observedValue := evidence.observedValue
  expectedValue := evidence.expectedValue
  deviationScore := evidence.deviationScore
  confidence := some evidence.confidence
  deviationRatio := asFloat (evidence.fact "ratio")
  robustZ := asFloat (evidence.fact "robust_z")
  absoluteDelta := asFloat (evidence.fact "absolute_delta_events")
  consecutiveBuckets := 1
  baselineVersion := baselineVersion
  policyVersion := engine.policyVersion
  evidenceStatus := .notRequested
  explanation := some evidence.reason
  details := evidence.toDict
  suppressed := inMaintenance
  suppressionReason := if inMaintenance then some "maintenance window" else none

def createIncident [PyFloat φ] (engine : AnomalyEngine) (source : LogSource) (metric : Metric)
    (evidence : AnomalyEvidence φ) (inMaintenance : Bool) (w : World φ) : Except Exc (String × World φ) := do
  let baselineVersion ← asInt (evidence.fact "baseline_version")
  let id := engine.svc.uuid4 w.alerts.issued
  return (id, { w with
    anomalies := w.anomalies.set id (newIncident engine source metric evidence inMaintenance baselineVersion)
    alerts := { w.alerts with issued := w.alerts.issued + 1 } })

/-- `_active_anomaly`: the incident the detector tracks, with its id. -/
def activeAnomaly (state : DetectorState) (w : World φ) : Option (String × LogSourceAnomaly φ) :=
  state.activeAnomalyId.bind (fun id => (w.anomalies.get? id).map (fun anomaly => (id, anomaly)))

def touched [PyFloat φ] (state : DetectorState) (metric : Metric) (evidence : AnomalyEvidence φ)
    (anomaly : LogSourceAnomaly φ) : LogSourceAnomaly φ :=
  let anomaly := { anomaly with
    consecutiveBuckets := max anomaly.consecutiveBuckets state.consecutiveAnomalous }
  if evidence.isAnomalous then
    let anomaly := { anomaly with anomalyEnd := some (metric.bucketStart + seconds metric.bucketSeconds) }
    match evidence.observedValue with
    | none => anomaly
    | some observed =>
      if isWorse anomaly observed then
        { anomaly with
          observedValue := some observed
          deviationScore := evidence.deviationScore
          deviationRatio := asFloat (evidence.fact "ratio")
          robustZ := asFloat (evidence.fact "robust_z")
          absoluteDelta := asFloat (evidence.fact "absolute_delta_events")
          explanation := some evidence.reason
          details := evidence.toDict }
      else anomaly
  else anomaly

def touchAnomaly [PyFloat φ] (state : DetectorState) (metric : Metric) (evidence : AnomalyEvidence φ)
    (w : World φ) : World φ :=
  match activeAnomaly state w with
  | none => w
  | some anomaly => w.modify anomaly.1 (touched state metric evidence)

def recordTransition (anomalyId : String) (fromState toState : AnomalyState)
    (metric : Metric) (reason : String) (evidence : AnomalyEvidence φ) (w : World φ) : World φ :=
  let (now, w) := w.now engine
  { w with transitions := w.transitions ++ [{
      anomalyId := anomalyId
      fromState := fromState
      toState := toState
      occurredAt := now
      bucketStart := metric.bucketStart
      reason := reason
      actor := "anomaly-engine"
      observedValue := evidence.observedValue
      expectedValue := evidence.expectedValue }] }

/-! ## Alerts -/

def raiseAlert (data : AlertInput φ) (w : World φ) : World φ :=
  let (result, alerts) := openOrUpdate engine.svc w.alerts data
  let notifications := if engine.enqueues then (result.transition.map (fun t => (result.alertId, t))).toList else []
  { w with
    alerts := alerts
    notifications := w.notifications ++ notifications }

/-- `_refresh`: re-asserts the alert of an open condition, and never notifies. -/
def refresh (source : LogSource) (evidence : AnomalyEvidence φ) (state : DetectorState)
    (inMaintenance : Bool) (w : World φ) : World φ :=
  if inMaintenance then w
  else if recordOnly engine source evidence then w
  else { w with
    alerts := (openOrUpdate engine.svc w.alerts (alertInput engine source evidence state.openAnomalyId)).2 }

def openIncident [PyFloat φ] (engine : AnomalyEngine) (metric : Metric) (evidence : AnomalyEvidence φ)
    (state : DetectorState) (anomalyId : String) (inMaintenance : Bool) (w : World φ) : World φ :=
  let now := w.now engine
  let w := now.2.modify anomalyId (fun anomaly =>
    { anomaly with
      state := .opened
      openedAt := some now.1
      anomalyEnd := none
      severity := evidence.severity })
  let w := touchAnomaly state metric evidence w
  if engine.explanationEnabled ∧ evidence.anomalyType.explainable ∧ ¬ inMaintenance then
    w.modify anomalyId (fun anomaly => { anomaly with evidenceStatus := .pending })
  else w

def promoteToOpen [PyFloat φ] (engine : AnomalyEngine) (source : LogSource) (metric : Metric)
    (evidence : AnomalyEvidence φ) (state : DetectorState) (anomalyId : String) (inMaintenance : Bool)
    (w : World φ) : DetectorState × World φ :=
  let w := openIncident engine metric evidence state anomalyId inMaintenance w
  let state := { state with
    isOpen := true
    openAnomalyId := some anomalyId
    activeAnomalyId := some anomalyId }
  let w := { w with report := { w.report with opened := w.report.opened ++ [evidence.anomalyType.value] } }
  -- Maintenance anomalies, and silence under a RECORD_ONLY policy, are recorded and never alerted.
  if inMaintenance then (state, w)
  else if recordOnly engine source evidence then (state, w)
  else (state, raiseAlert engine (alertInput engine source evidence (some anomalyId)) w)

def resolveIncident (source : LogSource) (evidence : AnomalyEvidence φ)
    (state : DetectorState) (anomaly : Option (String × LogSourceAnomaly φ)) (w : World φ) :
    Except Exc (DetectorState × World φ) := do
  let w := match anomaly with
    | none => w
    | some anomaly =>
      if anomaly.2.resolvedAt = none then
        let (now, w) := w.now engine
        w.modify anomaly.1 (fun anomaly => { anomaly with state := .resolved, resolvedAt := some now })
      else w
  let state := { state with isOpen := false, openAnomalyId := none, activeAnomalyId := none }
  let w := { w with report := { w.report with resolved := w.report.resolved ++ [evidence.anomalyType.value] } }
  let resolved ← resolveByFingerprint engine.svc w.alerts {
    fingerprint := anomalyFingerprint engine.digest source.id evidence.anomalyType.value
    actor := "anomaly-engine"
    reason := some "condition recovered" }
  let notifications := if engine.enqueues then
    (resolved.1.bind (fun result => result.transition.map (fun t => (result.alertId, t)))).toList else []
  return (state, { w with
    alerts := resolved.2
    notifications := w.notifications ++ notifications })

/-! ## Hysteresis -/

/-- The columns a state other than CANDIDATE and OPEN writes. -/
def settle (source : LogSource) (metric : Metric) (evidence : AnomalyEvidence φ)
    (previous target : AnomalyState) (state : DetectorState) (w : World φ) :
    Except Exc (DetectorState × World φ) :=
  let anomaly := activeAnomaly state w
  match target with
  | .recovering =>
    let w := match anomaly with
      | none => w
      | some anomaly => w.modify anomaly.1 (fun anomaly =>
        { anomaly with state := .recovering, anomalyEnd := some metric.bucketStart })
    .ok (state, { w with
      report := { w.report with recovering := w.report.recovering ++ [evidence.anomalyType.value] } })
  | .resolved => resolveIncident engine source evidence state anomaly w
  | .suppressed =>
    let w := match anomaly with
      | none => w
      | some anomaly => w.modify anomaly.1 (fun anomaly =>
        { anomaly with
          state := .suppressed
          suppressed := true
          suppressionReason := some (orReason anomaly.suppressionReason "maintenance window") })
    .ok ({ state with isOpen := false }, w)
  | _ =>
    -- NORMAL or INSUFFICIENT_DATA: a candidate that never opened is closed as a non-incident.
    let w := match anomaly with
      | none => w
      | some anomaly =>
        if previous = .candidate then
          w.modify anomaly.1 (fun anomaly =>
            { anomaly with state := target, anomalyEnd := some metric.bucketStart })
        else w
    .ok ({ state with activeAnomalyId := none, isOpen := false }, w)

/-- `report.states[...] = target.value` -/
def reportState (evidence : AnomalyEvidence φ) (target : AnomalyState) (w : World φ) : World φ :=
  { w with report := { w.report with states := w.report.states.set evidence.anomalyType.value target.value } }

def incidentFor [PyFloat φ] (engine : AnomalyEngine) (source : LogSource) (metric : Metric)
    (evidence : AnomalyEvidence φ) (inMaintenance : Bool) (state : DetectorState) (w : World φ) :
    Except Exc (String × World φ) :=
  match activeAnomaly state w with
  | some anomaly => .ok (anomaly.1, w)
  | none => createIncident engine source metric evidence inMaintenance w

def recordActive (metric : Metric) (evidence : AnomalyEvidence φ)
    (previous : AnomalyState) (decision : LifecycleDecision) (state : DetectorState) (w : World φ) : World φ :=
  match activeAnomaly state w with
  | none => w
  | some anomaly => recordTransition engine anomaly.1 previous decision.state metric decision.reason evidence w

/-- `_apply_transition`: persists one move, its audit row and its side effects. -/
def applyTransition [PyFloat φ] (engine : AnomalyEngine) (source : LogSource) (metric : Metric)
    (evidence : AnomalyEvidence φ) (state : DetectorState) (decision : LifecycleDecision) (inMaintenance : Bool)
    (w : World φ) : Except Exc (DetectorState × World φ) :=
  let previous := state.state
  let target := decision.state
  let w := reportState evidence target w
  if target = previous then
    if previous = .opened then
      .ok (state, touchAnomaly state metric evidence (refresh engine source evidence state inMaintenance w))
    else .ok (state, w)
  else
    let state := { state with state := target }
    match target with
    | .candidate => do
        let created ← createIncident engine source metric evidence inMaintenance w
        let w := recordTransition engine created.1 previous target metric decision.reason evidence created.2
        return ({ state with activeAnomalyId := some created.1 }, { w with
          report := { w.report with candidates := w.report.candidates ++ [evidence.anomalyType.value] } })
    | .opened => do
        let incident ← incidentFor engine source metric evidence inMaintenance state w
        let promoted := promoteToOpen engine source metric evidence
          { state with activeAnomalyId := some incident.1 } incident.1 inMaintenance incident.2
        return (promoted.1,
          recordTransition engine incident.1 previous target metric decision.reason evidence promoted.2)
    | _ =>
      settle engine source metric evidence previous target state
        (recordActive engine metric evidence previous decision state w)

structure Judgement (φ : Type) where
  source : LogSource
  metric : Metric
  evidence : AnomalyEvidence φ
  inMaintenance : Bool
  openAfter : Nat
  resolveAfter : Nat

variable (j : Judgement φ)

def Judgement.key : DetectorKey := (j.source.id, j.evidence.anomalyType)

/-- `_get_state`: a detector without a row starts with the column defaults. -/
def detectorState (w : World φ) (key : DetectorKey) : DetectorState := (w.detectors.get? key).getD {}

def processed (state : DetectorState) (metric : Metric) : Bool :=
  state.lastIntervalStart.any (fun t => metric.bucketStart ≤ t)

def effectiveSignal : DetectorSignal :=
  if j.inMaintenance ∧ j.evidence.signal = .anomalous then .unknown else j.evidence.signal

def counted (state : DetectorState) : DetectorState :=
  let counters := advanceCounters (effectiveSignal j) state.consecutiveAnomalous state.consecutiveHealthy
  { state with
    consecutiveAnomalous := counters.1
    consecutiveHealthy := counters.2
    lastIntervalStart := some j.metric.bucketStart }

def decision (state : DetectorState) : LifecycleDecision :=
  nextState {
    state := state.state
    signal := effectiveSignal j
    consecutiveAnomalous := state.consecutiveAnomalous
    consecutiveHealthy := state.consecutiveHealthy
    openAfter := j.openAfter
    resolveAfter := j.resolveAfter
    insufficientData := j.evidence.insufficientData
    suppressed := j.inMaintenance && !state.state.active }

def applyHysteresis [PyFloat φ] (engine : AnomalyEngine) (w : World φ) (j : Judgement φ) :
    Except Exc (World φ) :=
  let state := detectorState w j.key
  if processed state j.metric then .ok w
  else do
    let state := counted j state
    let moved ← applyTransition engine j.source j.metric j.evidence state (decision j state) j.inMaintenance w
    return { moved.2 with detectors := moved.2.detectors.set j.key moved.1 }

end QRadarDashboard.Anomaly
