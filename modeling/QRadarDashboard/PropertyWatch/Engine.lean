import QRadarDashboard.Alerts.Book
import QRadarDashboard.Anomaly.Engine
import QRadarDashboard.History.Scan
import QRadarDashboard.Lib.Run
import QRadarDashboard.PropertyWatch.Admission

/-!
# The property-watch engine (`app/property_watch/engine.py`)

Tables are dictionaries by id. The ids and times of a run are numbered in the order they are taken.
-/

namespace QRadarDashboard.PropertyWatch
open Lib Alerts Anomaly Waf History

variable {φ : Type}

/-! ## Evidence -/

inductive PwAnomalyType where
  | valueSpike | valueDrop | valueDisappeared | newValue | newCombination

def PwAnomalyType.value : PwAnomalyType → String
  | .valueSpike => "PW_VALUE_SPIKE"
  | .valueDrop => "PW_VALUE_DROP"
  | .valueDisappeared => "PW_VALUE_DISAPPEARED"
  | .newValue => "PW_NEW_VALUE"
  | .newCombination => "PW_NEW_COMBINATION"

/-- `AnomalyEvidence` of a property-watch detector. -/
structure PwEvidence (φ : Type) where
  anomalyType : PwAnomalyType
  signal : DetectorSignal
  severity : Severity
  observedValue : Option φ
  expectedValue : Option φ
  baselineLow : Option φ
  baselineHigh : Option φ
  deviationScore : Option φ
  threshold : Option φ
  sampleCount : Int
  intervalStart : Int
  intervalEnd : Int
  confidence : φ
  reason : String
  extra : JsonObject φ := []
  insufficientData : Bool := false

namespace PwEvidence

def isAnomalous (e : PwEvidence φ) : Bool := e.signal = .anomalous

def toDict (e : PwEvidence φ) : JsonObject φ :=
  let number (x : Option φ) : Json φ := (x.map Json.float).getD .null
  [("anomaly_type", .str e.anomalyType.value), ("signal", .str e.signal.value),
    ("severity", .str e.severity.value), ("observed_value", number e.observedValue),
    ("expected_value", number e.expectedValue), ("baseline_low", number e.baselineLow),
    ("baseline_high", number e.baselineHigh), ("deviation_score", number e.deviationScore),
    ("threshold", number e.threshold), ("sample_count", .int e.sampleCount),
    ("interval_start", .str (isoformatUtc e.intervalStart)), ("interval_end", .str (isoformatUtc e.intervalEnd)),
    ("confidence", .float e.confidence), ("reason", .str e.reason), ("extra", .obj e.extra),
    ("insufficient_data", .bool e.insufficientData)]

/-- `(evidence.extra or {}).get(name)` -/
def fact (e : PwEvidence φ) (name : String) : Option (Json φ) :=
  (e.extra.find? (fun member => member.1 = name)).map (fun member => member.2)

def measurement (e : PwEvidence φ) : WafMeasurement :=
  match e.fact "observed_measurement" with
  | some (.str text) => if text = "LOWER_BOUND" then .lowerBound else .exact
  | _ => .exact

end PwEvidence

/-! ## Rows -/

structure PwEngineBucket extends PwBucketFact where
  inMaintenance : Bool

def PwEngineBucket.bucketEnd (b : PwEngineBucket) : Int := b.bucketStart + seconds b.bucketSeconds

/-- `_State`: a row of `pw_detector_state` in a run. -/
structure PwState where
  id : String
  watchId : String
  valueId : String
  detector : PwAnomalyType
  valueVersion : Int
  consecutiveAnomalous : Nat := 0
  consecutiveHealthy : Nat := 0
  state : AnomalyState := .insufficientData
  lastIntervalStart : Option Int := none
  activeAnomalyId : Option String := none
  openAnomalyId : Option String := none
  dirty : Bool := false

structure PwAnomaly (φ : Type) where
  watchId : String
  pwValueId : Option String
  valueKey : String
  detectorType : PwAnomalyType
  fingerprint : String
  severity : Severity
  state : AnomalyState
  detectedAt : Int
  openedAt : Option Int := none
  anomalyStart : Option Int
  anomalyEnd : Option Int
  resolvedAt : Option Int := none
  observedValue : Option φ
  expectedValue : Option φ
  deviationScore : Option φ
  deviationRatio : Option (Json φ)
  robustZ : Option (Json φ)
  absoluteDelta : Option (Json φ)
  confidence : Option φ
  consecutiveBuckets : Nat
  baselineVersion : Option (Json φ)
  policyVersion : Int
  watchVersion : Int
  explanation : Option String
  details : JsonObject φ
  evidenceStatus : EvidenceStatus
  suppressed : Bool
  suppressionReason : Option String
  observedMeasurement : WafMeasurement

structure PwIncident (φ : Type) where
  row : PwAnomaly φ
  dirty : Bool := false

structure PwTransition (φ : Type) where
  id : String
  pwAnomalyId : String
  fromState : AnomalyState
  toState : AnomalyState
  occurredAt : Int
  bucketStart : Option Int
  reason : String
  actor : String
  observedValue : Option φ
  expectedValue : Option φ
  observedMeasurement : WafMeasurement

/-- `_AlertOpenOrUpdate` and `_AlertResolve` -/
inductive PwAlertAction (φ : Type) where
  | openOrUpdate (watch : PropertyWatchRow) (valueKey : String) (pwValueId : Option String) (detector : String)
      (evidence : PwEvidence φ) (bucket : PwEngineBucket) (incidentId : String)
  | resolve (watchId valueKey detector reason : String)

structure PwEvaluationReport where
  bucketsEvaluated : Nat := 0
  valuesEvaluated : Nat := 0
  opened : Nat := 0
  resolved : Nat := 0
  versionResolved : Nat := 0
  retiredResolved : Nat := 0

/-- What a run holds and writes besides the detector states, and the times and ids it took. -/
structure PwRun (φ : Type) where
  incidents : Dict String (PwIncident φ)
  transitions : List (PwTransition φ) := []
  alerts : List (PwAlertAction φ) := []
  report : PwEvaluationReport := {}
  reads : Nat := 0
  issued : Nat := 0

structure PwAnomalyEngine where
  clock : Nat → Int
  uuid4 : Nat → String
  digest : Digest
  pwAlertingEnabled : Bool
  pwCollectionEnabled : Bool
  anomalyOpenAfterIntervals : Nat
  anomalyResolveAfterIntervals : Nat
  anomalyPolicyVersion : Int

/-- `_alerting`: an alert needs its own switch and the family's. -/
def PwAnomalyEngine.alerting (engine : PwAnomalyEngine) : Bool :=
  engine.pwAlertingEnabled && engine.pwCollectionEnabled

structure QRadarInstance where
  id : String
  name : String

def reasonRecovered : String := "condition recovered"

def reasonVersion : String := "watch definition changed"

def reasonRetired : String := "value retired; no longer evaluated"

def alertActor : String := "pw-engine"

def pwAnomalyFingerprint (digest : Digest) (instanceId watchId detectorType valueKey : String) : String :=
  let naturalKey := "[\"" ++ instanceId ++ "\",\"" ++ watchId ++ "\",\"" ++ digest.sha256 valueKey ++ "\"]"
  computeFingerprint digest "pw_value" naturalKey "pw_anomaly" (some detectorType)

/-! ## Writes of a run -/

def PwRun.tracked (run : PwRun φ) (state : PwState) : Option String :=
  state.activeAnomalyId.filter (fun id => (run.incidents.get? id).isSome)

def PwRun.modify (run : PwRun φ) (id : String) (f : PwAnomaly φ → PwAnomaly φ) : PwRun φ :=
  match run.incidents.get? id with
  | none => run
  | some incident => { run with incidents := run.incidents.set id ⟨f incident.row, true⟩ }

def PwRun.transition (engine : PwAnomalyEngine) (run : PwRun φ) (anomalyId : String) (previous target : AnomalyState)
    (bucketStart : Option Int) (reason : String) (evidence : Option (PwEvidence φ)) : PwRun φ :=
  { run with
    transitions := run.transitions ++ [{
      id := engine.uuid4 run.issued
      pwAnomalyId := anomalyId
      fromState := previous
      toState := target
      occurredAt := engine.clock run.reads
      bucketStart := bucketStart
      reason := reason
      actor := "pw-engine"
      observedValue := evidence.bind PwEvidence.observedValue
      expectedValue := evidence.bind PwEvidence.expectedValue
      observedMeasurement := (evidence.map PwEvidence.measurement).getD .exact }]
    reads := run.reads + 1
    issued := run.issued + 1 }

def newIncident (engine : PwAnomalyEngine) (qradar : QRadarInstance) (watch : PropertyWatchRow) (value : PwValue)
    (bucket : PwEngineBucket) (evidence : PwEvidence φ) : PwAnomaly φ where
  watchId := watch.id
  pwValueId := some value.id
  valueKey := value.valueKey
  detectorType := evidence.anomalyType
  fingerprint := pwAnomalyFingerprint engine.digest qradar.id watch.id evidence.anomalyType.value value.valueKey
  severity := watch.severity
  state := .candidate
  detectedAt := bucket.bucketStart
  anomalyStart := some bucket.bucketStart
  anomalyEnd := some bucket.bucketEnd
  observedValue := evidence.observedValue
  expectedValue := evidence.expectedValue
  deviationScore := evidence.deviationScore
  deviationRatio := evidence.fact "ratio"
  robustZ := evidence.fact "robust_z"
  absoluteDelta := evidence.fact "absolute_delta"
  confidence := some evidence.confidence
  consecutiveBuckets := 1
  baselineVersion := evidence.fact "baseline_version"
  policyVersion := engine.anomalyPolicyVersion
  watchVersion := value.watchVersion
  explanation := some evidence.reason
  details := evidence.toDict
  evidenceStatus := .notRequested
  suppressed := false
  suppressionReason := none
  observedMeasurement := evidence.measurement

def touch (state : PwState) (bucket : PwEngineBucket) (evidence : PwEvidence φ) (row : PwAnomaly φ) : PwAnomaly φ :=
  let row := { row with consecutiveBuckets := max row.consecutiveBuckets state.consecutiveAnomalous }
  if evidence.isAnomalous then
    { row with
      anomalyEnd := some bucket.bucketEnd
      observedValue := evidence.observedValue
      expectedValue := evidence.expectedValue
      deviationScore := evidence.deviationScore
      confidence := some evidence.confidence
      explanation := some evidence.reason
      details := evidence.toDict
      observedMeasurement := evidence.measurement }
  else row

def openAction (watch : PropertyWatchRow) (value : PwValue) (evidence : PwEvidence φ) (bucket : PwEngineBucket)
    (incidentId : String) : PwAlertAction φ :=
  .openOrUpdate watch value.valueKey (some value.id) evidence.anomalyType.value evidence bucket incidentId

def PwRun.tick (run : PwRun φ) : PwRun φ := { run with reads := run.reads + 1 }

def PwRun.countOpened (run : PwRun φ) : PwRun φ :=
  { run with report := { run.report with opened := run.report.opened + 1 } }

def PwRun.countResolved (run : PwRun φ) : PwRun φ :=
  { run with report := { run.report with resolved := run.report.resolved + 1 } }

/-- `writes.alerts.append(...)` where the run alerts. -/
def PwRun.alert (run : PwRun φ) (alerting : Bool) (action : PwAlertAction φ) : PwRun φ :=
  if alerting then { run with alerts := run.alerts ++ [action] } else run

/-! ## The lifecycle of one detector state -/

def counted (bucket : PwEngineBucket) (evidence : PwEvidence φ) (state : PwState) : PwState :=
  let counters := advanceCounters evidence.signal state.consecutiveAnomalous state.consecutiveHealthy
  { state with
    consecutiveAnomalous := counters.1
    consecutiveHealthy := counters.2
    lastIntervalStart := some bucket.bucketStart
    dirty := true }

def decision (engine : PwAnomalyEngine) (evidence : PwEvidence φ) (state : PwState) : LifecycleDecision :=
  nextState {
    state := state.state
    signal := evidence.signal
    consecutiveAnomalous := state.consecutiveAnomalous
    consecutiveHealthy := state.consecutiveHealthy
    openAfter := engine.anomalyOpenAfterIntervals
    resolveAfter := engine.anomalyResolveAfterIntervals
    insufficientData := evidence.insufficientData }

def processed (state : PwState) (bucket : PwEngineBucket) : Bool :=
  state.lastIntervalStart.any (fun last => decide (bucket.bucketStart ≤ last))

structure PwJudgement (φ : Type) where
  watch : PropertyWatchRow
  value : PwValue
  bucket : PwEngineBucket
  evidence : PwEvidence φ

section Advance

variable (engine : PwAnomalyEngine) (qradar : QRadarInstance) (j : PwJudgement φ)

/-- `alerting` of one bucket: a bucket in maintenance alerts nothing. -/
def PwJudgement.alerting : Bool := engine.alerting && !j.bucket.inMaintenance

def hold (state : PwState) (run : PwRun φ) : PwRun φ :=
  match run.tracked state with
  | none => run
  | some id =>
    if state.state = .opened ∧ j.evidence.isAnomalous then
      (run.modify id (touch state j.bucket j.evidence)).alert (j.alerting engine)
        (openAction j.watch j.value j.evidence j.bucket id)
    else run

def ensureIncident (state : PwState) (run : PwRun φ) : String × PwState × PwRun φ :=
  match run.tracked state with
  | some id => (id, state, run)
  | none =>
    let id := engine.uuid4 run.issued
    (id, { state with activeAnomalyId := some id },
      { run with
        incidents := run.incidents.set id ⟨newIncident engine qradar j.watch j.value j.bucket j.evidence, true⟩
        issued := run.issued + 1 })

def recordMove (incident : Option String) (previous : AnomalyState) (target : LifecycleDecision) (run : PwRun φ) :
    PwRun φ :=
  match incident with
  | none => run
  | some id =>
    (run.modify id (fun row => { row with state := target.state })).transition engine id previous target.state
      (some j.bucket.bucketStart) target.reason (some j.evidence)

def openedRow (now : Int) (row : PwAnomaly φ) : PwAnomaly φ :=
  { row with openedAt := some now, anomalyEnd := none, severity := j.watch.severity }

def endedRow (row : PwAnomaly φ) : PwAnomaly φ := { row with anomalyEnd := some j.bucket.bucketStart }

def move (previous : AnomalyState) (target : LifecycleDecision) (state : PwState) (run : PwRun φ) :
    PwState × PwRun φ :=
  let state := { state with state := target.state }
  match target.state with
  | .candidate =>
    let (id, state, run) := ensureIncident engine qradar j state run
    (state, recordMove engine j (some id) previous target run)
  | .opened =>
    let (id, state, run) := ensureIncident engine qradar j state run
    let run := recordMove engine j (some id) previous target run
    let run := run.tick.modify id (openedRow j (engine.clock run.reads))
    let state := { state with openAnomalyId := some id }
    let run := (run.modify id (touch state j.bucket j.evidence)).countOpened
    (state, run.alert (j.alerting engine) (openAction j.watch j.value j.evidence j.bucket id))
  | .recovering =>
    let incident := run.tracked state
    let run := recordMove engine j incident previous target run
    (state, match incident with
      | none => run
      | some id => run.modify id (endedRow j))
  | .resolved =>
    let incident := run.tracked state
    let run := recordMove engine j incident previous target run
    let run := match incident with
      | none => run
      | some id => run.tick.modify id (fun row => { row with resolvedAt := some (engine.clock run.reads) })
    ({ state with activeAnomalyId := none, openAnomalyId := none },
      run.countResolved.alert engine.alerting
        (.resolve j.watch.id j.value.valueKey j.evidence.anomalyType.value reasonRecovered))
  | .normal =>
    let incident := run.tracked state
    let run := recordMove engine j incident previous target run
    ({ state with activeAnomalyId := none, openAnomalyId := none }, match incident with
      | none => run
      | some id => run.modify id (endedRow j))
  | .insufficientData | .suppressed => (state, recordMove engine j (run.tracked state) previous target run)

/-- `_advance`. A bucket in maintenance never resolves: only the counters and the watermark move. -/
def advance (state : PwState) (run : PwRun φ) : PwState × PwRun φ :=
  if processed state j.bucket then (state, run)
  else
    let previous := state.state
    let state := counted j.bucket j.evidence state
    let target := decision engine j.evidence state
    if j.bucket.inMaintenance ∧ target.state = .resolved then (state, run)
    else if target.state = previous then (state, hold engine j state run)
    else move engine qradar j previous target state run

end Advance

def retiredRow (now : Int) (anomalyEnd : Option Int) (row : PwAnomaly φ) : PwAnomaly φ :=
  { row with state := .resolved, resolvedAt := some now, anomalyEnd := anomalyEnd }

def retireState (engine : PwAnomalyEngine) (reason : String) (emitAlert : Bool) (state : PwState) (run : PwRun φ) :
    Bool × PwState × PwRun φ :=
  let incident := state.activeAnomalyId.bind (fun id => (run.incidents.get? id).map (fun i => (id, i)))
  let run := match incident with
    | none => run
    | some (id, i) =>
      let previous := state.state
      let run := run.tick.modify id (retiredRow (engine.clock run.reads) state.lastIntervalStart)
      let run := run.transition engine id previous .resolved state.lastIntervalStart reason none
      run.countResolved.alert (emitAlert && engine.alerting && decide (previous = .opened ∨ previous = .recovering))
        (.resolve state.watchId i.row.valueKey state.detector.value reason)
  let changed := decide (state.state ≠ .resolved) || state.activeAnomalyId.isSome || state.openAnomalyId.isSome
  (incident.isSome,
    { state with
      state := .resolved
      consecutiveAnomalous := 0
      consecutiveHealthy := 0
      activeAnomalyId := none
      openAnomalyId := none
      dirty := state.dirty || changed },
    run)

/-! ## Alerts -/

/-- `_alert_input` of an open action. `scope` is the watch's scope in words. -/
def alertInput (digest : Digest) (qradar : QRadarInstance) (scope : Option String) (watch : PropertyWatchRow)
    (valueKey : String) (pwValueId : Option String) (detector : String) (evidence : PwEvidence φ)
    (bucket : PwEngineBucket) (incidentId : String) : AlertInput φ :=
  let shown := " | ".intercalate (splitTupleKey valueKey)
  { fingerprint := pwAnomalyFingerprint digest qradar.id watch.id detector valueKey
    title := detector ++ " on " ++ watch.name ++ ": " ++ shown
    severity := watch.severity
    sourceType := "pw_value"
    sourceId := pwValueId
    description := some evidence.reason
    evidence := some evidence.toDict
    sourceAnomalyIds := some [incidentId]
    context := some ([("instance", .str qradar.name), ("watch", .str watch.name), ("watch_id", .str watch.id),
      ("scope", (scope.map Json.str).getD .null), ("detector_type", .str detector),
      ("severity", .str watch.severity.value), ("value", .str shown),
      ("bucket_start", .str (isoformatUtc bucket.bucketStart)),
      ("bucket_end", .str (isoformatUtc bucket.bucketEnd))] ++
      [("observed", evidence.observedValue.map Json.float), ("expected", evidence.expectedValue.map Json.float),
        ("band_low", evidence.baselineLow.map Json.float), ("band_high", evidence.baselineHigh.map Json.float),
        ("measurement", evidence.fact "observed_measurement")].filterMap (fun item =>
          item.2.bind (fun value => match value with
            | .null => none
            | value => some (item.1, value)))) }

def alertResolution (digest : Digest) (qradar : QRadarInstance) (watchId valueKey detector reason : String) :
    AlertResolution where
  fingerprint := pwAnomalyFingerprint digest qradar.id watchId detector valueKey
  actor := alertActor
  reason := some reason

def applyAction (svc : Service) (digest : Digest) (qradar : QRadarInstance) (scopes : String → Option String)
    (s : Session φ) : PwAlertAction φ → Except Exc (Session φ)
  | .openOrUpdate watch valueKey pwValueId detector evidence bucket incidentId =>
    .ok (openOrUpdate svc s
      (alertInput digest qradar (scopes watch.id) watch valueKey pwValueId detector evidence bucket incidentId)).2
  | .resolve watchId valueKey detector reason =>
    (resolveByFingerprint svc s (alertResolution digest qradar watchId valueKey detector reason)).map Prod.snd

def applyActions (svc : Service) (digest : Digest) (qradar : QRadarInstance)
    (scopes : String → Option String) (s : Session φ) (actions : List (PwAlertAction φ)) : Except Exc (Session φ) :=
  actions.foldlM (applyAction svc digest qradar scopes) s

/-- `alert.context["watch_id"].astext` -/
def watchIdOf (alert : Alert φ) : Option String :=
  (alert.context.find? (fun member => member.1 = "watch_id")).bind (fun member =>
    match member.2 with
    | .str id => some id
    | _ => none)

/-- `resolve_watch_alerts` (`app/services/property_watches.py`): every active alert of the watch, found by the
watch id in its context. -/
def resolveWatchAlerts (u : UnicodeTables) (svc : Service) (watchId actor reason : String) (s : Session φ) :
    Except Exc (Session φ) :=
  if u.strip actor.toList = [] then .error (.value "actor is required")
  else
    let fingerprints := (s.alerts.filter (fun a =>
      a.sourceType = "pw_value" && a.active && watchIdOf a = some watchId)).map (fun a => a.dedupKey)
    if fingerprints = [] then .ok s
    else .ok (applyBulk svc s [] (fingerprints.map (fun fp => ⟨fp, actor, some reason⟩))).2

/-! ## One (value, detector) -/

def OfPair (value : PwValue) (detector : PwAnomalyType) (row : PwAnomaly φ) : Prop :=
  row.pwValueId = some value.id ∧ row.detectorType = detector

/-- A bucket of the watch is judged, the state is retired by the engine, or the watch is disabled. `scopes` is the scope
of each watch in words. -/
inductive PwPairEvent (value : PwValue) (detector : PwAnomalyType) (φ : Type) where
  | bucket (watch : PropertyWatchRow) (bucket : PwEngineBucket) (evidence : PwEvidence φ)
      (scopes : String → Option String) (watch_id : watch.id = value.watchId)
      (detector_eq : evidence.anomalyType = detector)
  | retire (reason : String)
  | disable (actor reason : String)

def PwPairEvent.Named (u : UnicodeTables) {value : PwValue} {detector : PwAnomalyType} :
    PwPairEvent value detector φ → Prop
  | .disable actor _ => u.strip actor.toList ≠ []
  | _ => True

structure PwPair (φ : Type) where
  state : PwState
  run : PwRun φ
  alerts : Session φ

def pairFingerprint (engine : PwAnomalyEngine) (qradar : QRadarInstance) (value : PwValue)
    (detector : PwAnomalyType) : String :=
  pwAnomalyFingerprint engine.digest qradar.id value.watchId detector.value value.valueKey

/-- A fresh state of the pair: no incident of it is live, no id to come is in use, and no alert is active. -/
structure PwPair.Fresh (engine : PwAnomalyEngine) (svc : Service) (qradar : QRadarInstance) (value : PwValue)
    (detector : PwAnomalyType) (p : PwPair φ) : Prop where
  state : ∃ id dirty, p.state = {
    id := id, watchId := value.watchId, valueId := value.id, detector := detector,
    valueVersion := value.watchVersion, dirty := dirty }
  dead : ∀ id i, p.run.incidents.get? id = some i → OfPair value detector i.row → i.row.state.active = false
  fresh : ∀ n, p.run.issued ≤ n → p.run.incidents.get? (engine.uuid4 n) = none
  alertIds : (p.alerts.alerts.map (fun a => a.id)).Nodup ∧
    ∀ n, p.alerts.issued ≤ n → ∀ a ∈ p.alerts.alerts, a.id ≠ svc.uuid4 n
  oneActive : ∀ a ∈ p.alerts.alerts, ∀ b ∈ p.alerts.alerts, a.active → b.active → a.dedupKey = b.dedupKey → a = b
  quiet : ∀ a ∈ p.alerts.alerts, a.active → a.dedupKey ≠ pairFingerprint engine qradar value detector

/-- One event, with the alert actions it emitted applied in order. Disabling skips a state that tracks nothing. -/
def pairStep (engine : PwAnomalyEngine) (svc : Service) (qradar : QRadarInstance) (value : PwValue)
    (detector : PwAnomalyType) (p : PwPair φ) : PwPairEvent value detector φ → Except Exc (PwPair φ)
  | .bucket watch bucket evidence scopes _ _ => do
      let moved := advance engine qradar ⟨watch, value, bucket, evidence⟩ p.state p.run
      let alerts ← applyActions svc engine.digest qradar scopes p.alerts
        (moved.2.alerts.drop p.run.alerts.length)
      return ⟨moved.1, moved.2, alerts⟩
  | .retire reason => do
      let retired := retireState engine reason true p.state p.run
      let alerts ← applyActions svc engine.digest qradar (fun _ => none) p.alerts
        (retired.2.2.alerts.drop p.run.alerts.length)
      return ⟨retired.2.1, retired.2.2, alerts⟩
  | .disable actor reason => do
      let retired := if p.state.activeAnomalyId = none then (p.state, p.run)
        else (retireState engine reason false p.state p.run).2
      let alerts ← resolveWatchAlerts engine.digest.toUnicodeTables svc value.watchId actor reason p.alerts
      return ⟨retired.1, retired.2, alerts⟩

abbrev PwPairTaken (value : PwValue) (detector : PwAnomalyType) (φ : Type) :=
  Taken (PwPair φ) (PwPairEvent value detector φ) (PwPair φ)

section Taken

variable {value : PwValue} {detector : PwAnomalyType} (e : PwPairTaken value detector φ)

def PwPairTaken.InMaintenance : Prop :=
  match e.input with
  | .bucket _ bucket _ _ _ _ => bucket.inMaintenance = true
  | _ => False

def PwPairTaken.Processed : Prop :=
  match e.input with
  | .bucket _ bucket _ _ _ _ => processed e.before.state bucket = true
  | _ => False

def PwPairTaken.Pages (id : String) : Prop :=
  match e.input with
  | .bucket _ bucket evidence _ _ _ =>
    processed e.before.state bucket = false ∧ evidence.isAnomalous = true ∧ bucket.inMaintenance = false ∧
      (e.before.state.state = .opened ∨ e.output.state.state = .opened) ∧ e.output.state.activeAnomalyId = some id
  | _ => False

end Taken

/-! ## Alert rounds

The alert actions of a run go to `apply_bulk` in rounds. A round holds each fingerprint at most once among its opens
and once among its resolves, and an open after a resolve of its fingerprint starts the next round. -/

def PwAlertAction.fingerprint (digest : Digest) (instanceId : String) : PwAlertAction φ → String
  | .openOrUpdate watch valueKey _ detector _ _ _ => pwAnomalyFingerprint digest instanceId watch.id detector valueKey
  | .resolve watchId valueKey detector _ => pwAnomalyFingerprint digest instanceId watchId detector valueKey

def PwAlertAction.work (digest : Digest) (qradar : QRadarInstance) (scopes : String → Option String) :
    PwAlertAction φ → AlertWork φ
  | .openOrUpdate watch valueKey pwValueId detector evidence bucket incidentId => .openOrUpdate
      (alertInput digest qradar (scopes watch.id) watch valueKey pwValueId detector evidence bucket incidentId)
  | .resolve watchId valueKey detector reason =>
    .resolve (alertResolution digest qradar watchId valueKey detector reason)

structure AlertRound (φ : Type) where
  opens : Dict String (PwAlertAction φ) := []
  resolves : Dict String (PwAlertAction φ) := []

/-- The loop of `_rounds`: the rounds that are done, and the current one. -/
structure Rounds (φ : Type) where
  done : List (AlertRound φ) := []
  current : AlertRound φ := {}

def Rounds.add (digest : Digest) (instanceId : String) (r : Rounds φ) (item : PwAlertAction φ) : Rounds φ :=
  let fingerprint := item.fingerprint digest instanceId
  match item with
  | .openOrUpdate .. =>
    if (r.current.resolves.get? fingerprint).isSome then
      { done := r.done ++ [r.current], current := { opens := [(fingerprint, item)] } }
    else
      -- the newest reading of a refreshed alert wins
      { r with current := { r.current with opens := r.current.opens.set fingerprint item } }
  | .resolve .. => { r with current := { r.current with resolves := r.current.resolves.set fingerprint item } }

def rounds (digest : Digest) (instanceId : String) (actions : List (PwAlertAction φ)) :
    List (List (PwAlertAction φ) × List (PwAlertAction φ)) :=
  let r := actions.foldl (Rounds.add digest instanceId) {}
  ((r.done ++ [r.current]).filter (fun round => !round.opens.isEmpty || !round.resolves.isEmpty)).map
    (fun round => (round.opens.map Prod.snd, round.resolves.map Prod.snd))

def applyRound (svc : Service) (work : PwAlertAction φ → AlertWork φ)
    (round : List (PwAlertAction φ) × List (PwAlertAction φ)) (s : Session φ) :
    List (Option AlertResult) × Session φ :=
  let inputs := round.1.filterMap (fun item => (work item).input?)
  let resolutions := round.2.filterMap (fun item => (work item).resolution?)
  let ((openedOrUpdated, resolved), s) := applyBulk svc s inputs resolutions
  (openedOrUpdated.map some ++ resolved, s)

/-- `_apply_alert_actions`, with the results it passes on to the enqueuer. -/
def applyAlertActions (svc : Service) (digest : Digest) (qradar : QRadarInstance)
    (scopes : String → Option String) (s : Session φ) (actions : List (PwAlertAction φ)) :
    List (Option AlertResult) × Session φ :=
  (rounds digest qradar.id actions).foldl
    (fun (results, s) round =>
      let (reported, s) := applyRound svc (PwAlertAction.work digest qradar scopes) round s
      (results ++ reported, s)) ([], s)

end QRadarDashboard.PropertyWatch
