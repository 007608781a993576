import QRadarDashboard.Basic
import QRadarDashboard.Lib.Dict
import QRadarDashboard.Lib.Json
import QRadarDashboard.Lib.PyText
import QRadarDashboard.Lib.Sort
import Mathlib.Data.List.Dedup
import Mathlib.Data.String.Basic

/-!
# The alert service (`app/alerts/service.py`)

No other writer is modelled, so the insert never meets the unique index on active alerts.
-/

namespace QRadarDashboard.Alerts
open Lib

variable {φ : Type}

inductive AlertStatus where
  | opened | acknowledged | resolved
deriving DecidableEq

inductive AlertTransition where
  | opened | acknowledged | resolved
deriving DecidableEq

structure AlertInput (φ : Type) where
  fingerprint : String
  title : String
  severity : Severity
  sourceType : String
  sourceId : Option String
  description : Option String := none
  evidence : Option (JsonObject φ) := none
  sourceAnomalyIds : Option (List String) := none
  context : Option (JsonObject φ) := none

structure Alert (φ : Type) where
  id : String
  dedupKey : String
  fingerprint : String
  title : String
  description : Option String
  severity : Severity
  status : AlertStatus
  sourceType : String
  sourceId : Option String
  context : JsonObject φ
  openedAt : Int
  firstSeenAt : Int
  acknowledgedAt : Option Int := none
  acknowledgedBy : Option String := none
  resolvedAt : Option Int := none
  resolvedBy : Option String := none
  resolutionReason : Option String := none
  occurrenceCount : Int
  lastSeenAt : Option Int
  evidenceSnapshot : JsonObject φ
  sourceAnomalyIds : List String

structure AlertResult where
  alertId : String
  opened : Bool
  updated : Bool
  transition : Option AlertTransition

structure AlertResolution where
  fingerprint : String
  actor : String
  reason : Option String := none

/-- The clock's readings and the ids the database hands out, one after the other. -/
structure Service where
  clock : Nat → Int
  uuid4 : Nat → String

structure Session (φ : Type) where
  alerts : List (Alert φ)
  reads : Nat := 0
  issued : Nat := 0

def Alert.active (a : Alert φ) : Bool := a.status ≠ .resolved

namespace Session

def findActive (s : Session φ) (fingerprint : String) : Option (Alert φ) :=
  s.alerts.find? (fun a => a.dedupKey = fingerprint && a.active)

def update (s : Session φ) (id : String) (f : Alert φ → Alert φ) : Session φ :=
  { s with alerts := s.alerts.map (fun a => if a.id = id then f a else a) }

/-- `self._clock()` was called. -/
def tick (s : Session φ) : Session φ := { s with reads := s.reads + 1 }

end Session

/-! ## One condition -/

def refresh (data : AlertInput φ) (now : Int) (existing : Alert φ) : Alert φ :=
  { existing with
    occurrenceCount := existing.occurrenceCount + 1
    lastSeenAt := some now
    severity := data.severity
    evidenceSnapshot := data.evidence.getD existing.evidenceSnapshot
    sourceAnomalyIds := match data.sourceAnomalyIds with
      | none | some [] => existing.sourceAnomalyIds
      | some ids => sortOn (fun i => i) (existing.sourceAnomalyIds ++ ids).dedup }

def newAlert (data : AlertInput φ) (now : Int) (id : String) : Alert φ :=
  { id
    dedupKey := data.fingerprint
    fingerprint := data.fingerprint
    title := data.title
    description := data.description
    severity := data.severity
    status := .opened
    sourceType := data.sourceType
    sourceId := data.sourceId
    context := data.context.getD []
    openedAt := now
    firstSeenAt := now
    lastSeenAt := some now
    occurrenceCount := 1
    evidenceSnapshot := data.evidence.getD []
    sourceAnomalyIds := data.sourceAnomalyIds.getD [] }

/-- `session.add(alert)` and the flush that gives it its id. -/
def Session.insert (svc : Service) (s : Session φ) (data : AlertInput φ) (now : Int) : String × Session φ :=
  let id := svc.uuid4 s.issued
  (id, { s with alerts := s.alerts ++ [newAlert data now id], issued := s.issued + 1 })

def refreshed (id : String) : AlertResult :=
  { alertId := id, opened := false, updated := true, transition := none }

def openOrUpdate (svc : Service) (s : Session φ) (data : AlertInput φ) : AlertResult × Session φ :=
  let now := svc.clock s.reads
  let s := s.tick
  match s.findActive data.fingerprint with
  | some existing => (refreshed existing.id, s.update existing.id (refresh data now))
  | none =>
    let (id, s) := s.insert svc data now
    ({ alertId := id, opened := true, updated := false, transition := some .opened }, s)

def acknowledge (svc : Service) (s : Session φ) (alertId actor : String) :
    Except Exc (AlertResult × Session φ) :=
  match s.alerts.find? (fun a => a.id = alertId) with
  | none => .error (.value "alert not found")
  | some alert =>
    if alert.status ≠ .opened then
      .ok ({ alertId, opened := false, updated := false, transition := none }, s)
    else
      let now := svc.clock s.reads
      .ok ({ alertId, opened := false, updated := true, transition := some .acknowledged },
        s.tick.update alertId (fun a =>
          { a with status := .acknowledged, acknowledgedAt := some now, acknowledgedBy := some actor }))

def resolved (now : Int) (actor : String) (reason : Option String) (a : Alert φ) : Alert φ :=
  { a with status := .resolved, resolvedAt := some now, resolvedBy := some actor, resolutionReason := reason }

def resolve (svc : Service) (s : Session φ) (alertId actor : String) (reason : Option String) :
    Except Exc (AlertResult × Session φ) :=
  match s.alerts.find? (fun a => a.id = alertId) with
  | none => .error (.value "alert not found")
  | some alert =>
    if alert.status = .resolved then
      .ok ({ alertId, opened := false, updated := false, transition := none }, s)
    else
      .ok ({ alertId, opened := false, updated := true, transition := some .resolved },
        s.tick.update alertId (resolved (svc.clock s.reads) actor reason))

def resolveByFingerprint (svc : Service) (s : Session φ) (item : AlertResolution) :
    Except Exc (Option AlertResult × Session φ) := do
  match s.findActive item.fingerprint with
  | none => return (none, s)
  | some alert =>
    let (result, s) ← resolve svc s alert.id item.actor item.reason
    return (some result, s)

/-! ## A tick's work in bulk -/

def activeAlerts (s : Session φ) (fingerprints : List String) : Dict String String :=
  (s.alerts.filter (fun a => a.dedupKey ∈ fingerprints && a.active)).foldl
    (fun active a => active.set a.dedupKey a.id) []

structure Bulk (φ : Type) where
  session : Session φ
  active : Dict String String
  results : Dict Nat AlertResult := []

def passA (svc : Service) (b : Bulk φ) (item : AlertInput φ × Nat) : Bulk φ :=
  match b.active.get? item.1.fingerprint with
  | none => b
  | some id =>
    let now := svc.clock b.session.reads
    { b with
      session := b.session.tick.update id (refresh item.1 now)
      results := b.results.set item.2 (refreshed id) }

def passB (svc : Service) (b : Bulk φ) (item : AlertInput φ × Nat) : Bulk φ :=
  if (b.results.get? item.2).isSome then b
  else
    let now := svc.clock b.session.reads
    let s := b.session.tick
    match b.active.get? item.1.fingerprint with
    | some id =>
      { b with
        session := s.update id (refresh item.1 now)
        results := b.results.set item.2 (refreshed id) }
    | none =>
      let (id, s) := s.insert svc item.1 now
      { session := s
        active := b.active.set item.1.fingerprint id
        results := b.results.set item.2
          { alertId := id, opened := true, updated := false, transition := some .opened } }

structure Resolving (φ : Type) where
  session : Session φ
  active : Dict String String
  resolved : List (Option AlertResult) := []

def resolveOne (svc : Service) (r : Resolving φ) (item : AlertResolution) : Resolving φ :=
  match r.active.get? item.fingerprint with
  | none => { r with resolved := r.resolved ++ [none] }
  | some id =>
    { session := r.session.tick.update id (resolved (svc.clock r.session.reads) item.actor item.reason)
      active := r.active.pop item.fingerprint
      resolved := r.resolved ++
        [some { alertId := id, opened := false, updated := true, transition := some .resolved }] }

def bulkFingerprints (openOrUpdates : List (AlertInput φ)) (resolutions : List AlertResolution) : List String :=
  openOrUpdates.map (fun data => data.fingerprint) ++ resolutions.map (fun item => item.fingerprint)

def applyBulk (svc : Service) (s : Session φ) (openOrUpdates : List (AlertInput φ))
    (resolutions : List AlertResolution) :
    (List AlertResult × List (Option AlertResult)) × Session φ :=
  let start : Bulk φ :=
    { session := s, active := activeAlerts s (bulkFingerprints openOrUpdates resolutions) }
  let refreshes := openOrUpdates.zipIdx.foldl (passA svc) start
  let opened := openOrUpdates.zipIdx.foldl (passB svc) refreshes
  let done := resolutions.foldl (resolveOne svc) { session := opened.session, active := opened.active }
  (((List.range openOrUpdates.length).filterMap (fun i => opened.results.get? i), done.resolved), done.session)

/-! ## Fingerprints (`app/alerts/fingerprint.py`) -/

/-- What a fingerprint is made with: `sha256` in hexadecimal, and the characters `str.strip` and `str.lower` know. -/
structure Digest extends UnicodeTables where
  sha256 : String → String
  lower : List Char → List Char

def normalise (digest : Digest) (value : String) : String :=
  String.ofList (digest.lower (digest.strip value.toList))

def computeFingerprint (digest : Digest) (sourceType sourceId condition : String)
    (subtype : Option String := none) : String :=
  let parts := [normalise digest sourceType, normalise digest sourceId, normalise digest condition] ++
    (subtype.map (normalise digest)).toList
  let hex := String.ofList ((digest.sha256 ("|".intercalate parts)).toList.take 32)
  condition ++ ":" ++ hex

def anomalyFingerprint (digest : Digest) (logSourceId anomalyType : String) : String :=
  computeFingerprint digest "log_source" logSourceId "anomaly" (some anomalyType)

def customRuleBreachFingerprint (digest : Digest) (ruleId : String) : String :=
  computeFingerprint digest "custom_rule" ruleId "custom_rule_breach"

end QRadarDashboard.Alerts
