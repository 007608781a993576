import QRadarDashboard.Alerts.Service
import QRadarDashboard.Lib.DateTime
import QRadarDashboard.Lib.ReadCommitted
import QRadarDashboard.Lib.UnitOfWork
import QRadarDashboard.Security.Redaction

/-!
# Notifications (`app/alerts/dispatcher.py`)

A run holds no lock on the rows it selected while it sends.
-/

namespace QRadarDashboard.Alerts
open Lib Lib.ReadCommitted Security

inductive NotificationStatus where
  | pending | sent | failed | deadLetter | suppressed
deriving DecidableEq

structure Notification where
  id : String
  channel : String
  status : NotificationStatus := .pending
  attempts : Int := 0
  maxAttempts : Int := 5
  nextAttemptAt : Option Int := none
  sentAt : Option Int := none
  errorMessage : Option String := none

/-- What a notifier answers: an exception of another kind counts as a retryable failure. -/
inductive SendOutcome where
  | delivered
  | failure (message : String) (permanent : Bool)
deriving DecidableEq

/-- What a run reads besides the table: its clock, and for each send the outcome and the delay drawn for a retry. -/
structure DispatchRun where
  clock : Nat → Int
  notifiers : List String
  outcome : Nat → SendOutcome
  backoffDelay : Int → Nat → Int
  limit : Nat := 100

def registered (run : DispatchRun) (notif : Notification) : Bool := notif.channel ∈ run.notifiers

def Notification.waiting (notif : Notification) : Bool := notif.status = .pending || notif.status = .failed

def isDue (now : Int) (notif : Notification) : Bool :=
  notif.waiting && notif.nextAttemptAt.all (fun nextAttemptAt => nextAttemptAt ≤ now)

def handleFailure (run : DispatchRun) (position : Nat) (notif : Notification) (message : String) (permanent : Bool) :
    Notification :=
  let notif := { notif with errorMessage := some (String.ofList (message.toList.take 2000)) }
  let exhausted := notif.attempts ≥ notif.maxAttempts
  if permanent || exhausted then { notif with status := .deadLetter, nextAttemptAt := none }
  else
    { notif with
      status := .failed
      nextAttemptAt := some (run.clock (position + 1) + run.backoffDelay notif.attempts position) }

/-- `_attempt` on the row at a position of the run's list. -/
def attempt (run : DispatchRun) (position : Nat) (notif : Notification) : Notification :=
  let counted := { notif with attempts := notif.attempts + 1 }
  if !registered run notif then
    { counted with status := .deadLetter, errorMessage := some ("no notifier registered for " ++ notif.channel) }
  else
    match run.outcome position with
    | .failure message permanent => handleFailure run position counted message permanent
    | .delivered => { counted with status := .sent, sentAt := some (run.clock (position + 1)), errorMessage := none }

def Notification.flush (loaded current stored : Notification) : Notification :=
  { stored with
    status := written loaded.status current.status stored.status
    attempts := written loaded.attempts current.attempts stored.attempts
    nextAttemptAt := written loaded.nextAttemptAt current.nextAttemptAt stored.nextAttemptAt
    sentAt := written loaded.sentAt current.sentAt stored.sentAt
    errorMessage := written loaded.errorMessage current.errorMessage stored.errorMessage }

structure Notifications where
  rows : List Notification
  ids_nodup : (rows.map (fun row => row.id)).Nodup

def selectDue (run : DispatchRun) (table : Notifications) : List Notification :=
  (sortOn (fun notif : Notification => toLex (notif.nextAttemptAt.isNone, notif.nextAttemptAt.getD 0))
    (table.rows.filter (isDue (run.clock 0)))).take run.limit

/-- What the flush leaves of a row: `attempted` lists the rows as loaded and as they are now. -/
def flushRow (attempted : List (Notification × Notification)) (row : Notification) : Notification :=
  match attempted.find? (fun pair => pair.1.id = row.id) with
  | none => row
  | some (loaded, current) => loaded.flush current row

theorem flushRow_id (attempted : List (Notification × Notification)) (row : Notification) :
    (flushRow attempted row).id = row.id := by
  rw [flushRow]
  split <;> rfl

def Notifications.flush (attempted : List (Notification × Notification)) (table : Notifications) : Notifications where
  rows := table.rows.map (flushRow attempted)
  ids_nodup := by
    have hids : (table.rows.map (flushRow attempted)).map (fun row => row.id) = table.rows.map (fun row => row.id) := by
      rw [List.map_map]
      exact List.map_congr_left (fun row _ => flushRow_id attempted row)
    rw [hids]
    exact table.ids_nodup

inductive DispatchTx where
  | selecting (run : DispatchRun)
  | sending (run : DispatchRun) (attempted : List (Notification × Notification)) (due : List Notification)

/-- `dispatch_due` and the commit of `dispatch_notifications`. Others may commit between two sends. -/
def dispatchNext : DispatchTx → Statement Notifications Unit DispatchTx
  | .selecting run => .read (fun table => .sending run [] (selectDue run table))
  | .sending run attempted (notif :: due) =>
    .read (fun _ => .sending run (attempted ++ [(notif, attempt run attempted.length notif)]) due)
  | .sending _ attempted [] => .commit (Notifications.flush attempted)

/-!
## From an alert to a message (`app/alerts/dispatcher.py`)

`enqueue` stores a rendered and redacted payload for each route; what a channel sends is read back from the payload.
-/

variable {φ : Type}

abbrev Uuid := BitVec 128

def Uuid.digit (u : Uuid) (position : Nat) : Char := Nat.digitChar (u.toNat / 16 ^ (31 - position) % 16)

def Uuid.digits (u : Uuid) (start stop : Nat) : List Char := (List.range' start (stop - start)).map u.digit

def Uuid.str (u : Uuid) : String := String.ofList
  (u.digits 0 8 ++ '-' :: u.digits 8 12 ++ '-' :: u.digits 12 16 ++ '-' :: u.digits 16 20 ++ '-' :: u.digits 20 32)

def AlertTransition.value : AlertTransition → String
  | .opened => "OPENED"
  | .acknowledged => "ACKNOWLEDGED"
  | .resolved => "RESOLVED"

def AlertTransition.ofValue (value : String) : Option AlertTransition :=
  [AlertTransition.opened, .acknowledged, .resolved].find? (fun t => t.value = value)

def severityOfValue (value : String) : Option Severity :=
  [Severity.critical, .high, .medium, .low, .info].find? (fun s => s.value = value)

def shownEvidence : List String := ["observed_value", "expected_value", "deviation_score", "reason"]

def renderFields (alert : Alert φ) : JsonObject φ :=
  [("occurrences", .int alert.occurrenceCount),
    ("first_seen", match DateTime.ofWall (alert.firstSeenAt + DateTime.epochWall) with
      | some seen => .str (String.ofList seen.isoformat)
      | none => .null)] ++
    alert.evidenceSnapshot.filter (fun item => item.1 ∈ shownEvidence)

def render (alert : Alert φ) (transition : AlertTransition) : Json φ := .obj
  [("title", .str alert.title),
    ("body", .str (orReason alert.description alert.title)),
    ("severity", .str alert.severity.value),
    ("transition", .str transition.value),
    ("alert_id", .str alert.id),
    ("fingerprint", .str alert.fingerprint),
    ("fields", .obj (renderFields alert))]

structure Route where
  channel : String
  target : String

structure QueuedNotification (φ : Type) where
  alertId : String
  channel : String
  target : String
  transition : AlertTransition
  maxAttempts : Int
  nextAttemptAt : Int
  payload : Json φ

structure NotifySettings where
  notifySendRecovery : Bool := true
  notifyMaxRetries : Int := 5

def QueuedNotification.sameKey (a b : QueuedNotification φ) : Bool :=
  a.alertId = b.alertId && a.transition = b.transition && a.channel = b.channel && a.target = b.target

/-- The rows created for the routes of an alert; `clock` is read once for each. -/
def enqueue (settings : NotifySettings) (clock : Nat → Int) (routes : List Route) (table : List (QueuedNotification φ))
    (alert : Alert φ) (transition : AlertTransition) : List (QueuedNotification φ) :=
  if transition = .resolved ∧ !settings.notifySendRecovery then []
  else
    routes.zipIdx.foldl (fun created item =>
      let notif : QueuedNotification φ := {
        alertId := alert.id
        channel := item.1.channel
        target := item.1.target
        transition
        maxAttempts := settings.notifyMaxRetries + 1
        nextAttemptAt := clock item.2
        payload := redact (render alert transition) }
      -- the insert of a duplicate is undone alone
      if (table ++ created).any notif.sameKey then created else created ++ [notif]) []

structure NotificationMessage (φ : Type) where
  title : Json φ
  body : Json φ
  severity : Severity
  transition : AlertTransition
  alertId : Json φ
  fingerprint : Json φ
  fields : Json φ

/-- A value that `or` passes over. -/
def isFalsy [Zero φ] [DecidableEq φ] : Json φ → Bool
  | .null => true
  | .bool b => !b
  | .int n => n = 0
  | .float x => x = 0
  | .str s => s = ""
  | .arr items => items.isEmpty
  | .obj members => members.isEmpty

def asText : Json φ → Option String
  | .str s => some s
  | _ => none

/-- `_message_from_payload`: none where an enumeration refuses its value, or the payload is no object. -/
def messageFromPayload [Zero φ] [DecidableEq φ] (notif : QueuedNotification φ) : Option (NotificationMessage φ) := do
  let p : Dict String (Json φ) ← if isFalsy notif.payload then some [] else
    match notif.payload with
    | .obj members => some members
    | _ => none
  let severity ← (asText ((p.get? "severity").getD (.str "MEDIUM"))).bind severityOfValue
  let stored := (p.get? "transition").getD .null
  let transition ← if isFalsy stored then some notif.transition else (asText stored).bind AlertTransition.ofValue
  return {
    title := (p.get? "title").getD (.str "alert")
    body := (p.get? "body").getD (.str "")
    severity
    transition
    alertId := (p.get? "alert_id").getD (.str notif.alertId)
    fingerprint := (p.get? "fingerprint").getD (.str "")
    fields := (p.get? "fields").getD (.obj []) }

end QRadarDashboard.Alerts
