import QRadarDashboard.History.State
import QRadarDashboard.Lib.Json

/-!
# The scope lifecycle (`app/history/lifecycle.py`)
-/

namespace QRadarDashboard.History
open Lib

variable {φ : Type}

def maxReasonLength : Nat := 255

def HistoryFamily.perSource : HistoryFamily → Bool
  | .waf | .ips => true
  | _ => false

def HistoryState.readingOrWaiting : HistoryState → Bool
  | .reading | .waiting => true
  | _ => false

def HistoryState.finished : HistoryState → Bool
  | .complete | .partly | .unavailable => true
  | _ => false

def notEligibleReason : String :=
  "this source already collected live data; history cannot be read before it " ++
  "(disable the profile and create it again to read its history)"

def restartReason : String := "read history now: topping up"

def switchedOffReason : String := "history reading was switched off"

/-- `text` cut to `limit` characters, ending in "…" when it was cut. -/
def boundedReason (text : String) (limit : Nat := maxReasonLength) : String :=
  if text.length ≤ limit then text
  else String.ofList (text.toList.take (limit - 1)) ++ "…"

/-! ## The decision -/

inductive Answer where
  | yes | no

/-- The decision row's columns the lifecycle reads. The last fields are the checks of `__post_init__`. -/
structure DecisionView where
  answer : Answer
  days : Option Int := none
  startRequestedAt : Option Int := none
  startRequestedBy : Option String := none
  stopRequestedAt : Option Int := none
  stopRequestedBy : Option String := none
  days_ok : answer = .yes ↔ days.isSome
  start_ok : startRequestedAt.isSome = startRequestedBy.isSome
  stop_ok : stopRequestedAt.isSome = stopRequestedBy.isSome
  requests_ok : startRequestedAt.isSome ∨ stopRequestedAt.isSome → answer = .yes

inductive ConsoleMode where
  | undecided | no | active | stopped
deriving DecidableEq

def consoleMode : Option DecisionView → ConsoleMode
  | none => .undecided
  | some decision =>
    match decision.answer with
    | .no => .no
    | .yes =>
      match decision.stopRequestedAt, decision.startRequestedAt with
      | none, _ => .active
      | some _, none => .stopped
      | some stop, some start => if stop > start then .stopped else .active

/-! ## The row and what a tick does to it -/

structure ScopeRowView (φ : Type) where
  state : HistoryState
  daysRequested : Option Int := none
  daysTarget : Option Int := none
  targetStart : Option Int := none
  floor : Option Int := none
  through : Option Int := none
  anchor : Option Int := none
  startedAt : Option Int := none
  finishedAt : Option Int := none
  reason : Option String := none
  progress : Option (JsonObject φ) := none

inductive ActionKind where
  | none | create | transition | step
deriving DecidableEq

structure ScopeAction where
  kind : ActionKind
  state : Option HistoryState := none
  trigger : Option HistoryTrigger := none
  reason : String := ""
  anchor : Option Int := none
deriving DecidableEq

def noAction (reason : String) : ScopeAction := { kind := .none, reason }

def moving (kind : ActionKind) (current : HistoryState) (trigger : HistoryTrigger)
    (reason : Option String := none) (anchor : Option Int := none) : Except Exc ScopeAction := do
  let change ← nextState current trigger
  return { kind, state := some change.state, trigger := some trigger,
           reason := boundedReason (orReason reason change.reason), anchor }

def checkLive (hasLiveData : Bool) (liveAnchor : Option Int) (family : HistoryFamily) :
    Except Exc Unit :=
  if family.perSource then .ok ()
  else if hasLiveData ≠ liveAnchor.isSome then
    .error (.lifecycle "a console-wide scope has live data exactly when it has a live anchor")
  else .ok ()

def createAction (family : HistoryFamily) (hasLiveData : Bool) (liveAnchor : Option Int) :
    Except Exc ScopeAction :=
  if !family.perSource then
    if hasLiveData then moving .create .notRequested .requestReady none liveAnchor
    else moving .create .notRequested .requestAwaitingAnchor
  else if hasLiveData then moving .create .notRequested .notEligible (some notEligibleReason)
  else moving .create .notRequested .requestReady

def finishedAction (family : HistoryFamily) (decision : DecisionView) (row : ScopeRowView φ)
    (liveAnchor : Option Int) : Except Exc ScopeAction :=
  match decision.startRequestedAt, row.finishedAt with
  | none, _ => .ok (noAction "the scope finished and nobody asked to read again")
  | some _, none => .error (.lifecycle s!"a {row.state.value} scope has no finished_at")
  | some started, some finished =>
    if started ≤ finished then
      .ok (noAction "the scope finished after the last request to read history")
    else if family.perSource then
      .ok (noAction "a finished source has live data; history cannot be read again")
    else moving .transition row.state .restart (some restartReason) liveAnchor

def rowAction (family : HistoryFamily) (decision : DecisionView) (row : ScopeRowView φ)
    (hasLiveData : Bool) (liveAnchor : Option Int) : Except Exc ScopeAction :=
  match row.state with
  | .waiting =>
    if hasLiveData then moving .transition .waiting .anchorFound none liveAnchor
    else .ok (noAction "the scope waits for its first live bucket")
  | .reading =>
    .ok { kind := .step, state := some .reading, reason := "the scope reads its next step" }
  | .complete | .partly | .unavailable => finishedAction family decision row liveAnchor
  | .notRequested | .notEligible => .ok (noAction "the scope is not eligible for history")

def currentState : Option (ScopeRowView φ) → HistoryState
  | some row => row.state
  | none => .notRequested

def scopeAction (family : HistoryFamily) (mode : ConsoleMode) (decision : Option DecisionView)
    (row : Option (ScopeRowView φ)) (hasLiveData : Bool) (liveAnchor : Option Int)
    (switchOn : Bool) : Except Exc ScopeAction := do
  if !family.inScopeTable then throw (.lifecycle s!"{family.value} has no scope row")
  checkLive hasLiveData liveAnchor family
  let current := currentState row
  if mode = .undecided ∨ mode = .no then return noAction "the console has no Yes answer"
  match decision with
  | none => throw (.lifecycle "an ACTIVE or STOPPED console has a decision")
  | some decision =>
    if !switchOn then
      if current.readingOrWaiting then
        moving .transition current .switchedOff (some switchedOffReason)
      else return noAction "history reading is switched off"
    else if mode = .stopped then
      if current.readingOrWaiting then
        let operator := orReason decision.stopRequestedBy "an operator"
        moving .transition current .stoppedByOperator (some s!"stopped by {operator}")
      else return noAction "an operator stopped history reading"
    else
      match row with
      | none => createAction family hasLiveData liveAnchor
      | some row => rowAction family decision row hasLiveData liveAnchor

/-! ## Rows -/

structure ScopeRow (φ : Type) extends ScopeRowView φ where
  instanceId : String
  family : HistoryFamily
  scopeKey : String
  lastErrorClass : Option String := none
  lastErrorAt : Option Int := none

def checkKey (family : HistoryFamily) (scopeKey : String) : Except Exc Unit :=
  if !family.inScopeTable then .error (.lifecycle s!"{family.value} has no scope row")
  else if family.perSource ≠ decide (scopeKey ≠ "") then
    .error (.lifecycle "WAF and IPS scopes have a source key and the others have none")
  else .ok ()

/-- The row of a `CREATE` action: nothing searched. -/
def newScopeRow (action : ScopeAction) (instanceId : String) (family : HistoryFamily)
    (scopeKey : String) (decision : DecisionView) (now : Int) : Except Exc (ScopeRow φ) :=
  match action.kind, action.state with
  | .create, some state => do
      checkKey family scopeKey
      match decision.days with
      | none => throw (.lifecycle "a scope is created from a Yes decision")
      | some days =>
        return {
          instanceId, family, scopeKey, state
          daysRequested := some days
          anchor := action.anchor
          startedAt := if state = .reading then some now else none
          finishedAt := if state = .notEligible then some now else none
          reason := some (boundedReason action.reason)
          progress := some [] }
  | _, _ => .error (.lifecycle "new_scope_row needs a CREATE action")

/-- The row after a `TRANSITION` action; it keeps what the row holds. -/
def transitionRow (action : ScopeAction) (instanceId : String) (family : HistoryFamily)
    (scopeKey : String) (row : ScopeRowView φ) (decision : DecisionView) (now : Int) :
    Except Exc (ScopeRow φ) :=
  match action.kind, action.state with
  | .transition, some state => do
      checkKey family scopeKey
      let values : ScopeRow φ := {
        row with
        instanceId, family, scopeKey, state
        daysRequested := if decision.days.isSome then decision.days else row.daysRequested
        reason := some (boundedReason action.reason)
        progress := some (row.progress.getD []) }
      if state = .reading then
        return { values with
          anchor := if action.anchor.isSome then action.anchor else row.anchor
          startedAt := some now
          finishedAt := none }
      else return { values with finishedAt := some now }
  | _, _ => .error (.lifecycle "transition_row needs a TRANSITION action")

def scopeRow (view : ScopeRowView φ) (instanceId : String) (family : HistoryFamily)
    (scopeKey : String) : Except Exc (ScopeRow φ) := do
  checkKey family scopeKey
  return { view with instanceId, family, scopeKey, progress := some (view.progress.getD []) }

/-- The columns a step may name. `none` leaves a column as it is. -/
structure StepChanges (φ : Type) where
  daysTarget : Option (Option Int) := none
  targetStart : Option (Option Int) := none
  floor : Option (Option Int) := none
  through : Option (Option Int) := none
  reason : Option String := none
  progress : Option (JsonObject φ) := none

/-- A copy of `base` with only the named columns replaced. -/
def stepRow (base : ScopeRow φ) (changes : StepChanges φ) : ScopeRow φ :=
  { base with
    daysTarget := changes.daysTarget.getD base.daysTarget
    targetStart := changes.targetStart.getD base.targetStart
    floor := changes.floor.getD base.floor
    through := changes.through.getD base.through
    reason := match changes.reason with
      | none => base.reason
      | some reason => some (boundedReason reason)
    progress := match changes.progress with
      | none => base.progress
      | some progress => some progress
    lastErrorClass := none
    lastErrorAt := none }

/-! ## Ticks of one console-wide scope -/

/-- What a tick is given, and what the family's own step ends with. -/
structure TickInput (φ : Type) where
  decision : Option DecisionView
  liveAnchor : Option Int
  switchOn : Bool
  now : Int
  /-- The columns the step (or the rebuild of a finished reading) names. -/
  changes : Option (StepChanges φ) := none
  /-- The trigger and the reason a step ends its reading with. -/
  finish : Option (HistoryTrigger × Option String) := none

def keepStep (instanceId : String) (family : HistoryFamily) (row : ScopeRow φ) (i : TickInput φ) :
    Except Exc (ScopeRow φ) :=
  match i.changes with
  | none => .ok row
  | some changes => do return stepRow (← scopeRow row.toScopeRowView instanceId family "") changes

/-- One step of a reading scope: it stays READING, or its reading ends through `nextState`. -/
def readingStep (instanceId : String) (family : HistoryFamily) (row : ScopeRow φ)
    (decision : DecisionView) (i : TickInput φ) : Except Exc (ScopeRow φ) := do
  let stepped ← keepStep instanceId family row i
  match i.finish with
  | none => return stepped
  | some (trigger, reason) =>
    let change ← nextState .reading trigger
    let ended : ScopeAction := {
      kind := .transition
      state := some change.state
      trigger := some trigger
      reason := orReason reason change.reason }
    transitionRow ended instanceId family "" stepped.toScopeRowView decision i.now

def tick (instanceId : String) (family : HistoryFamily) (stored : Option (ScopeRow φ))
    (i : TickInput φ) : Except Exc (Option (ScopeRow φ)) :=
  match i.decision with
  | none => .ok stored
  | some decision => do
      let action ← scopeAction family (consoleMode (some decision)) (some decision)
        (stored.map (·.toScopeRowView)) i.liveAnchor.isSome i.liveAnchor i.switchOn
      match action.kind, stored with
      | .create, _ => return some (← newScopeRow action instanceId family "" decision i.now)
      | .transition, some row =>
        return some (← transitionRow action instanceId family "" row.toScopeRowView decision i.now)
      | .step, some row => return some (← readingStep instanceId family row decision i)
      | .none, some row => return some (← keepStep instanceId family row i)
      | _, none => return stored

end QRadarDashboard.History
