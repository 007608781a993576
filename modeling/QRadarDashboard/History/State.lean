import QRadarDashboard.Basic

/-!
# The history-backfill state machine (`app/history/state.py`)
-/

namespace QRadarDashboard.History

inductive HistoryFamily where
  | phaseA | waf | ips | catchall | ruleMatch | propertyWatch

/-- The families stored in `history_backfill_scope`: all but the property watches. -/
def HistoryFamily.inScopeTable : HistoryFamily → Bool
  | .propertyWatch => false
  | _ => true

def HistoryFamily.value : HistoryFamily → String
  | .phaseA => "PHASE_A"
  | .waf => "WAF"
  | .ips => "IPS"
  | .catchall => "CATCHALL"
  | .ruleMatch => "RULE_MATCH"
  | .propertyWatch => "PROPERTY_WATCH"

inductive HistoryState where
  | notRequested | waiting | reading | complete | partly | unavailable | notEligible
deriving DecidableEq

def HistoryState.value : HistoryState → String
  | .notRequested => "NOT_REQUESTED"
  | .waiting => "WAITING"
  | .reading => "READING"
  | .complete => "COMPLETE"
  | .partly => "PARTIAL"
  | .unavailable => "UNAVAILABLE"
  | .notEligible => "NOT_ELIGIBLE"

inductive HistoryTrigger where
  | requestAwaitingAnchor | requestReady | notEligible | anchorFound | nothingToRead | windowTooSmall
  | finishedComplete | finishedPartial | densityGate | tooManyGaps | timeLimit | switchedOff
  | stoppedByOperator | restart
deriving DecidableEq

def HistoryTrigger.value : HistoryTrigger → String
  | .requestAwaitingAnchor => "REQUEST_AWAITING_ANCHOR"
  | .requestReady => "REQUEST_READY"
  | .notEligible => "NOT_ELIGIBLE"
  | .anchorFound => "ANCHOR_FOUND"
  | .nothingToRead => "NOTHING_TO_READ"
  | .windowTooSmall => "WINDOW_TOO_SMALL"
  | .finishedComplete => "FINISHED_COMPLETE"
  | .finishedPartial => "FINISHED_PARTIAL"
  | .densityGate => "DENSITY_GATE"
  | .tooManyGaps => "TOO_MANY_GAPS"
  | .timeLimit => "TIME_LIMIT"
  | .switchedOff => "SWITCHED_OFF"
  | .stoppedByOperator => "STOPPED_BY_OPERATOR"
  | .restart => "RESTART"

structure StateChange where
  previous : HistoryState
  state : HistoryState
  trigger : HistoryTrigger
  reason : String

/-- `_TRANSITIONS`: the next state and the reason in words. -/
def transitions : HistoryState → HistoryTrigger → Option (HistoryState × String)
  | .notRequested, .requestAwaitingAnchor => some (.waiting,
      "history was requested, and the scope waits for its first live bucket (the anchor)")
  | .notRequested, .requestReady => some (.reading,
      "history was requested, and the scope can be planned at its next collection")
  | .notRequested, .notEligible => some (.notEligible,
      "the scope already has live buckets, and a prepend would move first_seen_at (§B.5)")
  | .waiting, .anchorFound => some (.reading, "the first live bucket exists; reading can start")
  | .waiting, .notEligible => some (.notEligible,
      "the scope turned out to have live buckets that history cannot precede")
  | .reading, .nothingToRead => some (.unavailable,
      "QRadar holds no event of the scope in the window, or the floor scan could not be done")
  | .waiting, .nothingToRead => some (.unavailable,
      "QRadar holds no event of the scope in the window")
  | .reading, .windowTooSmall => some (.unavailable,
      "the estimate exceeds the time limit even at the smallest window")
  | .reading, .finishedComplete => some (.complete,
      "the reading reached the end; the floor is within one bucket of the asked start and no gap exists")
  | .reading, .finishedPartial => some (.partly,
      "the reading reached the end, but QRadar holds less than asked or a gap exists")
  | .reading, .densityGate => some (.partly,
      "too many buckets would be lower bounds; reading further would store only those")
  | .reading, .tooManyGaps => some (.partly,
      "the gap list is full; the scope has too many unreadable spans")
  | .reading, .timeLimit => some (.partly, "the reading did not finish inside its time limit")
  | .notRequested, .switchedOff => some (.partly,
      "history reading is switched off; the scope starts live")
  | .waiting, .switchedOff => some (.partly, "history reading was switched off while waiting")
  | .reading, .switchedOff => some (.partly, "history reading was switched off")
  | .waiting, .stoppedByOperator => some (.partly, "stopped by an operator while waiting")
  | .reading, .stoppedByOperator => some (.partly, "stopped by an operator")
  | .reading, .restart | .complete, .restart | .partly, .restart | .unavailable, .restart =>
    some (.reading, "the reading restarts: a new answer, a topped-up source or a new watch version")
  | _, _ => none

/-- Apply a trigger, or raise `IllegalTransitionError` naming both. -/
def nextState (current : HistoryState) (trigger : HistoryTrigger) : Except Exc StateChange :=
  match transitions current trigger with
  | none => .error (.illegalTransition
      s!"history state {current.value} does not accept {trigger.value}")
  | some (target, reason) => .ok ⟨current, target, trigger, reason⟩

end QRadarDashboard.History
