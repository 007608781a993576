import QRadarDashboard.Lib.Dict
import QRadarDashboard.Lib.PyText
import QRadarDashboard.Lib.Run
import Mathlib.Algebra.GroupWithZero.Nat

/-!
# What a console stores of its rule matches (`app/collectors/rule_match_collector.py`)

The inventory is synchronized beside the collector. A rule is its place in the inventory.
-/

namespace QRadarDashboard.Rules
open Lib

/-!
## Measured rule matches (`app/rules/matches.py`)

What one fetched window says about the rules, and how much of a span the recorded windows cover. Instants are
counted in microseconds.
-/

def secondMicros : Int := 1000000

inductive MatchEvidence where
  | EXACT | LOWER_BOUND | NOT_MEASURED
deriving DecidableEq

/-- `match_evidence`. No character outside ASCII has an upper case within the two names. -/
def matchEvidence (tables : UnicodeTables) (ruleType : Option String) : MatchEvidence :=
  match ruleType with
  | none => .NOT_MEASURED
  | some ruleType =>
    let kind := (tables.strip ruleType.toList).map Char.toUpper
    if kind = "EVENT".toList then .EXACT
    else if kind = "COMMON".toList then .LOWER_BOUND
    else .NOT_MEASURED

/-! ## The fold of a window -/

inductive RuleMatchWindowStatus where
  | COMPLETE | TRUNCATED | FAILED
deriving DecidableEq

structure RuleMatchRow where
  qradarRuleId : Int
  records : Nat
  events : Nat

structure RuleMatchBatch where
  rows : List RuleMatchRow
  truncated : Bool := false
  rowCap : Nat := 0
  malformedRows : Nat := 0
  queryVersion : String := ""

structure MatchRowToWrite where
  ruleId : Nat
  matchRecords : Nat
  matchedEvents : Nat

structure WindowRecord where
  windowStart : Int
  windowSeconds : Nat
  status : RuleMatchWindowStatus
  rowsReturned : Nat
  rowCap : Nat
  unknownIds : Nat
  queryVersion : String

structure MatchFold where
  rows : List MatchRowToWrite
  window : WindowRecord

def addMatch (ruleIds : Dict Int Nat) (totals : Dict Nat (Nat × Nat)) (row : RuleMatchRow) : Dict Nat (Nat × Nat) :=
  match ruleIds.get? row.qradarRuleId with
  | none => totals
  | some ruleId =>
    let total := (totals.get? ruleId).getD (0, 0)
    totals.set ruleId (total.1 + row.records, total.2 + row.events)

def unknownIds (batch : RuleMatchBatch) (ruleIds : Dict Int Nat) : List Int :=
  ((batch.rows.map RuleMatchRow.qradarRuleId).filter (fun id => ruleIds.get? id = none)).eraseDups

def foldRuleMatches (batch : RuleMatchBatch) (ruleIds : Dict Int Nat) (windowStart : Int) (windowSeconds : Nat) :
    MatchFold where
  rows := (batch.rows.foldl (addMatch ruleIds) []).map (fun item => ⟨item.1, item.2.1, item.2.2⟩)
  window := {
    windowStart, windowSeconds
    status := if batch.truncated ∨ 0 < batch.malformedRows then .TRUNCATED else .COMPLETE
    rowsReturned := batch.rows.length
    rowCap := batch.rowCap
    unknownIds := (unknownIds batch ruleIds).length
    queryVersion := batch.queryVersion }

def failedWindow (windowStart : Int) (windowSeconds rowCap : Nat) (queryVersion : String) : WindowRecord :=
  ⟨windowStart, windowSeconds, .FAILED, 0, rowCap, 0, queryVersion⟩

/-! ## The window grid -/

def floorToWindow (value : Int) (windowSeconds : Nat) : Int :=
  let epoch := value.tdiv secondMicros
  (epoch - epoch % windowSeconds) * secondMicros

/-- `timedelta(seconds=window_seconds)` -/
def windowStep (windowSeconds : Nat) : Int := windowSeconds * secondMicros

def settledUntil (now : Int) (windowSeconds settleSeconds : Nat) : Int :=
  floorToWindow (now - settleSeconds * secondMicros) windowSeconds

def firstWindow (value : Int) (windowSeconds : Nat) : Int :=
  let first := floorToWindow value windowSeconds
  if first < value then first + windowStep windowSeconds else first

/-- The window starts from `first` on whose windows end by `until_`. -/
def windowsBetween (first until_ step : Int) : List Int :=
  (List.range ((until_ - first) / step).toNat).map (fun (i : Nat) => first + i * step)

/-! ## Coverage -/

inductive CoverageState where
  | NONE | COMPLETE | INCOMPLETE
deriving DecidableEq

structure MatchCoverage where
  state : CoverageState
  expected : Nat := 0
  complete : Nat := 0
  truncated : Nat := 0
  failed : Nat := 0
  missing : Nat := 0

def spanWindows (evaluationStart now : Int) (windowSeconds settleSeconds : Nat) : List Int :=
  windowsBetween (firstWindow evaluationStart windowSeconds) (settledUntil now windowSeconds settleSeconds)
    (windowStep windowSeconds)

def assessCoverage (windows : List (Int × Nat × RuleMatchWindowStatus)) (evaluationStart now : Int)
    (windowSeconds settleSeconds : Nat) (everCollected : Bool) : MatchCoverage :=
  if ¬ everCollected then { state := .NONE }
  else
    let byStart : Dict Int (Nat × RuleMatchWindowStatus) := windows.foldl (fun d w => d.set w.1 w.2) []
    let span := spanWindows evaluationStart now windowSeconds settleSeconds
    -- a window of another width is missing
    let recorded := span.map (fun start =>
      ((byStart.get? start).filter (fun window => window.1 = windowSeconds)).map Prod.snd)
    let complete := recorded.count (some .COMPLETE)
    { state := if 0 < span.length ∧ complete = span.length then .COMPLETE else .INCOMPLETE
      expected := span.length
      complete
      truncated := recorded.count (some .TRUNCATED)
      failed := recorded.count (some .FAILED)
      missing := recorded.count none }

/-! ## The inventory -/

structure AnalyticsRuleDto where
  qradarId : Int
  name : String
  ruleType : Option String := none
  enabled : Bool := true
  origin : Option String := none
  isBuildingBlock : Bool := false
  createdAt : Option Int := none
  lastTriggeredAt : Option Int := none

structure AnalyticsRule where
  qradarId : Int
  name : String := ""
  ruleType : Option String := none
  enabled : Bool := true
  origin : Option String := none
  isBuildingBlock : Bool := false
  qradarCreatedAt : Option Int := none
  expectedDailyFirings : Option Rat := none
  lastFiredAt : Option Int := none
  firstSeenAt : Option Int := none

/-- `sanitizeText` is `sanitize_text`. -/
structure MatchConfig where
  sanitizeText : String → Option String
  windowSeconds : Nat
  settleLagSeconds : Nat
  maxRows : Nat
  maxCatchupSeconds : Nat
  maxWindowsPerRun : Nat
  maxWindowAttempts : Nat
  windowSeconds_pos : 0 < windowSeconds

variable (cfg : MatchConfig)

def AnalyticsRule.applyQradarFields (row : AnalyticsRule) (dto : AnalyticsRuleDto) : AnalyticsRule :=
  { row with
    name := match cfg.sanitizeText dto.name with
      | some name => if name = "" then "rule-" ++ toString dto.qradarId else name
      | none => "rule-" ++ toString dto.qradarId
    ruleType := dto.ruleType
    enabled := dto.enabled
    origin := dto.origin
    isBuildingBlock := dto.isBuildingBlock
    qradarCreatedAt := dto.createdAt
    lastFiredAt := dto.lastTriggeredAt.or row.lastFiredAt }

def createRule (dto : AnalyticsRuleDto) (now : Int) : AnalyticsRule :=
  ({ qradarId := dto.qradarId, firstSeenAt := dto.createdAt.or (some now) } : AnalyticsRule).applyQradarFields cfg dto

def AnalyticsRule.update (row : AnalyticsRule) (dto : AnalyticsRuleDto) (now : Int) : AnalyticsRule :=
  let row := row.applyQradarFields cfg dto
  { row with firstSeenAt := row.firstSeenAt.or (dto.createdAt.or (some now)) }

def syncRule (rules : List AnalyticsRule) (dto : AnalyticsRuleDto) (now : Int) : List AnalyticsRule :=
  match rules.findIdx? (fun row => row.qradarId = dto.qradarId) with
  | none => rules ++ [createRule cfg dto now]
  | some i => rules.modify i (fun row => row.update cfg dto now)

def ruleIdMap (rules : List AnalyticsRule) : Dict Int Nat := rules.zipIdx.map (fun item => (item.1.qradarId, item.2))

/-! ## The store -/

inductive HistoryOrigin where
  | LIVE | HISTORY
deriving DecidableEq

structure RuleMatchWindow where
  origin : HistoryOrigin
  windowSeconds : Nat
  status : RuleMatchWindowStatus
  rowsReturned : Nat
  rowCap : Nat
  unknownIds : Nat
  queryVersion : String
  attempts : Nat

structure RuleMatchMetric where
  bucketSeconds : Nat
  matchRecords : Nat
  matchedEvents : Nat

/-- A run of the collector, with the windows it still has to answer. `ruleIds` is none where the run has loaded
no inventory yet. -/
structure MatchRun where
  starts : List Int
  ruleIds : Option (Dict Int Nat)

structure FoldedBatch where
  start : Int
  batch : RuleMatchBatch
  ruleIds : Dict Int Nat

structure MatchState where
  rules : List AnalyticsRule := []
  windows : Dict Int RuleMatchWindow := []
  metrics : Dict (Nat × Int) RuleMatchMetric := []
  watermark : Option Int := none
  run : Option MatchRun := none
  lastRunAt : Option Int := none
  /-- nothing that is stored: the batches that were folded -/
  seen : List FoldedBatch := []

def failedQueryVersion : String := "rule_match/v1"

def WindowRecord.row (window : WindowRecord) (origin : HistoryOrigin) (attempts : Nat) : RuleMatchWindow :=
  ⟨origin, window.windowSeconds, window.status, window.rowsReturned, window.rowCap, window.unknownIds,
    window.queryVersion, attempts⟩

def MatchRowToWrite.metric (row : MatchRowToWrite) (windowSeconds : Nat) : RuleMatchMetric :=
  ⟨windowSeconds, row.matchRecords, row.matchedEvents⟩

def MatchState.writeRows (st : MatchState) (start : Int) (rows : List MatchRowToWrite) : MatchState :=
  { st with
    metrics := rows.foldl (fun metrics row => metrics.set (row.ruleId, start) (row.metric cfg.windowSeconds))
      (st.metrics.filter (fun item => ¬ (item.1.2 = start ∧ item.1.1 < st.rules.length))) }

/-- `_write_window`: the origin of a row stays, and a failure does not replace a window that was collected whole. -/
def MatchState.writeWindow (st : MatchState) (window : WindowRecord) (attempts : Nat) : MatchState :=
  match st.windows.get? window.windowStart with
  | none => { st with windows := st.windows.set window.windowStart (window.row .LIVE attempts) }
  | some old =>
    if window.status = .FAILED ∧ old.status = .COMPLETE then st
    else { st with windows := st.windows.set window.windowStart (window.row old.origin attempts) }

/-- `INSERT .. ON CONFLICT DO NOTHING` -/
def insertNew {κ α : Type} [DecidableEq κ] (d : Dict κ α) (k : κ) (v : α) : Dict κ α :=
  match d.get? k with
  | none => d.set k v
  | some _ => d

/-- `_write_history_rows`, for one window. -/
def MatchState.writeHistory (st : MatchState) (fold : MatchFold) : MatchState :=
  { st with
    windows := insertNew st.windows fold.window.windowStart (fold.window.row .HISTORY 1)
    metrics := fold.rows.foldl
      (fun metrics row => insertNew metrics (row.ruleId, fold.window.windowStart) (row.metric cfg.windowSeconds)) st.metrics }

/-! ## The windows of a run -/

def MatchState.firstStart (st : MatchState) : Option Int :=
  st.watermark.map (fun last =>
    let first := floorToWindow (last + windowStep cfg.windowSeconds) cfg.windowSeconds
    if first ≤ last then first + windowStep cfg.windowSeconds else first)

/-- `_skip_beyond_horizon`: windows older than the catch-up horizon are recorded as failed. -/
def MatchState.skipBeyondHorizon (st : MatchState) (now : Int) : MatchState :=
  match st.firstStart cfg with
  | none => st
  | some first =>
    let step := windowStep cfg.windowSeconds
    let settled := settledUntil now cfg.windowSeconds cfg.settleLagSeconds
    let horizon := min (floorToWindow (settled - cfg.maxCatchupSeconds * secondMicros) cfg.windowSeconds) (settled - step)
    if horizon ≤ first then st
    else { st with
      windows := (windowsBetween first horizon step).foldl (fun windows start => insertNew windows start
        ((failedWindow start cfg.windowSeconds cfg.maxRows failedQueryVersion).row .LIVE 0)) st.windows
      watermark := some (horizon - step) }

def MatchState.windowsToCollect (st : MatchState) (now : Int) (limit : Nat) : List Int :=
  let settled := settledUntil now cfg.windowSeconds cfg.settleLagSeconds
  let step := windowStep cfg.windowSeconds
  (windowsBetween ((st.firstStart cfg).getD (settled - step)) settled step).take limit

def runLimit (cadenceSeconds : Nat) : Nat :=
  (cadenceSeconds + cfg.windowSeconds - 1) / cfg.windowSeconds + cfg.maxWindowsPerRun - 1

def MatchState.priorAttempts (st : MatchState) (start : Int) : Nat :=
  match st.windows.get? start with
  | some window => if window.status = .FAILED then window.attempts else 0
  | none => 0

/-- `_oldest_live_window`, aligned down. -/
def MatchState.anchor (st : MatchState) : Option Int :=
  (((st.windows.filter (fun item => item.2.origin = .LIVE)).map Prod.fst).min?).map
    (fun start => floorToWindow start cfg.windowSeconds)

/-! ## The steps -/

inductive MatchEvent where
  /-- the inventory collector stores one rule -/
  | sync (dto : AnalyticsRuleDto) (now : Int)
  /-- a run begins -/
  | collect (now : Int) (cadenceSeconds : Nat)
  /-- the run's next window was answered, or its own search failed -/
  | window (answer : Option RuleMatchBatch)
  /-- the run writes a window of the history -/
  | history (start : Int) (batch : RuleMatchBatch)
  | close

inductive MatchError where
  /-- not a step of the code: a second run under the lock, a clock that goes back, a window out of turn -/
  | outOfTurn
  /-- a window of the history that is off the grid or not before the live windows -/
  | notBeforeAnchor

def MatchState.recordWindow (st : MatchState) (start : Int) (batch : RuleMatchBatch) (ruleIds : Dict Int Nat) : MatchState :=
  let fold := foldRuleMatches batch ruleIds start cfg.windowSeconds
  let attempts := st.priorAttempts start + 1
  { (st.writeRows cfg start fold.rows).writeWindow fold.window attempts with
    watermark := some start
    seen := st.seen ++ [⟨start, batch, ruleIds⟩] }

def MatchState.failWindow (st : MatchState) (start : Int) (rest : List Int) (ruleIds : Option (Dict Int Nat)) : MatchState :=
  let attempts := st.priorAttempts start + 1
  let st' := st.writeWindow (failedWindow start cfg.windowSeconds cfg.maxRows failedQueryVersion) attempts
  if cfg.maxWindowAttempts ≤ attempts then { st' with watermark := some start, run := some ⟨rest, ruleIds⟩ }
  else { st' with run := some ⟨[], ruleIds⟩ }

def MatchState.step (st : MatchState) : MatchEvent → Except MatchError MatchState
  | .sync dto now => .ok { st with rules := syncRule cfg st.rules dto now }
  | .collect now cadenceSeconds =>
    if st.run.isSome ∨ st.lastRunAt.any (fun last => now < last) then .error .outOfTurn
    else
      let st' := st.skipBeyondHorizon cfg now
      let starts := st'.windowsToCollect cfg now (runLimit cfg cadenceSeconds)
      .ok { st' with
        run := some ⟨starts, if starts = [] then none else some (ruleIdMap st.rules)⟩
        lastRunAt := some now }
  | .window answer =>
    match st.run with
    | some ⟨start :: rest, ruleIds⟩ =>
      match answer with
      | some batch =>
        .ok { st.recordWindow cfg start batch (ruleIds.getD []) with run := some ⟨rest, ruleIds⟩ }
      | none => .ok (st.failWindow cfg start rest ruleIds)
    | _ => .error .outOfTurn
  | .history start batch =>
    match st.run with
    | some ⟨[], ruleIds⟩ =>
      if st.anchor cfg = none ∨ (st.anchor cfg).any (fun anchor => anchor ≤ start) ∨
          floorToWindow start cfg.windowSeconds ≠ start then .error .notBeforeAnchor
      else
        let mapping := ruleIds.getD (ruleIdMap st.rules)
        .ok { st.writeHistory cfg (foldRuleMatches batch mapping start cfg.windowSeconds) with
          run := some ⟨[], some mapping⟩
          seen := st.seen ++ [⟨start, batch, mapping⟩] }
    | _ => .error .outOfTurn
  | .close =>
    match st.run with
    | some _ => .ok { st with run := none }
    | none => .error .outOfTurn

/-!
## A live tick of the rule-match collector (`app/collectors/rule_match_collector.py`)

All the windows that are due go in one keyed search. A search that was truncated or failed is divided in two
halves of whole windows, left first, and each is searched in turn; a single window is searched alone. The history
step of the tick comes after it.
-/

structure WindowedRuleMatches where
  batches : Dict Int RuleMatchBatch := []
  truncated : Bool := false

/-- A provider answers the `k`-th search of a tick, or raises a `ProviderError`. -/
structure MatchProvider where
  getRuleMatches : Nat → Int → Int → Option RuleMatchBatch
  getRuleMatchesWindowed : Nat → Int → Int → Option WindowedRuleMatches

inductive MatchSearch where
  | single (start : Int) (answer : Option RuleMatchBatch)
  | keyed (start stop : Int) (answer : Option WindowedRuleMatches)

/-- `_fetch_windows`, from the answer on: none where the search failed, was truncated or did not answer the windows that
were asked. -/
def fetchWindows (span : List Int) (answer : Option WindowedRuleMatches) : Option (List (Int × RuleMatchBatch)) := do
  let result ← answer
  if result.truncated then none
  else if ¬ (result.batches.keys.all (fun start => start ∈ span) ∧ span.all (fun start => start ∈ result.batches.keys)) then none
  else span.mapM (fun start => (result.batches.get? start).map (fun batch => (start, batch)))

/-- The live pass of a tick: the state, whose run holds the windows not yet answered, and what was sent. -/
structure LivePass where
  state : MatchState
  sent : List MatchSearch := []
  splits : Nat := 0

/-- The collector takes an outcome of the search: the run's next window was answered, or its own search failed. -/
def LivePass.take (pass : LivePass) (answer : Option RuleMatchBatch) : LivePass :=
  match pass.state.step cfg (.window answer) with
  | .ok state => { pass with state }
  | .error _ => pass

def LivePass.goesOn (pass : LivePass) (start : Int) (answer : Option RuleMatchBatch) : Bool :=
  answer.isSome || decide (cfg.maxWindowAttempts ≤ pass.state.priorAttempts start + 1)

def searchBound (queue : List (List Int)) : Nat := (queue.map (fun span => max 1 (2 * span.length - 1))).sum

/-- `_search_windows`, with what `collect` does of each outcome. No span of the queue is empty. -/
def searchWindows (provider : MatchProvider) : List (List Int) → LivePass → LivePass
  | [], pass => pass
  | [] :: queue, pass => searchWindows provider queue pass
  | [start] :: queue, pass =>
    let answer := provider.getRuleMatches pass.sent.length start (start + windowStep cfg.windowSeconds)
    let next := { pass.take cfg answer with sent := pass.sent ++ [.single start answer] }
    if pass.goesOn cfg start answer then searchWindows provider queue next else next
  | (start :: second :: rest) :: queue, pass =>
    let span := start :: second :: rest
    let stop := (second :: rest).getLast (List.cons_ne_nil _ _) + windowStep cfg.windowSeconds
    let answer := provider.getRuleMatchesWindowed pass.sent.length start stop
    let next := { pass with sent := pass.sent ++ [.keyed start stop answer] }
    match fetchWindows span answer with
    | none =>
      let middle := span.length / 2
      searchWindows provider (span.take middle :: span.drop middle :: queue) { next with splits := next.splits + 1 }
    | some batches => searchWindows provider queue (batches.foldl (fun pass item => pass.take cfg (some item.2)) next)
termination_by queue _ => searchBound queue
decreasing_by
  all_goals simp only [searchBound, List.map_cons, List.sum_cons,
    List.length_nil, List.length_cons, List.length_take, List.length_drop]
  all_goals omega

/-! ## The ticks -/

structure LiveTick where
  now : Int
  cadenceSeconds : Nat
  provider : MatchProvider
  /-- the windows that the history step of the tick writes -/
  history : List (Int × RuleMatchBatch) := []

inductive LiveEvent where
  /-- the inventory collector stores one rule -/
  | sync (dto : AnalyticsRuleDto) (now : Int)
  | tick (tick : LiveTick)

/-- The state after an event. Of a tick, the windows that were due and the searches that were sent. -/
structure LiveReport where
  state : MatchState
  due : List Int := []
  sent : List MatchSearch := []
  splits : Nat := 0

def collectTick (st : MatchState) (tick : LiveTick) : Except MatchError LiveReport := do
  let opened ← st.step cfg (.collect tick.now tick.cadenceSeconds)
  let due := (opened.run.map MatchRun.starts).getD []
  let pass := searchWindows cfg tick.provider (if due = [] then [] else [due]) { state := opened }
  let read ← tick.history.foldlM (fun st item => st.step cfg (.history item.1 item.2)) pass.state
  let closed ← read.step cfg .close
  return { state := closed, due, sent := pass.sent, splits := pass.splits }

def liveStep (st : MatchState) : LiveEvent → Except MatchError LiveReport
  | .sync dto now => (st.step cfg (.sync dto now)).map (fun state => { state })
  | .tick tick => collectTick cfg st tick

abbrev LiveTaken := Taken MatchState LiveEvent LiveReport

end QRadarDashboard.Rules
