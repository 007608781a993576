import QRadarDashboard.Basic
import QRadarDashboard.Lib.Double
import QRadarDashboard.Rules.MatchCollector
import QRadarDashboard.Lib.Sort
import Mathlib.Data.String.Basic
import Mathlib.Algebra.Order.Ring.Unbundled.Rat
import Mathlib.Data.Prod.Lex

/-!
# Which rules are silent (`app/services/rule_statistics.py`, `app/services/rule_health.py`)
-/

namespace QRadarDashboard.Rules
open Lib

def dayMicros : Int := 86400 * secondMicros

variable (cfg : MatchConfig) (tables : UnicodeTables)

/-- The rows that `assess_coverage` is given, and what it says of them. -/
def MatchState.coverage (st : MatchState) (evaluationStart now : Int) : MatchCoverage :=
  assessCoverage
    ((st.windows.filter (fun item => evaluationStart ≤ item.1)).map
      (fun item => (item.1, item.2.windowSeconds, item.2.status)))
    evaluationStart now cfg.windowSeconds cfg.settleLagSeconds (st.windows ≠ [])

/-! ## Statistics -/

/-- `func.upper(func.trim(rule_type)) == "EVENT"`; the trim is of blanks. -/
def isEventType (ruleType : Option String) : Bool :=
  ruleType.any (fun ruleType =>
    ({ asciiTables with isspace := fun c => c = ' ' }.strip ruleType.toList).map Char.toUpper = "EVENT".toList)

/-- A row of the rule in `[spanStart, spanEnd)`. -/
def MatchState.matched (st : MatchState) (i : Nat) (spanStart spanEnd : Int) : Bool :=
  st.metrics.any (fun item => item.1.1 = i && decide (spanStart ≤ item.1.2) && decide (item.1.2 < spanEnd))

def MatchState.silentRules (st : MatchState) (spanStart spanEnd : Int) : List (AnalyticsRule × Nat) :=
  sortOn (fun item : AnalyticsRule × Nat => toLex (item.1.name, item.1.qradarId))
    (st.rules.zipIdx.filter (fun item =>
      item.1.enabled && isEventType item.1.ruleType && !st.matched item.2 spanStart spanEnd))

def silentItemCap : Nat := 500

structure SilentExclusion where
  ruleType : Option String
  evidence : MatchEvidence
  count : Nat

structure SilentSection where
  items : List (AnalyticsRule × Nat)
  total : Nat
  itemsTruncated : Bool
  excluded : List SilentExclusion
  excludedCount : Nat

def MatchState.excluded (st : MatchState) : List SilentExclusion :=
  let judged := st.rules.filter (fun rule => rule.enabled && matchEvidence tables rule.ruleType ≠ .EXACT)
  let counts : Dict (Option String) Nat :=
    judged.foldl (fun d rule => d.set rule.ruleType ((d.get? rule.ruleType).getD 0 + 1)) []
  (sortOn (fun item : Option String × Nat => item.1.getD "") counts).map
    (fun item => ⟨item.1, matchEvidence tables item.1, item.2⟩)

def MatchState.silent (st : MatchState) (spanStart spanEnd : Int) : SilentSection :=
  let rows := st.silentRules spanStart spanEnd
  let excluded := st.excluded tables
  { items := rows.take silentItemCap
    total := rows.length
    itemsTruncated := silentItemCap < rows.length
    excluded
    excludedCount := (excluded.map SilentExclusion.count).sum }

/-- The span of `compute`: whole days up to the last settled window. -/
def statisticsStart (days : Nat) (now : Int) : Int :=
  floorToWindow (settledUntil now cfg.windowSeconds cfg.settleLagSeconds - days * dayMicros) cfg.windowSeconds

/-- The silent section of `compute`; none where the span is not complete. -/
def MatchState.silentSection (st : MatchState) (days : Nat) (now : Int) : Option SilentSection :=
  let spanStart := statisticsStart cfg days now
  if (st.coverage cfg spanStart now).state = .COMPLETE then
    some (st.silent tables spanStart (settledUntil now cfg.windowSeconds cfg.settleLagSeconds))
  else none

/-! ## Rule health -/

inductive RuleHealthStatus where
  | DISABLED | INSUFFICIENT_DATA | DEPENDENCY_DEGRADED | NOISY | NEVER_OBSERVED | INACTIVE | HEALTHY
deriving DecidableEq

inductive ObservationStatus where
  | never_run | incomplete | complete

structure MeasuredMatches where
  evidence : MatchEvidence
  coverage : MatchCoverage
  events : Nat := 0
  lastMatchAt : Option Int := none

structure HealthSettings where
  windowDays : Nat := 30
  gracePeriodDays : Nat := 7
  minHistoryDays : Nat := 3
  inactivityDays : Nat := 14
  noisyDailyFirings : Rat := 500

structure Observation where
  triggerCount : Nat
  lastFired : Option Int
  observationComplete : Bool
  observationStatus : ObservationStatus
  metricInferred : Bool
  measuredExact : Bool := false
  measuredLowerBound : Bool := false

def laterFired (lastFired lastMatchAt : Option Int) : Option Int :=
  match lastFired, lastMatchAt with
  | some fired, some matched => if fired < matched then some matched else some fired
  | none, some matched => some matched
  | fired, none => fired

def Observation.measure (obs : Observation) (measured : Option MeasuredMatches) : Observation :=
  match measured with
  | none => obs
  | some m =>
    if m.evidence = .NOT_MEASURED ∨ m.coverage.state = .NONE then obs
    else
      let obs := if 0 < m.events then { obs with lastFired := laterFired obs.lastFired m.lastMatchAt } else obs
      if m.evidence = .EXACT ∧ m.coverage.state = .COMPLETE then
        { obs with
          triggerCount := m.events, measuredExact := true, metricInferred := false
          observationComplete := true, observationStatus := .complete }
      else
        let obs := if obs.triggerCount < m.events then
            { obs with triggerCount := m.events, measuredLowerBound := true, metricInferred := true }
          else obs
        if m.evidence = .EXACT then { obs with observationComplete := false, observationStatus := .incomplete }
        else obs

structure HealthVerdict where
  status : RuleHealthStatus
  observation : Observation
  missingDependencies : List String := []

/-- `delta.total_seconds() / 86400.0` -/
def totalDays (delta : Int) : Rat := Double.round (Double.round ((delta : Rat) / ((secondMicros : Int) : Rat)) / 86400)

/-- `_age_days` -/
def AnalyticsRule.age (rule : AnalyticsRule) (now : Int) : Option Rat :=
  (rule.qradarCreatedAt.or rule.firstSeenAt).map (fun anchor => max 0 (totalDays (now - anchor)))

/-- The fourth check of `classify`, in doubles. -/
def noisy (settings : HealthSettings) (rule : AnalyticsRule) (now windowStart : Int) (triggerCount : Nat) : Bool :=
  let windowDays := max 1 (totalDays (now - windowStart))
  let perDay := Double.round (Double.round triggerCount / windowDays)
  let threshold := match rule.expectedDailyFirings with
    | some expected => if 0 < expected then Double.round (expected * 3) else settings.noisyDailyFirings
    | none => settings.noisyDailyFirings
  0 < triggerCount && decide (threshold < perDay)

-- 153 firings in 30 days are not more than three times 1.7 a day: both sides round to one double
example : Double.round (153 / 30) = Double.round (Double.round (17 / 10) * 3) := by decide +kernel

def classify (settings : HealthSettings) (rule : AnalyticsRule) (now windowStart : Int) (known : Observation)
    (missing unknown : List String) (measured : Option MeasuredMatches) : HealthVerdict :=
  let obs := known.measure measured
  let verdict (status : RuleHealthStatus) : HealthVerdict := { status, observation := obs }
  if ¬ rule.enabled then verdict .DISABLED
  else match rule.age now with
    | none => verdict .INSUFFICIENT_DATA
    | some age =>
      if age < settings.gracePeriodDays then verdict .INSUFFICIENT_DATA
      else if age < settings.minHistoryDays then verdict .INSUFFICIENT_DATA
      else if missing ≠ [] then { verdict .DEPENDENCY_DEGRADED with missingDependencies := missing }
      else if unknown ≠ [] then { verdict .INSUFFICIENT_DATA with missingDependencies := unknown }
      else if noisy settings rule now windowStart obs.triggerCount then verdict .NOISY
      else match obs.lastFired with
        | none =>
          if obs.triggerCount = 0 then
            if ¬ obs.observationComplete then verdict .INSUFFICIENT_DATA
            else verdict .NEVER_OBSERVED
          else verdict .HEALTHY
        | some fired =>
          if settings.inactivityDays < totalDays (now - fired) then verdict .INACTIVE
          else verdict .HEALTHY

/-! ## Dependencies -/

inductive RuleDependencyKind where
  | BUILDING_BLOCK | LOG_SOURCE_TYPE | LOG_SOURCE
deriving DecidableEq

structure RuleDependency where
  kind : RuleDependencyKind
  targetRef : String
  targetName : Option String := none
  confidence : Rat := 1

structure KindState where
  seen : Bool := false
  degraded : Bool := false
  unknown : Bool := false

def KindState.summary (kind : KindState) : Option Bool :=
  if !kind.seen then none
  else if kind.degraded then some false
  else if kind.unknown then none
  else some true

structure DependencyState where
  missing : List String := []
  unknown : List String := []
  bb : KindState := {}
  ls : KindState := {}

/-- The states of the building blocks and of the log-source types, by their refs. -/
structure DependencyHealth where
  buildingBlockEnabled : Dict String Bool
  logSourceTypeHealthy : Dict String Bool

def DependencyHealth.of (health : DependencyHealth) (dep : RuleDependency) : Option Bool :=
  match dep.kind with
  | .BUILDING_BLOCK => health.buildingBlockEnabled.get? dep.targetRef
  | .LOG_SOURCE_TYPE | .LOG_SOURCE => health.logSourceTypeHealthy.get? dep.targetRef

def RuleDependency.label (dep : RuleDependency) : String :=
  orReason dep.targetName (match dep.kind with
    | .BUILDING_BLOCK => "building block " ++ dep.targetRef
    | .LOG_SOURCE_TYPE | .LOG_SOURCE => "log source type " ++ dep.targetRef)

def KindState.see (kind : KindState) (known : Option Bool) : KindState where
  seen := true
  degraded := kind.degraded || known == some false
  unknown := kind.unknown || known == none

def DependencyState.add (coverageMinConfidence : Rat) (health : DependencyHealth) (state : DependencyState)
    (dep : RuleDependency) : DependencyState :=
  if dep.confidence < coverageMinConfidence then state
  else
    let known := health.of dep
    let fault := match dep.kind with
      | .BUILDING_BLOCK => " is disabled"
      | .LOG_SOURCE_TYPE | .LOG_SOURCE => " is not delivering events"
    { missing := if known = some false then state.missing ++ [dep.label ++ fault] else state.missing
      unknown := if known = none then state.unknown ++ [dep.label ++ " has not been observed"] else state.unknown
      bb := if dep.kind = .BUILDING_BLOCK then state.bb.see known else state.bb
      ls := if dep.kind = .BUILDING_BLOCK then state.ls else state.ls.see known }

def dependencyState (coverageMinConfidence : Rat) (health : DependencyHealth) (dependencies : List RuleDependency) :
    DependencyState :=
  dependencies.foldl (DependencyState.add coverageMinConfidence health) {}

structure DependentVerdict extends HealthVerdict where
  buildingBlocksHealthy : Option Bool
  requiredLogSourcesHealthy : Option Bool

/-- `classify` of a rule with its dependencies. -/
def classifyRule (settings : HealthSettings) (coverageMinConfidence : Rat) (rule : AnalyticsRule) (now windowStart : Int)
    (known : Observation) (dependencies : List RuleDependency) (health : DependencyHealth)
    (measured : Option MeasuredMatches) : DependentVerdict :=
  let state := dependencyState coverageMinConfidence health dependencies
  let verdict := classify settings rule now windowStart known state.missing state.unknown measured
  -- a verdict before the dependencies says nothing of them
  let judged := rule.enabled && (rule.age now).any (fun age : Rat =>
    decide (settings.gracePeriodDays ≤ age ∧ settings.minHistoryDays ≤ age))
  { toHealthVerdict := verdict
    buildingBlocksHealthy := if judged then state.bb.summary else none
    requiredLogSourcesHealthy := if judged then state.ls.summary else none }

/-- `_match_sums`, for one rule: its events and its latest window, on the grid of the evaluation. -/
def MatchState.matchSums (st : MatchState) (i : Nat) (windowStart : Int) : Nat × Option Int :=
  let rows := st.metrics.filter (fun item => item.1.1 = i && decide (firstWindow windowStart cfg.windowSeconds ≤ item.1.2))
  ((rows.map (fun item => item.2.matchedEvents)).sum, (rows.map (fun item => item.1.2)).max?)

/-- What `evaluate_instance` says of one rule. -/
def MatchState.evaluateRule (st : MatchState) (settings : HealthSettings) (i : Nat) (rule : AnalyticsRule) (now : Int)
    (known : Observation) (missing unknown : List String) : HealthVerdict :=
  let windowStart := now - settings.windowDays * dayMicros
  let coverage := st.coverage cfg windowStart now
  let measured := if coverage.state = .NONE then none
    else
      let sums := st.matchSums cfg i windowStart
      some ⟨matchEvidence tables rule.ruleType, coverage, sums.1, sums.2⟩
  classify settings rule now windowStart { known with lastFired := rule.lastFiredAt } missing unknown measured

end QRadarDashboard.Rules
