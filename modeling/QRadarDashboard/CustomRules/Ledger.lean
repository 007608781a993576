import QRadarDashboard.CustomRules.Engine
import QRadarDashboard.Lib.Streak

/-!
# The hysteresis without its measurements

Breaches that open after a streak of breaching verdicts and resolve after a streak of verdicts under the threshold,
with ids and counters only.
-/

namespace QRadarDashboard.CustomRules
open Lib

variable {φ : Type}

structure Ledger where
  live : Option String
  resolved : Option String := none
  opens : List String := []
  resolves : List String := []
  breaching : Nat
  under : Nat
  issued : Nat := 0

namespace Ledger

variable (ids : Nat → String) (sustain recovery : Nat)

/-- A breach opens, `c` breaching verdicts in a row. -/
def opening (L : Ledger) (c : Nat) : Ledger :=
  { L with
    live := some (ids L.issued), opens := L.opens ++ [ids L.issued], issued := L.issued + 1
    breaching := c, under := 0 }

/-- The breach `id` resolves. -/
def resolving (L : Ledger) (id : String) : Ledger :=
  { L with
    live := none, resolved := some id, resolves := L.resolves ++ [id], breaching := 0, under := 0 }

/-- One verdict: `true` breaches, `false` is under the threshold. -/
def step (L : Ledger) : Bool → Ledger
  | true =>
    match L.live with
    | none =>
      if sustain ≤ L.breaching + 1 then L.opening ids (L.breaching + 1)
      else { L with breaching := L.breaching + 1, under := 0 }
    | some _ => { L with breaching := L.breaching + 1, under := 0 }
  | false =>
    match L.live with
    | none => { L with breaching := 0, under := L.under + 1 }
    | some id =>
      if recovery ≤ L.under + 1 then L.resolving id
      else { L with breaching := 0, under := L.under + 1 }

end Ledger

def eventIds (action : AlertAction) (events : List (CustomRuleAlertEvent φ)) : List String :=
  (events.filter (fun e => e.action = action)).map (fun e => e.breachId)

def Fold.ledger (fold : Fold φ) : Ledger :=
  { live := fold.breach.map (fun b => b.id)
    resolved := fold.resolved.map (fun b => b.id)
    opens := eventIds .opens fold.events
    resolves := eventIds .resolve fold.events
    breaching := fold.breaching
    under := fold.under
    issued := fold.issued }

def Verdict.counted : Verdict → Option Bool
  | .breach => some true
  | .under => some false
  | _ => none

def judgements [PyFloat φ] (rt : Runtime) (spec : FoldInput φ) :
    Option Int → List (InterpretedReading φ) → List Bool
  | _, [] => []
  | last, r :: rs =>
    if alreadyJudged last r then judgements rt spec last rs
    else (verdict rt spec r).counted.toList ++ judgements rt spec (some r.bucketStart) rs

def tickJudgements [PyFloat φ] (rt : Runtime) (spec : FoldInput φ) : List Bool :=
  if (halt spec).isSome then []
  else judgements rt spec spec.lastEvaluatedBucketStart
    (sortOn InterpretedReading.bucketStart spec.readings)

/-- The verdicts of one tick resolve a breach, and what comes after it has `P`. -/
def ResolvesThen (P : List Bool → Prop) (live : Bool) (breaching under sustain recovery : Nat)
    (verdicts : List Bool) : Prop :=
  if live then ∃ l₁ l₂, verdicts = l₁ ++ l₂ ∧ Shows false under recovery l₁ ∧ P l₂
  else
    ∃ l₁ l₂, verdicts = l₁ ++ l₂ ∧ Shows true breaching sustain l₁ ∧
      ∃ l₃ l₄, l₂ = l₃ ++ l₄ ∧ Shows false 0 recovery l₃ ∧ P l₄

/-- The verdicts open a breach and do not resolve it. -/
def StaysOpen (breaching sustain recovery : Nat) (verdicts : List Bool) : Prop :=
  Shows true breaching sustain verdicts ∧
    ¬ ∃ l₁ l₂, verdicts = l₁ ++ l₂ ∧ Shows true breaching sustain l₁ ∧ Shows false 0 recovery l₂

section Tick

variable [PyFloat φ] (rt : Runtime) (rule : CustomRule φ) (rows : List (CustomRuleBreach φ)) (tick : RuleTick φ)

def TickResolvesThen (P : List Bool → Prop) : Prop :=
  ResolvesThen P (breachRow rule rows).isSome rule.consecutiveBreaching rule.consecutiveUnder
    rule.sustainBuckets rule.recoveryBuckets (tickJudgements rt (foldInput rule (breachRow rule rows) tick))

/-- The tick resolves a breach and then opens another one. -/
def TickReopens : Prop := TickResolvesThen rt rule rows tick (Shows true 0 rule.sustainBuckets)

/-- The tick resolves a breach and ends with another one live. -/
def TickEndsReopened : Prop :=
  TickResolvesThen rt rule rows tick (Raised rule.sustainBuckets rule.recoveryBuckets)

/-- The tick ends with a new breach of a rule that has a live row its pointer does not name. -/
def TickConflicts : Prop :=
  breachRow rule rows = none ∧ (∃ row ∈ rows, row.ruleId = rule.id ∧ row.state ≠ .resolved) ∧
    StaysOpen rule.consecutiveBreaching rule.sustainBuckets rule.recoveryBuckets
      (tickJudgements rt (foldInput rule (breachRow rule rows) tick))

/-- The next tick does not read back the live breach that this one ends with. -/
def TickLosesBreach : Prop := TickConflicts rt rule rows tick ∨ TickEndsReopened rt rule rows tick

end Tick

/-! ## What storage owes the fold -/

/-- One row per id, at most one live row of the rule, and the row that the pointer names is the rule's own and open. -/
structure Stored (rule : CustomRule φ) (rows : List (CustomRuleBreach φ)) : Prop where
  ids_nodup : (rows.map (fun row => row.id)).Nodup
  one_live : ∀ row ∈ rows, ∀ row' ∈ rows, row.ruleId = rule.id → row'.ruleId = rule.id →
    row.state ≠ .resolved → row'.state ≠ .resolved → row = row'
  live : ∀ row, breachRow rule rows = some row →
    row.ruleId = rule.id ∧ (row.state = .opened ∨ row.state = .recovering)

/-- `uuid4` never repeats an id, and none is stored yet. -/
structure FreshIds (ids : Nat → String) (rows : List (CustomRuleBreach φ)) : Prop where
  injective : Function.Injective ids
  not_stored : ∀ n, ∀ row ∈ rows, row.id ≠ ids n

/-- The pointer names an open row of the rule, and every breach the tick opened or resolved has its row. -/
structure StorageAgrees (rule : CustomRule φ) (rows : List (CustomRuleBreach φ))
    (events : List (CustomRuleAlertEvent φ)) : Prop where
  active : ∀ id, rule.activeBreachId = some id →
    ∃ row ∈ rows, row.id = id ∧ row.ruleId = rule.id ∧ (row.state = .opened ∨ row.state = .recovering)
  opened : ∀ e ∈ events, e.action = .opens → ∃ row ∈ rows, row.id = e.breachId
  resolved : ∀ e ∈ events, e.action = .resolve →
    ∃ row ∈ rows, row.id = e.breachId ∧ row.state = .resolved

end QRadarDashboard.CustomRules
