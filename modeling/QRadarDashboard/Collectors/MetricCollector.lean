import QRadarDashboard.History.Catchall
import QRadarDashboard.History.PhaseAFold

/-!
# The Phase A searches of a history step (`app/collectors/metric_collector.py`)
-/

namespace QRadarDashboard.Collectors
open Lib History

variable {φ μ : Type} [PyFloat φ]

inductive ProviderError where
  | permitUnavailable
  | other (text : String)
deriving DecidableEq

structure MetricsBatch (μ : Type) where
  buckets : Dict Int (List μ) := []
  truncated : Bool := false

/-- What `get_log_source_metrics` and `get_log_source_metrics_bucketed` answer to the `k`-th search of a step. -/
structure MetricsProvider (μ : Type) where
  metrics : Nat → Int → Int → Except ProviderError (List μ)
  bucketed : Nat → Int → Int → Except ProviderError (MetricsBatch μ)

/-- `_WindowSearch`: the buckets the search completed and how it stopped. -/
structure WindowSearch (μ : Type) where
  completed : Dict Int (CompletedBucket μ) := []
  searches : Nat := 0
  splits : Nat := 0
  capped : Bool := false
  failure : Option ProviderError := none
  failed : Option (Span Int) := none

/-- What `_search_window`'s inner function reads. `before` searches were sent by earlier windows; `clock k` is the time
when the `k`-th is sent. -/
structure WindowArgs (μ : Type) where
  provider : MetricsProvider μ
  before : Nat
  clock : Nat → Int
  deadline : Option Int
  maxSearches : Nat
  interval : Int

namespace WindowArgs

variable (a : WindowArgs μ)

def late (searches : Nat) : Bool := a.deadline.any (fun deadline => a.clock (a.before + searches) ≥ deadline)

def bucketAt (first : Int) (index : Nat) : Int := first + seconds (a.interval * index)

def complete (first : Int) (count depth : Nat) (samples : Int → List μ) (found : WindowSearch μ) : WindowSearch μ :=
  { found with
    completed := (List.range count).foldl
      (fun completed index => completed.set (a.bucketAt first index)
        { samples := samples (a.bucketAt first index)
          searchWindowStart := first
          searchWindowEnd := a.bucketAt first count
          searchBucketCount := count
          splitDepth := depth }) found.completed }

def fail (first : Int) (count : Nat) (error : ProviderError) (found : WindowSearch μ) : WindowSearch μ :=
  { found with failure := some error, failed := some ⟨first, a.bucketAt first count⟩ }

def search (a : WindowArgs μ) (first : Int) (count depth : Nat) (found : WindowSearch μ) : WindowSearch μ :=
  if found.failure.isSome then found
  else if a.maxSearches ≤ found.searches ∨ a.late found.searches then { found with capped := true }
  else
    let asked := { found with searches := found.searches + 1 }
    if 1 < count then
      match a.provider.bucketed (a.before + found.searches) first (a.bucketAt first count) with
      | .error error => a.fail first count error asked
      | .ok batch =>
        if batch.truncated then
          let left := a.search first (count / 2) (depth + 1) { asked with splits := asked.splits + 1 }
          if left.capped ∨ left.failure.isSome then left
          else a.search (a.bucketAt first (count / 2)) (count - count / 2) (depth + 1) left
        else a.complete first count depth (fun start => (batch.buckets.get? start).getD []) asked
    else
      match a.provider.metrics (a.before + found.searches) first (a.bucketAt first count) with
      | .error error => a.fail first count error asked
      | .ok samples => a.complete first count depth (fun _ => samples) asked
termination_by count

/-! ### What is sent -/

structure SentSearch where
  k : Nat
  first : Int
  count : Nat
  depth : Nat

/-- The searches that `search` sends, in order. -/
def sent (a : WindowArgs μ) (first : Int) (count depth : Nat) (found : WindowSearch μ) : List SentSearch :=
  if found.failure.isSome then []
  else if a.maxSearches ≤ found.searches ∨ a.late found.searches then []
  else
    let asked := { found with searches := found.searches + 1 }
    ⟨a.before + found.searches, first, count, depth⟩ ::
      if 1 < count then
        match a.provider.bucketed (a.before + found.searches) first (a.bucketAt first count) with
        | .error _ => []
        | .ok batch =>
          if batch.truncated then
            let halved := { asked with splits := asked.splits + 1 }
            let left := a.search first (count / 2) (depth + 1) halved
            a.sent first (count / 2) (depth + 1) halved ++
              if left.capped ∨ left.failure.isSome then []
              else a.sent (a.bucketAt first (count / 2)) (count - count / 2) (depth + 1) left
          else []
      else []
termination_by count

end WindowArgs

def searchWindow (a : WindowArgs μ) (start : Int) (bucketCount : Nat) : WindowSearch μ :=
  a.search start bucketCount 0 {}

/-! ## The step -/

structure PhaseAStep (μ : Type) where
  provider : MetricsProvider μ
  clock : Nat → Int
  deadline : Int

structure PhaseAReading (μ : Type) where
  chunk : Span Int
  found : WindowSearch μ

def PhaseAReading.read (r : PhaseAReading μ) : PhaseA.ChunkRead μ :=
  ⟨r.chunk, r.found.completed, r.found.searches, r.found.failed⟩

/-- The window search of a chunk after `spent` searches of the step. -/
def PhaseAStep.window (s : PhaseAStep μ) (st : PlannerSettings φ) (budget spent : Nat) : WindowArgs μ where
  provider := s.provider
  before := spent
  clock := s.clock
  deadline := some s.deadline
  maxSearches := budget - spent
  interval := st.bucketSeconds

def readChunks (s : PhaseAStep μ) (st : PlannerSettings φ) (budget : Nat) :
    Nat → List (Span Int) → Except Exc (List (PhaseAReading μ))
  | _, [] => .ok []
  | spent, chunk :: chunks =>
    if budget ≤ spent then .ok []
    else do
      let count ← chunk.buckets st
      let found := searchWindow (s.window st budget spent) chunk.start count.toNat
      if (found.completed.length : Int) < count then return [⟨chunk, found⟩]
      else
        let rest ← readChunks s st budget (spent + found.searches) chunks
        return ⟨chunk, found⟩ :: rest

structure FamilyStep (φ : Type) where
  searches : Nat
  settlement : StepSettlement φ

/-- The READ branch of `_history_step`. A refused permit ends it with nothing settled. -/
def phaseAStep (s : PhaseAStep μ) (st : PlannerSettings φ) (progress : ScopeProgress Int φ) (chunks : List (Span Int))
    (anchor : Int) (budget : Nat) : Except Exc (Option (List (PhaseAReading μ) × FamilyStep φ)) := do
  let readings ← readChunks s st budget 0 chunks
  if readings.any (fun r => r.found.failure = some .permitUnavailable) then return none
  else
    let settlement ← PhaseA.settleReads progress (readings.map PhaseAReading.read) anchor st
    return some (readings, ⟨(readings.map (fun r => r.found.searches)).sum, settlement⟩)

/-! ## The catch-all searches of a history step (`app/collectors/catchall_collector.py`) -/

open History.Catchall Ips QRadarDashboard.Catchall

structure CatchallStep where
  provider : CatchallProvider
  typeIds : List Int
  maxRowsPerSearch : Int

def readSpans (s : CatchallStep) (st : PlannerSettings φ) : IpsSearchBudget → List (Span Int) → Except Exc (List SpanRead)
  | _, [] => .ok []
  | budget, chunk :: chunks => do
      let report ← runCatchallSearch s.provider budget.used s.typeIds (chunk.start, chunk.stop) st.bucketSeconds
        s.maxRowsPerSearch budget
      let rest ← readSpans s st report.budget chunks
      return ⟨report.outcomes, report.budget.used - budget.used⟩ :: rest

def catchallStep (s : CatchallStep) (st : PlannerSettings φ) (progress : ScopeProgress Int φ)
    (chunks : List (Span Int)) (anchor : Int) (budget : Nat) :
    Except Exc (List SpanRead × FamilyStep φ) := do
  let readings ← readSpans s st ⟨budget, 0⟩ chunks
  let settlement ← History.Catchall.settleReads progress readings st.bucketSeconds anchor st
  return (readings, ⟨(readings.map (fun r => r.searches)).sum, settlement⟩)

end QRadarDashboard.Collectors
