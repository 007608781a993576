import QRadarDashboard.Collectors.PwCollector
import QRadarDashboard.Lib.SplitSearch
import QRadarDashboard.PropertyWatch.Bootstrap

/-!
# The history step of a property watch (`app/collectors/pw_collector.py`)

Every search kind is one search for each chunk of the scope.
-/

namespace QRadarDashboard.Collectors
open Lib History PropertyWatch

variable {φ : Type} [PyFloat φ]

/-! ## The budget of a step -/

def pwRemaining (b : PwSearchBudget) : Nat := b.maxSearches - b.used

/-- `_StepBudget`: every search it allows is also taken from the budget of the tick. -/
structure PwStepBudget where
  parent : PwSearchBudget
  maxSearches : Nat
  used : Nat := 0
deriving DecidableEq

def PwStepBudget.remaining (b : PwStepBudget) : Nat := b.maxSearches - b.used

/-- `try_take`. `expired k` is true when the deadline has passed before the search after `k` others is taken. -/
def PwStepBudget.tryTake (expired : Nat → Bool) (b : PwStepBudget) : Option PwStepBudget :=
  if expired b.used || decide (b.maxSearches ≤ b.used) then none
  else (b.parent.tryTake none).map (fun parent => { b with parent := parent, used := b.used + 1 })

def PwStepBudget.refund (b : PwStepBudget) : PwStepBudget :=
  { b with used := b.used - 1, parent := { b.parent with used := b.parent.used - 1 } }

/-! ## The split driver under a step budget -/

/-- `ArielPermitUnavailable`, which a step remembers, or another `ProviderError`. -/
inductive PwCallError where
  | permitUnavailable | failed

abbrev PwHistoryProvider := Nat → PwRequest → Except PwCallError PwKeyedResult

/-- What `run_search` reads of its arguments. `before` searches of the step were sent by earlier calls of it. -/
structure PwHistoryArgs where
  provider : PwHistoryProvider
  before : Nat
  expired : Nat → Bool
  spec : PwQuerySpec
  start : Int
  bucketSeconds : Int
  maxRows : Int

structure PwRegion where
  first : Nat
  count : Nat
  count_ok : 0 < count

namespace PwHistoryArgs

variable (a : PwHistoryArgs)

def bucketAt (index : Nat) : Int := bucketStartAt a.start a.bucketSeconds index

variable (r : PwRegion)

def cells : List Int := (List.range' r.first r.count).map a.bucketAt

def request : PwRequest where
  spec := a.spec
  windowStart := a.bucketAt r.first
  windowEnd := a.bucketAt (r.first + r.count)
  bucketSeconds := a.bucketSeconds
  maxRows := searchRowCap a.spec r.count a.maxRows

variable (request : PwRequest)

def accepted (result : PwKeyedResult) : Bool :=
  SearchArgs.contained request (propertyCount request.spec) result

/-- The state, the rows and the query text a search gives its buckets. An answer that is kept although truncated is
one of one bucket. -/
def verdict : Option (Except PwCallError PwKeyedResult) →
    PwCellState × List PwKeyedRow × String
  | none => (.notCollected, [], "")
  | some (.error _) => (.failed, [], "")
  | some (.ok result) =>
    if ¬ accepted request result then (.failed, [], "")
    else if result.truncated then (.lowerBound, result.rows, result.query)
    else (.complete, result.rows, result.query)

theorem verdict_rows (answer : Option (Except PwCallError PwKeyedResult)) :
    (verdict request answer).1.measured = false → (verdict request answer).2.1 = [] := by
  intro h
  cases answer with
  | none => rfl
  | some answer =>
    cases answer with
    | error e => rfl
    | ok result =>
      simp only [verdict] at h ⊢
      split at h
      · rename_i hstray
        simp [hstray]
      · split at h
        · cases h
        · cases h

def cut : Except PwCallError PwKeyedResult → Bool
  | .error _ => false
  | .ok result => accepted request result && result.truncated

def split : Option (PwRegion × PwRegion) :=
  if hcount : 1 < r.count then
    some (⟨r.first, r.count / 2, by omega⟩, ⟨r.first + r.count / 2, r.count - r.count / 2, by omega⟩)
  else none

def provenance (depth : Nat) (query : String) : PwSearchProvenance where
  searchWindowStart := a.bucketAt r.first
  searchWindowEnd := a.bucketAt (r.first + r.count)
  searchBucketCount := r.count
  splitDepth := depth
  query := query

def cell (depth : Nat) (answer : Option (Except PwCallError PwKeyedResult)) (bucket : Int) :
    PwBucketOutcome where
  search := a.spec.search
  bucketStart := bucket
  state := (verdict (a.request r) answer).1
  rows := (verdict (a.request r) answer).2.1.filter (fun row => row.bucketStart = bucket)
  provenance := answer.map (fun _ => a.provenance r depth (verdict (a.request r) answer).2.2)
  rows_ok := fun h => by rw [verdict_rows _ _ h, List.filter_nil]

theorem cells_ne_nil : a.cells r ≠ [] := by
  obtain ⟨first, count, hcount⟩ := r
  cases count with
  | zero => omega
  | succ count => simp [cells, List.range'_succ]

theorem split_perm {r x y} (h : split r = some (x, y)) : (a.cells x ++ a.cells y).Perm (a.cells r) := by
  unfold split at h
  split at h
  · cases h
    simp only [cells]
    rw [← List.map_append, List.range'_append_1, Nat.add_sub_cancel' (Nat.div_le_self _ 2)]
  · cases h

def driver : SplitDriver PwRegion Int (Except PwCallError PwKeyedResult) PwBucketOutcome PwStepBudget where
  cells := a.cells
  split := split
  ask := fun k r => a.provider (a.before + k) (a.request r)
  cut := fun r answer => cut (a.request r) answer
  take := PwStepBudget.tryTake a.expired
  cell := a.cell
  nonempty := a.cells_ne_nil
  split_perm := a.split_perm

end PwHistoryArgs

/-! ## One search kind over the scope -/

/-- What a step reads of its tick: `secondsLeft k` is `deadline - monotonic()` at its `k`-th plan. -/
structure PwHistoryTick (φ : Type) where
  now : Int
  boundary : Int
  secondsLeft : Nat → φ
  expired : Nat → Bool
  provider : PwHistoryProvider

/-- `ResolvedScope`, once it resolved: the id lists of its searches. -/
structure ResolvedScope where
  scopeKind : PwScopeKind
  chunks : List (List Int)

inductive PwStepError where
  /-- A call was refused its permit; the refused search was refunded. -/
  | permitUnavailable (budget : PwStepBudget)
  | raised (e : Exc)
  | outOfFuel

def raisingStep {α : Type} (x : Except Exc α) : Except PwStepError α := x.mapError PwStepError.raised

structure PwHistorySearch where
  outcomes : List PwBucketOutcome
  budget : PwStepBudget
  refused : Bool

variable (u : UnicodeTables)

def runHistorySearch (s : PwSettings φ) (tick : PwHistoryTick φ) (plan : PwSearchPlan)
    (span : Span Int) (budget : PwStepBudget) : Except Exc PwHistorySearch := do
  let window ← validateBucketedMetricWindow span.start span.stop s.collectionIntervalSeconds
  if s.pwMaxRowsPerSearch < 1 then throw (.value "the row cap is at least 1")
  let spec ← validateQueryInputs u plan s.pwMaxSourcesPerSearch
  let a : PwHistoryArgs := ⟨tick.provider, budget.used, tick.expired, spec, window.1, s.collectionIntervalSeconds,
    s.pwMaxRowsPerSearch⟩
  if hcount : 0 < ((window.2 - window.1) / 1000000 / s.collectionIntervalSeconds).toNat then
    let st := a.driver.search ⟨0, _, hcount⟩ 0 ⟨budget, [], []⟩
    return ⟨(sortOn (fun item => item.1) st.cells).map (fun item => item.2), st.budget,
      st.calls.any (fun call => match call.2 with | .error .permitUnavailable => true | _ => false)⟩
  else return ⟨[], budget, false⟩

/-- What a watch's searches name: the references, the pins and the most rows a bucket of the pins returns. -/
structure PwReadingInputs where
  properties : List (String × String)
  pinned : List (List String)
  pinnedRows : Nat

def PwReadingInputs.plan (inputs : PwReadingInputs) (kind : PwSearchKind) (scopeKind : PwScopeKind)
    (ids : List Int) : PwSearchPlan where
  search := kind
  scopeKind := scopeKind
  scopeIds := ids
  properties := if kind = .totals then [] else inputs.properties
  pinned := if kind = .pinned then inputs.pinned else []

/-- The loop of `_run_kind` over the chunks of the scope. -/
def runScopeChunks (u : UnicodeTables) (s : PwSettings φ) (tick : PwHistoryTick φ) (inputs : PwReadingInputs)
    (kind : PwSearchKind) (scopeKind : PwScopeKind) (span : Span Int) :
    List (List Int) → PwStepBudget → Except PwStepError (List (List PwBucketOutcome) × PwStepBudget)
  | [], budget => .ok ([], budget)
  | ids :: chunks, budget => do
      let found ← raisingStep (runHistorySearch u s tick (inputs.plan kind scopeKind ids) span budget)
      if found.refused then throw (.permitUnavailable found.budget.refund)
      let rest ← runScopeChunks u s tick inputs kind scopeKind span chunks found.budget
      return (found.outcomes :: rest.1, rest.2)

def runKind (s : PwSettings φ) (tick : PwHistoryTick φ) (inputs : PwReadingInputs)
    (scope : ResolvedScope) (kind : PwSearchKind) (span : Span Int) (budget : PwStepBudget) :
    Except PwStepError (List PwBucketOutcome × PwStepBudget) := do
  let found ← runScopeChunks u s tick inputs kind scope.scopeKind span scope.chunks budget
  let outcomes ← raisingStep (combineChunks found.1)
  return (outcomes, found.2)

/-! ## The searches of a call -/

def isRefusal : Except PwCallError PwKeyedResult → Bool
  | .error .permitUnavailable => true
  | _ => false

/-- The answers to the searches a call of `run_search` tries, in their order. -/
def historyAnswers (s : PwSettings φ) (tick : PwHistoryTick φ) (plan : PwSearchPlan)
    (span : Span Int) (budget : PwStepBudget) : Except Exc (List (Except PwCallError PwKeyedResult)) := do
  let window ← validateBucketedMetricWindow span.start span.stop s.collectionIntervalSeconds
  if s.pwMaxRowsPerSearch < 1 then throw (.value "the row cap is at least 1")
  let spec ← validateQueryInputs u plan s.pwMaxSourcesPerSearch
  let a : PwHistoryArgs := ⟨tick.provider, budget.used, tick.expired, spec, window.1, s.collectionIntervalSeconds,
    s.pwMaxRowsPerSearch⟩
  if hcount : 0 < ((window.2 - window.1) / 1000000 / s.collectionIntervalSeconds).toNat then
    return (a.driver.search ⟨0, _, hcount⟩ 0 ⟨budget, [], []⟩).calls.map (fun call => call.2)
  else return []

def scopeAnswers (u : UnicodeTables) (s : PwSettings φ) (tick : PwHistoryTick φ) (inputs : PwReadingInputs)
    (kind : PwSearchKind) (scopeKind : PwScopeKind) (span : Span Int) :
    List (List Int) → PwStepBudget → List (Except PwCallError PwKeyedResult)
  | [], _ => []
  | ids :: chunks, budget =>
    match runHistorySearch u s tick (inputs.plan kind scopeKind ids) span budget,
      historyAnswers u s tick (inputs.plan kind scopeKind ids) span budget with
    | .ok found, .ok answers =>
      if found.refused then answers
      else answers ++ scopeAnswers u s tick inputs kind scopeKind span chunks found.budget
    | _, _ => []

/-- The answers to the searches a call of `_run_kind` tries. -/
def kindAnswers (s : PwSettings φ) (tick : PwHistoryTick φ) (inputs : PwReadingInputs)
    (scope : ResolvedScope) (kind : PwSearchKind) (span : Span Int) (budget : PwStepBudget) :
    List (Except PwCallError PwKeyedResult) :=
  scopeAnswers u s tick inputs kind scope.scopeKind span scope.chunks budget

def sentSearches (answers : List (Except PwCallError PwKeyedResult)) : Nat :=
  answers.countP (fun answer => !isRefusal answer)

def refusedSearches (answers : List (Except PwCallError PwKeyedResult)) : Nat := answers.countP isRefusal

variable (outcomes : List PwBucketOutcome)

def wideStatus (searches : Nat) : SearchStatus :=
  if outcomes.any (fun o => o.state = .failed) then .failed
  else if !outcomes.isEmpty && outcomes.all (fun o => o.state = .complete) then .complete
  else if outcomes.any (fun o => o.state = .notCollected) && searches = 0 then .notRun
  else .truncated

def chunkResult (span : Span Int) (outcomes : List PwBucketOutcome) (searches : Nat) : ChunkResult :=
  if outcomes.any (fun o => o.state = .failed) then
    { span := span, status := .failed, searches := searches, searches_nonneg := Int.natCast_nonneg searches }
  else if outcomes.any (fun o => o.state = .notCollected) then
    { span := span, status := if searches = 0 then .notRun else .truncated, searches := searches,
      searches_nonneg := Int.natCast_nonneg searches }
  else
    { span := span
      status := .complete
      rows := ((outcomes.map (fun o => o.rows.length)).sum : Nat)
      nonSilentBuckets := (outcomes.countP (fun o => !o.rows.isEmpty) : Nat)
      lowerBoundBuckets := (outcomes.countP (fun o => o.state = .lowerBound) : Nat)
      searches := searches
      searches_nonneg := Int.natCast_nonneg searches }

/-! ## The step -/

structure PwStepState (φ : Type) where
  progress : ScopeProgress Int φ
  budget : PwStepBudget
  scan : Option (ScanSpanResult × List PwBucketOutcome) := none
  plans : Nat := 0

/-- How a step ended. `settlement` is there when a span was read. -/
structure PwStepEnd (φ : Type) where
  progress : ScopeProgress Int φ
  budget : PwStepBudget
  reason : String
  trigger : Option HistoryTrigger := none
  waiting : Bool := false
  settlement : Option (StepSettlement φ) := none
  staged : List StagedBucket := []

structure PwStepArgs (φ : Type) [PyFloat φ] where
  u : UnicodeTables
  settings : PwSettings φ
  planner : PlannerSettings φ
  tick : PwHistoryTick φ
  scope : ResolvedScope
  inputs : PwReadingInputs
  watchVersion : Int
  values : TrackedValues

namespace PwStepArgs

variable (a : PwStepArgs φ)

def chunksPerSearch : Nat := max 1 a.scope.chunks.length

variable (x : PwStepState φ)

def plan : Except Exc PwStepPlan :=
  planPwStep a.planner x.progress a.tick.now a.tick.boundary
    { searches := ((x.budget.remaining / a.chunksPerSearch : Nat) : Int)
      secondsLeft := a.tick.secondsLeft x.plans
      searches_nonneg := Int.natCast_nonneg _ }
    a.inputs.pinnedRows a.settings.pwBootstrapEnabled (x.scan.map (fun scan => scan.1))

def kind (search : PwSearchKind) (span : Span Int) (budget : PwStepBudget) :
    Except PwStepError (List PwBucketOutcome × PwStepBudget) :=
  runKind a.u a.settings a.tick a.inputs a.scope search span budget

def scanTotals : List (Int × Int) :=
  if outcomes.all (fun o => o.state = .complete) then
    outcomes.map (fun o => (o.bucketStart, (o.rows.map (fun row => row.events)).sum))
  else []

def stageSettings : StageSettings where
  fold :=
    { bucketSeconds := a.settings.collectionIntervalSeconds
      watchVersion := a.watchVersion
      propertyCount := a.inputs.properties.length
      maxValues := a.settings.pwMaxValuesPerBucket
      valueMaxLength := a.settings.pwValueMaxLength }
  policy :=
    { minEvents := a.settings.pwMinAdmissionEvents
      maxNewPerBucket := a.settings.pwMaxNewValuesPerBucket
      maxActive := a.settings.pwMaxActiveValuesPerWatch
      activeDays := a.settings.pwValueActiveDays
      minEvents_ok := a.settings.admission_pos.1
      maxActive_ok := a.settings.admission_pos.2.1
      activeDays_ok := a.settings.admission_pos.2.2 }
  pinned := a.inputs.pinned
  reading := true

/-- `by_bucket[start]` of the outcomes of a search: the last one of a bucket. -/
def outcomeOf (bucket : Int) : Except Exc PwBucketOutcome :=
  match outcomes.reverse.find? (fun o => o.bucketStart = bucket) with
  | none => .error .key
  | some o => .ok o

def readChunks : Bool → List (Span Int) → PwStepBudget →
    Except PwStepError (List (ChunkResult × List PwBucketOutcome) × PwStepBudget)
  | _, [], budget => .ok ([], budget)
  | blocked, chunk :: chunks, budget => do
      if blocked then
        let rest ← readChunks true chunks budget
        return (({ span := chunk, status := .notRun, searches := 0, searches_nonneg := Int.le_refl 0 }, []) :: rest.1,
          rest.2)
      else
        let found ← a.kind .grouped chunk budget
        let result := chunkResult chunk found.1 (found.2.used - budget.used)
        let rest ← readChunks (result.status ≠ .complete) chunks found.2
        return ((result, found.1) :: rest.1, rest.2)

def readTotals (plan : PwStepPlan) (span : Span Int) :
    Except PwStepError (List PwBucketOutcome × SearchStatus × PwStepBudget) := do
  if plan.reusesScanTotals then
    let outcomes := (x.scan.map (fun scan => scan.2)).getD []
    return (outcomes.filter (fun o => span.start ≤ o.bucketStart && o.bucketStart < span.stop), .complete, x.budget)
  else
    match plan.totalsSpan with
    | none => raisingStep (.error (.assertion "plan.totals_span is not None"))
    | some totalsSpan => do
        let found ← a.kind .totals totalsSpan x.budget
        return (found.1, wideStatus found.1 (found.2.used - x.budget.used), found.2)

def readPinned (plan : PwStepPlan) (totals : SearchStatus) (budget : PwStepBudget) :
    Except PwStepError (Option (List PwBucketOutcome) × Option SearchStatus × PwStepBudget) := do
  if a.inputs.pinned = [] then return (none, none, budget)
  else if totals = .complete then
    match plan.pinnedSpan with
    | none => raisingStep (.error (.assertion "plan.pinned_span is not None"))
    | some pinnedSpan => do
        let found ← a.kind .pinned pinnedSpan budget
        return (some found.1, some (wideStatus found.1 (found.2.used - budget.used)), found.2)
  else return (none, some .notRun, budget)

def stageRead (settlement : StepSettlement φ) (chunks : List (ChunkResult × List PwBucketOutcome))
    (totals : List PwBucketOutcome) (pinned : Option (List PwBucketOutcome)) : Except Exc (List StagedBucket) := do
  let whole := (chunks.filter (fun chunk => chunk.1.status = .complete)).map (fun chunk => chunk.2)
  let grouped := (whole.take settlement.writeSpans.length).flatten
  if grouped = [] then return []
  else
    if settlement.progress.floor.isNone then throw (.assertion "progress.floor is not None")
    let totals ← grouped.mapM (fun o => outcomeOf totals o.bucketStart)
    let pinned ← match pinned with
      | none => pure none
      | some pinned => (grouped.mapM (fun o => outcomeOf pinned o.bucketStart)).map some
    foldAndStage a.u a.stageSettings grouped totals pinned grouped.length a.values

def readSpan (plan : PwStepPlan) : Except PwStepError (PwStepEnd φ) := do
  match plan.step.chunks.head?, plan.step.chunks.getLast? with
  | some first, some last => do
      let totals ← a.readTotals x plan ⟨first.start, last.stop⟩
      let pinned ← a.readPinned plan totals.2.1 totals.2.2
      let whole := totals.2.1 = .complete ∧ pinned.2.1.all (fun s => s = .complete)
      let grouped ← a.readChunks (¬ whole) plan.groupedChunks pinned.2.2
      let settlement ← raisingStep (settlePwStep a.planner x.progress totals.2.1 pinned.2.1
        (grouped.1.map (fun chunk => chunk.1)) plan.reusesScanTotals a.tick.boundary)
      let staged ← raisingStep (a.stageRead settlement grouped.1 totals.1 pinned.1)
      -- the count of a scope of several chunks is the budget's own
      return {
        progress := { settlement.progress with
          searches := x.progress.searches + (grouped.2.used - x.budget.used : Nat) }
        budget := grouped.2
        reason := settlement.reason
        trigger := settlement.trigger
        settlement := some settlement
        staged := staged }
  | _, _ => raisingStep (.error (.assertion "span is not None"))

def scanRound (plan : PwStepPlan) : Except PwStepError (PwStepEnd φ ⊕ PwStepState φ) := do
  match plan.totalsSpan with
  | none => raisingStep (.error (.assertion "plan.totals_span is not None"))
  | some span =>
    -- `plan_scan` plans no span that ends before it starts
    if hspan : span.start ≤ span.stop then
      let found ← a.kind .totals span x.budget
      let used := found.2.used - x.budget.used
      let result : ScanSpanResult := ⟨span, wideStatus found.1 used, scanTotals found.1, hspan⟩
      if result.status = .notRun then
        return .inl { progress := x.progress, budget := found.2, reason := waitingForBudget, waiting := true }
      else
        let decision ← raisingStep (interpretScan x.progress [result] a.tick.boundary a.planner)
        -- a scope of several chunks spent one search per chunk
        let progress := { decision.progress with
          searches := decision.progress.searches + max 0 ((used : Int) - 1) }
        let next : PwStepState φ := { progress := progress, budget := found.2, plans := x.plans + 1, scan := x.scan }
        match decision.outcome with
        | .floorFound => return .inr { next with scan := some (result, found.1) }
        | .continue => return .inr next
        | .retry | .unavailable => return .inl {
            progress := progress, budget := found.2, reason := decision.reason, trigger := decision.trigger }
    else raisingStep (.error (.assertion "plan.totals_span is a span"))

def rounds : Nat → PwStepState φ → Except PwStepError (PwStepEnd φ)
  | 0, _ => .error .outOfFuel
  | fuel + 1, x => do
      let plan ← raisingStep (a.plan x)
      match plan.step.action with
      | .finish => return {
          progress := x.progress, budget := x.budget, reason := plan.step.reason, trigger := plan.step.trigger }
      | .wait => return { progress := x.progress, budget := x.budget, reason := plan.step.reason, waiting := true }
      | .scan =>
        match ← a.scanRound x plan with
        | .inl ended => return ended
        | .inr next => rounds fuel next
      | .read => a.readSpan x plan

end PwStepArgs

/-! ## A watch's reading -/

def readingInputs (s : PwSettings φ) (watch : PropertyWatchRow) (scope : ResolvedScope) :
    Except Exc PwReadingInputs := do
  let references ← validateProperties watch.properties
  let pinned ← validatePinnedValues u watch.pinnedValues references.length s.pwMaxPinnedValues
  let properties := references.map (fun r => (r.kind.value, r.name))
  if pinned = [] then return ⟨properties, pinned, 0⟩
  else
    match scope.chunks with
    | [] => throw .index
    | ids :: _ =>
      let spec ← validateQueryInputs u ⟨.pinned, scope.scopeKind, ids, properties, pinned⟩ s.pwMaxSourcesPerSearch
      return ⟨properties, pinned, pinnedRowsPerBucket spec⟩

def starvedBySetting (s : PwSettings φ) (pinned : Bool) (budget : PwSearchBudget) : Bool :=
  decide (s.pwBootstrapSearchesPerTick < historyStepSearches pinned) &&
    decide (s.pwBootstrapSearchesPerTick ≤ pwRemaining budget)

def stepBudget (s : PwSettings φ) (budget : PwSearchBudget) (secondsLeft : φ) : PwStepBudget where
  parent := budget
  maxSearches := (pwHistoryBudget s (pwRemaining budget) secondsLeft).searches.toNat

/-- The step loop of `_read_history`. -/
def historyStep (a : PwStepArgs φ) (progress : ScopeProgress Int φ) (budget : PwSearchBudget) :
    Except PwStepError (PwStepEnd φ) :=
  let taken := stepBudget a.settings budget (a.tick.secondsLeft 0)
  if starvedBySetting a.settings (!a.inputs.pinned.isEmpty) budget then
    .ok {
      progress := progress
      budget := taken
      reason := historyBudgetSentence (historyStepSearches (!a.inputs.pinned.isEmpty))
        a.settings.pwBootstrapSearchesPerTick
      waiting := true }
  else a.rounds (taken.remaining + 1) { progress := progress, budget := taken }

structure PwScope (φ : Type) where
  state : PwHistoryState
  progress : ScopeProgress Int φ

def pwHistoryTick (a : PwStepArgs φ) (scope : PwScope φ) (budget : PwSearchBudget) :
    Except PwStepError (PwScope φ × PwStepEnd φ) := do
  require (scope.state = .reading) (PwStepError.raised (.lifecycle "the watch is not reading"))
  let ended ← historyStep a scope.progress budget
  match ended.trigger with
  | none => return (⟨.reading, ended.progress⟩, ended)
  | some trigger => do
      let change ← raisingStep (applyTrigger .reading trigger)
      return (⟨change.1, ended.progress⟩, ended)

end QRadarDashboard.Collectors
