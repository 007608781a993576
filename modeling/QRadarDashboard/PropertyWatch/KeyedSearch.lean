import QRadarDashboard.Collectors.BucketedMetrics
import QRadarDashboard.PropertyWatch.Query

/-!
# The split driver of keyed searches (`app/property_watch/keyed_search.py`)

A truncated search keeps nothing and is split in time; at one bucket its top rows are kept as a lower bound.
-/

namespace QRadarDashboard.PropertyWatch
open Lib Collectors

inductive PwCellState where
  | complete | lowerBound | failed | notCollected
deriving DecidableEq

def PwCellState.measured : PwCellState → Bool
  | .complete => true
  | .lowerBound => true
  | .failed => false
  | .notCollected => false

/-! ## The budget -/

structure PwSearchBudget where
  maxSearches : Nat
  maxPerWatch : Option Nat
  used : Nat
  byWatch : Dict Int Nat
deriving DecidableEq

def PwSearchBudget.usedBy (b : PwSearchBudget) (watch : Int) : Nat := (b.byWatch.get? watch).getD 0

/-- `try_take`: the budget after a search was taken from it, if one could be. -/
def PwSearchBudget.tryTake (b : PwSearchBudget) (watch : Option Int) : Option PwSearchBudget :=
  if b.maxSearches ≤ b.used then none
  else
    match watch with
    | none => some { b with used := b.used + 1 }
    | some w =>
      if b.maxPerWatch.any (fun most => most ≤ b.usedBy w) then none
      else some { b with used := b.used + 1, byWatch := b.byWatch.set w (b.usedBy w + 1) }

/-! ## Rows and outcomes -/

/-- One keyed aggregate row. `values` holds the raw property values, `none` for NULL. -/
structure PwKeyedRow where
  bucketStart : Int
  events : Int
  values : List (Option String) := []
deriving DecidableEq

structure PwKeyedResult where
  rows : List PwKeyedRow := []
  truncated : Bool := false
  query : String := ""

structure PwSearchProvenance where
  searchWindowStart : Int
  searchWindowEnd : Int
  searchBucketCount : Nat
  splitDepth : Nat
  query : String

/-- One bucket of one search kind. A bucket without a measurement cannot hold rows. -/
structure PwBucketOutcome where
  search : PwSearchKind
  bucketStart : Int
  state : PwCellState
  rows : List PwKeyedRow
  provenance : Option PwSearchProvenance
  rows_ok : state.measured = false → rows = []

def PwBucketOutcome.measured (o : PwBucketOutcome) : Bool := o.state.measured

def searchRowCap (spec : PwQuerySpec) (buckets : Nat) (maxRows : Int) : Int :=
  match spec.search with
  | .totals => buckets
  | .pinned => min (pinnedRowsPerBucket spec * buckets) maxRows
  | .grouped => maxRows

def propertyCount (spec : PwQuerySpec) : Nat :=
  match spec.search with
  | .totals => 0
  | .grouped => spec.properties.length
  | .pinned => spec.properties.length

/-! ## The driver -/

structure PwRequest where
  spec : PwQuerySpec
  windowStart : Int
  windowEnd : Int
  bucketSeconds : Int
  maxRows : Int

abbrev PwProvider := Nat → PwRequest → Option PwKeyedResult

structure PwCall where
  request : PwRequest
  answer : Option PwKeyedResult

structure SearchArgs where
  provider : PwProvider
  spec : PwQuerySpec
  start : Int
  bucketSeconds : Int
  maxRows : Int
  watch : Option Int

structure SearchState where
  budget : PwSearchBudget
  calls : List PwCall
  cells : Dict Int PwBucketOutcome

namespace SearchArgs

/-- `at(index)` -/
def bucketAt (a : SearchArgs) (index : Nat) : Int := a.start + seconds (a.bucketSeconds * index)

def provenance (a : SearchArgs) (first count depth : Nat) (query : String) : PwSearchProvenance where
  searchWindowStart := a.bucketAt first
  searchWindowEnd := a.bucketAt (first + count)
  searchBucketCount := count
  splitDepth := depth
  query := query

def cell (a : SearchArgs) (state : PwCellState) (rows : List PwKeyedRow)
    (h : state.measured = false → rows = []) (provenance : Option PwSearchProvenance) (index : Nat) :
    PwBucketOutcome where
  search := a.spec.search
  bucketStart := a.bucketAt index
  state := state
  rows := rows.filter (fun row => row.bucketStart = a.bucketAt index)
  provenance := provenance
  rows_ok := fun hstate => by rw [h hstate, List.filter_nil]

def emit (a : SearchArgs) (first count : Nat) (state : PwCellState) (rows : List PwKeyedRow)
    (h : state.measured = false → rows = []) (provenance : Option PwSearchProvenance) (st : SearchState) :
    SearchState :=
  { st with
    cells := (List.range' first count).foldl
      (fun cells index => cells.set (a.bucketAt index) (a.cell state rows h provenance index)) st.cells }

def contained (request : PwRequest) (propertyCount : Nat) (result : PwKeyedResult) : Bool :=
  decide (result.rows.length ≤ request.maxRows) &&
    result.rows.all (fun row => decide (request.windowStart ≤ row.bucketStart) &&
      decide (row.bucketStart < request.windowEnd) && decide (row.values.length = propertyCount))

def request (a : SearchArgs) (first count : Nat) : PwRequest where
  spec := a.spec
  windowStart := a.bucketAt first
  windowEnd := a.bucketAt (first + count)
  bucketSeconds := a.bucketSeconds
  maxRows := searchRowCap a.spec count a.maxRows

def ask (a : SearchArgs) (first count : Nat) (budget : PwSearchBudget) (st : SearchState) : SearchState :=
  { st with
    budget := budget
    calls := st.calls ++
      [⟨a.request first count, a.provider st.calls.length (a.request first count)⟩] }

def search (a : SearchArgs) (first count depth : Nat) (st : SearchState) : SearchState :=
  match st.budget.tryTake a.watch with
  | none => a.emit first count .notCollected [] (fun _ => rfl) none st
  | some budget =>
    let asked := a.ask first count budget st
    match a.provider st.calls.length (a.request first count) with
    | none =>
      -- The text of a failed search is dropped, and a failed search is not split.
      a.emit first count .failed [] (fun _ => rfl) (a.provenance first count depth "") asked
    | some result =>
      let provenance := a.provenance first count depth result.query
      if ¬ contained (a.request first count) (propertyCount a.spec) result then
        a.emit first count .failed [] (fun _ => rfl) (a.provenance first count depth "") asked
      else if ¬ result.truncated then
        a.emit first count .complete result.rows (fun h => by cases h) provenance asked
      else if 1 < count then
        let left := count / 2
        a.search (first + left) (count - left) (depth + 1) (a.search first left (depth + 1) asked)
      else
        a.emit first count .lowerBound result.rows (fun h => by cases h) provenance asked
termination_by count

end SearchArgs

structure SearchReport where
  outcomes : List PwBucketOutcome
  budget : PwSearchBudget
  calls : List PwCall

def runSearch (u : UnicodeTables) (provider : PwProvider) (plan : PwSearchPlan) (window : Int × Int)
    (bucketSeconds maxRows : Int) (budget : PwSearchBudget) (maxSources : Nat) (watch : Option Int) :
    Except Exc SearchReport := do
  let (start, stop) ← validateBucketedMetricWindow window.1 window.2 bucketSeconds
  if maxRows < 1 then throw (.value "the row cap is at least 1")
  let spec ← validateQueryInputs u plan maxSources
  let bucketCount := ((stop - start) / 1000000 / bucketSeconds).toNat
  let st := SearchArgs.search ⟨provider, spec, start, bucketSeconds, maxRows, watch⟩ 0 bucketCount 0
    ⟨budget, [], []⟩
  return ⟨(sortOn (fun item => item.1) st.cells).map (fun item => item.2), st.budget, st.calls⟩

/-! ## Scope chunks -/

def combinedState (states : List PwCellState) : PwCellState :=
  if .failed ∈ states then .failed
  else if .notCollected ∈ states then .notCollected
  else if .lowerBound ∈ states then .lowerBound
  else .complete

def combineCells (lead : PwBucketOutcome) (cells : List PwBucketOutcome) : PwBucketOutcome where
  search := lead.search
  bucketStart := lead.bucketStart
  state := combinedState (cells.map (fun cell => cell.state))
  rows := if (combinedState (cells.map (fun cell => cell.state))).measured then
      cells.flatMap (fun cell => cell.rows) else []
  provenance := cells.findSome? (fun cell => cell.provenance)
  rows_ok := fun h => by simp [h]

/-- `combine_chunks`: the chunks of one search kind added back into one outcome per bucket. -/
def combineChunks (chunks : List (List PwBucketOutcome)) : Except Exc (List PwBucketOutcome) :=
  match chunks with
  | [] => .error (.value "combining needs at least one chunk")
  | first :: rest =>
    let keys := first.map (fun o => (o.search, o.bucketStart))
    if rest.any (fun chunk => chunk.map (fun o => (o.search, o.bucketStart)) ≠ keys) then
      .error (.value "every chunk covers the same buckets of the same search")
    else .ok (first.mapIdx (fun index lead => combineCells lead (chunks.filterMap (fun chunk => chunk[index]?))))

/-! ## What the driver can return -/

def PwProvider.Counts (provider : PwProvider) : Prop :=
  ∀ k request result, provider k request = some result → ∀ row ∈ result.rows, 0 ≤ row.events

def DriverCall (u : UnicodeTables) (search : PwSearchKind) (properties : List (String × String))
    (pinned : List (List String)) (bucketSeconds : Int) (outcomes : List PwBucketOutcome) : Prop :=
  ∃ (provider : PwProvider) (plan : PwSearchPlan) (window : Int × Int) (maxRows : Int) (budget : PwSearchBudget)
    (maxSources : Nat) (watch : Option Int) (report : SearchReport),
    provider.Counts ∧ plan.search = search ∧ plan.properties = properties ∧ plan.pinned = pinned ∧
      runSearch u provider plan window bucketSeconds maxRows budget maxSources watch = .ok report ∧
      report.outcomes = outcomes

/-- An outcome the driver can return for a search kind: of one call, or of the chunks added back together. -/
inductive DriverOutcome (u : UnicodeTables) (search : PwSearchKind) (properties : List (String × String))
    (pinned : List (List String)) (bucketSeconds : Int) : PwBucketOutcome → Prop
  | searched {outcomes : List PwBucketOutcome} {o : PwBucketOutcome}
      (h : DriverCall u search properties pinned bucketSeconds outcomes) (ho : o ∈ outcomes) :
      DriverOutcome u search properties pinned bucketSeconds o
  | combined {chunks : List (List PwBucketOutcome)} {outcomes : List PwBucketOutcome} {o : PwBucketOutcome}
      (hchunks : ∀ chunk ∈ chunks, DriverCall u search properties pinned bucketSeconds chunk)
      (h : combineChunks chunks = .ok outcomes) (ho : o ∈ outcomes) :
      DriverOutcome u search properties pinned bucketSeconds o

end QRadarDashboard.PropertyWatch
