import QRadarDashboard.Collectors.BucketedMetrics
import QRadarDashboard.Lib.SplitSearch
import Mathlib.Data.Prod.Lex

/-!
# The split driver of keyed IPS searches (`app/ips/keyed_search.py`)

A truncated search is split in time first, then in sources.
-/

namespace QRadarDashboard.Ips
open Lib Collectors

inductive IpsDimension where
  | totals | destinationPort | destinationIp | signature | sourceIp | portFanout | action
deriving DecidableEq

def IpsDimension.value : IpsDimension → String
  | .totals => "TOTALS"
  | .destinationPort => "DESTINATION_PORT"
  | .destinationIp => "DESTINATION_IP"
  | .signature => "SIGNATURE"
  | .sourceIp => "SOURCE_IP"
  | .portFanout => "PORT_FANOUT"
  | .action => "ACTION"

inductive IpsCellState where
  | complete | lowerBound | failed | rejected | notCollected
deriving DecidableEq

def IpsCellState.measured : IpsCellState → Bool
  | .complete => true
  | .lowerBound => true
  | .failed => false
  | .rejected => false
  | .notCollected => false

structure IpsSearchBudget where
  maxSearches : Nat
  used : Nat

def IpsSearchBudget.tryTake (b : IpsSearchBudget) : Option IpsSearchBudget :=
  if b.maxSearches ≤ b.used then none else some { b with used := b.used + 1 }

structure IpsKeyedRow where
  qradarLogSourceId : Int
  bucketStart : Int
  events : Nat
  records : Nat
  destinationPort : Option Int := none
  protocolId : Option Int := none
  destinationIp : Option String := none
  sourceIp : Option String := none
  qid : Option Int := none
  name : Option String := none
  signature : Option String := none
  action : Option String := none
  distinctPorts : Option Int := none
deriving DecidableEq

structure IpsKeyedResult where
  rows : List IpsKeyedRow := []
  truncated : Bool := false

inductive IpsAnswer where
  | rejected
  | failed
  | result (r : IpsKeyedResult)

structure IpsCellProvenance where
  searchWindowStart : Int
  searchWindowEnd : Int
  searchBucketCount : Nat
  searchSourceCount : Nat
  splitDepth : Nat
  bucketKey : String
deriving DecidableEq

/-- One (source, bucket) cell of one dimension. A cell without a measurement cannot hold rows. -/
structure IpsCellOutcome where
  dimension : IpsDimension
  qradarLogSourceId : Int
  bucketStart : Int
  state : IpsCellState
  rows : List IpsKeyedRow
  provenance : Option IpsCellProvenance
  rows_ok : state.measured = false → rows = []
deriving DecidableEq

def IpsCellOutcome.measured (o : IpsCellOutcome) : Bool := o.state.measured

/-- Sources that share the references one dimension reads: `(logical, kind, name)`. -/
structure IpsSourceGroup where
  fields : List (String × String × String)
  sourceIds : List Int

structure IpsRequest where
  dimension : IpsDimension
  qradarLogSourceIds : List Int
  fields : List (String × String × String)
  windowStart : Int
  windowEnd : Int
  bucketSeconds : Int
  maxRows : Int

abbrev IpsProvider := Nat → IpsRequest → IpsAnswer

structure DimensionArgs where
  provider : IpsProvider
  dimension : IpsDimension
  fields : List (String × String × String)
  start : Int
  bucketSeconds : Int
  maxRows : Int

structure IpsRegion where
  sources : List Int
  first : Nat
  count : Nat
  sources_ok : sources ≠ []
  count_ok : 0 < count

namespace DimensionArgs

variable (a : DimensionArgs)

def bucketAt (index : Nat) : Int := bucketStartAt a.start a.bucketSeconds index

def cells (r : IpsRegion) : List (Int ×ₗ Int) :=
  r.sources.flatMap (fun source => (List.range' r.first r.count).map (fun i => toLex (source, a.bucketAt i)))

def request (r : IpsRegion) : IpsRequest where
  dimension := a.dimension
  qradarLogSourceIds := r.sources
  fields := a.fields
  windowStart := a.bucketAt r.first
  windowEnd := a.bucketAt (r.first + r.count)
  bucketSeconds := a.bucketSeconds
  maxRows := a.maxRows

def contained (request : IpsRequest) (result : IpsKeyedResult) : Bool :=
  decide (result.rows.length ≤ request.maxRows) &&
    result.rows.all (fun row => decide (row.qradarLogSourceId ∈ request.qradarLogSourceIds) &&
      decide (request.windowStart ≤ row.bucketStart) && decide (row.bucketStart < request.windowEnd))

/-- The state and the rows a search gives its cells. An answer that is kept although truncated is one of one
source and one bucket. -/
def verdict (request : IpsRequest) : Option IpsAnswer → IpsCellState × List IpsKeyedRow
  | none => (.notCollected, [])
  | some .rejected => (.rejected, [])
  | some .failed => (.failed, [])
  | some (.result result) =>
    if ¬ contained request result then (.failed, [])
    else if result.truncated then (.lowerBound, result.rows)
    else (.complete, result.rows)

theorem verdict_rows (request : IpsRequest) (answer : Option IpsAnswer) :
    (verdict request answer).1.measured = false → (verdict request answer).2 = [] := by
  intro h
  cases answer with
  | none => rfl
  | some answer =>
    cases answer with
    | rejected => rfl
    | failed => rfl
    | result result =>
      simp only [verdict] at h ⊢
      split at h
      · rename_i hstray
        simp [hstray]
      · split at h
        · cases h
        · cases h

def cut (request : IpsRequest) : IpsAnswer → Bool
  | .rejected => false
  | .failed => false
  | .result result => contained request result && result.truncated

def split (r : IpsRegion) : Option (IpsRegion × IpsRegion) :=
  if hcount : 1 < r.count then
    some (⟨r.sources, r.first, r.count / 2, r.sources_ok, by omega⟩,
      ⟨r.sources, r.first + r.count / 2, r.count - r.count / 2, r.sources_ok, by omega⟩)
  else if hsources : 1 < r.sources.length then
    some (⟨r.sources.take (r.sources.length / 2), r.first, r.count,
        List.ne_nil_of_length_pos (by rw [List.length_take]; omega), r.count_ok⟩,
      ⟨r.sources.drop (r.sources.length / 2), r.first, r.count,
        List.ne_nil_of_length_pos (by rw [List.length_drop]; omega), r.count_ok⟩)
  else none

def provenance (r : IpsRegion) (depth : Nat) : IpsCellProvenance where
  searchWindowStart := a.bucketAt r.first
  searchWindowEnd := a.bucketAt (r.first + r.count)
  searchBucketCount := r.count
  searchSourceCount := r.sources.length
  splitDepth := depth
  bucketKey := s!"starttime / {a.bucketSeconds * 1000}"

def cell (r : IpsRegion) (depth : Nat) (answer : Option IpsAnswer) (key : Int ×ₗ Int) : IpsCellOutcome where
  dimension := a.dimension
  qradarLogSourceId := (ofLex key).1
  bucketStart := (ofLex key).2
  state := (verdict (a.request r) answer).1
  rows := (verdict (a.request r) answer).2.filter (fun row =>
    row.qradarLogSourceId = (ofLex key).1 ∧ row.bucketStart = (ofLex key).2)
  provenance := answer.map (fun _ => a.provenance r depth)
  rows_ok := fun h => by rw [verdict_rows _ _ h, List.filter_nil]

theorem cells_ne_nil (r : IpsRegion) : a.cells r ≠ [] := by
  obtain ⟨sources, first, count, hsources, hcount⟩ := r
  intro hnil
  cases sources with
  | nil => exact hsources rfl
  | cons source sources =>
    cases count with
    | zero => omega
    | succ count => simp [cells, List.range'_succ] at hnil

theorem split_perm {r x y} (h : split r = some (x, y)) : (a.cells x ++ a.cells y).Perm (a.cells r) := by
  unfold split at h
  split at h
  · cases h
    simp only [cells]
    refine (List.flatMap_append_perm _ _ _).trans (List.Perm.of_eq ?_)
    congr 1
    funext source
    rw [← List.map_append, List.range'_append_1, Nat.add_sub_cancel' (Nat.div_le_self _ 2)]
  · split at h
    · cases h
      simp only [cells]
      rw [← List.flatMap_append, List.take_append_drop]
    · cases h

def driver : SplitDriver IpsRegion (Int ×ₗ Int) IpsAnswer IpsCellOutcome IpsSearchBudget where
  cells := a.cells
  split := split
  ask := fun k r => a.provider k (a.request r)
  cut := fun r answer => cut (a.request r) answer
  take := IpsSearchBudget.tryTake
  cell := a.cell
  nonempty := a.cells_ne_nil
  split_perm := a.split_perm

end DimensionArgs

structure DimensionReport where
  outcomes : List IpsCellOutcome
  budget : IpsSearchBudget
  calls : List (IpsRequest × IpsAnswer)

def runDimension (provider : IpsProvider) (dimension : IpsDimension) (group : IpsSourceGroup)
    (window : Int × Int) (bucketSeconds maxRows : Int) (budget : IpsSearchBudget) :
    Except Exc DimensionReport := do
  let span ← validateBucketedMetricWindow window.1 window.2 bucketSeconds
  if hsources : sortOn (fun source => source) group.sourceIds = [] then
    .error (.value "an IPS source group cannot be empty")
  else
    let a : DimensionArgs := ⟨provider, dimension, group.fields, span.1, bucketSeconds, maxRows⟩
    if hcount : 0 < ((span.2 - span.1) / 1000000 / bucketSeconds).toNat then
      let st := a.driver.search
        ⟨sortOn (fun source => source) group.sourceIds, 0, _, hsources, hcount⟩ 0 ⟨budget, [], []⟩
      return ⟨(sortOn (fun item => item.1) st.cells).map (fun item => item.2), st.budget,
        st.calls.map (fun call => (a.request call.1, call.2))⟩
    else return ⟨[], budget, []⟩

end QRadarDashboard.Ips
