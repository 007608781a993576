import QRadarDashboard.Ips.KeyedSearch

/-!
# The split driver of the catch-all senders search (`app/catchall/keyed_search.py`)

A truncated search is split in time, left half first; at one bucket its top rows are kept as a lower bound.
-/

namespace QRadarDashboard.Catchall
open Lib Collectors Ips

structure CatchallSenderRow where
  qradarLogSourceId : Int
  sender : Option String := none
  bucketStart : Int
  events : Nat
  records : Nat

structure CatchallKeyedResult where
  rows : List CatchallSenderRow := []
  truncated : Bool := false

inductive CatchallAnswer where
  | rejected
  | failed
  | result (r : CatchallKeyedResult)

structure CatchallProvenance where
  searchWindowStart : Int
  searchWindowEnd : Int
  searchBucketCount : Nat
  splitDepth : Nat
  deviceTypeIds : List Int
  bucketKey : String

structure CatchallBucketOutcome where
  bucketStart : Int
  state : IpsCellState
  rows : List CatchallSenderRow
  provenance : Option CatchallProvenance
  rows_ok : state.measured = false → rows = []

structure CatchallRequest where
  deviceTypeIds : List Int
  windowStart : Int
  windowEnd : Int
  bucketSeconds : Int
  maxRows : Int

abbrev CatchallProvider := Nat → CatchallRequest → CatchallAnswer

/-- What `run_catchall_search`'s inner functions read of its arguments. `before` calls were made by earlier ones
of the step. -/
structure CatchallArgs where
  provider : CatchallProvider
  before : Nat
  types : List Int
  start : Int
  bucketSeconds : Int
  maxRows : Int
  width_ok : 0 < bucketSeconds

structure CatchallRegion where
  first : Nat
  count : Nat
  count_ok : 0 < count

namespace CatchallArgs

variable (a : CatchallArgs)

def bucketAt (index : Nat) : Int := bucketStartAt a.start a.bucketSeconds index

def cells (r : CatchallRegion) : List Int := (List.range' r.first r.count).map a.bucketAt

def request (r : CatchallRegion) : CatchallRequest where
  deviceTypeIds := a.types
  windowStart := a.bucketAt r.first
  windowEnd := a.bucketAt (r.first + r.count)
  bucketSeconds := a.bucketSeconds
  maxRows := a.maxRows

def contained (request : CatchallRequest) (result : CatchallKeyedResult) : Bool :=
  decide (result.rows.length ≤ request.maxRows) &&
    result.rows.all (fun row => decide (request.windowStart ≤ row.bucketStart) &&
      decide (row.bucketStart < request.windowEnd))

/-- The state and the rows a search gives its buckets. An answer that is kept although truncated is one of one
bucket. -/
def verdict (request : CatchallRequest) : Option CatchallAnswer → IpsCellState × List CatchallSenderRow
  | none => (.notCollected, [])
  | some .rejected => (.rejected, [])
  | some .failed => (.failed, [])
  | some (.result result) =>
    if ¬ contained request result then (.failed, [])
    else if result.truncated then (.lowerBound, result.rows)
    else (.complete, result.rows)

theorem verdict_rows (request : CatchallRequest) (answer : Option CatchallAnswer) :
    (verdict request answer).1.measured = false → (verdict request answer).2 = [] := by
  intro h
  cases answer with
  | none => rfl
  | some answer =>
    cases answer with
    | rejected => rfl
    | failed => rfl
    | result result =>
      simp only [verdict] at h ⊢
      split at h
      · rename_i hstray
        simp [hstray]
      · split at h
        · cases h
        · cases h

def cut (request : CatchallRequest) : CatchallAnswer → Bool
  | .rejected => false
  | .failed => false
  | .result result => contained request result && result.truncated

def split (r : CatchallRegion) : Option (CatchallRegion × CatchallRegion) :=
  if hcount : 1 < r.count then
    some (⟨r.first, r.count / 2, by omega⟩, ⟨r.first + r.count / 2, r.count - r.count / 2, by omega⟩)
  else none

def provenance (r : CatchallRegion) (depth : Nat) : CatchallProvenance where
  searchWindowStart := a.bucketAt r.first
  searchWindowEnd := a.bucketAt (r.first + r.count)
  searchBucketCount := r.count
  splitDepth := depth
  deviceTypeIds := a.types
  bucketKey := s!"starttime / {a.bucketSeconds * 1000}"

def cell (r : CatchallRegion) (depth : Nat) (answer : Option CatchallAnswer) (bucketStart : Int) :
    CatchallBucketOutcome where
  bucketStart := bucketStart
  state := (verdict (a.request r) answer).1
  rows := (verdict (a.request r) answer).2.filter (fun row => row.bucketStart = bucketStart)
  provenance := answer.map (fun _ => a.provenance r depth)
  rows_ok := fun h => by rw [verdict_rows _ _ h, List.filter_nil]

theorem cells_cons (r : CatchallRegion) : ∃ rest, a.cells r = a.bucketAt r.first :: rest := by
  obtain ⟨first, count, hcount⟩ := r
  cases count with
  | zero => omega
  | succ count => exact ⟨_, by simp [cells, List.range'_succ]; rfl⟩

theorem split_cells {r x y} (h : split r = some (x, y)) : a.cells x ++ a.cells y = a.cells r ∧ x.first = r.first := by
  unfold split at h
  split at h
  · cases h
    refine ⟨?_, rfl⟩
    simp only [cells]
    rw [← List.map_append, List.range'_append_1, Nat.add_sub_cancel' (Nat.div_le_self _ 2)]
  · cases h

def driver : SplitDriver CatchallRegion Int CatchallAnswer CatchallBucketOutcome IpsSearchBudget where
  cells := a.cells
  split := split
  ask := fun k r => a.provider (a.before + k) (a.request r)
  cut := fun r answer => cut (a.request r) answer
  take := IpsSearchBudget.tryTake
  cell := a.cell
  nonempty := fun r => by
    obtain ⟨rest, h⟩ := a.cells_cons r
    rw [h]
    exact List.cons_ne_nil _ _
  split_perm := fun h => List.Perm.of_eq (a.split_cells h).1

end CatchallArgs

structure CatchallReport where
  outcomes : List CatchallBucketOutcome
  budget : IpsSearchBudget
  calls : List (CatchallRequest × CatchallAnswer)

/-- `run_catchall_search`: every bucket of the window, oldest first. `before` calls were made by earlier ones. -/
def runCatchallSearch (provider : CatchallProvider) (before : Nat) (deviceTypeIds : List Int) (window : Int × Int)
    (bucketSeconds maxRows : Int) (budget : IpsSearchBudget) : Except Exc CatchallReport := do
  let span ← validateBucketedMetricWindow window.1 window.2 bucketSeconds
  if deviceTypeIds.isEmpty then .error (.value "a catch-all search needs at least one device type")
  else if hcount : 0 < bucketSeconds ∧ 0 < ((span.2 - span.1) / 1000000 / bucketSeconds).toNat then
    let a : CatchallArgs := ⟨provider, before, sortOn (fun t => t) deviceTypeIds.dedup, span.1, bucketSeconds, maxRows,
      hcount.1⟩
    let st := a.driver.search ⟨0, _, hcount.2⟩ 0 ⟨budget, [], []⟩
    return ⟨(sortOn (fun item => item.1) st.cells).map (fun item => item.2), st.budget,
      st.calls.map (fun call => (a.request call.1, call.2))⟩
  else return ⟨[], budget, []⟩

end QRadarDashboard.Catchall
