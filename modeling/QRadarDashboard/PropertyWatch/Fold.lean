import QRadarDashboard.PropertyWatch.KeyedSearch

/-!
# From keyed rows to a bucket fact (`app/property_watch/fold.py`)

The fold keeps the tracked and the pinned values and the top of the rest; the others are summed.
-/

namespace QRadarDashboard.PropertyWatch
open Lib

def replacement : Char := '\uFFFD'

def valueKeyWidth : Int := 255

/-- The longest one component may be so that the whole key fits `maxLength`. -/
def componentLimit (propertyCount : Nat) (maxLength : Int) : Except Exc Nat :=
  if ¬ (propertyCount = 1 ∨ propertyCount = 2) then
    .error (.pwFold "a watch compares one or two properties")
  else if ¬ (3 ≤ maxLength ∧ maxLength ≤ valueKeyWidth) then
    .error (.pwFold s!"a value is at most {valueKeyWidth} characters, and at least 3")
  else .ok (if propertyCount = 1 then maxLength.toNat else (maxLength.toNat - 1) / 2)

def sanitizeComponent (u : UnicodeTables) (limit : Nat) (raw : Option String) : Option (String × Bool) :=
  match raw with
  | none => none
  | some value =>
    if isUnparsed u raw then none
    else
      let text := (u.strip value.toList).map (fun c => if u.isprintable c then c else replacement)
      if limit < text.length then some (String.ofList (u.rstrip (text.take limit)), true)
      else some (String.ofList text, false)

def rowParts (u : UnicodeTables) (limit : Nat) (values : List (Option String)) :
    Option (List (String × Bool)) :=
  values.mapM (sanitizeComponent u limit)

structure PwSum where
  events : Int
  components : List String
  truncated : Bool

def sumRow (u : UnicodeTables) (propertyCount limit : Nat) (acc : Dict String PwSum × Int) (row : PwKeyedRow) :
    Except Exc (Dict String PwSum × Int) :=
  if row.values.length ≠ propertyCount then .error (.pwFold "a row carries one value per property")
  else
    match rowParts u limit row.values with
    | none => .ok acc
    | some parts => do
        let components := parts.map (fun part => part.1)
        let key ← joinTupleKey components
        let entry := (acc.1.get? key).getD ⟨0, components, false⟩
        return (acc.1.set key
          { entry with
            events := entry.events + row.events
            truncated := entry.truncated || parts.any (fun part => part.2) }, acc.2 + row.events)

/-- `_sum_rows`: the rows added up by value key, and the events of the rows that formed a value. -/
def sumRows (u : UnicodeTables) (propertyCount limit : Nat) (rows : List PwKeyedRow) :
    Except Exc (Dict String PwSum × Int) :=
  rows.foldlM (sumRow u propertyCount limit) ([], 0)

def pinnedValueKey (u : UnicodeTables) (propertyCount limit : Nat) (entry : List String) :
    Except Exc (String × List String) :=
  if entry.length ≠ propertyCount then .error (.pwFold "a pinned value has one string per property")
  else
    match rowParts u limit (entry.map some) with
    | none => .error (.pwFold "a pinned value cannot be the unparsed remainder")
    | some parts => do
        let components := parts.map (fun part => part.1)
        let key ← joinTupleKey components
        return (key, components)

def pinnedValueKeys (u : UnicodeTables) (propertyCount limit : Nat) (pinned : List (List String)) :
    Except Exc (Dict String (List String)) := do
  let items ← pinned.mapM (pinnedValueKey u propertyCount limit)
  return items.foldl (fun out item => out.set item.1 item.2) []

def checkOutcome (outcome : PwBucketOutcome) (search : PwSearchKind) (bucketStart : Int) : Except Exc Unit :=
  if outcome.search ≠ search then
    .error (.pwFold s!"expected a {search.value} outcome, got {outcome.search.value}")
  else if outcome.bucketStart ≠ bucketStart then .error (.pwFold "an outcome belongs to another bucket")
  else if outcome.rows.any (fun row => row.bucketStart ≠ bucketStart) then
    .error (.pwFold "a row belongs to another bucket")
  else .ok ()

/-- `_total`: the bucket's total events, or none unless the totals search was whole. -/
def totalOf (totals : PwBucketOutcome) : Except Exc (Option Int) := do
  let counts : Dict Int Int :=
    if totals.rows = [] then [] else [(totals.bucketStart, (totals.rows.map (fun row => row.events)).sum)]
  let count ← countFromSearch counts totals.bucketStart (if totals.measured then .completed else .failed)
    (if totals.state = .lowerBound then 2 else 0) 1
  return if count.state = .exact then count.events else none

def byVolume (item : String × PwSum) : ℤ ×ₗ String := toLex (-item.2.events, item.1)

def valuesMeasurementOf (grouped : PwBucketOutcome) : PwBucketMeasurement :=
  match grouped.state with
  | .complete => .exact
  | .lowerBound => .lowerBound
  | .failed => .notCollected
  | .notCollected => .notCollected

def pinnedMeasurementOf (pinnedOutcome : Option PwBucketOutcome) : PwPinnedMeasurement :=
  match pinnedOutcome with
  | none => .notRequested
  | some outcome =>
    match outcome.state with
    | .complete => .exact
    | .lowerBound => .lowerBound
    | .failed => .notCollected
    | .notCollected => .notCollected

def mergePinned (pins : List String) (kept : Dict String PwSum) (item : String × PwSum) : Dict String PwSum :=
  if item.1 ∉ pins then kept
  else
    match kept.get? item.1 with
    | none => kept.set item.1 item.2
    | some held =>
      kept.set item.1
        { held with events := max held.events item.2.events, truncated := held.truncated || item.2.truncated }

structure FoldSettings where
  bucketSeconds : Int
  watchVersion : Int
  propertyCount : Nat
  maxValues : Int
  valueMaxLength : Int

def keptOfGrouped (sums : Dict String PwSum) (mustKeep : List String) (maxValues : Nat) :
    Dict String PwSum × Int :=
  let rest := sortOn byVolume (sums.filter (fun item => item.1 ∉ mustKeep))
  ((rest.take maxValues).foldl (fun kept item => kept.set item.1 item.2)
      (sums.filter (fun item => item.1 ∈ mustKeep)),
    ((rest.drop maxValues).map (fun item => item.2.events)).sum)

def withPinned (u : UnicodeTables) (propertyCount limit : Nat) (grouped : PwBucketOutcome)
    (pinnedOutcome : Option PwBucketOutcome) (pins : List String) (kept : Dict String PwSum)
    (parsed : Option Int) : Except Exc (Dict String PwSum × Option Int) :=
  match pinnedOutcome with
  | none => .ok (kept, parsed)
  | some outcome =>
    if outcome.measured ∧ grouped.state ≠ .complete then do
      let sums ← sumRows u propertyCount limit outcome.rows
      let merged := sums.1.foldl (mergePinned pins) kept
      return (merged,
        parsed.map (fun n => max n ((merged.map (fun item => item.2.events)).sum)))
    else .ok (kept, parsed)

/-- `_check` of the outcome of a pinned search, when there is one. -/
def checkPinned (pinnedOutcome : Option PwBucketOutcome) (bucketStart : Int) : Except Exc Unit :=
  match pinnedOutcome with
  | none => .ok ()
  | some outcome => checkOutcome outcome .pinned bucketStart

def trustedTotal (total parsed : Option Int) : Option Int :=
  if total.any (fun t => parsed.any (fun p => t < p)) then none else total

def foldBucket (u : UnicodeTables) (s : FoldSettings) (bucketStart : Int) (grouped totals : PwBucketOutcome)
    (pinnedOutcome : Option PwBucketOutcome) (pinned : List (List String)) (tracked : List String) :
    Except Exc PwBucketFact := do
  require (1 ≤ s.maxValues) (.pwFold "max_values must be positive")
  let limit ← componentLimit s.propertyCount s.valueMaxLength
  checkOutcome grouped .grouped bucketStart
  checkOutcome totals .totals bucketStart
  let pins ← pinnedValueKeys u s.propertyCount limit pinned
  require (pins.isEmpty ≠ pinnedOutcome.isSome)
    (.pwFold "a pinned outcome is given exactly when values are pinned")
  checkPinned pinnedOutcome bucketStart
  let sums ← sumRows u s.propertyCount limit grouped.rows
  let kept := keptOfGrouped sums.1 (tracked ++ pins.keys) s.maxValues.toNat
  let filled ← withPinned u s.propertyCount limit grouped pinnedOutcome pins.keys
    (if grouped.measured then kept.1 else []) (if grouped.measured then some sums.2 else none)
  let total ← totalOf totals
  let values ← (sortOn byVolume filled.1).mapM (fun item =>
    PwValueFact.of item.1 item.2.events item.2.components item.2.truncated)
  PwBucketFact.of {
    bucketStart := bucketStart
    bucketSeconds := s.bucketSeconds
    watchVersion := s.watchVersion
    totalsComplete := (trustedTotal total filled.2).isSome
    valuesMeasurement := valuesMeasurementOf grouped
    pinnedMeasurement := pinnedMeasurementOf pinnedOutcome
    totalEvents := trustedTotal total filled.2
    parsedEvents := filled.2
    untrackedEvents := if grouped.state = .complete then some kept.2 else none
    values := values
    observedValues := sums.1.length
    trackedValuesObserved := 0
    admittedValues := 0
    belowAdmissionThreshold := 0
    rejectedOverQuota := 0
    admissionTruncated := false }

end QRadarDashboard.PropertyWatch
