import QRadarDashboard.Basic
import QRadarDashboard.Lib.Dict
import QRadarDashboard.Lib.PyText
import QRadarDashboard.Waf.Admission
import Mathlib.Algebra.Ring.Int.Defs

/-!
# The facts of a property-watch bucket (`app/property_watch/facts.py`)

A zero is only ever made by a whole search that did not mention a key; what was not measured is `none`.
-/

namespace QRadarDashboard.PropertyWatch
open Lib Waf

inductive PwBucketMeasurement where
  | exact | lowerBound | notCollected
deriving DecidableEq

inductive PwPinnedMeasurement where
  | exact | lowerBound | notCollected | notRequested
deriving DecidableEq

def tupleSeparator : Char := '\x1f'

/-! ## Search outcomes -/

inductive PwSearchStatus where
  | completed | failed | cancelled | timedOut | running
deriving DecidableEq

def coerceCount (raw : Int) : Except Exc Int :=
  if raw < 0 then .error (.pwFact "a count cannot be negative") else .ok raw

/-- More than `cap` rows means the search was cut. -/
def isTruncated (rowCount cap : Int) : Except Exc Bool :=
  if cap < 1 then .error (.pwFact "a row cap is at least 1")
  else if rowCount < 0 then .error (.pwFact "a row count cannot be negative")
  else .ok (cap < rowCount)

def isUnparsed (u : UnicodeTables) (raw : Option String) : Bool :=
  match raw with
  | none => true
  | some text => u.strip text.toList = []

def joinTupleKey (components : List String) : Except Exc String :=
  if components = [] then .error (.pwFact "a tuple key needs at least one component")
  else if components.any (fun component => tupleSeparator ∈ component.toList) then
    .error (.pwFact "a component cannot contain the tuple separator")
  else .ok (String.intercalate (String.singleton tupleSeparator) components)

/-! ## Counts -/

inductive PwCountState where
  | exact | lowerBound | unmeasured
deriving DecidableEq

structure PwCount where
  events : Option Int
  state : PwCountState

/-- The count of `key` the search established: a whole search that does not mention it measured a zero. -/
def countFromSearch {κ : Type} [DecidableEq κ] (counts : Dict κ Int) (key : κ) (status : PwSearchStatus)
    (rowCount cap : Int) : Except Exc PwCount := do
  let truncated ← isTruncated rowCount cap
  if status ≠ .completed then return ⟨none, .unmeasured⟩
  match counts.get? key with
  | some raw =>
    let events ← coerceCount raw
    return ⟨some events, if truncated then .lowerBound else .exact⟩
  | none => return if truncated then ⟨none, .unmeasured⟩ else ⟨some 0, .exact⟩

/-! ## Bucket facts -/

@[ext] structure PwValueFact where
  valueKey : String
  events : Int
  components : List String
  truncated : Bool
  valueKey_ok : valueKey ≠ "" ∧ valueKey.length ≤ 255
  events_ok : 0 ≤ events

instance : DecidableEq PwValueFact := fun a b =>
  decidable_of_iff (a.valueKey = b.valueKey ∧ a.events = b.events ∧ a.components = b.components ∧
    a.truncated = b.truncated) PwValueFact.ext_iff.symm

def PwValueFact.of (valueKey : String) (events : Int) (components : List String) (truncated : Bool) :
    Except Exc PwValueFact :=
  if hkey : valueKey ≠ "" ∧ valueKey.length ≤ 255 then
    if hevents : 0 ≤ events then .ok ⟨valueKey, events, components, truncated, hkey, hevents⟩
    else .error (.pwFact "a value cannot have negative events")
  else .error (.pwFact "a value key is 1 to 255 characters")

structure PwBucketData where
  bucketStart : Int
  bucketSeconds : Int
  watchVersion : Int
  totalsComplete : Bool
  valuesMeasurement : PwBucketMeasurement
  pinnedMeasurement : PwPinnedMeasurement
  totalEvents : Option Int
  parsedEvents : Option Int
  untrackedEvents : Option Int
  values : List PwValueFact
  observedValues : Nat
  trackedValuesObserved : Nat
  admittedValues : Nat
  belowAdmissionThreshold : Nat
  rejectedOverQuota : Nat
  admissionTruncated : Bool

/-- `PwBucketFact.__post_init__`: the message of the first check that fails. -/
def PwBucketData.error? (d : PwBucketData) : Option String :=
  let negative (count : Option Int) : Bool := count.any (fun n => n < 0)
  if d.bucketSeconds ≤ 0 then some "a bucket has a positive width"
  else if d.watchVersion < 1 then some "a watch version starts at 1"
  else if ¬ d.totalsComplete ∧ d.totalEvents.isSome then
    some "an incomplete totals search leaves the total unknown"
  else if negative d.totalEvents then some "total_events cannot be negative"
  else if negative d.parsedEvents then some "parsed_events cannot be negative"
  else if negative d.untrackedEvents then some "untracked_events cannot be negative"
  else if d.totalEvents.any (fun total => d.parsedEvents.any (fun parsed => total < parsed)) then
    some "parsed events cannot exceed total events"
  else if d.valuesMeasurement = .notCollected ∧ (d.parsedEvents.isSome ∨ d.untrackedEvents.isSome) then
    some "an uncollected bucket measured nothing"
  else if d.valuesMeasurement ≠ .notCollected ∧ d.parsedEvents = none then
    some "a collected bucket states its parsed events"
  else if d.untrackedEvents.isSome ∧ d.valuesMeasurement ≠ .exact then
    some "untracked events are known only from a whole grouped search"
  else if d.parsedEvents.any (fun parsed =>
      parsed < (d.values.map (fun value => value.events)).sum + d.untrackedEvents.getD 0) then
    some "the kept values cannot exceed the parsed events"
  else none

structure PwBucketFact extends PwBucketData where
  ok : toPwBucketData.error? = none

def PwBucketFact.of (d : PwBucketData) : Except Exc PwBucketFact :=
  match h : d.error? with
  | none => .ok ⟨d, h⟩
  | some msg => .error (.pwFact msg)

/-! ## Readings -/

inductive PwReadingKind where
  | count | measuredZero | unknown | notAnObservation | noBucket
deriving DecidableEq

structure PwReading where
  kind : PwReadingKind
  events : Option Int
  measurement : Option WafMeasurement
deriving DecidableEq

def wafOfBucket : PwBucketMeasurement → Option WafMeasurement
  | .exact => some .exact
  | .lowerBound => some .lowerBound
  | .notCollected => none

def valueMeasurement (bucket : PwBucketData) (pinned : Bool) : Option WafMeasurement :=
  if pinned ∧ bucket.pinnedMeasurement = .exact then some .exact else wafOfBucket bucket.valuesMeasurement

/-- One (value, bucket) reading. `metricEvents` is the value's metric row in the bucket. -/
def readingFor (bucket : Option PwBucketData) (pinned trackedAtBucket : Bool) (metricEvents : Option Int) :
    Except Exc PwReading :=
  if metricEvents.any (fun n => n < 0) then .error (.pwFact "a metric row cannot hold negative events")
  else
    match bucket with
    | none => .ok ⟨.noBucket, none, none⟩
    | some bucket =>
      match metricEvents with
      | some events =>
        match valueMeasurement bucket pinned with
        | none => .ok ⟨.unknown, none, none⟩
        | some measurement => .ok ⟨.count, some events, some measurement⟩
      | none =>
        if bucket.valuesMeasurement = .notCollected ∧ ¬ (pinned ∧ bucket.pinnedMeasurement = .exact) then
          .ok ⟨.noBucket, none, none⟩
        else if ¬ trackedAtBucket then .ok ⟨.notAnObservation, none, none⟩
        else if valueMeasurement bucket pinned = some .exact then .ok ⟨.measuredZero, some 0, some .exact⟩
        else .ok ⟨.unknown, none, valueMeasurement bucket pinned⟩

end QRadarDashboard.PropertyWatch
