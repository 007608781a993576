import QRadarDashboard.PropertyWatch.Fold

/-!
# Admission, tracking windows and retirement of values (`app/property_watch/admission.py`)

A pinned value is tracked from the first collected bucket after it is pinned and is never retired.
-/

namespace QRadarDashboard.PropertyWatch
open Lib

structure PwAdmissionPolicy where
  minEvents : Int
  maxNewPerBucket : Nat
  maxActive : Int
  activeDays : Int
  minEvents_ok : 1 ≤ minEvents
  maxActive_ok : 1 ≤ maxActive
  activeDays_ok : 1 ≤ activeDays

/-- A working copy of one `pw_value` row. -/
structure TrackedValue where
  valueKey : String
  components : List String
  pinned : Bool
  active : Bool
  firstSeenAt : Option Int
  lastSeenAt : Option Int
  trackedSince : Option Int
  trackedUntil : Option Int
  retiredAt : Option Int
  truncated : Bool
  inDatabase : Bool
  dirty : Bool
deriving DecidableEq

abbrev TrackedValues := Dict String TrackedValue

def splitTupleKey (valueKey : String) : List String := valueKey.splitOn (String.singleton tupleSeparator)

def componentsOf (valueKey : String) (propertyCount : Nat) : List String :=
  if (splitTupleKey valueKey).length = propertyCount then splitTupleKey valueKey else [valueKey]

def newValue (key : String) (components : List String) (pinned : Bool) (time : Int) (truncated : Bool) :
    TrackedValue where
  valueKey := key
  components := components
  pinned := pinned
  active := true
  firstSeenAt := some time
  lastSeenAt := none
  trackedSince := some time
  trackedUntil := none
  retiredAt := none
  truncated := truncated
  inDatabase := false
  dirty := true

def startTracking (value : TrackedValue) (time : Int) : TrackedValue :=
  { value with active := true, trackedSince := some time, trackedUntil := none, retiredAt := none, dirty := true }

/-! ## Pins -/

/-- What `sync_pins` makes of one pin's value. -/
def pinValue (value : TrackedValue) (firstBucket : Int) : TrackedValue :=
  let value := if value.pinned then value else { value with pinned := true, dirty := true }
  if value.active then value else startTracking value firstBucket

def syncPin (firstBucket : Int) (values : TrackedValues) (pin : String × List String) : TrackedValues :=
  match values.get? pin.1 with
  | none => values.set pin.1 (newValue pin.1 pin.2 true firstBucket false)
  | some value => values.set pin.1 (pinValue value firstBucket)

def unpin (pins : Dict String (List String)) (key : String) (value : TrackedValue) : TrackedValue :=
  if value.pinned ∧ key ∉ pins.keys then { value with pinned := false, dirty := true } else value

def syncPins (values : TrackedValues) (pins : Dict String (List String)) (firstBucket : Int) : TrackedValues :=
  (pins.foldl (syncPin firstBucket) values).map (fun item => (item.1, unpin pins item.1 item.2))

/-! ## Admission -/

structure AdmittedBucket where
  fact : PwBucketFact
  metrics : Dict String Int

def seenValue (time : Int) (item : PwValueFact) (value : TrackedValue) : TrackedValue :=
  let value :=
    if value.lastSeenAt.all (fun last => last < time) then { value with lastSeenAt := some time, dirty := true }
    else value
  if item.truncated ∧ ¬ value.truncated then { value with truncated := true, dirty := true } else value

def admittedValue (propertyCount : Nat) (time : Int) (item : PwValueFact) (value : Option TrackedValue) :
    TrackedValue :=
  let components :=
    if item.components = [] then componentsOf item.valueKey propertyCount else item.components
  let value :=
    match value with
    | none => newValue item.valueKey components false time item.truncated
    | some value =>
      { startTracking value time with truncated := value.truncated || item.truncated }
  { value with lastSeenAt := some time, dirty := true }

def isTracked (values : TrackedValues) (item : PwValueFact) : Bool :=
  (values.get? item.valueKey).any (fun value => value.active)

def noteSeen (time : Int) (values : TrackedValues) (item : PwValueFact) : TrackedValues :=
  match values.get? item.valueKey with
  | none => values
  | some value => values.set item.valueKey (seenValue time item value)

def noteAdmitted (propertyCount : Nat) (time : Int) (values : TrackedValues) (item : PwValueFact) :
    TrackedValues :=
  values.set item.valueKey (admittedValue propertyCount time item (values.get? item.valueKey))

def admitBucket (fact : PwBucketFact) (values : TrackedValues) (policy : PwAdmissionPolicy)
    (propertyCount : Nat) : Except Exc (AdmittedBucket × TrackedValues) :=
  if fact.valuesMeasurement = .notCollected then .ok (⟨fact, []⟩, values)
  else do
    let time := fact.bucketStart
    let trackedNow := fact.values.filter (isTracked values)
    let candidates := fact.values.filter (fun item => !isTracked values item)
    let seen := trackedNow.foldl (noteSeen time) values
    let eligible := candidates.filter (fun item => policy.minEvents ≤ item.events)
    let activeCount : Int := seen.countP (fun item => item.2.active)
    let quota := min policy.maxNewPerBucket (max 0 (policy.maxActive - activeCount)).toNat
    let admitted := eligible.take quota
    let rejected := eligible.length - admitted.length
    let after := admitted.foldl (noteAdmitted propertyCount time) seen
    let kept := trackedNow ++ admitted
    let persisted := kept.map (fun item => item.valueKey)
    let droppedEvents :=
      ((candidates.filter (fun item => item.valueKey ∉ persisted)).map (fun item => item.events)).sum
    let final ← PwBucketFact.of
      { fact.toPwBucketData with
        values := kept
        untrackedEvents := fact.untrackedEvents.map (fun n => n + droppedEvents)
        trackedValuesObserved := trackedNow.length
        admittedValues := admitted.length
        belowAdmissionThreshold := candidates.length - eligible.length
        rejectedOverQuota := rejected
        admissionTruncated := 0 < rejected || 0 < fact.observedValues - fact.values.length }
    return (⟨final, kept.foldl (fun metrics item => metrics.set item.valueKey item.events) []⟩, after)

/-! ## Retirement -/

/-- `x or y` of optional times. -/
def orTime (x y : Option Int) : Option Int :=
  match x with
  | none => y
  | some t => some t

/-- The value has been unobserved for `active_days`. -/
def isStale (reference : Int) (policy : PwAdmissionPolicy) (value : TrackedValue) : Bool :=
  value.active && !value.pinned &&
    (orTime value.lastSeenAt (orTime value.firstSeenAt value.trackedSince)).any
      (fun seen => seen < reference - seconds (policy.activeDays * 86400))

def retireValue (reference : Int) (policy : PwAdmissionPolicy) (value : TrackedValue) : TrackedValue :=
  if isStale reference policy value then
    { value with active := false, trackedUntil := some reference, retiredAt := some reference, dirty := true }
  else value

/-- `retire_stale`: the values after it and the keys retired. -/
def retireStale (values : TrackedValues) (reference : Int) (policy : PwAdmissionPolicy) :
    TrackedValues × List String :=
  (values.map (fun item => (item.1, retireValue reference policy item.2)),
    (values.filter (fun item => isStale reference policy item.2)).map (fun item => item.1))

/-! ## Runs -/

inductive ValueOp where
  | syncPins (pins : Dict String (List String)) (firstBucket : Int)
  | admitBucket (fact : PwBucketFact)
  | retireStale (reference : Int)

/-- The values after an operation, the metric rows it writes and the keys it retires. -/
structure ValueOpOutput where
  values : TrackedValues
  metrics : Dict String Int
  retired : List String

def valueStep (policy : PwAdmissionPolicy) (propertyCount : Nat) (values : TrackedValues) :
    ValueOp → Except Exc ValueOpOutput
  | .syncPins pins firstBucket => .ok ⟨syncPins values pins firstBucket, [], []⟩
  | .admitBucket fact =>
    (admitBucket fact values policy propertyCount).map (fun result => ⟨result.2, result.1.metrics, []⟩)
  | .retireStale reference =>
    .ok ⟨(retireStale values reference policy).1, [], (retireStale values reference policy).2⟩

def activeCount (values : TrackedValues) : Nat := values.countP (fun item => item.2.active)

end QRadarDashboard.PropertyWatch
