import QRadarDashboard.Collectors.PwCollector
import QRadarDashboard.CustomRules.Loaders
import QRadarDashboard.Lib.Double
import QRadarDashboard.PropertyWatch.Lemmas.ValueRun

/-!
# Partial and complete observations of one bucket

What the collectors store of a subject, and what they would have stored had nothing been hidden from them.
-/

namespace QRadarDashboard.CustomRules
open Lib Double Waf PropertyWatch History Ips Collectors

structure FleetBucket where
  sources : List LogSource
  metrics : List (LogSourceMetric Rounded)
  includeHistory : Bool
  cls : String
  bucketStart : Int

namespace FleetBucket

variable (b : FleetBucket)

def expected : List LogSource := expectedSources b.sources b.cls

def complete : List (LogSourceMetric Rounded) :=
  completeRows (classRows b.sources b.metrics b.includeHistory b.cls b.bucketStart)

def facts : Option (BucketFacts Rounded) := fleetFacts b.sources b.metrics b.includeHistory b.cls b.bucketStart

structure WellFormed : Prop where
  sources : (b.sources.map (fun s => s.id)).Nodup
  metrics : (b.metrics.map (fun m => (m.logSourceId, m.bucketStart))).Nodup
  seconds : ∀ m ∈ b.metrics, 0 < m.bucketSeconds

/-- Every expected source has a complete row in `whole`, and each complete row of `b` is one of these. -/
structure PartialOf (whole : FleetBucket) : Prop where
  wellFormed : b.WellFormed
  wholeWellFormed : whole.WellFormed
  sources : whole.sources = b.sources
  cls : whole.cls = b.cls
  nonempty : b.expected ≠ []
  reported : ∀ s ∈ b.expected, ∃ m ∈ whole.complete, m.logSourceId = s.id
  stored : ∀ m ∈ b.complete, m ∈ whole.complete

/-- The complete rows of `whole` that `b` does not have. -/
def missing (whole : FleetBucket) : List (LogSourceMetric Rounded) :=
  whole.complete.filter (fun m => decide (m ∉ b.complete))

end FleetBucket

def rowEvents (rows : List (LogSourceMetric Rounded)) : Int := (rows.map (fun m => m.eventCount)).sum

def rowSeconds (rows : List (LogSourceMetric Rounded)) : Int := (rows.map (fun m => m.bucketSeconds)).sum

structure CountOf (exact lower : Prop) (stored truth : Int) : Prop where
  equal : exact → stored = truth
  atMost : lower → stored ≤ truth

structure Share where
  numerator : Option Int
  denominator : Option Int
  remainder : Option Int

def Share.PartialOf (stored whole : Share) : Prop :=
  whole.denominator = stored.denominator ∧
    ∀ k ∈ stored.numerator, ∀ r ∈ stored.remainder, ∃ part, 0 ≤ part ∧ part ≤ r ∧
      whole.numerator = some (k + part) ∧ whole.remainder.isSome = true

namespace WafEndpointRow

def blocks (row : WafEndpointRow) : Share := ⟨row.blockedCount, row.actionEvents, row.unmappedActionCount⟩

def serverErrors (row : WafEndpointRow) : Share :=
  ⟨row.serverErrorCount, row.responseCodeEvents, row.unclassifiedResponseCount⟩

def clientErrors (row : WafEndpointRow) : Share :=
  ⟨row.clientErrorCount, row.responseCodeEvents, row.unclassifiedResponseCount⟩

structure PartialOf (row whole : WafEndpointRow) : Prop where
  requestExact : whole.requestCountMeasurement = some .exact
  actionExact : whole.actionMeasurement = some .exact
  responseExact : whole.responseCodeMeasurement = some .exact
  requests : CountOf (row.requestCountMeasurement = some .exact) (row.requestCountMeasurement = some .lowerBound)
    row.requestCount whole.requestCount
  blocks : row.actionMeasurement = some .exact → row.blocks.PartialOf whole.blocks
  serverErrors : row.responseCodeMeasurement = some .exact → row.serverErrors.PartialOf whole.serverErrors
  clientErrors : row.responseCodeMeasurement = some .exact → row.clientErrors.PartialOf whole.clientErrors

end WafEndpointRow

structure IpsEntityRow.PartialOf (row whole : IpsEntityRow) : Prop where
  exact : whole.measurement = some .exact
  events : CountOf (row.measurement = some .exact) (row.measurement = some .lowerBound) row.events whole.events

/-- A part of the unmapped events turns out to have been blocked, the rest allowed. -/
structure IpsSourceRow.PartialOf (row whole : IpsSourceRow) : Prop where
  exact : whole.actionMeasurement = some .exact
  totals : row.totalEvents = whole.totalEvents
  actions : row.actionMeasurement = some .exact → ∀ blocked ∈ row.blockedEvents, ∀ allowed ∈ row.allowedEvents,
    ∀ unmapped ∈ row.unmappedEvents, ∃ part, 0 ≤ part ∧ part ≤ unmapped ∧
      whole.blockedEvents = some (blocked + part) ∧ ∃ allowed' unmapped', whole.allowedEvents = some allowed' ∧
        whole.unmappedEvents = some unmapped' ∧
        blocked + part + allowed' + unmapped' = blocked + allowed + unmapped

/-! ## Watched values -/

/-- A collected bucket of a property watch, and one of its values as it is when the bucket is read. `rows` are the
groups that a whole grouped search returns. -/
structure PwCollection where
  tables : UnicodeTables
  settings : FoldSettings
  policy : PwAdmissionPolicy
  bucketStart : Int
  rows : List PwKeyedRow
  grouped : PwBucketOutcome
  totals : PwBucketOutcome
  pinnedOutcome : Option PwBucketOutcome
  pinned : List (List String)
  before : TrackedValues
  key : String
  value : TrackedValue
  inMaintenance : Bool

/-- The row has a value of a pin in each of its columns, which is what the `IN` lists ask for. -/
def askedFor (pinned : List (List String)) (row : PwKeyedRow) : Bool :=
  row.values.zipIdx.all (fun item =>
    item.1.any (fun text => pinned.any (fun entry => entry[item.2]? = some text)))

namespace PwCollection

variable (c : PwCollection)

def admitted : Except Exc (AdmittedBucket × TrackedValues) := do
  let fact ← foldBucket c.tables c.settings c.bucketStart c.grouped c.totals c.pinnedOutcome c.pinned
    (activeKeys c.before)
  admitBucket fact c.before c.policy c.settings.propertyCount

/-- The bucket, its metric row and the value, as `load_pw_values` joins them. -/
def loaded (bucket : AdmittedBucket) : PwValueBucket where
  bucketStart := c.bucketStart
  inMaintenance := c.inMaintenance
  valuesMeasurement := bucket.fact.valuesMeasurement
  pinnedMeasurement := bucket.fact.pinnedMeasurement
  totalsComplete := bucket.fact.totalsComplete
  totalEvents := bucket.fact.totalEvents
  parsedEvents := bucket.fact.parsedEvents
  events := bucket.metrics.get? c.key
  valuePinned := c.value.pinned
  trackedSince := c.value.trackedSince
  trackedUntil := c.value.trackedUntil

def facts (coverageFloor : Rounded) : Option (BucketFacts Rounded) :=
  c.admitted.toOption.bind (fun result => (c.loaded result.1).facts coverageFloor)

def limit : Nat := ((componentLimit c.settings.propertyCount c.settings.valueMaxLength).toOption).getD 0

def pins : List String :=
  ((pinnedValueKeys c.tables c.settings.propertyCount c.limit c.pinned).toOption.map Dict.keys).getD []

def events (rows : List PwKeyedRow) : Int := keyEvents c.tables c.limit c.key rows

/-- The events of the value that one of the two searches found. -/
def found : Int :=
  max (c.events c.grouped.rows) (if c.key ∈ c.pins then c.events (c.rows.filter (askedFor c.pinned)) else 0)

/-- What the searches return of the bucket: a whole one every row it asks for, one that was cut some of them. -/
structure Searched : Prop where
  counts : ∀ row ∈ c.rows, 0 ≤ row.events
  grouped : c.grouped.rows.Subperm c.rows
  groupedWhole : c.grouped.state = .complete → c.grouped.rows.Perm c.rows
  pinned : ∀ o ∈ c.pinnedOutcome, o.rows.Subperm (c.rows.filter (askedFor c.pinned))
  pinnedWhole : ∀ o ∈ c.pinnedOutcome, o.state = .complete → o.rows.Perm (c.rows.filter (askedFor c.pinned))

/-- The ticks of the watch, each under the settings of its time. -/
abbrev Ticks (start : TrackedValues) :=
  Run (fun values (input : PwAdmissionPolicy × ValueOp) => valueStep input.1 c.settings.propertyCount values input.2)
    (fun output : ValueOpOutput => output.values) start

/-- The bucket was folded with the values that the ticks before it left, and the value is what later ticks made of it.
Ticks go forward. -/
structure Stored : Prop where
  completed : completed c.grouped c.totals c.pinnedOutcome = true
  before : ∃ tr, c.Ticks [] tr c.before ∧ ∀ e ∈ tr, ∀ r, e.input.2 = .retireStale r → r < c.bucketStart
  after : ∃ bucket after tr now, c.admitted = .ok (bucket, after) ∧ c.Ticks after tr now ∧
    (∀ e ∈ tr, ∀ time, e.input.2.startsAt = some time → c.bucketStart < time) ∧ now.get? c.key = some c.value

/-- The complete observation states how many events of the value there were. -/
structure PartialOf (whole : PwValueBucket) : Prop where
  searched : c.Searched
  stored : c.Stored
  exact : whole.valuesMeasurement = .exact
  events : whole.events = some (c.events c.rows)

/-- The value is pinned by now, the pinned search was whole and the grouped one cut, and neither had found all of its
events. -/
structure Hides (coverageFloor : Rounded) : Prop where
  pinned : c.value.pinned = true
  pinnedWhole : c.pinnedOutcome.any (fun o => o.state = .complete) = true
  cut : c.grouped.state = .lowerBound
  read : ∀ result ∈ c.admitted.toOption, (c.loaded result.1).events.isSome = true ∨
    (c.loaded result.1).trackedAt = true ∧ (c.loaded result.1).coverageOk coverageFloor = true
  fewer : (PyFloat.ofInt c.found : Rounded) ≠ PyFloat.ofInt (c.events c.rows)

end PwCollection

/-- A bucket stored as not collected, after a search that failed. -/
structure PwValueBucket.Held (row : PwValueBucket) : Prop where
  values : row.valuesMeasurement = .notCollected
  pinned : row.pinnedMeasurement ≠ .exact
  events : row.events = none

inductive Observation where
  | logSource (row : LogSourceMetric Rounded)
  | fleetClass (bucket : FleetBucket)
  | wafEndpoint (row : WafEndpointRow)
  | ipsEntity (row : IpsEntityRow)
  | ipsSource (row : IpsSourceRow)
  | pwCollected (c : PwCollection)
  | pwValue (row : PwValueBucket)

def Observation.facts (coverageFloor : Rounded) : Observation → Option (BucketFacts Rounded)
  | .logSource row => some (logSourceFacts row)
  | .fleetClass bucket => bucket.facts
  | .wafEndpoint row => some (wafEndpointFacts row)
  | .ipsEntity row => some (ipsEntityFacts row)
  | .ipsSource row => some (ipsSourceFacts row)
  | .pwCollected c => c.facts coverageFloor
  | .pwValue row => row.facts coverageFloor

inductive Observation.PartialOf : Observation → Observation → Prop
  | logSource {row whole : LogSourceMetric Rounded} (exact : whole.completeness = .complete)
      (stored : row.completeness = .complete →
        row.eventCount = whole.eventCount ∧ row.averageEps = whole.averageEps) :
      PartialOf (.logSource row) (.logSource whole)
  | fleetClass {bucket whole : FleetBucket} (h : bucket.PartialOf whole) :
      PartialOf (.fleetClass bucket) (.fleetClass whole)
  | wafEndpoint {row whole : WafEndpointRow} (h : row.PartialOf whole) :
      PartialOf (.wafEndpoint row) (.wafEndpoint whole)
  | ipsEntity {row whole : IpsEntityRow} (h : row.PartialOf whole) : PartialOf (.ipsEntity row) (.ipsEntity whole)
  | ipsSource {row whole : IpsSourceRow} (h : row.PartialOf whole) : PartialOf (.ipsSource row) (.ipsSource whole)
  | pwCollected {c : PwCollection} {whole : PwValueBucket} (h : c.PartialOf whole) :
      PartialOf (.pwCollected c) (.pwValue whole)
  | pwHeld {row whole : PwValueBucket} (h : row.Held) (exact : whole.valuesMeasurement = .exact)
      (events : whole.events.isSome = true) : PartialOf (.pwValue row) (.pwValue whole)

end QRadarDashboard.CustomRules
