import QRadarDashboard.Detectors.Ips

/-!
# Novelty (`app/waf/novelty.py`, `app/waf/behavior.py`, `app/ips/behavior.py`)

A claim that an entity is new says no more than that it stayed below the admission threshold in each bucket before.
-/

namespace QRadarDashboard.Detectors
open Lib Waf Ips Anomaly History

/-! ## The history behind a claim -/

inductive HistoryReason where
  | notDivisible
  | missing (count : Nat) (expected : Int)
  | records (count : Nat) (expected : Int)
  | bucket (start : Int) (what : String)
deriving DecidableEq

structure HistoryFacts where
  complete : Bool
  reason : Option HistoryReason := none
deriving DecidableEq

inductive HistoryExit where
  | incomplete (reason : HistoryReason)
  | raised (e : Exc)

def historyFacts : Except HistoryExit Unit → Except Exc HistoryFacts
  | .ok _ => .ok { complete := true }
  | .error (.incomplete reason) => .ok { complete := false, reason := some reason }
  | .error (.raised e) => .error e

def expectedStarts (historyStart bucketSeconds expectedCount : Int) : List Int :=
  (List.range expectedCount.toNat).map (fun index : Nat => historyStart + seconds (bucketSeconds * index))

def requireWindow (starts : List Int) (historyStart historyEnd bucketSeconds : Int) : Except HistoryExit Unit := do
  let windowSeconds := (historyEnd - historyStart).tdiv 1000000
  require (0 < bucketSeconds ∧ windowSeconds % bucketSeconds = 0) (.incomplete .notDivisible)
  let expectedCount := windowSeconds / bucketSeconds
  let missing := (expectedStarts historyStart bucketSeconds expectedCount).filter (fun start => start ∉ starts)
  require (missing = []) (.incomplete (.missing missing.length expectedCount))
  require ((starts.length : Int) = expectedCount) (.incomplete (.records starts.length expectedCount))

def requireEach {β : Type} (start : β → Int) (ordered : List β) (fine : β → Bool) (what : β → String) :
    Except HistoryExit Unit :=
  match ordered.find? (fun b => !fine b) with
  | none => .ok ()
  | some b => .error (.incomplete (.bucket (start b) (what b)))

/-- `part.partition("/v")` -/
def partitionVersion : List Char → List Char × List Char
  | [] => ([], [])
  | c :: rest =>
    if ['/', 'v'] <+: c :: rest then ([], rest.drop 1)
    else (c :: (partitionVersion rest).1, (partitionVersion rest).2)

/-- `semantics_normalizer_version`: the number of the first component that states one. -/
def semanticsNormalizerVersion (t : DigitTables) (semantics : Option String) : Except IntError (Option Nat) :=
  match semantics with
  | none => .ok none
  | some text =>
    match ((text.toList.splitOn ';').map partitionVersion).find?
        (fun part => part.1 = "normalizer".toList && t.isdigitText part.2) with
    | none => .ok none
    | some part => (t.readInt part.2).map some

/-- `str(profile_version)` -/
def profileText : Option Int → String
  | none => "None"
  | some version => toString version

variable {φ : Type} [PyFloat φ]

def verifyEndpointHistory (t : DigitTables) (buckets : List (BucketFacts φ))
    (historyStart historyEnd bucketSeconds profileVersion normalizerVersion : Int) : Except Exc HistoryFacts :=
  historyFacts do
    requireWindow (buckets.map (fun b => b.bucketStart)) historyStart historyEnd bucketSeconds
    let ordered := sortOn (fun b => b.bucketStart) buckets
    let each := requireEach (fun b : BucketFacts φ => b.bucketStart) ordered
    each (fun b => b.bucketSeconds = bucketSeconds) (fun _ => "used a different collection bucket width")
    each (fun b => !b.groupsTruncated) (fun _ => "had truncated endpoint discovery")
    each (fun b => !b.admissionTruncated) (fun _ => "had truncated endpoint admission")
    each (fun b => b.profileVersion = some profileVersion) (fun b =>
      s!"used profile version {profileText b.profileVersion}, not first-appearance version {profileVersion}")
    ordered.forM (fun b => do
      let version ← (semanticsNormalizerVersion t b.metricSemantics).mapError
        (fun e => HistoryExit.raised (.value e.text))
      require (version.map Int.ofNat = some normalizerVersion) (.incomplete (.bucket b.bucketStart
        s!"is incompatible with endpoint normalizer version {normalizerVersion}")))

structure PortHistoryBucket (φ : Type) extends IpsSourceBucketFacts φ where
  bucketSeconds : Int
  profileVersion : Int
  normalizerVersion : Int
  inMaintenance : Bool

namespace PortHistoryBucket

def of (row : IpsBucketRow φ) : PortHistoryBucket φ where
  toIpsSourceBucketFacts := .of row
  bucketSeconds := row.bucketSeconds
  profileVersion := row.profileVersion
  normalizerVersion := row.normalizerVersion
  inMaintenance := row.inMaintenance

def destinationPort (b : PortHistoryBucket φ) : Option (IpsDimensionFacts φ) := b.dimensions.get? .destinationPort

def portsExact (b : PortHistoryBucket φ) : Bool := b.destinationPort.any (fun port => port.measurement = .exact)

def portCoverageMet (b : PortHistoryBucket φ) (floor : φ) : Bool :=
  b.destinationPort.any (fun port => port.coverageMet floor)

def portsAdmittedWhole (b : PortHistoryBucket φ) : Bool :=
  b.destinationPort.any (fun port => port.admissionTruncated = some false)

def portState (b : PortHistoryBucket φ) : String := (b.destinationPort.map (fun port => port.state)).getD "not collected"

end PortHistoryBucket

def verifyPortHistory (buckets : List (PortHistoryBucket φ))
    (historyStart historyEnd bucketSeconds profileVersion normalizerVersion : Int) (minCoverage : φ) :
    Except Exc HistoryFacts :=
  historyFacts do
    require (0 < (historyEnd - historyStart).tdiv 1000000) (.incomplete .notDivisible)
    requireWindow (buckets.map (fun b => b.bucketStart)) historyStart historyEnd bucketSeconds
    let each := requireEach (fun b : PortHistoryBucket φ => b.bucketStart) (sortOn (fun b => b.bucketStart) buckets)
    each (fun b => b.bucketSeconds = bucketSeconds) (fun _ => "used a different collection bucket width")
    each (fun b => b.portsExact) (fun b => s!"had a destination-port search that was {b.portState}, not exact")
    each (fun b => b.portCoverageMet minCoverage)
      (fun _ => "had destination-port coverage below the " ++ PyFloat.percent minCoverage ++ " floor")
    each (fun b => b.portsAdmittedWhole) (fun _ => "had truncated or unrecorded destination-port admission")
    each (fun b => b.profileVersion = profileVersion)
      (fun b => s!"used profile version {b.profileVersion}, not first-appearance version {profileVersion}")
    each (fun b => b.normalizerVersion = normalizerVersion)
      (fun _ => s!"is incompatible with normalizer version {normalizerVersion}")
    each (fun b => !b.inMaintenance) (fun _ => "was in maintenance")

def appearanceFlood (bucket : PortHistoryBucket φ) (minCoverage : φ) : Option String :=
  if !bucket.portsExact || !bucket.portCoverageMet minCoverage then
    some ("the first-appearance bucket's destination-port discovery was incomplete: the port " ++
      "cannot be told apart from a flood of new ports")
  else if !bucket.portsAdmittedWhole then
    some ("the first-appearance bucket's destination-port admission was truncated: the port " ++
      "appeared in a flood of new ports and is not individually new")
  else none

/-! ## Verdicts -/

/-- `NoveltyFacts` and `IpsNoveltyFacts`: what the engine established about a first appearance. -/
structure NoveltyFacts where
  firstSeenAt : Int
  windowEnd : Int
  withinWindow : Bool
  /-- Of ports: retired, then seen again. -/
  readmitted : Bool := false
  history : HistoryFacts
  historyStart : Int
  historyEnd : Int
  historyBuckets : Nat
  appearanceFlood : Option String
  countSinceFirstSeen : Int
  bucketsWithTraffic : Int
  lowerBound : Bool

structure NoveltyThresholds where
  minCount : Int := 20
  minBuckets : Int := 2
  windowBuckets : Int := 12
  /-- `admission_min_requests`, `admission_min_events` -/
  admissionMin : Int := 3

/-- The sentence of a novelty verdict: the traffic since the first appearance, and the count below `admissionMin` in
each bucket of the window. -/
structure NoveltySentence where
  atLeast : Bool
  count : Int
  buckets : Int
  firstSeenAt : Int
  historyStart : Int
  historyEnd : Int
  admissionMin : Int
deriving DecidableEq

def NoveltySentence.window (s : NoveltySentence) (bucketSeconds : Int) : List Int :=
  expectedStarts s.historyStart bucketSeconds ((s.historyEnd - s.historyStart).tdiv 1000000 / bucketSeconds)

inductive NoveltyReason where
  | shared (reason : Reason)
  | establishedAtHandOff (firstSeenAt historyEnd : Int)
  | established (firstSeenAt windowBuckets : Int)
  /-- The reason of the history, or that of the scope. -/
  | unverified (history : Option HistoryReason) (scope : Option String)
  | immaterial (count buckets minCount minBuckets : Int) (lowerBound : Bool)
  | new (sentence : NoveltySentence)

inductive NoveltyVerdict where
  | insufficient (reason : NoveltyReason)
  | healthy (reason : NoveltyReason) (observed : Option Int)
  | anomalous (severity : Severity) (observed threshold : Int) (samples : Nat) (confidence : ℚ)
      (sentence : NoveltySentence)

def NoveltyVerdict.sentence : NoveltyVerdict → Option NoveltySentence
  | .insufficient _ => none
  | .healthy _ _ => none
  | .anomalous _ _ _ _ _ sentence => some sentence

def NoveltyVerdict.text (s : String) : NoveltyVerdict := .insufficient (.shared (.text s))

def judgeNovelty (thr : NoveltyThresholds) (novelty : NoveltyFacts) (lowerBound : Bool) : NoveltyVerdict :=
  let count := novelty.countSinceFirstSeen
  let buckets := novelty.bucketsWithTraffic
  if count < thr.minCount ∨ buckets < thr.minBuckets then
    let reason := NoveltyReason.immaterial count buckets thr.minCount thr.minBuckets lowerBound
    if lowerBound then .insufficient reason else .healthy reason (some count)
  else
    .anomalous .medium count thr.minCount novelty.historyBuckets (8 / 10)
      ⟨lowerBound, count, buckets, novelty.firstSeenAt, novelty.historyStart, novelty.historyEnd, thr.admissionMin⟩

def detectNewEndpointAccess (ctx : WafDetectionContext) (thr : NoveltyThresholds) (novelty : Option NoveltyFacts) :
    NoveltyVerdict :=
  match novelty with
  | none => .text "the endpoint's first appearance was not established"
  | some novelty =>
    if !novelty.withinWindow then
      if novelty.firstSeenAt < novelty.historyEnd then
        .healthy (.establishedAtHandOff novelty.firstSeenAt novelty.historyEnd) none
      else .healthy (.established novelty.firstSeenAt thr.windowBuckets) none
    else if ctx.effectiveScope = .none then .insufficient (.unverified novelty.history.reason ctx.scopeReason)
    else
      match novelty.appearanceFlood with
      | some flood => .text flood
      | none => judgeNovelty thr novelty (ctx.lowerBound || novelty.lowerBound)

/-! ### Ports -/

inductive NewPortInput where
  | portHistory | entityEvents

/-- The declared inputs of `IPS_NEW_DESTINATION_PORT`. -/
def newPortInputs : List (InputRequirement NewPortInput) :=
  [⟨.portHistory, "history", .exact⟩, ⟨.entityEvents, "materiality", .lowerBoundProvesIncrease⟩]

def newPortMeasurement (obs : IpsObservation) (history : Option HistoryFacts) : NewPortInput → Option WafMeasurement
  | .portHistory => if history.any (fun facts => facts.complete) then some .exact else none
  | .entityEvents => inputMeasurement obs .entityEvents

def newPortScope (obs : IpsObservation) (history : Option HistoryFacts) : ScopeDecision :=
  inputScope newPortInputs (newPortMeasurement obs history)

def newPortEntity (ctx : IpsDetectionContext) : Except Exit IpsNamedEntity :=
  match ctx.observation.entity with
  | some entity => do
      require (entity.dimension = .destinationPort)
        (.insufficient (.text "no destination-port entity was supplied for this verdict") 0)
      ctx.usablePort entity
      return entity
  | none => .error (.insufficient (.text "no destination-port entity was supplied for this verdict") 0)

def sharedGuard {α : Type} (guard : Except Exit α) (next : α → Except Exc NoveltyVerdict) : Except Exc NoveltyVerdict :=
  match guard with
  | .ok a => next a
  | .error (.insufficient reason _) => .ok (.insufficient (.shared reason))
  | .error (.notProven reason _ _) => .ok (.healthy (.shared (.guard reason)) none)
  | .error (.raised e) => .error e

def detectNewDestinationPort (ctx : IpsDetectionContext) (thr : NoveltyThresholds) (novelty : Option NoveltyFacts) :
    Except Exc NoveltyVerdict :=
  sharedGuard (do ctx.maintenance; newPortEntity ctx) (fun _ =>
    match novelty with
    | none => .ok (.text "the port's first appearance was not established")
    | some novelty =>
      if !novelty.withinWindow then .ok (.healthy (.established novelty.firstSeenAt thr.windowBuckets) none)
      else if novelty.readmitted then
        .ok (.healthy (.shared (.text "re-admitted port: it was retired and seen again, so it is not new")) none)
      else
        sharedGuard (ctx.dimension .destinationPort "destination-port") (fun _ =>
          let decision := newPortScope ctx.observation (some novelty.history)
          if !novelty.history.complete then .ok (.insufficient (.unverified novelty.history.reason none))
          else if decision.scope = .none then
            .ok (.text (orReason decision.reason "the inputs do not support a verdict"))
          else
            match novelty.appearanceFlood with
            | some flood => .ok (.text flood)
            | none => .ok (judgeNovelty thr novelty (decide (decision.scope = .increaseOnly) || novelty.lowerBound))))

end QRadarDashboard.Detectors
