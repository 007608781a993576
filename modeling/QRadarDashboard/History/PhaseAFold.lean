import QRadarDashboard.History.Scan
import QRadarDashboard.Lib.Dict
import QRadarDashboard.Waf.Observations

/-!
# The rows of a Phase A step (`fold_step` of `app/history/phase_a.py`)

The floors first: a source whose first event lies in this step is known when its own buckets are written.
-/

namespace QRadarDashboard.History
open Lib Waf

/-! ## The chunk results of Phase A (`app/history/phase_a.py`) -/

structure CompletedBucket (μ : Type) where
  samples : List μ
  searchWindowStart : Int
  searchWindowEnd : Int
  searchBucketCount : Nat
  splitDepth : Nat

namespace PhaseA

variable {φ μ : Type} [PyFloat φ]

/-- `(rows, non_silent_buckets)` of the completed buckets of a chunk. -/
def chunkStats (buckets : List (CompletedBucket μ)) : Nat × Nat :=
  ((buckets.map (fun bucket => bucket.samples.length)).sum,
    buckets.countP (fun bucket => !bucket.samples.isEmpty))

/-- How many of `count` buckets from `start` on completed without a hole. -/
def prefixLength (completed : Dict Int (CompletedBucket μ)) (bucket : Int) : Nat → Int → Nat
  | 0, _ => 0
  | count + 1, start =>
    if (completed.get? start).isSome then prefixLength completed bucket count (start + bucket) + 1 else 0

def prefixResult (chunk : Span Int) (completed : Dict Int (CompletedBucket μ)) (bucket : Int) (count searches : Nat) :
    ChunkResult :=
  let stats := chunkStats ((List.range count).filterMap (fun index => completed.get? (chunk.start + index * bucket)))
  { span := ⟨chunk.start, chunk.start + count * bucket⟩
    status := .complete
    rows := stats.1
    nonSilentBuckets := stats.2
    searches := searches
    searches_nonneg := Int.natCast_nonneg searches }

def restResult (chunk : Span Int) (restStart : Int) (searches : Nat) (failed : Option (Span Int)) :
    Except Exc ChunkResult :=
  match failed with
  | some failed =>
    if failed.start ≠ restStart then
      .error (.value "the failed search does not follow the completed prefix")
    else .ok {
      span := failed
      status := .failed
      searches := searches
      searches_nonneg := Int.natCast_nonneg searches }
  | none => .ok {
      span := ⟨restStart, chunk.stop⟩
      status := .notRun
      searches := searches
      searches_nonneg := Int.natCast_nonneg searches }

/-- The results one planned chunk gives `settleStep`. Its searches are charged to its first result. -/
def chunkResults (chunk : Span Int) (completed : Dict Int (CompletedBucket μ)) (st : PlannerSettings φ)
    (searches : Nat) (failed : Option (Span Int)) : Except Exc (List ChunkResult) := do
  let count ← chunk.buckets st
  let done := prefixLength completed st.bucket count.toNat chunk.start
  let read := if done = 0 then [] else [prefixResult chunk completed st.bucket done searches]
  if (done : Int) < count then
    let rest ← restResult chunk (chunk.start + done * st.bucket) (if done = 0 then searches else 0) failed
    return read ++ [rest]
  else return read

/-- What `chunk_results` is given of a chunk that was searched. -/
structure ChunkRead (μ : Type) where
  chunk : Span Int
  completed : Dict Int (CompletedBucket μ)
  searches : Nat
  failed : Option (Span Int)

def ChunkRead.results (st : PlannerSettings φ) (read : ChunkRead μ) : Except Exc (List ChunkResult) :=
  chunkResults read.chunk read.completed st read.searches read.failed

def settleReads (progress : ScopeProgress Int φ) (reads : List (ChunkRead μ)) (stop : Int) (st : PlannerSettings φ) :
    Except Exc (StepSettlement φ) := do
  let results ← reads.mapM (fun read => read.results st)
  settleStep progress results.flatten stop st

end PhaseA

/-! ## Per-source floors (`app/history/source_floors.py`) -/

structure SourceFloors where
  firstBuckets : Dict String Int := []
  keys_ok : ∀ item ∈ firstBuckets, item.1 ≠ "" := by simp

namespace SourceFloors

/-- `earliest[source] = bucket` -/
def put (floors : SourceFloors) (source : String) (bucket : Int) (hsource : source ≠ "") : SourceFloors where
  firstBuckets := floors.firstBuckets.set source bucket
  keys_ok := by
    intro item hitem
    rcases Dict.mem_set hitem with hitem | rfl
    · exact floors.keys_ok item hitem
    · exact hsource

/-- One `(source, bucket_start)` row of a read. A row the proof must not rest on raises. -/
def observeRow (floors : SourceFloors) (readStart bucketSeconds : Int) (source : String) (bucket : Int) :
    Except Exc SourceFloors :=
  if hsource : source = "" then .error (.sourceFloor "a source key is a non-empty string")
  else if bucket % 1000000 ≠ 0 ∨ bucket / 1000000 % bucketSeconds ≠ 0 then
    .error (.sourceFloor s!"a bucket is not aligned to {bucketSeconds} s")
  else if bucket < readStart then .error (.sourceFloor "a row lies before the start of the read")
  else
    match floors.firstBuckets.get? source with
    | none => .ok (floors.put source bucket hsource)
    | some earliest => .ok (if bucket < earliest then floors.put source bucket hsource else floors)

def observeRows (readStart bucketSeconds : Int) : List (String × Int) → SourceFloors → Except Exc SourceFloors
  | [], floors => .ok floors
  | (source, bucket) :: rows, floors => do
      let floors ← floors.observeRow readStart bucketSeconds source bucket
      observeRows readStart bucketSeconds rows floors

def observe (floors : SourceFloors) (rows : List (String × Int)) (readStart bucketSeconds : Int) :
    Except Exc SourceFloors := do
  require (1 ≤ bucketSeconds) (.sourceFloor "bucket_seconds must be positive")
  observeRows readStart bucketSeconds rows floors

/-- `max(T0, first_event_bucket + m)`, or none until the source has an event. -/
def floor (floors : SourceFloors) (source : String) (targetStart margin : Int) : Option Int :=
  (floors.firstBuckets.get? source).map (fun first => max targetStart (first + margin))

end SourceFloors

variable {φ : Type} [PyFloat φ]

/-! ## The marker of history (`app/history/origin.py`) -/

inductive HistoryOrigin where
  | live | history

def HistoryOrigin.value : HistoryOrigin → String
  | .live => "LIVE"
  | .history => "HISTORY"

def markerValues (family : HistoryFamily) (origin : HistoryOrigin) (mock : Bool) : Dict String String :=
  match family, origin with
  | .phaseA, .history => [("collection_source", if mock then "mock_history" else "ariel_history")]
  | .phaseA, .live => []
  | _, origin => [("origin", origin.value)]

/-! ## Samples and columns -/

structure MetricColumns (φ : Type) [PyFloat φ] where
  bucketSeconds : Int := 300
  eventCount : Int := 0
  averageEps : φ := PyFloat.ofInt 0
  peakEps : φ := PyFloat.ofInt 0
  lastEventAt : Option Int := none
  eventDelaySeconds : Option φ := none
  unknownEventCount : Int := 0
  storedEventCount : Int := 0
  parsedUsernameRatio : Option φ := none
  parsedSourceIpRatio : Option φ := none
  distinctQidCount : Int := 0
  distinctUsernameCount : Int := 0
  distinctSourceIpCount : Int := 0
  collectionErrorCount : Int := 0
  payloadSignature : Option String := none

structure LogSourceMetricSample (φ : Type) [PyFloat φ] extends MetricColumns φ where
  qradarId : Int
  bucketStart : Int

def sampleColumns (sample : LogSourceMetricSample φ) : MetricColumns φ := sample.toMetricColumns

def zeroColumns (bucketSeconds : Int) : MetricColumns φ := { bucketSeconds := bucketSeconds }

/-- The key of a source in its `SourceFloors`: its QRadar id. -/
def sourceKey (qradarId : Int) : String := qradarId.repr

structure CollectedBucket (φ : Type) [PyFloat φ] extends CompletedBucket (LogSourceMetricSample φ) where
  durationMs : Int := 0
  collectedAt : Int := 0

structure MonitoredSources where
  ids : Dict Int String
  qradarIds_nodup : ids.keys.Nodup
  ids_nodup : (ids.map (fun item => item.2)).Nodup

/-! ## The fold -/

structure MetricRow (φ : Type) [PyFloat φ] where
  logSourceId : String
  bucketStart : Int
  completeness : BucketCompleteness
  marker : Dict String String
  queryProvenance : JsonObject φ
  collectionDurationMs : Int
  collectedAt : Int
  watermarkAt : Option Int
  columns : MetricColumns φ

structure FoldSource where
  collector : String
  provider : String
  aggregation : Option String
  telemetry : List String
  mock : Bool

def bucketProvenance (source : FoldSource) (start stop : Int) (sampleCount : Nat)
    (completed : Option (CollectedBucket φ)) : JsonObject φ :=
  let provenance : JsonObject φ := [
    ("collector", .str source.collector),
    ("window_start", .str (isoformatUtc start)),
    ("window_end", .str (isoformatUtc stop)),
    ("provider", .str source.provider),
    ("sample_count", .int sampleCount),
    ("event_count_aggregation", match source.aggregation with
      | none => .null
      | some aggregation => .str aggregation),
    ("telemetry", .arr ((sortOn (fun name => name) source.telemetry).map (fun name => .str name)))]
  match completed with
  | none => provenance
  | some completed => provenance ++ [
      ("search_window_start", .str (isoformatUtc completed.searchWindowStart)),
      ("search_window_end", .str (isoformatUtc completed.searchWindowEnd)),
      ("search_bucket_count", .int completed.searchBucketCount),
      ("bucket_key", .str s!"starttime / {(stop - start) / 1000000 * 1000}"),
      ("split_depth", .int completed.splitDepth)]

def bucketRow (logSourceId : String) (start : Int) (completed : CollectedBucket φ) (marker : Dict String String)
    (provenance : JsonObject φ) (columns : MetricColumns φ) : MetricRow φ :=
  { logSourceId := logSourceId
    bucketStart := start
    completeness := .complete
    marker := marker
    queryProvenance := provenance
    collectionDurationMs := completed.durationMs
    collectedAt := completed.collectedAt
    watermarkAt := none
    columns := columns }

structure StepFold (φ : Type) [PyFloat φ] where
  rows : List (MetricRow φ)
  floors : SourceFloors
  zeroFilled : Nat

namespace PhaseA

structure FoldArgs (φ : Type) [PyFloat φ] where
  monitored : MonitoredSources
  readStart : Int
  targetStart : Int
  settings : PlannerSettings φ
  source : FoldSource

variable (args : FoldArgs φ)

def observed (buckets : List (Int × CollectedBucket φ)) : List (String × Int) :=
  buckets.flatMap (fun item =>
    (item.2.samples.filter (fun sample => (args.monitored.ids.get? sample.qradarId).isSome)).map
      (fun sample => (sourceKey sample.qradarId, item.1)))

/-- `floor_of`: the floors of the monitored sources that have one. -/
def floorOf (floors : SourceFloors) : Dict Int Int :=
  args.monitored.ids.filterMap (fun item =>
    (floors.floor (sourceKey item.1) args.targetStart args.settings.margin).map (fun floor => (item.1, floor)))

def baseProvenance (start : Int) (completed : CollectedBucket φ) : JsonObject φ :=
  bucketProvenance args.source start (start + args.settings.bucket) completed.samples.length (some completed)

def marker : Dict String String := markerValues .phaseA .history args.source.mock

def sampleRow (start : Int) (completed : CollectedBucket φ) (logSourceId : String) (floor : Int)
    (sample : LogSourceMetricSample φ) : MetricRow φ :=
  bucketRow logSourceId start completed (marker args)
    (baseProvenance args start completed ++ [("history", .bool true), ("floor", .str (isoformatUtc floor))])
    (sampleColumns sample)

def zeroRow (start : Int) (completed : CollectedBucket φ) (logSourceId : String) (floor : Int) : MetricRow φ :=
  bucketRow logSourceId start completed (marker args)
    (baseProvenance args start completed ++
      [("zero_filled", .bool true), ("history", .bool true), ("floor", .str (isoformatUtc floor))])
    (zeroColumns args.settings.bucketSeconds)

def reportedRows (floors : SourceFloors) (start : Int) (completed : CollectedBucket φ) : List (Int × MetricRow φ) :=
  completed.samples.filterMap (fun sample =>
    match (floorOf args floors).get? sample.qradarId, args.monitored.ids.get? sample.qradarId with
    | some floor, some id =>
      if start < floor then none else some (sample.qradarId, sampleRow args start completed id floor sample)
    | _, _ => none)

def zeroRows (floors : SourceFloors) (start : Int) (completed : CollectedBucket φ) (reported : List Int) :
    List (MetricRow φ) :=
  (floorOf args floors).filterMap (fun item =>
    match args.monitored.ids.get? item.1 with
    | some id => if start < item.2 ∨ item.1 ∈ reported then none else some (zeroRow args start completed id item.2)
    | none => none)

def bucketRows (floors : SourceFloors) (start : Int) (completed : CollectedBucket φ) : List (MetricRow φ) × Nat :=
  let reported := reportedRows args floors start completed
  let zeros := zeroRows args floors start completed (reported.map (fun item => item.1))
  (reported.map (fun item => item.2) ++ zeros, zeros.length)

/-- `fold_step`: the settled buckets, turned into rows. -/
def foldStep (buckets : Dict Int (CollectedBucket φ)) (floors : SourceFloors) : Except Exc (StepFold φ) := do
  let items := sortOn (fun item : Int × CollectedBucket φ => item.1) buckets
  let floors ← floors.observe (observed args items) args.readStart args.settings.bucketSeconds
  let folded := items.map (fun item => bucketRows args floors item.1 item.2)
  return {
    rows := folded.flatMap (fun bucket => bucket.1)
    floors := floors
    zeroFilled := (folded.map (fun bucket => bucket.2)).sum }

def foldSteps : List (Dict Int (CollectedBucket φ)) → SourceFloors → Except Exc (StepFold φ)
  | [], floors => .ok ⟨[], floors, 0⟩
  | buckets :: calls, floors => do
      let fold ← foldStep args buckets floors
      let rest ← foldSteps calls fold.floors
      return ⟨fold.rows ++ rest.rows, rest.floors, fold.zeroFilled + rest.zeroFilled⟩

end PhaseA

end QRadarDashboard.History
