import QRadarDashboard.History.Lifecycle
import QRadarDashboard.History.Planner
import QRadarDashboard.Lib.DateTime
import Mathlib.Data.List.Sort

/-!
# The progress codec (`app/history/progress_codec.py`)

`repr` stands for Python's `repr` of the values the error messages show.
-/

namespace QRadarDashboard.History
open Lib

variable {φ : Type} [PyFloat φ]

def progressVersion : Int := 3

/-- The fields of `ScopeProgress`, in order. -/
def fieldNames : List String :=
  ["target_start", "started_at", "floor", "first_event_bucket", "through", "scan_cursor",
    "scan_failures", "chunk_buckets", "chunk_ceiling", "ceiling_successes", "failures", "searches",
    "buckets_read", "lower_bound_buckets", "rows_seen", "non_silent_buckets",
    "recent_rows_per_bucket", "density_checked", "gaps"]

def version1Absent : List String := ["ceiling_successes"]

def version2Absent : List String := ["recent_rows_per_bucket"]

def gapKeys : List String := ["start", "end", "reason"]

/-! ## Encoding -/

def encodeDatetime (value : DateTime) (name : String) : Except Exc (Json φ) :=
  match value.utcoffset with
  | none => .error (.progressCodec s!"{name} must be timezone-aware")
  | some o =>
    match value.toUtc o with
    | none => .error (.overflow "date value out of range")
    | some utc => .ok (.str (String.ofList utc.isoformat))

def encodeOptional (value : Option DateTime) (name : String) : Except Exc (Json φ) :=
  match value with
  | none => .ok .null
  | some value => encodeDatetime value name

def encodeFloat (value : Option φ) (name : String) : Except Exc (Json φ) :=
  match value with
  | none => .ok .null
  | some x =>
    if PyFloat.isfinite x then .ok (.float x)
    else .error (.progressCodec s!"{name} must be a finite number")

def encodeGap (gap : Gap DateTime) : Except Exc (Json φ) := do
  let start ← encodeDatetime gap.start "gap start"
  let stop ← encodeDatetime gap.stop "gap end"
  return .obj [("start", start), ("end", stop), ("reason", .str gap.reason)]

def encodeInt (value : Option Int) : Json φ :=
  match value with
  | none => .null
  | some n => .int n

def encodeBody (p : ScopeProgress DateTime φ) : Except Exc (JsonObject φ) := do
  let targetStart ← encodeDatetime p.targetStart "target_start"
  let startedAt ← encodeDatetime p.startedAt "started_at"
  let floor ← encodeOptional p.floor "floor"
  let firstEventBucket ← encodeOptional p.firstEventBucket "first_event_bucket"
  let through ← encodeOptional p.through "through"
  let scanCursor ← encodeOptional p.scanCursor "scan_cursor"
  let recent ← encodeFloat p.recentRowsPerBucket "recent_rows_per_bucket"
  let gaps ← p.gaps.mapM encodeGap
  return [("target_start", targetStart), ("started_at", startedAt), ("floor", floor),
    ("first_event_bucket", firstEventBucket), ("through", through), ("scan_cursor", scanCursor),
    ("scan_failures", .int p.scanFailures), ("chunk_buckets", encodeInt p.chunkBuckets),
    ("chunk_ceiling", encodeInt p.chunkCeiling), ("ceiling_successes", .int p.ceilingSuccesses),
    ("failures", .int p.failures), ("searches", .int p.searches),
    ("buckets_read", .int p.bucketsRead), ("lower_bound_buckets", .int p.lowerBoundBuckets),
    ("rows_seen", .int p.rowsSeen), ("non_silent_buckets", .int p.nonSilentBuckets),
    ("recent_rows_per_bucket", recent), ("density_checked", .bool p.densityChecked),
    ("gaps", .arr gaps)]

def document (version : Int) (body adapter : JsonObject φ) : Json φ :=
  .obj [("version", .int version), ("progress", .obj body), ("adapter", .obj adapter)]

def encodeProgress (p : ScopeProgress DateTime φ) (adapter : JsonObject φ) : Except Exc (Json φ) := do
  return document progressVersion (← encodeBody p) adapter

/-! ## Decoding -/

def decodeDatetime (value : Json φ) (name : String) : Except Exc DateTime :=
  match value with
  | .str s =>
    match fromisoformat s.toList with
    | none => .error (.progressCodec s!"{name} is not an ISO-8601 time")
    | some parsed =>
      match parsed.utcoffset with
      | none => .error (.progressCodec s!"{name} has no timezone")
      | some o =>
        match parsed.toUtc o with
        | none => .error (.overflow "date value out of range")
        | some utc => .ok utc
  | _ => .error (.progressCodec s!"{name} must be an ISO-8601 string")

def decodeInt (value : Json φ) (name : String) : Except Exc Int :=
  match value with
  | .int n => .ok n
  | _ => .error (.progressCodec s!"{name} must be an integer")

def decodeCount (value : Json φ) (name : String) : Except Exc Int := do
  let count ← decodeInt value name
  if count < 0 then throw (.progressCodec s!"{name} cannot be negative") else return count

def decodeFloat (value : Json φ) (name : String) : Except Exc (Option φ) :=
  let finite (x : φ) : Except Exc (Option φ) :=
    if PyFloat.isfinite x then .ok (some x)
    else .error (.progressCodec s!"{name} must be a finite number")
  match value with
  | .null => .ok none
  | .int n => finite (PyFloat.ofInt n)
  | .float x => finite x
  | _ => .error (.progressCodec s!"{name} must be a number or null")

def decodeBool (value : Json φ) (name : String) : Except Exc Bool :=
  match value with
  | .bool b => .ok b
  | _ => .error (.progressCodec s!"{name} must be a boolean")

def member (body : JsonObject φ) (name : String) : Json φ := (body.lookup name).getD .null

def requiredDatetime (body : JsonObject φ) (name : String) : Except Exc DateTime :=
  match member body name with
  | .null => .error (.progressCodec s!"{name} is required")
  | raw => decodeDatetime raw name

def optionalDatetime (body : JsonObject φ) (name : String) : Except Exc (Option DateTime) :=
  match member body name with
  | .null => .ok none
  | raw => do return some (← decodeDatetime raw name)

def optionalInt (body : JsonObject φ) (name : String) : Except Exc (Option Int) :=
  match member body name with
  | .null => .ok none
  | raw => do return some (← decodeInt raw name)

/-- The keys of an object are exactly `names`. -/
def keysAre (members : JsonObject φ) (names : List String) : Bool :=
  members.all (fun m => names.contains m.1) && names.all (fun n => members.any (fun m => m.1 == n))

def sortedTexts (texts : List String) : Json φ := .arr ((texts.insertionSort (· ≤ ·)).map .str)

def decodeGap (index : Nat) (raw : Json φ) : Except Exc (Gap DateTime) :=
  match raw with
  | .obj members =>
    if !keysAre members gapKeys then
      .error (.progressCodec s!"gap {index} must have exactly ['start', 'end', 'reason']")
    else
      match member members "reason" with
      | .str reason => do
          let start ← decodeDatetime (member members "start") s!"gap {index} start"
          let stop ← decodeDatetime (member members "end") s!"gap {index} end"
          return ⟨start, stop, reason⟩
      | _ => .error (.progressCodec s!"gap {index} reason must be a string")
  | _ => .error (.progressCodec s!"gap {index} must have exactly ['start', 'end', 'reason']")

def decodeGaps (index : Nat) : List (Json φ) → Except Exc (List (Gap DateTime))
  | [] => .ok []
  | raw :: rest => do
      let gap ← decodeGap index raw
      return gap :: (← decodeGaps (index + 1) rest)

def versionIs (version : Json φ) (n : Int) : Bool :=
  match version with
  | .int v => v = n
  | .float x => PyFloat.eq x (PyFloat.ofInt n)
  | _ => false

/-- `version < 3` -/
def versionBelow3 (version : Json φ) : Bool :=
  match version with
  | .int v => v < 3
  | .float x => PyFloat.lt x (PyFloat.ofInt 3)
  | _ => false

def expectedNames (version : Json φ) : List String :=
  if versionIs version 1 then fieldNames.filter (fun n => !version1Absent.contains n)
  else if versionIs version 2 then fieldNames.filter (fun n => !version2Absent.contains n)
  else fieldNames

/-- `ceiling_successes`: version 1 had none. -/
def decodeCeiling (version : Json φ) (body : JsonObject φ) : Except Exc Int :=
  if versionIs version 1 then .ok 0
  else decodeCount (member body "ceiling_successes") "ceiling_successes"

/-- `recent_rows_per_bucket`: versions 1 and 2 had none. -/
def decodeDensity (version : Json φ) (body : JsonObject φ) : Except Exc (Option φ) :=
  if versionBelow3 version then .ok none
  else decodeFloat (member body "recent_rows_per_bucket") "recent_rows_per_bucket"

def decodeGapList (value : Json φ) : Except Exc (List (Gap DateTime)) :=
  match value with
  | .arr raw => decodeGaps 0 raw
  | _ => .error (.progressCodec "gaps must be a list")

def decodeBody (version : Json φ) (body : JsonObject φ) : Except Exc (ScopeProgress DateTime φ) := do
  let targetStart ← requiredDatetime body "target_start"
  let startedAt ← requiredDatetime body "started_at"
  let floor ← optionalDatetime body "floor"
  let firstEventBucket ← optionalDatetime body "first_event_bucket"
  let through ← optionalDatetime body "through"
  let scanCursor ← optionalDatetime body "scan_cursor"
  let scanFailures ← decodeInt (member body "scan_failures") "scan_failures"
  let chunkBuckets ← optionalInt body "chunk_buckets"
  let chunkCeiling ← optionalInt body "chunk_ceiling"
  let failures ← decodeInt (member body "failures") "failures"
  let searches ← decodeInt (member body "searches") "searches"
  let bucketsRead ← decodeInt (member body "buckets_read") "buckets_read"
  let lowerBoundBuckets ← decodeInt (member body "lower_bound_buckets") "lower_bound_buckets"
  let rowsSeen ← decodeInt (member body "rows_seen") "rows_seen"
  let nonSilentBuckets ← decodeInt (member body "non_silent_buckets") "non_silent_buckets"
  let ceilingSuccesses ← decodeCeiling version body
  let recentRowsPerBucket ← decodeDensity version body
  let densityChecked ← decodeBool (member body "density_checked") "density_checked"
  let gaps ← decodeGapList (member body "gaps")
  return { targetStart, startedAt, floor, firstEventBucket, through, scanCursor, scanFailures,
           chunkBuckets, chunkCeiling, ceilingSuccesses, failures, searches, bucketsRead,
           lowerBoundBuckets, rowsSeen, nonSilentBuckets, recentRowsPerBucket, densityChecked, gaps }

structure DecodedProgress (φ : Type) where
  progress : ScopeProgress DateTime φ
  adapter : JsonObject φ

def decodeFields (repr : Json φ → String) (version : Json φ) (adapter body : JsonObject φ) :
    Except Exc (DecodedProgress φ) :=
  let expected := expectedNames version
  if !keysAre body expected then
    let missing := repr (sortedTexts (expected.filter (fun n => !body.any (fun m => m.1 == n))))
    let extra := repr (sortedTexts ((body.map (·.1)).filter (fun k => !expected.contains k)))
    .error (.progressCodec s!"progress fields differ: missing {missing}, unknown {extra}")
  else do return ⟨← decodeBody version body, adapter⟩

/-- Read a stored progress back, or raise `ProgressCodecError`. -/
def decodeProgress (repr : Json φ → String) (data : Json φ) : Except Exc (DecodedProgress φ) :=
  match data with
  | .obj members =>
    if !keysAre members ["version", "progress", "adapter"] then
      let keys := repr (sortedTexts (members.map (·.1)))
      .error (.progressCodec
        s!"progress keys are {keys}, expected ['adapter', 'progress', 'version']")
    else
      let version := member members "version"
      if !(versionIs version 1 || versionIs version 2 || versionIs version progressVersion) then
        .error (.progressCodec
          s!"progress version {repr version} is not 1, 2 or {progressVersion}")
      else
        match member members "adapter", member members "progress" with
        | .obj adapter, .obj body => decodeFields repr version adapter body
        | .obj _, _ => .error (.progressCodec "progress body must be an object")
        | _, _ => .error (.progressCodec "adapter must be an object")
  | _ => .error (.progressCodec "progress must be an object")

/-! ## What the writers of each version stored -/

/-- The fields version `v` did not have yet. -/
def absentAt (v : Int) : List String :=
  (if v < 2 then ["ceiling_successes"] else []) ++ (if v < 3 then ["recent_rows_per_bucket"] else [])

/-- The document a writer of version `v` stored for `p`. -/
def storedProgress (v : Int) (p : ScopeProgress DateTime φ) (adapter : JsonObject φ) :
    Except Exc (Json φ) := do
  return document v ((← encodeBody p).filter (fun m => !(absentAt v).contains m.1)) adapter

/-!
## Whose progress a scope row holds (`decode_scope` of `app/history/lifecycle.py`)

A restarted scope keeps the progress of the finished reading until its first step. Whether a stored body is
the current reading's is read off two times and the text of the reason.
-/

def deferredScopeRow (stored : ScopeRow φ) (instanceId : String) (family : HistoryFamily) (scopeKey : String)
    (reason : String) : Except Exc (ScopeRow φ) := do
  let values ← scopeRow stored.toScopeRowView instanceId family scopeKey
  return { values with
    reason := some (boundedReason reason)
    lastErrorClass := stored.lastErrorClass
    lastErrorAt := stored.lastErrorAt }

/-- Every column of the row (without its key) that `step_row` takes. `none` leaves a column as it is. -/
structure RowChanges (φ : Type) extends StepChanges φ where
  state : Option HistoryState := none
  daysRequested : Option (Option Int) := none
  anchor : Option (Option Int) := none
  startedAt : Option (Option Int) := none
  finishedAt : Option (Option Int) := none

def changedRow (base : ScopeRow φ) (changes : RowChanges φ) : ScopeRow φ :=
  { stepRow base changes.toStepChanges with
    state := changes.state.getD base.state
    daysRequested := changes.daysRequested.getD base.daysRequested
    anchor := changes.anchor.getD base.anchor
    startedAt := changes.startedAt.getD base.startedAt
    finishedAt := changes.finishedAt.getD base.finishedAt }

/-- The row's progress and adapter state, or `none` while the scope has not searched in its current reading. -/
def decodeScope (repr : Json φ → String) (row : ScopeRowView φ) : Except Exc (Option (DecodedProgress φ)) :=
  match row.progress with
  | none => .error (.lifecycle "a scope row has progress (\x7b\x7d while nothing was searched)")
  | some body =>
    if body.isEmpty then .ok none
    else if row.state = .waiting ∨ row.state = .notEligible then
      .error (.lifecycle s!"a {row.state.value} scope has not searched, so progress is \x7b\x7d")
    else
      match row.targetStart with
      | none => .error (.lifecycle "progress is set but the row has no target_start")
      | some targetStart => do
          let decoded ← decodeProgress repr (.obj body)
          if row.startedAt.any (fun started => decoded.progress.startedAt.timestamp < started) then return none
          else if row.reason = some restartReason then return none
          else if decoded.progress.targetStart.timestamp ≠ targetStart then
            throw (.lifecycle "progress and the row disagree on target_start")
          else return some decoded

/-! ## Writes that take no step -/

inductive IdleWrite where
  | deferred (reason : String)
  | roundTrip

def idleWrite (instanceId : String) (family : HistoryFamily) (scopeKey : String) (stored : ScopeRow φ) :
    IdleWrite → Except Exc (ScopeRow φ)
  | .deferred reason => deferredScopeRow stored instanceId family scopeKey reason
  | .roundTrip => scopeRow stored.toScopeRowView instanceId family scopeKey

def heldReason (writes : List IdleWrite) : String :=
  writes.foldl (fun held write =>
    match write with
    | .deferred reason => boundedReason reason
    | .roundTrip => held) restartReason

end QRadarDashboard.History
