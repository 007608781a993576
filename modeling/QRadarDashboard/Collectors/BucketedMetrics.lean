import QRadarDashboard.Basic
import QRadarDashboard.Lib.Dict
import QRadarDashboard.Lib.Double
import QRadarDashboard.Lib.Except
import QRadarDashboard.Lib.PyText

/-!
# Windows of whole buckets (`app/collectors/bucketed_metrics.py`)

And the fold of keyed rows into them, with the coercions of `app/providers/normalize.py` that it reads values by.
-/

/-! ## Coercions -/

namespace QRadarDashboard.Providers
open Lib

abbrev Cell := Option (Json PyDouble)

/-- What the coercions read of the interpreter: its character tables, and `str` of a value that is not text. -/
structure TextTables where
  unicode : UnicodeTables
  digits : DigitTables
  str : Json PyDouble → Except Exc String

variable (t : TextTables)

/-- `int(x)` of a float -/
def intOfDouble : PyDouble → Except Exc Int
  | .finite x => .ok (towardsZero x)
  | .infinite _ => .error (.overflow "cannot convert float infinity to integer")
  | .nan => .error (.value "cannot convert float NaN to integer")

def asInt : Cell → Except Exc (Option Int)
  | some (.int n) => .ok (some n)
  | some (.float x) => (intOfDouble x).map some
  | some (.str s) => .ok (t.digits.readSigned t.unicode s.toList).toOption
  | _ => .ok none

/-- `text[:limit] if text else None` -/
def limitText (limit : Nat) (text : List Char) : Option String :=
  if text = [] then none else some (String.ofList (text.take limit))

def asText (limit : Nat) : Cell → Except Exc (Option String)
  | none | some .null | some (.bool _) => .ok none
  | some (.str s) => .ok (limitText limit (t.unicode.strip s.toList))
  | some value => (t.str value).map (fun text => limitText limit text.toList)

/-- `datetime.fromtimestamp(x, tz=UTC)`, none where it raises: the years are 1 to 9999. -/
def fromTimestamp (x : ℚ) : Option Int :=
  let micros := roundHalfEven (Double.round ((x - towardsZero x) * 1000000))
  let instant := seconds (towardsZero x) + micros
  if seconds (-62135596800) ≤ instant ∧ instant < seconds 253402300800 then some instant else none

def timeOfInt (n : Int) : Option Int :=
  if n ≤ 0 ∨ Double.Overflows n then none else fromTimestamp (Double.round (Double.round n / 1000))

def parseQradarTime : Cell → Option Int
  | some (.int n) => timeOfInt n
  | some (.float (.finite x)) => if x ≤ 0 then none else fromTimestamp (Double.round (x / 1000))
  | some (.str s) => (t.digits.readSigned t.unicode s.toList).toOption.bind timeOfInt
  | _ => none

end QRadarDashboard.Providers

namespace QRadarDashboard.Collectors
open Lib Providers

def validateBucketedMetricWindow (windowStart windowEnd bucketSeconds : Int) : Except Exc (Int × Int) :=
  if bucketSeconds ≤ 0 then .error (.value "metric bucket width must be positive")
  else if windowEnd - windowStart ≤ 0 then
    .error (.value "metric window end must be after its start")
  else if windowEnd - windowStart > seconds (168 * 3600) then
    .error (.value "metric window exceeds the 168-hour safety bound")
  else if windowStart % 1000000 ≠ 0 ∨ windowEnd % 1000000 ≠ 0 ∨
      windowStart / 1000000 % bucketSeconds ≠ 0 ∨ windowEnd / 1000000 % bucketSeconds ≠ 0 ∨
      (windowEnd - windowStart) % 1000000 ≠ 0 ∨ (windowEnd - windowStart) / 1000000 % bucketSeconds ≠ 0 then
    .error (.value "metric window must contain epoch-aligned whole buckets")
  else .ok (windowStart, windowEnd)

/-! ## Buckets of a window -/

def bucketStartAt (start bucketSeconds : Int) (index : Nat) : Int := start + seconds (bucketSeconds * index)

/-! ## Keyed rows -/

abbrev KeyedRow := JsonObject PyDouble

/-- `row.get(column)` -/
def column (row : KeyedRow) (name : String) : Cell := Dict.get? row name

inductive KeyedRowError where
  | provider (message : String)
  | other (e : Exc)

/-- `stripped.isascii() and stripped.lstrip("-").isdigit()` -/
def isKeyText (stripped : List Char) : Bool :=
  let digits := stripped.dropWhile (fun c => c = '-')
  !digits.isEmpty && digits.all Char.isDigit

def integerBucketKey (t : TextTables) : Cell → Except Exc (Option Int)
  | some (.int n) => .ok (some n)
  | some (.float x) => if x.isInteger then (intOfDouble x).map some else .ok none
  | some (.str s) =>
    let stripped := t.unicode.strip s.toList
    if isKeyText stripped then
      ((asciiDigits.readSigned t.unicode stripped).map some).mapError (fun e => .value e.text)
    else .ok none
  | _ => .ok none

structure LogSourceMetricSample where
  qradarId : Int
  bucketStart : Int
  bucketSeconds : Int
  eventCount : Int
  averageEps : ℚ
  lastEventAt : Option Int
  eventDelaySeconds : Option ℚ
  storedEventCount : Int

def metricSample (t : TextTables) (bucketSeconds bucketStart : Int) (row : KeyedRow) :
    Except Exc (Option LogSourceMetricSample) := do
  let qradarId ← asInt t (column row "qradar_id")
  let count ← asInt t (column row "event_count")
  match qradarId, count with
  | some qradarId, some count =>
    if count < 0 then return none
    else
      let bucketEnd := bucketStart + seconds bucketSeconds
      let lastEvent := parseQradarTime t (column row "last_event_time")
      if Double.Overflows (count / bucketSeconds) then
        .error (.overflow "integer division result too large for a float")
      else
        return some {
          qradarId := qradarId
          bucketStart := bucketStart
          bucketSeconds := bucketSeconds
          eventCount := count
          averageEps := Double.round (count / bucketSeconds)
          lastEventAt := lastEvent
          eventDelaySeconds := lastEvent.map (fun last => max 0 (Double.round ((bucketEnd - last : Int) / 1000000)))
          storedEventCount := count }
  | _, _ => return none

/-- `datetime.fromtimestamp((key * bucket_ms) / 1000, tz=UTC)`, none where it raises. -/
def keyStart (bucketSeconds key : Int) : Option Int :=
  let quotient : ℚ := (key * (bucketSeconds * 1000) : Int) / 1000
  if Double.Overflows quotient then none else fromTimestamp (Double.round quotient)

/-- One pass of the loop of `fold_log_source_metric_buckets`. -/
def foldMetricRow (t : TextTables) (bucketSeconds : Int) (buckets : Dict Int (List LogSourceMetricSample))
    (row : KeyedRow) : Except KeyedRowError (Dict Int (List LogSourceMetricSample)) := do
  match ← (integerBucketKey t (column row "k")).mapError .other with
  | none => .error (.provider "QRadar Ariel metric row had a non-integer bucket key")
  | some key =>
    match (keyStart bucketSeconds key).bind (fun start => (buckets.get? start).map (fun samples => (start, samples))) with
    | none => .error (.provider "QRadar Ariel metric row had a bucket key outside the window")
    | some (start, samples) =>
      let sample ← (metricSample t bucketSeconds start row).mapError .other
      return buckets.set start (samples ++ sample.toList)

def foldLogSourceMetricBuckets (t : TextTables) (rows : List KeyedRow) (windowStart windowEnd bucketSeconds : Int) :
    Except KeyedRowError (Dict Int (List LogSourceMetricSample)) := do
  let (start, stop) ← (validateBucketedMetricWindow windowStart windowEnd bucketSeconds).mapError .other
  let count := ((stop - start) / 1000000 / bucketSeconds).toNat
  rows.foldlM (foldMetricRow t bucketSeconds) ((List.range count).map (fun i => (bucketStartAt start bucketSeconds i, [])))

end QRadarDashboard.Collectors
