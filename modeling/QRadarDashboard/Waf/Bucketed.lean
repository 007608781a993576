import QRadarDashboard.Collectors.BucketedMetrics
import QRadarDashboard.History.Waf

/-!
# Keyed WAF rows (`app/waf/bucketed.py`)

Rows are grouped by their key, and each bucket keeps its largest groups.
-/

namespace QRadarDashboard.Waf
open Lib Providers Collectors History

structure WafBreakdownGroup where
  rawUrl : Option String := none
  rawMethod : Option String := none
  rawVirtualHost : Option String := none
  rawValue : Option String := none
  requestCount : Int := 0

structure WafBreakdownBatch where
  breakdown : String
  windowStart : Int
  windowEnd : Int
  groups : List WafBreakdownGroup := []
  truncated : Bool := false
  query : Option String := none

/-- `observation_sort_key`, after every real key for a row without a usable count. -/
def observationSortKey : Option WafRequestGroup → ℤ ×ₗ String ×ₗ String ×ₗ String
  | none => toLex (1, toLex ("", toLex ("", "")))
  | some group =>
    toLex (-group.requestCount, toLex (group.rawUrl.getD "", toLex (group.rawMethod.getD "",
      group.rawVirtualHost.getD "")))

def breakdownSortKey : Option WafBreakdownGroup → ℤ ×ₗ String ×ₗ String ×ₗ String ×ₗ String
  | none => toLex (1, toLex ("", toLex ("", toLex ("", ""))))
  | some group =>
    toLex (-group.requestCount, toLex (group.rawUrl.getD "", toLex (group.rawMethod.getD "",
      toLex (group.rawVirtualHost.getD "", group.rawValue.getD ""))))

variable (t : TextTables)

def parseGroupRow (row : KeyedRow) : Except Exc (Option WafRequestGroup) := do
  match ← asInt t (column row "request_count") with
  | none => return none
  | some count =>
    if count < 0 then return none
    else
      let rawUrl ← asText t 2048 (column row "raw_url")
      let rawMethod ← asText t 32 (column row "raw_method")
      let rawVirtualHost ← asText t 255 (column row "raw_virtual_host")
      let recordCount ← asInt t (column row "record_count")
      let distinctClientCount ← asInt t (column row "distinct_clients")
      return some ⟨rawUrl, rawMethod, rawVirtualHost, count, recordCount.getD 0, distinctClientCount⟩

def parseBreakdownRow (row : KeyedRow) : Except Exc (Option WafBreakdownGroup) := do
  match ← asInt t (column row "request_count") with
  | none => return none
  | some count =>
    if count < 0 then return none
    else
      let rawUrl ← asText t 2048 (column row "raw_url")
      let rawMethod ← asText t 32 (column row "raw_method")
      let rawVirtualHost ← asText t 255 (column row "raw_virtual_host")
      let rawValue ← asText t 255 (column row "raw_value")
      return some ⟨rawUrl, rawMethod, rawVirtualHost, rawValue, count⟩

/-- `_bucket_starts`: the first start, the first key and the number of buckets. -/
def bucketStarts (windowStart windowEnd bucketSeconds : Int) : Except KeyedRowError (Int × Int × Nat) := do
  let (start, stop) ← (validateBucketedMetricWindow windowStart windowEnd bucketSeconds).mapError .other
  return (start, start / 1000000 / bucketSeconds, ((stop - start) / 1000000 / bucketSeconds).toNat)

def bucketIndex (firstKey : Int) (count : Nat) (what : String) (row : KeyedRow) : Except KeyedRowError Nat := do
  match ← (integerBucketKey t (column row "k")).mapError .other with
  | none => .error (.provider ("QRadar Ariel WAF " ++ what ++ " row had a non-integer bucket key"))
  | some key =>
    if 0 ≤ key - firstKey ∧ key - firstKey < count then return (key - firstKey).toNat
    else .error (.provider ("QRadar Ariel WAF " ++ what ++ " row had a bucket key outside the window"))

/-- The rows of one index, `grouped[index]`. -/
def rowsAt (indexed : List (Nat × KeyedRow)) (index : Nat) : List KeyedRow :=
  (indexed.filter (fun item => item.1 = index)).map (fun item => item.2)

def indexRows (firstKey : Int) (count : Nat) (what : String) (rows : List KeyedRow) :
    Except KeyedRowError (List (Nat × KeyedRow)) :=
  rows.mapM (fun row => (bucketIndex t firstKey count what row).map (fun index => (index, row)))

def addTotal (firstKey : Int) (count : Nat) (totals : Dict Nat Int) (row : KeyedRow) :
    Except KeyedRowError (Dict Nat Int) := do
  let index ← bucketIndex t firstKey count "total" row
  if (totals.get? index).isSome then .error (.provider "QRadar Ariel WAF total returned two rows for one bucket")
  else
    let total ← (asInt t (column row "total_events")).mapError .other
    return totals.set index (total.getD 0)

/-- One pass of the last loop of `fold_observation_buckets`: a bucket and its start. -/
def observationBucket (grouped : List (Nat × KeyedRow)) (totals : Dict Nat Int) (first bucketSeconds : Int)
    (maxGroups : Nat) (query totalQuery : Option String) (index : Nat) :
    Except KeyedRowError (Int × WafObservationBatch) := do
  let start := bucketStartAt first bucketSeconds index
  let parsed ← ((rowsAt grouped index).mapM (parseGroupRow t)).mapError .other
  let kept := ((sortOn observationSortKey parsed).take maxGroups).filterMap id
  return (start, {
    windowStart := start
    windowEnd := start + seconds bucketSeconds
    groups := kept
    totalEvents := (totals.get? index).getD 0
    truncated := maxGroups ≤ kept.length
    query := query
    totalQuery := totalQuery })

def foldObservationBuckets (groupRows totalRows : List KeyedRow) (windowStart windowEnd bucketSeconds : Int)
    (maxGroups : Nat) (query totalQuery : Option String) : Except KeyedRowError (Dict Int WafObservationBatch) := do
  let (first, firstKey, count) ← bucketStarts windowStart windowEnd bucketSeconds
  let grouped ← indexRows t firstKey count "volume" groupRows
  let totals ← totalRows.foldlM (addTotal t firstKey count) []
  (List.range count).mapM (observationBucket t grouped totals first bucketSeconds maxGroups query totalQuery)

/-- One pass of the last loop of `fold_breakdown_buckets`. -/
def breakdownBucket (grouped : List (Nat × KeyedRow)) (breakdown : String) (first bucketSeconds : Int)
    (maxGroups : Nat) (query : Option String) (index : Nat) : Except KeyedRowError (Int × WafBreakdownBatch) := do
  let start := bucketStartAt first bucketSeconds index
  let parsed ← ((rowsAt grouped index).mapM (parseBreakdownRow t)).mapError .other
  let cut := (sortOn breakdownSortKey parsed).take maxGroups
  return (start, {
    breakdown := breakdown
    windowStart := start
    windowEnd := start + seconds bucketSeconds
    groups := cut.filterMap id
    truncated := maxGroups ≤ cut.length
    query := query })

def foldBreakdownBuckets (rows : List KeyedRow) (breakdown : String) (windowStart windowEnd bucketSeconds : Int)
    (maxGroups : Nat) (query : Option String) : Except KeyedRowError (Dict Int WafBreakdownBatch) := do
  let (first, firstKey, count) ← bucketStarts windowStart windowEnd bucketSeconds
  let grouped ← indexRows t firstKey count "breakdown" rows
  (List.range count).mapM (breakdownBucket t grouped breakdown first bucketSeconds maxGroups query)

end QRadarDashboard.Waf
