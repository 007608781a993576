import QRadarDashboard.Collectors.CollectorLock
import QRadarDashboard.Collectors.WafEndpointCollector

/-!
# A live tick of the WAF collector (`WafEndpointCollector.collect`)

The kinds whose search was truncated are searched again in the two halves of the window, left half first.
-/

namespace QRadarDashboard.Collectors
open Lib History Waf

/-! ## What the searches return -/

inductive WafBreakdown where
  | ACTION | RESPONSE_CODE | SOURCE_IP
deriving DecidableEq

abbrev WafKind := Option WafBreakdown

structure WafBreakdownGroup where
  rawUrl : Option String := none
  rawMethod : Option String := none
  rawVirtualHost : Option String := none
  rawValue : Option String := none
  requestCount : Int := 0

structure WafBreakdownBatch where
  windowStart : Int
  windowEnd : Int
  groups : List WafBreakdownGroup := []
  truncated : Bool := false
  query : Option String := none

structure WafBreakdownBuckets where
  buckets : Dict Int WafBreakdownBatch := []
  truncated : Bool := false

/-- What the provider answers to the `k`-th search of a tick. A breakdown that raises is its exception's class name. -/
structure WafLiveProvider where
  volume : WafProvider
  breakdown : Nat → WafBreakdown → Span Int → Except String WafBreakdownBatch
  breakdownBucketed : Nat → WafBreakdown → Span Int → Except String WafBreakdownBuckets

structure WafSearchMeta where
  windowStart : Int
  windowEnd : Int
  bucketCount : Nat
  splitDepth : Nat

structure BreakdownResult where
  status : WafTelemetryStatus
  batch : Option WafBreakdownBatch := none
  errorClass : Option String := none
  search : Option WafSearchMeta := none

structure WafFetched where
  batch : WafObservationBatch
  breakdowns : Dict WafBreakdown BreakdownResult
  search : WafSearchMeta

/-! ## The searches of a window -/

structure WafCollectConfig where
  interval : Int
  interval_pos : 0 < interval
  maxBackfillIntervals : Nat
  maxSearches : Nat
  /-- the breakdowns of the plan -/
  planned : WafBreakdown → Bool

def WafCollectConfig.plannedBreakdowns (cfg : WafCollectConfig) : List WafBreakdown :=
  [.ACTION, .RESPONSE_CODE, .SOURCE_IP].filter cfg.planned

def WafCollectConfig.kinds (cfg : WafCollectConfig) : List WafKind := none :: cfg.plannedBreakdowns.map some

structure WafWindow where
  searchesSent : Nat := 0
  splits : Nat := 0
  observations : Dict Int (WafObservationBatch × WafSearchMeta) := []
  breakdowns : Dict (WafBreakdown × Int) BreakdownResult := []
  failure : Option ProviderError := none
  capped : Bool := false

section Window

variable (cfg : WafCollectConfig) (provider : WafLiveProvider)

def windowSpan (start : Int) (count : Nat) : Span Int := ⟨start, start + seconds (cfg.interval * count)⟩

def bucketStarts (start : Int) (count : Nat) : List Int :=
  (List.range count).map (fun (index : Nat) => start + seconds (cfg.interval * index))

def observationsSearch (k : Nat) (start : Int) (count : Nat) : Except ProviderError (Dict Int WafObservationBatch × Bool) :=
  if count = 1 then (provider.volume.one k (windowSpan cfg start count)).map (fun batch => ([(start, batch)], false))
  else (provider.volume.keyed k (windowSpan cfg start count)).map (fun keyed => (keyed.buckets, keyed.truncated))

/-- `_breakdown_search`: a failure is recorded for every bucket that the search covered. -/
def breakdownSearch (k : Nat) (start : Int) (count : Nat) (breakdown : WafBreakdown) : Dict Int BreakdownResult × Bool :=
  let span := windowSpan cfg start count
  let answer : Except String WafBreakdownBuckets :=
    if count = 1 then (provider.breakdown k breakdown span).map (fun batch => { buckets := [(start, batch)] })
    else provider.breakdownBucketed k breakdown span
  match answer with
  | .error errorClass =>
    ((bucketStarts cfg start count).map (fun bucket => (bucket, { status := .failed, errorClass := some errorClass })), false)
  | .ok keyed =>
    if count ≠ 1 ∧ keyed.truncated then ([], true)
    else
      (keyed.buckets.map (fun item =>
        (item.1, { status := if item.2.truncated then .lowerBound else .exact, batch := some item.2 })), false)

def searchKind (w : WafWindow) (start : Int) (count depth : Nat) (kind : WafKind) : WafWindow × Option Bool :=
  let span := windowSpan cfg start count
  let made : WafSearchMeta := ⟨span.start, span.stop, count, depth⟩
  let sent := { w with searchesSent := w.searchesSent + 1 }
  match kind with
  | none =>
    match observationsSearch cfg provider w.searchesSent start count with
    | .error e => ({ sent with failure := some e }, none)
    | .ok (_, true) => ({ sent with splits := sent.splits + 1 }, some true)
    | .ok (buckets, false) =>
      ({ sent with
        observations := buckets.foldl (fun found item => found.set item.1 (item.2, made)) sent.observations }, some false)
  | some breakdown =>
    match breakdownSearch cfg provider w.searchesSent start count breakdown with
    | (_, true) => ({ sent with splits := sent.splits + 1 }, some true)
    | (results, false) =>
      ({ sent with
        breakdowns := results.foldl (fun found item => found.set (breakdown, item.1) { item.2 with search := some made })
          sent.breakdowns }, some false)

/-- The loop over the pending kinds: none at the search cap or a failure, else the kinds that were truncated. -/
def searchKinds (start : Int) (count depth : Nat) : List WafKind → WafWindow → WafWindow × Option (List WafKind)
  | [], w => (w, some [])
  | kind :: pending, w =>
    if cfg.maxSearches ≤ w.searchesSent then ({ w with capped := true }, none)
    else
      match searchKind cfg provider w start count depth kind with
      | (w, none) => (w, none)
      | (w, some truncated) =>
        match searchKinds start count depth pending w with
        | (w, none) => (w, none)
        | (w, some more) => (w, some (if truncated then kind :: more else more))

def searchWafWindow (pending : List WafKind) (start : Int) (count depth : Nat) (w : WafWindow) : WafWindow :=
  if w.failure.isSome then w
  else
    match searchKinds cfg provider start count depth pending w with
    | (w, none) => w
    | (w, some truncated) =>
      -- a lone bucket is never truncated
      if h : truncated ≠ [] ∧ 2 ≤ count then
        let left := count / 2
        let w := searchWafWindow truncated start left (depth + 1) w
        if !w.capped && w.failure.isNone then
          searchWafWindow truncated (start + seconds (cfg.interval * left)) (count - left) (depth + 1) w
        else w
      else w
termination_by count
decreasing_by all_goals omega

/-! ### What is sent -/

/-- A search of one kind over `count` buckets, the `k`-th of its tick. -/
structure WafSentSearch where
  k : Nat
  kind : WafKind
  start : Int
  count : Nat
  depth : Nat

def WafSentSearch.span (e : WafSentSearch) : Span Int := windowSpan cfg e.start e.count

def WafSentSearch.made (e : WafSentSearch) : WafSearchMeta := ⟨(e.span cfg).start, (e.span cfg).stop, e.count, e.depth⟩

/-- The searches that `searchKinds` sends, in order. -/
def kindsSent (start : Int) (count depth : Nat) : List WafKind → WafWindow → List WafSentSearch
  | [], _ => []
  | kind :: pending, w =>
    if cfg.maxSearches ≤ w.searchesSent then []
    else
      ⟨w.searchesSent, kind, start, count, depth⟩ ::
        match searchKind cfg provider w start count depth kind with
        | (_, none) => []
        | (w, some _) => kindsSent start count depth pending w

/-- The searches that `searchWafWindow` sends, in order. -/
def windowSent (pending : List WafKind) (start : Int) (count depth : Nat) (w : WafWindow) : List WafSentSearch :=
  if w.failure.isSome then []
  else
    kindsSent cfg provider start count depth pending w ++
      match searchKinds cfg provider start count depth pending w with
      | (_, none) => []
      | (w, some truncated) =>
        if _h : truncated ≠ [] ∧ 2 ≤ count then
          let left := count / 2
          let w' := searchWafWindow cfg provider truncated start left (depth + 1) w
          windowSent truncated start left (depth + 1) w ++
            if !w'.capped && w'.failure.isNone then
              windowSent truncated (start + seconds (cfg.interval * left)) (count - left) (depth + 1) w'
            else []
        else []
termination_by count
decreasing_by all_goals omega

/-- The searches of `_fetch_window`. -/
def fetchSent : List Int → List WafSentSearch
  | [] => []
  | first :: rest => windowSent cfg provider cfg.kinds first (first :: rest).length 0 {}

def WafWindow.fetched (w : WafWindow) (start : Int) : Option WafFetched := do
  let (batch, search) ← w.observations.get? start
  let breakdowns ← cfg.plannedBreakdowns.mapM (fun breakdown =>
    (w.breakdowns.get? (breakdown, start)).map (fun result => (breakdown, result)))
  return { batch, breakdowns, search }

/-- `_fetch_window`, with what it sent and whether it reached the cap. -/
structure WindowFetch where
  window : WafWindow := {}
  buckets : Dict Int WafFetched := []

def fetchWafWindow : List Int → Except ProviderError WindowFetch
  | [] => .ok {}
  | first :: rest =>
    let intervals := first :: rest
    let w := searchWafWindow cfg provider cfg.kinds first intervals.length 0 {}
    match w.failure, w.observations.get? first with
    | some e, none => .error e
    | _, _ =>
      .ok {
        window := w
        buckets := intervals.filterMap (fun start => (w.fetched cfg start).map (fun fetched => (start, fetched))) }

end Window

/-! ## The tick -/

/-- What a tick reads besides the watermark. `permit` says that the source's permit was granted, or that there is no
budget. -/
structure WafCollectTick where
  now : Int
  cadenceSeconds : Nat
  enabled : Bool := true
  monitored : Bool := true
  acquired : Bool := true
  permit : Bool := true
  provider : WafLiveProvider

structure WafCollectReport where
  watermark : CollectionWatermark
  /-- the buckets that were due, and those that were written -/
  due : List Int := []
  collected : List Int := []
  searchesSent : Nat := 0
  splits : Nat := 0
  searchCapReached : Bool := false

variable (cfg : WafCollectConfig)

def WafCollectTick.run (tick : WafCollectTick) (buckets : Dict Int WafFetched) : CollectRun where
  now := tick.now
  interval := cfg.interval
  interval_pos := cfg.interval_pos
  maxIntervals := max 1 (tick.cadenceSeconds / cfg.interval.toNat) + cfg.maxBackfillIntervals
  completed := fun start => (buckets.get? start).isSome

def WafCollectTick.searches (tick : WafCollectTick) : Bool := tick.enabled && tick.monitored && tick.acquired && tick.permit

def wafCollect (watermark : CollectionWatermark) (tick : WafCollectTick) : Except ProviderError WafCollectReport := do
  if !tick.enabled || !tick.monitored || !tick.acquired then return { watermark }
  let due := intervalsToCollect (tick.run cfg []) watermark
  let found ← if tick.permit then fetchWafWindow cfg tick.provider due else pure {}
  let run := tick.run cfg found.buckets
  let collected := bucketsWritten run watermark
  let cleared : Bool := !collected.isEmpty && found.window.failure.isNone || due.isEmpty
  let written := advanced run watermark
  return {
    watermark := { written with
      consecutiveFailures := if cleared then 0 else watermark.consecutiveFailures
      lastError := if cleared then none else watermark.lastError }
    due
    collected
    searchesSent := found.window.searchesSent
    splits := found.window.splits
    searchCapReached := found.window.capped }

abbrev WafCollectTaken := Taken CollectionWatermark WafCollectTick WafCollectReport

end QRadarDashboard.Collectors
