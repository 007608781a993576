import QRadarDashboard.Lib.Intervals
import Mathlib.Data.List.MinMax
import Mathlib.Data.Prod.Lex

/-!
# The cron floor (`app/services/search_scheduler.py`)

The gaps between successive fires up to a horizon, fire by fire (`walkCronFloor`) or a whole day at a time where the
day has one UTC offset (`FloorScan.run`).

Instants and wall times are counted in microseconds, days from the epoch. What the trigger returns after an instant is
taken to depend on the instant only, so that the fold and `_seed` play no part. The caches are left out.
-/

namespace QRadarDashboard.Services

open Lib

def secondSpan : Int := 1000000

def minuteSpan : Int := 60 * secondSpan

def daySpan : Int := 1440 * minuteSpan

structure TimeZone where
  /-- the offset in force at an instant -/
  offsetAt : Int → Int
  /-- `utcoffset()` of a wall time with fold 0 -/
  wallOffset : Int → Int

/-- The parts of a `CronTrigger` that are read: the values that a field of the clock allows, and the days of a field of
the date. -/
structure CronTrigger where
  timezone : TimeZone
  second : Nat → Bool
  minute : Nat → Bool
  hour : Nat → Bool
  dateFields : List (Int → Bool)
  getNextFireTime : Option Int → Int → Option Int

inductive CronFloorReason where
  | invalid
  | noFutureFire
  | tooClose (previous next : Int)

structure CronFloorCheck where
  accepted : Bool
  reason : Option CronFloorReason
  firesChecked : Nat
  minGap : Option Int

/-- `if shortest is None or gap < shortest: shortest = gap` -/
def shorter (shortest : Option Int) (gap : Int) : Option Int :=
  match shortest with
  | none => some gap
  | some s => if gap < s then some gap else some s

/-- `_walk_cron_floor`, with room for the gaps up to the limit. -/
def walkCronFloor (trigger : CronTrigger) (horizonEnd minGap : Int) :
    Nat → Int → Nat → Option Int → CronFloorCheck
  | 0, _, checked, shortest => ⟨true, none, checked, shortest⟩
  | room + 1, previous, checked, shortest =>
    match trigger.getNextFireTime (some previous) previous with
    | none => ⟨true, none, checked, shortest⟩
    | some next =>
      let gap := next - previous
      if gap < minGap then ⟨false, some (.tooClose previous next), checked + 1, shorter shortest gap⟩
      else if horizonEnd ≤ next then ⟨true, none, checked + 1, shorter shortest gap⟩
      else walkCronFloor trigger horizonEnd minGap room next (checked + 1) (shorter shortest gap)

def CronTrigger.wallMinutes (trigger : CronTrigger) : Option (List Nat) :=
  if (List.range 60).filter trigger.second = [0] then
    some ((List.range 24).flatMap (fun hour =>
      if trigger.hour hour then ((List.range 60).filter trigger.minute).map (fun minute => hour * 60 + minute)
      else []))
  else none

def CronTrigger.dayAllowed (trigger : CronTrigger) (day : Int) : Bool :=
  trigger.dateFields.all (fun field => field day)

def TimeZone.midnightUtc (tz : TimeZone) (day : Int) : Int :=
  day * daySpan - tz.wallOffset (day * daySpan)

def TimeZone.dayIsStable (tz : TimeZone) (day : Int) : Bool :=
  let start := day * daySpan
  let startOff := tz.wallOffset start
  if tz.wallOffset (start + 12 * 60 * minuteSpan) ≠ startOff ∨
      tz.wallOffset (start + 23 * 60 * minuteSpan) ≠ startOff then false
  else decide (tz.midnightUtc (day + 1) - tz.midnightUtc day = daySpan)

structure FloorCursor where
  prevUtc : Int
  day : Int
  index : Nat
  checked : Nat := 0
  shortest : Option Int := none

def FloorCursor.note (c : FloorCursor) (gap : Int) : FloorCursor :=
  { c with checked := c.checked + 1, shortest := shorter c.shortest gap }

def FloorCursor.noteMany (c : FloorCursor) (gaps : List Int) : FloorCursor :=
  match gaps.min? with
  | none => c
  | some smallest =>
    { c with checked := c.checked + gaps.length, shortest := shorter c.shortest smallest }

/-- What `_CronFloorScan` is built from, and the minutes its `run` begins by reading. -/
structure FloorScan where
  trigger : CronTrigger
  horizonEnd : Int
  limit : Nat
  minGap : Int
  minutes : List Nat

namespace FloorScan

variable (scan : FloorScan)

def fireUtc (day : Int) (index : Nat) : Int :=
  scan.trigger.timezone.midnightUtc day + scan.minutes.getD index 0 * minuteSpan

def intra : List Int :=
  (List.range (scan.minutes.length - 1)).map
    (fun i => ((scan.minutes.getD (i + 1) 0 : Int) - scan.minutes.getD i 0) * minuteSpan)

/-- `_suffix_minima` at one place. -/
def suffixMin (start : Nat) : Option Int := (scan.intra.drop start).min?

def accept (c : FloorCursor) : CronFloorCheck := ⟨true, none, c.checked, c.shortest⟩

def fail (c : FloorCursor) (previous next : Int) : CronFloorCheck :=
  ⟨false, some (.tooClose previous next), c.checked, c.shortest⟩

/-- `_decide`: a finished check, or the cursor with the gap counted. -/
def decideGap (c : FloorCursor) (next : Int) : Except CronFloorCheck FloorCursor :=
  let gap := next - c.prevUtc
  let noted := c.note gap
  if gap < scan.minGap then .error (fail noted c.prevUtc next)
  else if scan.horizonEnd ≤ next ∨ scan.limit ≤ noted.checked then .error (accept noted)
  else .ok { noted with prevUtc := next }

def dayOffset (day : Int) : Int := scan.trigger.timezone.wallOffset (day * daySpan + 12 * 60 * minuteSpan)

def crossIsLinear (start finish : Int) : Bool :=
  let tz := scan.trigger.timezone
  if ¬ tz.dayIsStable start ∨ ¬ tz.dayIsStable finish then false
  else if scan.dayOffset finish ≠ scan.dayOffset start then false
  else (List.range (finish - start - 1).toNat).all (fun i =>
    let day := start + 1 + i
    tz.dayIsStable day && decide (scan.dayOffset day = scan.dayOffset start))

def nextAllowed (after until_ : Int) : Option Int :=
  ((List.range (until_ - after).toNat).map (fun (i : Nat) => after + 1 + i)).find? scan.trigger.dayAllowed

/-- The loop of `_first_gap_reaching_end`; the gap before `hi` is the one `found` names, if any. -/
def reachLoop (day : Int) (start : Nat) (lo hi : Nat) (found : Option Nat) : Option Nat :=
  if lo < hi then
    let mid := (lo + (hi - 1)) / 2
    if scan.horizonEnd ≤ scan.fireUtc day (start + 1 + mid) then reachLoop day start lo mid (some mid)
    else reachLoop day start (mid + 1) hi found
  else found
termination_by hi - lo
decreasing_by all_goals omega

def firstGapReachingEnd (day : Int) (start count : Nat) : Option Nat := scan.reachLoop day start 0 count none

inductive StopKind where
  | short | end | limit | day

def StopKind.priority : StopKind → Nat
  | .short => 0
  | .end => 1
  | .limit => 2
  | .day => 3

inductive DayOutcome where
  | finished (check : CronFloorCheck)
  | fallback
  | moved (c : FloorCursor)

/-- The stops of a day with `count` gaps left: the day's end, the limit, and a short gap or the horizon if
there is one. -/
def stopCandidates (count room : Nat) (shortAt reach : Option Nat) : List (Nat × StopKind) :=
  [(count - 1, .day), (room - 1, .limit)] ++ (shortAt.map (fun i => (i, StopKind.short))).toList ++
    (reach.map (fun i => (i, StopKind.end))).toList

/-- `min(candidates, key=..)`: the earliest stop, on one gap by priority. -/
def earliestStop (candidates : List (Nat × StopKind)) : Option (Nat × StopKind) :=
  candidates.argmin (fun item => toLex (item.1, item.2.priority))

def consumeStableDay (c : FloorCursor) : DayOutcome :=
  if scan.fireUtc c.day c.index ≠ c.prevUtc then .fallback
  else
    let remaining := scan.intra.drop c.index
    if remaining = [] then .moved c
    else
      let shortAt := if (scan.suffixMin c.index).any (fun smallest => smallest < scan.minGap) then
          remaining.findIdx? (fun gap => gap < scan.minGap)
        else none
      let reach := scan.firstGapReachingEnd c.day c.index remaining.length
      if scan.limit ≤ c.checked then .finished (accept c)
      else
        match earliestStop (stopCandidates remaining.length (scan.limit - c.checked) shortAt reach) with
        | none => .fallback
        | some (stop, kind) =>
          let noted := c.noteMany (remaining.take (stop + 1))
          match kind with
          | .short => .finished
              (fail noted (scan.fireUtc c.day (c.index + stop)) (scan.fireUtc c.day (c.index + stop + 1)))
          | .end | .limit => .finished (accept noted)
          | .day =>
            let last := scan.minutes.length - 1
            .moved { noted with index := last, prevUtc := scan.fireUtc c.day last }

def wallIndex (t : Int) : Option (Int × Nat) :=
  let wall := t + scan.trigger.timezone.offsetAt t
  if wall % minuteSpan = 0 then
    (scan.minutes.findIdx? (fun (minute : Nat) => (minute : Int) = wall % daySpan / minuteSpan)).map
      (fun index => (wall / daySpan, index))
  else none

-- `walkUntilStable` and `loop` end by this: a gap that is accepted was counted
theorem decideGap_ok {scan : FloorScan} {c c' next} (h : scan.decideGap c next = .ok c') :
    c' = { c.note (next - c.prevUtc) with prevUtc := next } ∧ scan.minGap ≤ next - c.prevUtc ∧
      next < scan.horizonEnd ∧ c.checked + 1 < scan.limit := by
  simp only [decideGap] at h
  split at h
  · cases h
  · split at h
    · cases h
    · rename_i hshort hstop
      cases h
      simp only [FloorCursor.note, not_or, not_le] at hstop
      exact ⟨rfl, not_lt.mp hshort, hstop⟩

/-- The cursor on a fire of a stable day that the linear map reaches, if `next` is one. -/
def landing (next : Int) : Option (Int × Nat) :=
  match scan.wallIndex next with
  | none => none
  | some (day, index) =>
    if scan.trigger.timezone.dayIsStable day then
      if scan.fireUtc day index = next then some (day, index) else none
    else none

def walkUntilStable (c : FloorCursor) : Except CronFloorCheck FloorCursor :=
  match scan.trigger.getNextFireTime (some c.prevUtc) c.prevUtc with
  | none => .error (accept c)
  | some next =>
    match _hdecide : scan.decideGap c next with
    | .error check => .error check
    | .ok c' =>
      match scan.landing next with
      | some (day, index) => .ok { c' with day, index }
      | none => walkUntilStable c'
termination_by scan.limit - c.checked
decreasing_by
  obtain ⟨rfl, -, -, hlimit⟩ := decideGap_ok _hdecide
  simp only [FloorCursor.note]
  omega

def oneTriggerStep (c : FloorCursor) : Option CronFloorCheck :=
  match scan.trigger.getNextFireTime (some c.prevUtc) c.prevUtc with
  | none => some (accept c)
  | some next =>
    if next < scan.horizonEnd then none
    else match scan.decideGap c next with
      | .error check => some check
      | .ok _ => none

def searchUntil : Int :=
  (scan.horizonEnd + scan.trigger.timezone.offsetAt scan.horizonEnd) / daySpan + 1

-- `loop` ends by these
theorem walkUntilStable_ok {scan : FloorScan} {c c'} (h : scan.walkUntilStable c = .ok c') :
    c.checked < c'.checked ∧ c'.checked < scan.limit := by
  fun_induction FloorScan.walkUntilStable scan c with
  | case1 => cases h
  | case2 => cases h
  | case3 c next hnext c₁ hdecide day index hland =>
    cases h
    obtain ⟨rfl, -, -, hlimit⟩ := decideGap_ok hdecide
    exact ⟨by simp [FloorCursor.note], hlimit⟩
  | case4 c next hnext c₁ hdecide hland ih =>
    obtain ⟨rfl, -, -, -⟩ := decideGap_ok hdecide
    obtain ⟨hless, hlimit⟩ := ih h
    exact ⟨by simp only [FloorCursor.note] at hless; omega, hlimit⟩

theorem noteMany_checked_le (c : FloorCursor) (gaps : List Int) : c.checked ≤ (c.noteMany gaps).checked := by
  unfold FloorCursor.noteMany
  split <;> simp

theorem consumeStableDay_moved {scan : FloorScan} {c c'}
    (h : scan.consumeStableDay c = .moved c') : c.checked ≤ c'.checked := by
  simp only [consumeStableDay] at h
  split at h
  · cases h
  · split at h
    · cases h
      exact le_rfl
    · split at h
      · cases h
      · split at h
        · cases h
        · split at h <;> cases h
          exact noteMany_checked_le c _

/-- The loop of `run`. -/
def loop (walking : Bool) (c : FloorCursor) : Option CronFloorCheck :=
  if walking then
    match _hwalk : scan.walkUntilStable c with
    | .error check => some check
    | .ok c' => loop false c'
  else
    match _hday : scan.consumeStableDay c with
    | .finished check => some check
    | .fallback => none
    | .moved c' =>
      match scan.nextAllowed c'.day scan.searchUntil with
      | none => scan.oneTriggerStep c'
      | some nextDay =>
        if ¬ scan.crossIsLinear c'.day nextDay then loop true c'
        else match _hcross : scan.decideGap c' (scan.fireUtc nextDay 0) with
          | .error check => some check
          | .ok c'' => loop false { c'' with day := nextDay, index := 0 }
termination_by 2 * (scan.limit - c.checked) + (if walking then 0 else 1)
decreasing_by
  · have := walkUntilStable_ok _hwalk
    simp_all
    omega
  · have := consumeStableDay_moved _hday
    simp_all
    omega
  · have := consumeStableDay_moved _hday
    obtain ⟨rfl, -, -, hlimit⟩ := decideGap_ok _hcross
    simp_all [FloorCursor.note]
    omega

end FloorScan

/-- `_CronFloorScan(..).run()`; `firstUtc` is the first fire. -/
def CronTrigger.fastCronFloor (trigger : CronTrigger) (horizonEnd : Int) (limit : Nat) (minGap firstUtc : Int) :
    Option CronFloorCheck :=
  match trigger.wallMinutes with
  | none | some [] => none
  | some minutes =>
    let scan : FloorScan := ⟨trigger, horizonEnd, limit, minGap, minutes⟩
    match scan.wallIndex firstUtc with
    | none => none
    | some (day, index) =>
      let stable := trigger.timezone.dayIsStable day
      if stable ∧ scan.fireUtc day index ≠ firstUtc then none
      else scan.loop (!stable) { prevUtc := firstUtc, day, index }

def cronFloorSeconds : Int := 300

def cronFloorHorizon : Int := 366 * daySpan

def checkCronFloor (fromCrontab : String → String → Option CronTrigger) (cron timezone : String) (now : Int)
    (minSeconds : Int) (horizon : Int) (maxFires : Option Int) : Except String CronFloorCheck :=
  if minSeconds ≤ 0 then .error "min_seconds must be positive"
  else if horizon ≤ 0 then .error "horizon must be positive"
  else
    let defaultLimit := max 1 (horizon / secondSpan / minSeconds)
    let limit := maxFires.getD defaultLimit
    if limit < 1 then .error "max_fires must be positive"
    else match fromCrontab cron timezone with
      | none => .ok ⟨false, some .invalid, 0, none⟩
      | some trigger =>
        let horizonEnd := now + horizon
        match trigger.getNextFireTime none now with
        | none => .ok ⟨false, some .noFutureFire, 0, none⟩
        | some previous =>
          if horizonEnd ≤ previous then .ok ⟨true, none, 0, none⟩
          else
            let minGap := minSeconds * secondSpan
            .ok ((trigger.fastCronFloor horizonEnd limit.toNat minGap previous).getD
              (walkCronFloor trigger horizonEnd minGap limit.toNat previous 0 none))

end QRadarDashboard.Services
