import QRadarDashboard.Services.CronFloor
import Mathlib.Data.List.GetD
import Mathlib.Tactic.Linarith

/-!
# The whole-day scan is the walk
-/

namespace QRadarDashboard.Services

open Lib

/-- What is relied on of `CronTrigger`: the first fire from `now` on, the least fire after a given one, and on a stable
local day the fires are midnight plus the allowed minutes, if the day is allowed. -/
structure CronTrigger.Lawful (trigger : CronTrigger) (fires : Set Int) : Prop where
  first : ∀ now, match trigger.getNextFireTime none now with
    | some f => IsLeast {x | x ∈ fires ∧ now ≤ x} f
    | none => ∀ x ∈ fires, x < now
  next : ∀ previous, IsNext fires previous (trigger.getNextFireTime (some previous) previous)
  stable : ∀ day minutes, trigger.timezone.dayIsStable day = true → trigger.wallMinutes = some minutes →
    ∀ t, trigger.timezone.midnightUtc day ≤ t → t < trigger.timezone.midnightUtc day + daySpan →
      (t ∈ fires ↔ trigger.dayAllowed day = true ∧
        ∃ minute ∈ minutes, t = trigger.timezone.midnightUtc day + (minute : Int) * minuteSpan)

/-! ## The minutes of a day -/

section Minutes

variable {trigger : CronTrigger} {minutes : List Nat}

theorem wallMinutes_lt (h : trigger.wallMinutes = some minutes) {m} (hm : m ∈ minutes) : m < 1440 := by
  simp only [CronTrigger.wallMinutes] at h
  split at h
  · cases h
    obtain ⟨hour, hhour, hm⟩ := List.mem_flatMap.mp hm
    split at hm
    · obtain ⟨minute, hminute, rfl⟩ := List.mem_map.mp hm
      have hlt := List.mem_range.mp (List.mem_filter.mp hminute).1
      have hhour := List.mem_range.mp hhour
      omega
    · cases hm
  · cases h

theorem wallMinutes_sorted (h : trigger.wallMinutes = some minutes) : minutes.Pairwise (· < ·) := by
  simp only [CronTrigger.wallMinutes] at h
  split at h
  · cases h
    refine List.pairwise_flatMap.mpr ⟨?_, ?_⟩
    · intro hour _
      split
      · refine List.pairwise_map.mpr ((List.pairwise_lt_range.filter _).imp ?_)
        intro a b hab
        omega
      · exact List.Pairwise.nil
    · refine List.pairwise_lt_range.imp ?_
      intro h₁ h₂ hlt a ha b hb
      have hbound : ∀ {hour x : Nat}, x ∈ (if trigger.hour hour = true then
          ((List.range 60).filter trigger.minute).map (fun minute => hour * 60 + minute) else []) →
          hour * 60 ≤ x ∧ x < hour * 60 + 60 := by
        intro hour x hx
        split at hx
        · obtain ⟨minute, hminute, rfl⟩ := List.mem_map.mp hx
          have := List.mem_range.mp (List.mem_filter.mp hminute).1
          omega
        · cases hx
      have ha := hbound ha
      have hb := hbound hb
      omega
  · cases h

end Minutes

namespace FloorScan

/-! ## Counting many gaps -/

section NoteMany

theorem foldl_shorter (s : Int) (gaps : List Int) : gaps.foldl shorter (some s) = some (gaps.foldl min s) := by
  induction gaps generalizing s with
  | nil => rfl
  | cons g gaps ih =>
    simp only [List.foldl_cons, shorter]
    split
    · rw [ih, min_eq_right (by omega)]
    · rw [ih, min_eq_left (by omega)]

theorem foldl_note (c : FloorCursor) (gaps : List Int) :
    gaps.foldl FloorCursor.note c =
      { c with checked := c.checked + gaps.length, shortest := gaps.foldl shorter c.shortest } := by
  induction gaps generalizing c with
  | nil => rfl
  | cons g gaps ih =>
    rw [List.foldl_cons, ih]
    simp only [FloorCursor.note, List.length_cons, List.foldl_cons]
    congr 1
    omega

theorem noteMany_eq_foldl (c : FloorCursor) (gaps : List Int) : c.noteMany gaps = gaps.foldl FloorCursor.note c := by
  rw [foldl_note]
  unfold FloorCursor.noteMany
  cases gaps with
  | nil => rfl
  | cons g gaps =>
    simp only [List.min?_cons']
    congr 1
    cases c.shortest with
    | none =>
      simp only [List.foldl_cons, shorter]
      rw [foldl_shorter]
    | some s =>
      have hassoc : gaps.foldl min (min s g) = min s (gaps.foldl min g) := List.foldl_assoc
      rw [foldl_shorter, List.foldl_cons, hassoc]
      simp only [shorter]
      split
      · rw [min_eq_right (by omega)]
      · rw [min_eq_left (by omega)]

theorem noteMany_take_succ {gaps : List Int} {j} (h : j < gaps.length) (c : FloorCursor) :
    c.noteMany (gaps.take (j + 1)) = (c.noteMany (gaps.take j)).note gaps[j] := by
  rw [noteMany_eq_foldl, noteMany_eq_foldl, List.take_succ_eq_append_getElem h, List.foldl_append]
  rfl

end NoteMany

/-! ## The earliest stop -/

section Stop

variable {count room stop : Nat} {shortAt reach : Option Nat} {kind : StopKind}

theorem earliestStop_spec (h : earliestStop (stopCandidates count room shortAt reach) = some (stop, kind)) :
    (stop, kind) ∈ stopCandidates count room shortAt reach ∧
      ∀ item ∈ stopCandidates count room shortAt reach,
        stop < item.1 ∨ stop = item.1 ∧ kind.priority ≤ item.2.priority := by
  refine ⟨List.argmin_mem h, ?_⟩
  intro item hitem
  have hle := List.le_of_mem_argmin hitem h
  rcases Prod.Lex.le_iff.mp hle with hlt | ⟨heq, hle⟩
  · exact .inl hlt
  · exact .inr ⟨heq, hle⟩

theorem mem_stopCandidates {item} : item ∈ stopCandidates count room shortAt reach ↔
    item = (count - 1, .day) ∨ item = (room - 1, .limit) ∨ (∃ i, shortAt = some i ∧ item = (i, .short)) ∨
      ∃ i, reach = some i ∧ item = (i, .end) := by
  cases shortAt <;> cases reach <;> grind [stopCandidates]

theorem earliestStop_le (h : earliestStop (stopCandidates count room shortAt reach) = some (stop, kind)) :
    stop ≤ count - 1 ∧ stop ≤ room - 1 ∧ (∀ i, shortAt = some i → stop ≤ i) ∧ ∀ i, reach = some i → stop ≤ i := by
  have hle : ∀ item ∈ stopCandidates count room shortAt reach, stop ≤ item.1 := by
    intro item hitem
    rcases (earliestStop_spec h).2 item hitem with hlt | ⟨heq, -⟩ <;> omega
  refine ⟨hle (_, .day) (mem_stopCandidates.mpr (by simp)), hle (_, .limit) (mem_stopCandidates.mpr (by simp)),
    fun i hi => hle (i, .short) (mem_stopCandidates.mpr (by simp [hi])),
    fun i hi => hle (i, .end) (mem_stopCandidates.mpr (by simp [hi]))⟩

theorem earliestStop_priority (h : earliestStop (stopCandidates count room shortAt reach) = some (stop, kind))
    (other : StopKind) (hlt : other.priority < kind.priority) :
    (stop, other) ∉ stopCandidates count room shortAt reach := by
  intro hmem
  rcases (earliestStop_spec h).2 _ hmem with hstop | ⟨-, hle⟩
  · exact lt_irrefl stop hstop
  · exact absurd hlt (not_lt.mpr hle)

theorem earliestStop_kind (h : earliestStop (stopCandidates count room shortAt reach) = some (stop, kind)) :
    match kind with
    | .short => shortAt = some stop
    | .end => reach = some stop ∧ shortAt ≠ some stop
    | .limit => stop = room - 1 ∧ reach ≠ some stop ∧ shortAt ≠ some stop
    | .day => stop = count - 1 ∧ stop ≠ room - 1 ∧ reach ≠ some stop ∧ shortAt ≠ some stop := by
  have hmem := mem_stopCandidates.mp (earliestStop_spec h).1
  have hshort : StopKind.short.priority < kind.priority → shortAt ≠ some stop := fun hlt hs =>
    earliestStop_priority h .short hlt (mem_stopCandidates.mpr (by simp [hs]))
  have hend : StopKind.end.priority < kind.priority → reach ≠ some stop := fun hlt hr =>
    earliestStop_priority h .end hlt (mem_stopCandidates.mpr (by simp [hr]))
  have hlimit : StopKind.limit.priority < kind.priority → stop ≠ room - 1 := fun hlt hr =>
    earliestStop_priority h .limit hlt (mem_stopCandidates.mpr (by simp [hr]))
  cases kind with
  | short => simpa using hmem
  | «end» => exact ⟨by simpa using hmem, hshort (by decide)⟩
  | limit => exact ⟨by simpa using hmem, hend (by decide), hshort (by decide)⟩
  | day => exact ⟨by simpa using hmem, hlimit (by decide), hend (by decide), hshort (by decide)⟩

end Stop

/-! ## The fires of stable days -/

structure Reads (scan : FloorScan) (fires : Set Int) : Prop where
  lawful : scan.trigger.Lawful fires
  minutes : scan.trigger.wallMinutes = some scan.minutes
  nonempty : 0 < scan.minutes.length

section Fires

variable {scan : FloorScan} {fires : Set Int} (hr : scan.Reads fires) {day : Int} {i j : Nat}
include hr

theorem Reads.minute_lt (hij : i < j) (hj : j < scan.minutes.length) :
    scan.minutes.getD i 0 < scan.minutes.getD j 0 := by
  have hi : i < scan.minutes.length := hij.trans hj
  rw [List.getD_eq_getElem _ _ hi, List.getD_eq_getElem _ _ hj]
  exact List.pairwise_iff_getElem.mp (wallMinutes_sorted hr.minutes) i j hi hj hij

theorem Reads.fireUtc_lt (hij : i < j) (hj : j < scan.minutes.length) : scan.fireUtc day i < scan.fireUtc day j := by
  have := hr.minute_lt hij hj
  simp only [fireUtc, minuteSpan, secondSpan]
  omega

theorem Reads.fireUtc_le (hij : i ≤ j) (hj : j < scan.minutes.length) : scan.fireUtc day i ≤ scan.fireUtc day j := by
  rcases hij.lt_or_eq with hlt | rfl
  · exact (hr.fireUtc_lt hlt hj).le
  · exact le_rfl

theorem Reads.fireUtc_bounds (day : Int) (hi : i < scan.minutes.length) :
    scan.trigger.timezone.midnightUtc day ≤ scan.fireUtc day i ∧
      scan.fireUtc day i < scan.trigger.timezone.midnightUtc day + daySpan := by
  have hlt := wallMinutes_lt hr.minutes (List.getElem_mem hi)
  simp only [fireUtc, List.getD_eq_getElem _ _ hi, minuteSpan, daySpan, secondSpan]
  omega

theorem Reads.mem_fires (hstable : scan.trigger.timezone.dayIsStable day = true) {t}
    (hlow : scan.trigger.timezone.midnightUtc day ≤ t) (hhigh : t < scan.trigger.timezone.midnightUtc day + daySpan) :
    t ∈ fires ↔ scan.trigger.dayAllowed day = true ∧ ∃ i, i < scan.minutes.length ∧ t = scan.fireUtc day i := by
  rw [hr.lawful.stable day scan.minutes hstable hr.minutes t hlow hhigh]
  refine and_congr_right fun _ => ⟨?_, ?_⟩
  · rintro ⟨minute, hminute, rfl⟩
    obtain ⟨i, hi, rfl⟩ := List.mem_iff_getElem.mp hminute
    exact ⟨i, hi, by rw [fireUtc, List.getD_eq_getElem _ _ hi]⟩
  · rintro ⟨i, hi, rfl⟩
    exact ⟨scan.minutes[i], List.getElem_mem hi, by rw [fireUtc, List.getD_eq_getElem _ _ hi]⟩

theorem Reads.allowed_of_mem (hstable : scan.trigger.timezone.dayIsStable day = true) (hi : i < scan.minutes.length)
    (hmem : scan.fireUtc day i ∈ fires) : scan.trigger.dayAllowed day = true := by
  obtain ⟨hlow, hhigh⟩ := hr.fireUtc_bounds day hi
  exact ((hr.mem_fires hstable hlow hhigh).mp hmem).1

theorem Reads.fireUtc_mem (hstable : scan.trigger.timezone.dayIsStable day = true)
    (hallowed : scan.trigger.dayAllowed day = true) (hi : i < scan.minutes.length) : scan.fireUtc day i ∈ fires := by
  obtain ⟨hlow, hhigh⟩ := hr.fireUtc_bounds day hi
  exact (hr.mem_fires hstable hlow hhigh).mpr ⟨hallowed, i, hi, rfl⟩

theorem Reads.next_within (hstable : scan.trigger.timezone.dayIsStable day = true)
    (hallowed : scan.trigger.dayAllowed day = true) (hi : i + 1 < scan.minutes.length) :
    IsNext fires (scan.fireUtc day i) (some (scan.fireUtc day (i + 1))) := by
  refine isNext_of_gap (hr.fireUtc_mem hstable hallowed hi) (hr.fireUtc_lt (by omega) hi) ?_
  intro x hx hlt
  by_contra hbefore
  rw [not_le] at hbefore
  have hlow := (hr.fireUtc_bounds day (by omega : i < scan.minutes.length)).1
  have hhigh := (hr.fireUtc_bounds day hi).2
  obtain ⟨-, k, hk, rfl⟩ := (hr.mem_fires hstable (by omega) (by omega)).mp hx
  rcases Nat.lt_or_ge i k with hik | hki
  · exact absurd hbefore (not_lt.mpr (hr.fireUtc_le hik hk))
  · exact absurd hlt (not_lt.mpr (hr.fireUtc_le hki (by omega)))

omit hr in
theorem midnightUtc_succ {tz : TimeZone} (h : tz.dayIsStable day = true) :
    tz.midnightUtc (day + 1) = tz.midnightUtc day + daySpan := by
  simp only [TimeZone.dayIsStable] at h
  split at h
  · cases h
  · have := of_decide_eq_true h
    omega

theorem Reads.quiet (n : Nat)
    (hdays : ∀ k < n, scan.trigger.timezone.dayIsStable (day + k) = true ∧ scan.trigger.dayAllowed (day + k) = false) :
    scan.trigger.timezone.midnightUtc (day + n) = scan.trigger.timezone.midnightUtc day + n * daySpan ∧
      ∀ x ∈ fires, scan.trigger.timezone.midnightUtc day ≤ x →
        scan.trigger.timezone.midnightUtc (day + n) ≤ x := by
  induction n with
  | zero => simp
  | succ n ih =>
    obtain ⟨hmid, hquiet⟩ := ih (fun k hk => hdays k (by omega))
    obtain ⟨hstable, hdenied⟩ := hdays n (by omega)
    have hsucc := midnightUtc_succ hstable
    have hcast : day + ((n + 1 : Nat) : Int) = day + n + 1 := by omega
    rw [hcast, hsucc, hmid]
    refine ⟨by push_cast; ring, ?_⟩
    intro x hx hlow
    by_contra hbefore
    have hlate := hquiet x hx hlow
    rw [hmid] at hlate
    have hfire := (hr.mem_fires hstable (by rw [hmid]; exact hlate) (by rw [hmid]; omega)).mp hx
    simp [hdenied] at hfire

theorem Reads.next_across (hstable : scan.trigger.timezone.dayIsStable day = true) {nextDay} (hafter : day < nextDay)
    (hnext : scan.trigger.timezone.dayIsStable nextDay = true) (hallowed : scan.trigger.dayAllowed nextDay = true)
    (hbetween : ∀ d, day < d → d < nextDay →
      scan.trigger.timezone.dayIsStable d = true ∧ scan.trigger.dayAllowed d = false) :
    IsNext fires (scan.fireUtc day (scan.minutes.length - 1)) (some (scan.fireUtc nextDay 0)) := by
  have hpos := hr.nonempty
  obtain ⟨n, rfl⟩ : ∃ n : Nat, nextDay = day + 1 + n := ⟨(nextDay - day - 1).toNat, by omega⟩
  obtain ⟨hmid, hquiet⟩ := hr.quiet n (fun k hk => hbetween (day + 1 + k) (by omega) (by omega))
  have hsucc := midnightUtc_succ hstable
  obtain ⟨-, hlast⟩ := hr.fireUtc_bounds day (by omega : scan.minutes.length - 1 < _)
  obtain ⟨hfirst, hfirst'⟩ := hr.fireUtc_bounds (day + 1 + n) hpos
  have hspan : 0 ≤ (n : Int) * daySpan := by simp only [daySpan, minuteSpan, secondSpan]; omega
  refine isNext_of_gap (hr.fireUtc_mem hnext hallowed hpos) (by omega) ?_
  intro x hx hlt
  have hlater : scan.trigger.timezone.midnightUtc (day + 1) ≤ x := by
    by_contra hsame
    obtain ⟨hlow, -⟩ := hr.fireUtc_bounds day (by omega : scan.minutes.length - 1 < _)
    obtain ⟨-, k, hk, rfl⟩ := (hr.mem_fires hstable (by omega) (by omega)).mp hx
    exact absurd hlt (not_lt.mpr (hr.fireUtc_le (by omega) (by omega)))
  by_contra hbefore
  have hlate := hquiet x hx hlater
  obtain ⟨-, k, hk, rfl⟩ := (hr.mem_fires hnext (by omega) (by omega)).mp hx
  exact hbefore (hr.fireUtc_le (Nat.zero_le k) hk)

end Fires

/-! ## The walk from a cursor -/

section Walk

variable {scan : FloorScan} {fires : Set Int} {c c' : FloorCursor} {next : Int}

def walkFrom (scan : FloorScan) (c : FloorCursor) : CronFloorCheck :=
  walkCronFloor scan.trigger scan.horizonEnd scan.minGap (scan.limit - c.checked) c.prevUtc c.checked c.shortest

theorem Reads.getNext (hr : scan.Reads fires) {t o} (h : IsNext fires t o) :
    scan.trigger.getNextFireTime (some t) t = o :=
  (hr.lawful.next t).unique h

theorem Reads.walkFrom_none (hr : scan.Reads fires) (h : IsNext fires c.prevUtc none) : scan.walkFrom c = accept c := by
  unfold walkFrom
  cases scan.limit - c.checked with
  | zero => rfl
  | succ room => simp only [walkCronFloor, hr.getNext h, accept]

theorem Reads.walkFrom_some (hr : scan.Reads fires) (hc : c.checked < scan.limit)
    (h : IsNext fires c.prevUtc (some next)) :
    scan.walkFrom c = match scan.decideGap c next with
      | .error check => check
      | .ok c' => scan.walkFrom c' := by
  obtain ⟨room, hroom⟩ : ∃ room, scan.limit - c.checked = room + 1 := ⟨_, (Nat.succ_pred (by omega)).symm⟩
  simp only [walkFrom, hroom, walkCronFloor, hr.getNext h, decideGap, FloorCursor.note]
  split
  · rfl
  · split
    · rename_i hend
      simp [hend, accept]
    · rename_i hend
      by_cases hlimit : scan.limit ≤ c.checked + 1
      · have hzero : room = 0 := by omega
        simp [hlimit, hzero, walkCronFloor, accept]
      · have hleft : scan.limit - (c.checked + 1) = room := by omega
        simp [hend, hlimit, hleft]

theorem Reads.walkFrom_error (hr : scan.Reads fires) (hc : c.checked < scan.limit)
    (h : IsNext fires c.prevUtc (some next)) {check} (hd : scan.decideGap c next = .error check) :
    scan.walkFrom c = check := by
  rw [hr.walkFrom_some hc h, hd]

theorem Reads.walkFrom_ok (hr : scan.Reads fires) (hc : c.checked < scan.limit) (h : IsNext fires c.prevUtc (some next))
    (hd : scan.decideGap c next = .ok c') : scan.walkFrom c = scan.walkFrom c' := by
  rw [hr.walkFrom_some hc h, hd]

theorem decideGap_short (hgap : next - c.prevUtc < scan.minGap) :
    scan.decideGap c next = .error (fail (c.note (next - c.prevUtc)) c.prevUtc next) := by
  simp only [decideGap, if_pos hgap]

theorem decideGap_stops (hgap : scan.minGap ≤ next - c.prevUtc)
    (hstop : scan.horizonEnd ≤ next ∨ scan.limit ≤ (c.note (next - c.prevUtc)).checked) :
    scan.decideGap c next = .error (accept (c.note (next - c.prevUtc))) := by
  simp only [decideGap, if_neg (not_lt.mpr hgap), if_pos hstop]

theorem decideGap_goes (hgap : scan.minGap ≤ next - c.prevUtc) (hend : next < scan.horizonEnd)
    (hlimit : c.checked + 1 < scan.limit) :
    scan.decideGap c next = .ok { c.note (next - c.prevUtc) with prevUtc := next } := by
  have hshort : ¬ next - c.prevUtc < scan.minGap := by omega
  have hstop : ¬ (scan.horizonEnd ≤ next ∨ scan.limit ≤ (c.note (next - c.prevUtc)).checked) := by
    simp only [FloorCursor.note]
    omega
  simp only [decideGap, if_neg hshort, if_neg hstop]

end Walk

/-! ## One stable day -/

section Day

variable {scan : FloorScan} {fires : Set Int} (hr : scan.Reads fires) {c c' : FloorCursor}
include hr

omit hr in
@[simp] theorem length_intra : scan.intra.length = scan.minutes.length - 1 := by
  simp [intra]

omit hr in
theorem getElem_intra (day : Int) {i} (hi : i < scan.intra.length) :
    scan.intra[i] = scan.fireUtc day (i + 1) - scan.fireUtc day i := by
  simp only [intra, List.getElem_map, List.getElem_range, fireUtc]
  ring

def afterGaps (scan : FloorScan) (c : FloorCursor) (j : Nat) : FloorCursor :=
  { c.noteMany ((scan.intra.drop c.index).take j) with
    index := c.index + j, prevUtc := scan.fireUtc c.day (c.index + j) }

omit hr in
@[simp] theorem afterGaps_checked {j} (hj : j ≤ (scan.intra.drop c.index).length) :
    (scan.afterGaps c j).checked = c.checked + j := by
  simp only [afterGaps, noteMany_eq_foldl, foldl_note, List.length_take]
  omega

omit hr in
theorem afterGaps_succ {j} (hj : j < (scan.intra.drop c.index).length) :
    scan.afterGaps c (j + 1) =
      { (scan.afterGaps c j).note ((scan.intra.drop c.index)[j]) with
        index := c.index + (j + 1), prevUtc := scan.fireUtc c.day (c.index + (j + 1)) } := by
  simp only [afterGaps, noteMany_take_succ hj, FloorCursor.note]

omit hr in
theorem remaining_getElem {j} (hj : j < (scan.intra.drop c.index).length) :
    (scan.intra.drop c.index)[j] = scan.fireUtc c.day (c.index + (j + 1)) - scan.fireUtc c.day (c.index + j) := by
  rw [List.getElem_drop, getElem_intra c.day]
  rfl

theorem Reads.walkFrom_afterGaps (hstable : scan.trigger.timezone.dayIsStable c.day = true)
    (hallowed : scan.trigger.dayAllowed c.day = true) (hprev : scan.fireUtc c.day c.index = c.prevUtc)
    (j : Nat) (hj : j ≤ (scan.intra.drop c.index).length)
    (hgap : ∀ i (hi : i < (scan.intra.drop c.index).length), i < j → scan.minGap ≤ (scan.intra.drop c.index)[i])
    (hend : ∀ i, i < j → scan.fireUtc c.day (c.index + (i + 1)) < scan.horizonEnd)
    (hlimit : c.checked + j < scan.limit) : scan.walkFrom c = scan.walkFrom (scan.afterGaps c j) := by
  induction j with
  | zero =>
    have hself : scan.afterGaps c 0 = c := by
      simp [afterGaps, noteMany_eq_foldl, hprev]
    rw [hself]
  | succ j ih =>
    have hlen : j < (scan.intra.drop c.index).length := by omega
    have hminutes : c.index + j + 1 < scan.minutes.length := by
      rw [List.length_drop, length_intra] at hlen
      omega
    rw [ih (by omega) (fun i hi hij => hgap i hi (by omega)) (fun i hij => hend i (by omega)) (by omega)]
    have hchecked : (scan.afterGaps c j).checked = c.checked + j := afterGaps_checked (by omega)
    have hdiff := remaining_getElem hlen
    have hwide : scan.minGap ≤ scan.fireUtc c.day (c.index + (j + 1)) - (scan.afterGaps c j).prevUtc :=
      hdiff ▸ hgap j hlen (by omega)
    have hnext : IsNext fires (scan.afterGaps c j).prevUtc (some (scan.fireUtc c.day (c.index + (j + 1)))) :=
      hr.next_within hstable hallowed hminutes
    have hgoes := decideGap_goes hwide (hend j (by omega)) (by omega)
    rw [hr.walkFrom_ok (by omega) hnext hgoes, afterGaps_succ hlen, hdiff]
    rfl

structure ReachesAt (scan : FloorScan) (day : Int) (start count : Nat) (found : Option Nat) : Prop where
  before : ∀ i < found.getD count, scan.fireUtc day (start + (i + 1)) < scan.horizonEnd
  at_ : ∀ r, found = some r → r < count ∧ scan.horizonEnd ≤ scan.fireUtc day (start + (r + 1))

theorem Reads.reachLoop_spec {day start count lo hi found} (hcount : start + count < scan.minutes.length)
    (hle : lo ≤ hi) (hhi : hi ≤ count) (hlow : ∀ i < lo, scan.fireUtc day (start + (i + 1)) < scan.horizonEnd)
    (hfound : found.getD count = hi ∧ ∀ r, found = some r → r < count ∧
      scan.horizonEnd ≤ scan.fireUtc day (start + (r + 1))) :
    scan.ReachesAt day start count (scan.reachLoop day start lo hi found) := by
  fun_induction FloorScan.reachLoop scan day start lo hi found with
  | case1 lo hi found hlt mid hreach ih =>
    refine ih (by omega) (by omega) hlow ⟨rfl, ?_⟩
    rintro r ⟨rfl⟩
    refine ⟨by omega, ?_⟩
    have hindex : start + 1 + mid = start + (mid + 1) := by omega
    exact hindex ▸ hreach
  | case2 lo hi found hlt mid hreach ih =>
    refine ih (by omega) hhi (fun i hi' => ?_) hfound
    have hmono : scan.fireUtc day (start + (i + 1)) ≤ scan.fireUtc day (start + 1 + mid) :=
      hr.fireUtc_le (by omega) (by omega)
    omega
  | case3 lo hi found hlt =>
    have hmeet : lo = hi := by omega
    exact ⟨hfound.1 ▸ hmeet ▸ hlow, hfound.2⟩

theorem Reads.firstGapReachingEnd_spec (day : Int) {start count} (hcount : start + count < scan.minutes.length) :
    scan.ReachesAt day start count (scan.firstGapReachingEnd day start count) :=
  hr.reachLoop_spec hcount (Nat.zero_le _) le_rfl (by simp) ⟨rfl, by simp⟩

omit hr in
theorem shortAt_spec {gaps : List Int} {bound shortAt}
    (h : shortAt = if gaps.min?.any (fun smallest => smallest < bound) then
      gaps.findIdx? (fun gap => gap < bound) else none) :
    (∀ i (hi : i < gaps.length), (∀ s, shortAt = some s → i < s) → bound ≤ gaps[i]) ∧
      ∀ s, shortAt = some s → ∃ hs : s < gaps.length, gaps[s] < bound := by
  split at h
  · subst h
    refine ⟨fun i hi hbefore => ?_, fun s hs => ?_⟩
    · by_contra hshort
      cases hfind : gaps.findIdx? (fun gap => gap < bound) with
      | none =>
        have := List.findIdx?_eq_none_iff.mp hfind gaps[i] (List.getElem_mem hi)
        simp only [decide_eq_false_iff_not] at this
        omega
      | some s =>
        obtain ⟨hs, -, hfirst⟩ := List.findIdx?_eq_some_iff_getElem.mp hfind
        have hwide := hfirst i (hbefore s hfind)
        exact hwide (by simpa using hshort)
    · obtain ⟨hlt, hshort, -⟩ := List.findIdx?_eq_some_iff_getElem.mp hs
      exact ⟨hlt, by simpa using hshort⟩
  · rename_i hnone
    subst h
    refine ⟨fun i hi _ => ?_, by simp⟩
    cases hmin : gaps.min? with
    | none =>
      rw [List.min?_eq_none_iff] at hmin
      subst hmin
      cases hi
    | some m =>
      have hle := (List.min?_eq_some_iff.mp hmin).2 gaps[i] (List.getElem_mem hi)
      simp only [hmin, Option.any_some, decide_eq_true_eq] at hnone
      omega

def CountsDay (scan : FloorScan) (c : FloorCursor) : DayOutcome → Prop
  | .finished check => scan.walkFrom c = check
  | .fallback => True
  | .moved c' => scan.walkFrom c = scan.walkFrom c' ∧ c'.day = c.day ∧ c'.checked < scan.limit ∧
      c'.prevUtc = scan.fireUtc c.day (scan.minutes.length - 1)

theorem Reads.countsDay_stop (hstable : scan.trigger.timezone.dayIsStable c.day = true)
    (hallowed : scan.trigger.dayAllowed c.day = true) {stop} (hlen : stop < (scan.intra.drop c.index).length)
    (hlimit : c.checked + stop < scan.limit) (hbefore : scan.walkFrom c = scan.walkFrom (scan.afterGaps c stop)) :
    let noted := c.noteMany ((scan.intra.drop c.index).take (stop + 1))
    let next := scan.fireUtc c.day (c.index + (stop + 1))
    ((scan.intra.drop c.index)[stop] < scan.minGap →
      scan.walkFrom c = fail noted (scan.fireUtc c.day (c.index + stop)) next) ∧
    (scan.minGap ≤ (scan.intra.drop c.index)[stop] →
      (scan.horizonEnd ≤ next ∨ scan.limit ≤ c.checked + stop + 1) → scan.walkFrom c = accept noted) := by
  have hminutes : c.index + stop + 1 < scan.minutes.length := by
    rw [List.length_drop, length_intra] at hlen
    omega
  have hchecked : (scan.afterGaps c stop).checked = c.checked + stop := afterGaps_checked (by omega)
  have hnext : IsNext fires (scan.afterGaps c stop).prevUtc (some (scan.fireUtc c.day (c.index + (stop + 1)))) :=
    hr.next_within hstable hallowed hminutes
  have hdiff : (scan.intra.drop c.index)[stop] =
      scan.fireUtc c.day (c.index + (stop + 1)) - (scan.afterGaps c stop).prevUtc := remaining_getElem hlen
  rw [noteMany_take_succ hlen c, hdiff, hbefore]
  refine ⟨fun hshort => ?_, fun hwide hstop => ?_⟩
  · exact hr.walkFrom_error (by omega) hnext (decideGap_short hshort)
  · refine hr.walkFrom_error (by omega) hnext (decideGap_stops hwide ?_)
    simpa only [FloorCursor.note, hchecked] using hstop

theorem Reads.consumeStableDay_spec (hstable : scan.trigger.timezone.dayIsStable c.day = true)
    (hallowed : scan.trigger.dayAllowed c.day = true) (hindex : c.index < scan.minutes.length)
    (hc : c.checked < scan.limit) : scan.CountsDay c (scan.consumeStableDay c) := by
  simp only [consumeStableDay]
  split
  · trivial
  · rename_i hprev
    rw [ne_eq, not_not] at hprev
    split
    · rename_i hlast
      rw [List.drop_eq_nil_iff, length_intra] at hlast
      have hend : c.index = scan.minutes.length - 1 := by omega
      exact ⟨rfl, rfl, hc, by rw [← hend, hprev]⟩
    · rename_i hremaining
      set remaining := scan.intra.drop c.index with hdrop
      have hcount : c.index + remaining.length < scan.minutes.length := by
        have hpos := hr.nonempty
        simp only [hdrop, List.length_drop, length_intra]
        omega
      have hpos : 0 < remaining.length := List.length_pos_of_ne_nil hremaining
      rw [if_neg (not_le.mpr hc)]
      generalize hshortAt : (if (scan.suffixMin c.index).any (fun smallest => smallest < scan.minGap) = true then
        remaining.findIdx? (fun gap => gap < scan.minGap) else none) = shortAt
      obtain ⟨hwide, hshort⟩ := shortAt_spec hshortAt.symm
      have hreach := hr.firstGapReachingEnd_spec c.day hcount
      generalize scan.firstGapReachingEnd c.day c.index remaining.length = reach at hreach ⊢
      split
      · trivial
      · rename_i stop kind hstop
        obtain ⟨hcountStop, hroom, hshortStop, hreachStop⟩ := earliestStop_le hstop
        have hkind := earliestStop_kind hstop
        have hlen : stop < remaining.length := by omega
        have hbefore : scan.walkFrom c = scan.walkFrom (scan.afterGaps c stop) := by
          refine hr.walkFrom_afterGaps hstable hallowed hprev stop hlen.le ?_ ?_ (by omega)
          · intro i hi hlt
            exact hwide i hi (fun s hs => lt_of_lt_of_le hlt (hshortStop s hs))
          · intro i hlt
            refine hreach.before i ?_
            cases hr' : reach with
            | none => simp only [Option.getD_none]; omega
            | some r => simpa using lt_of_lt_of_le hlt (hreachStop r hr')
        have hafter := hr.countsDay_stop hstable hallowed hlen (by omega) hbefore
        have hwideStop : shortAt ≠ some stop → scan.minGap ≤ remaining[stop] := by
          intro hne
          refine hwide stop hlen (fun s hs => lt_of_le_of_ne (hshortStop s hs) ?_)
          rintro rfl
          exact hne hs
        cases kind with
        | short =>
          obtain ⟨_, hgap⟩ := hshort stop hkind
          exact hafter.1 hgap
        | «end» =>
          exact hafter.2 (hwideStop hkind.2) (.inl (hreach.at_ stop hkind.1).2)
        | limit =>
          exact hafter.2 (hwideStop hkind.2.2) (.inr (by have := hkind.1; omega))
        | day =>
          obtain ⟨hlast, hfull, hnotReach, hnotShort⟩ := hkind
          have hinside : ∀ i, i < stop + 1 → scan.fireUtc c.day (c.index + (i + 1)) < scan.horizonEnd := by
            intro i hi
            refine hreach.before i ?_
            cases hr' : reach with
            | none => exact lt_of_lt_of_le hi hlen
            | some r =>
              have hne : stop ≠ r := by
                rintro rfl
                exact hnotReach hr'
              have hle := hreachStop r hr'
              simp only [Option.getD_some]
              omega
          have hwides : ∀ i (hi : i < remaining.length), i < stop + 1 → scan.minGap ≤ remaining[i] := by
            intro i hi hlt
            refine hwide i hi (fun s hs => ?_)
            have hne : stop ≠ s := by
              rintro rfl
              exact hnotShort hs
            have hle := hshortStop s hs
            omega
          have hwhole : c.index + (stop + 1) = scan.minutes.length - 1 := by
            simp only [hdrop, List.length_drop, length_intra] at hlast hlen
            omega
          have hroomLeft : c.checked + (stop + 1) < scan.limit := by omega
          have hwalk := hr.walkFrom_afterGaps hstable hallowed hprev (stop + 1) hlen hwides hinside hroomLeft
          have hchecked : (scan.afterGaps c (stop + 1)).checked = c.checked + (stop + 1) := afterGaps_checked hlen
          simp only [afterGaps, hwhole] at hwalk
          exact ⟨hwalk, by simp [noteMany_eq_foldl, foldl_note], lt_of_eq_of_lt hchecked hroomLeft, rfl⟩

end Day

/-! ## The loop -/

section Loop

variable {scan : FloorScan} {fires : Set Int} (hr : scan.Reads fires) {c c' : FloorCursor}
include hr

structure OnFire (scan : FloorScan) (fires : Set Int) (c : FloorCursor) : Prop where
  fire : c.prevUtc ∈ fires
  stable : scan.trigger.timezone.dayIsStable c.day = true
  index : c.index < scan.minutes.length

omit hr in
theorem wallIndex_lt {t day index} (h : scan.wallIndex t = some (day, index)) : index < scan.minutes.length := by
  simp only [wallIndex] at h
  split at h
  · obtain ⟨i, hi, heq⟩ := Option.map_eq_some_iff.mp h
    cases heq
    exact (List.findIdx?_eq_some_iff_getElem.mp hi).1
  · cases h

omit hr in
theorem landing_some {next day index} (h : scan.landing next = some (day, index)) :
    scan.trigger.timezone.dayIsStable day = true ∧ index < scan.minutes.length := by
  simp only [landing] at h
  split at h
  · cases h
  · rename_i day' index' hwall
    split at h
    · rename_i hstable
      split at h
      · cases h
        exact ⟨hstable, wallIndex_lt hwall⟩
      · cases h
    · cases h

theorem Reads.walkUntilStable_spec (hc : c.checked < scan.limit) :
    match scan.walkUntilStable c with
    | .error check => scan.walkFrom c = check
    | .ok c' => scan.walkFrom c = scan.walkFrom c' ∧ c'.checked < scan.limit ∧ scan.OnFire fires c' := by
  fun_induction FloorScan.walkUntilStable scan c with
  | case1 c hnext =>
    have hlaw := hr.lawful.next c.prevUtc
    rw [hnext] at hlaw
    exact hr.walkFrom_none hlaw
  | case2 c next hnext check hdecide =>
    have hlaw := hr.lawful.next c.prevUtc
    rw [hnext] at hlaw
    exact hr.walkFrom_error hc hlaw hdecide
  | case3 c next hnext c₁ hdecide day index hland =>
    have hlaw := hr.lawful.next c.prevUtc
    rw [hnext] at hlaw
    have hwalk := hr.walkFrom_ok hc hlaw hdecide
    obtain ⟨hstable, hindex⟩ := landing_some hland
    obtain ⟨rfl, -, -, hlimit⟩ := decideGap_ok hdecide
    exact ⟨hwalk, hlimit, hlaw.mem, hstable, hindex⟩
  | case4 c next hnext c₁ hdecide hland ih =>
    have hlaw := hr.lawful.next c.prevUtc
    rw [hnext] at hlaw
    have hwalk := hr.walkFrom_ok hc hlaw hdecide
    obtain ⟨rfl, -, -, hlimit⟩ := decideGap_ok hdecide
    rw [hwalk]
    exact ih hlimit

theorem Reads.oneTriggerStep_spec (hc : c.checked < scan.limit) {check}
    (h : scan.oneTriggerStep c = some check) : scan.walkFrom c = check := by
  have hlaw := hr.lawful.next c.prevUtc
  unfold oneTriggerStep at h
  split at h
  · rename_i hnext
    rw [hnext] at hlaw
    cases h
    exact hr.walkFrom_none hlaw
  · rename_i next hnext
    rw [hnext] at hlaw
    split at h
    · cases h
    · split at h
      · rename_i hdecide
        cases h
        exact hr.walkFrom_error hc hlaw hdecide
      · cases h

omit hr in
theorem nextAllowed_some {after until_ next} (h : scan.nextAllowed after until_ = some next) :
    after < next ∧ scan.trigger.dayAllowed next = true ∧
      ∀ d, after < d → d < next → scan.trigger.dayAllowed d = false := by
  unfold nextAllowed at h
  obtain ⟨hallowed, i, hi, hget, hbefore⟩ := List.find?_eq_some_iff_getElem.mp h
  simp only [List.getElem_map, List.getElem_range] at hget hbefore
  refine ⟨by omega, hallowed, ?_⟩
  intro d hlow hhigh
  have hd := hbefore (d - after - 1).toNat (by omega)
  have heq : after + 1 + ((d - after - 1).toNat : Int) = d := by omega
  rw [heq] at hd
  simpa using hd

omit hr in
theorem crossIsLinear_stable {start finish} (h : scan.crossIsLinear start finish = true) :
    scan.trigger.timezone.dayIsStable finish = true ∧
      ∀ d, start < d → d < finish → scan.trigger.timezone.dayIsStable d = true := by
  simp only [crossIsLinear] at h
  split at h
  · cases h
  · rename_i hends
    split at h
    · cases h
    · refine ⟨by simpa using (not_or.mp hends).2, ?_⟩
      intro d hlow hhigh
      have hd := List.all_eq_true.mp h (d - start - 1).toNat (List.mem_range.mpr (by omega))
      have heq : start + 1 + ((d - start - 1).toNat : Int) = d := by omega
      rw [heq] at hd
      exact (Bool.and_eq_true _ _ ▸ hd).1

theorem Reads.countsDay (hon : scan.OnFire fires c) (hc : c.checked < scan.limit) :
    scan.CountsDay c (scan.consumeStableDay c) := by
  by_cases hprev : scan.fireUtc c.day c.index = c.prevUtc
  · have hallowed := hr.allowed_of_mem hon.stable hon.index (hprev ▸ hon.fire)
    exact hr.consumeStableDay_spec hon.stable hallowed hon.index hc
  · have hfallback : scan.consumeStableDay c = .fallback := by
      simp only [consumeStableDay, if_pos (show scan.fireUtc c.day c.index ≠ c.prevUtc from hprev)]
    rw [hfallback]
    trivial

theorem Reads.onFire_cross (hstable : scan.trigger.timezone.dayIsStable c.day = true)
    (hprev : c.prevUtc = scan.fireUtc c.day (scan.minutes.length - 1)) {until_ nextDay}
    (hnext : scan.nextAllowed c.day until_ = some nextDay) (hlinear : scan.crossIsLinear c.day nextDay = true) :
    IsNext fires c.prevUtc (some (scan.fireUtc nextDay 0)) ∧ scan.trigger.timezone.dayIsStable nextDay = true := by
  obtain ⟨hafter, hallowed, hdenied⟩ := nextAllowed_some hnext
  obtain ⟨hstableNext, hbetween⟩ := crossIsLinear_stable hlinear
  rw [hprev]
  exact ⟨hr.next_across hstable hafter hstableNext hallowed
    (fun d hlow hhigh => ⟨hbetween d hlow hhigh, hdenied d hlow hhigh⟩), hstableNext⟩

theorem Reads.loop_spec {walking} (hc : c.checked < scan.limit) (hon : walking = false → scan.OnFire fires c) {check}
    (h : scan.loop walking c = some check) : scan.walkFrom c = check := by
  fun_induction FloorScan.loop scan walking c with
  | case1 c check' hwalk =>
    have hspec := hr.walkUntilStable_spec hc
    rw [hwalk] at hspec
    exact hspec.trans (Option.some.inj h)
  | case2 c c' hwalk ih =>
    have hspec := hr.walkUntilStable_spec hc
    rw [hwalk] at hspec
    obtain ⟨hsame, hlimit, hfire⟩ := hspec
    rw [hsame]
    exact ih hlimit (fun _ => hfire) h
  | case3 walking c hwalking check' hday =>
    have hspec := hr.countsDay (hon (by simpa using hwalking)) hc
    rw [hday] at hspec
    exact hspec.trans (Option.some.inj h)
  | case4 => cases h
  | case5 walking c hwalking c' hday hnext =>
    have hspec := hr.countsDay (hon (by simpa using hwalking)) hc
    rw [hday] at hspec
    obtain ⟨hsame, -, hlimit, -⟩ := hspec
    rw [hsame]
    exact hr.oneTriggerStep_spec hlimit h
  | case6 walking c hwalking c' hday nextDay hnext hcross ih =>
    have hspec := hr.countsDay (hon (by simpa using hwalking)) hc
    rw [hday] at hspec
    obtain ⟨hsame, -, hlimit, -⟩ := hspec
    rw [hsame]
    exact ih hlimit (by simp) h
  | case7 walking c hwalking c' hday nextDay hnext hcross check' hdecide =>
    have hfire := hon (by simpa using hwalking)
    have hspec := hr.countsDay hfire hc
    rw [hday] at hspec
    obtain ⟨hsame, hsameDay, hlimit, hprev⟩ := hspec
    rw [← hsameDay] at hprev
    obtain ⟨hlaw, -⟩ := hr.onFire_cross (hsameDay ▸ hfire.stable) hprev hnext (by simpa using hcross)
    rw [hsame]
    exact (hr.walkFrom_error hlimit hlaw hdecide).trans (Option.some.inj h)
  | case8 walking c hwalking c' hday nextDay hnext hcross c'' hdecide ih =>
    have hfire := hon (by simpa using hwalking)
    have hspec := hr.countsDay hfire hc
    rw [hday] at hspec
    obtain ⟨hsame, hsameDay, hlimit, hprev⟩ := hspec
    rw [← hsameDay] at hprev
    obtain ⟨hlaw, hstable⟩ := hr.onFire_cross (hsameDay ▸ hfire.stable) hprev hnext (by simpa using hcross)
    rw [hsame, hr.walkFrom_ok hlimit hlaw hdecide]
    obtain ⟨rfl, -, -, hlimit'⟩ := decideGap_ok hdecide
    exact ih hlimit' (fun _ => ⟨hlaw.mem, hstable, hr.nonempty⟩) h

end Loop

end FloorScan

/-! ## The check -/

section Check

variable {trigger : CronTrigger} {fires : Set Int} {horizonEnd minGap : Int} {limit : Nat}

theorem fastCronFloor_eq_walk (hlaw : trigger.Lawful fires) {first} (hfirst : first ∈ fires) (hlimit : 0 < limit)
    {check} (h : trigger.fastCronFloor horizonEnd limit minGap first = some check) :
    walkCronFloor trigger horizonEnd minGap limit first 0 none = check := by
  unfold CronTrigger.fastCronFloor at h
  split at h
  · cases h
  · cases h
  · rename_i minutes hne hminutes
    have hr : FloorScan.Reads ⟨trigger, horizonEnd, limit, minGap, minutes⟩ fires :=
      ⟨hlaw, hminutes, List.length_pos_of_ne_nil (fun hnil => hne hnil)⟩
    simp only at h
    split at h
    · cases h
    · rename_i day index hwall
      split at h
      · cases h
      · refine hr.loop_spec (c := { prevUtc := first, day, index }) hlimit ?_ h
        intro hwalking
        exact ⟨hfirst, by simpa using hwalking, FloorScan.wallIndex_lt hwall⟩

theorem walkCronFloor_accepted (hlaw : trigger.Lawful fires) (room : Nat) (previous : Int) (checked : Nat)
    (shortest : Option Int) (hprev : previous ∈ fires) (hbefore : previous < horizonEnd)
    (hroom : horizonEnd ≤ previous + room * minGap) :
    (walkCronFloor trigger horizonEnd minGap room previous checked shortest).accepted = true ↔
      ∀ f g, Successive fires f g → previous ≤ f → f < horizonEnd → minGap ≤ g - f := by
  induction room generalizing previous checked shortest with
  | zero => simp at hroom; omega
  | succ room ih =>
    have hnext := hlaw.next previous
    cases hget : trigger.getNextFireTime (some previous) previous with
    | none =>
      rw [hget] at hnext
      simp only [walkCronFloor, hget, true_iff]
      intro f g hfg hlow
      have hlast := hnext g hfg.next.mem
      have hlt := hfg.next.lt
      omega
    | some next =>
      rw [hget] at hnext
      have hlt := hnext.lt
      have hself : Successive fires previous next := ⟨hprev, hnext⟩
      have hlater : ∀ {f g}, Successive fires f g → previous ≤ f → f = previous ∧ g = next ∨ next ≤ f := by
        intro f g hfg hlow
        rcases hnext.le_or_ge hfg.left with hle | hge
        · obtain rfl : f = previous := le_antisymm hle hlow
          exact .inl ⟨rfl, Option.some.inj (hfg.next.unique hnext)⟩
        · exact .inr hge
      simp only [walkCronFloor, hget]
      split
      · rename_i hshort
        simp only [Bool.false_eq_true, false_iff]
        intro hall
        have := hall previous next hself le_rfl hbefore
        omega
      · split
        · rename_i hwide hend
          simp only [true_iff]
          intro f g hfg hlow hhigh
          rcases hlater hfg hlow with ⟨rfl, rfl⟩ | hge
          · omega
          · omega
        · rename_i hwide hinside
          have hstep : horizonEnd ≤ next + room * minGap := by
            have hsplit : ((room + 1 : Nat) : Int) * minGap = room * minGap + minGap := by push_cast; ring
            linarith
          rw [ih next (checked + 1) _ hnext.mem (by omega) hstep]
          refine ⟨fun hall f g hfg hlow hhigh => ?_, fun hall f g hfg hlow hhigh => ?_⟩
          · rcases hlater hfg hlow with ⟨rfl, rfl⟩ | hge
            · omega
            · exact hall f g hfg hge hhigh
          · exact hall f g hfg (by omega) hhigh

theorem fastCronFloor_none_or (hlaw : trigger.Lawful fires) {first} (hfirst : first ∈ fires) (hlimit : 0 < limit) :
    trigger.fastCronFloor horizonEnd limit minGap first = none ∨
      trigger.fastCronFloor horizonEnd limit minGap first =
        some (walkCronFloor trigger horizonEnd minGap limit first 0 none) := by
  cases hfast : trigger.fastCronFloor horizonEnd limit minGap first with
  | none => exact .inl rfl
  | some check =>
    rw [fastCronFloor_eq_walk hlaw hfirst hlimit hfast]
    exact .inr rfl

theorem checkCronFloor_default {fromCrontab : String → String → Option CronTrigger} {cron timezone}
    (hparsed : fromCrontab cron timezone = some trigger) (hlaw : trigger.Lawful fires) {now first}
    (hfirst : trigger.getNextFireTime none now = some first) (hleast : IsLeast {x | x ∈ fires ∧ now ≤ x} first) :
    ∃ check, checkCronFloor fromCrontab cron timezone now cronFloorSeconds cronFloorHorizon none = .ok check ∧
      (check.accepted = true ↔ ∀ f g, Successive fires f g → now ≤ f → f < now + cronFloorHorizon →
        cronFloorSeconds * secondSpan ≤ g - f) := by
  have hlimit : (max 1 (cronFloorHorizon / secondSpan / cronFloorSeconds)).toNat = 105408 := by decide
  simp only [checkCronFloor, hparsed, hfirst, Option.getD_none, hlimit,
    if_neg (show ¬ cronFloorSeconds ≤ 0 by decide), if_neg (show ¬ cronFloorHorizon ≤ 0 by decide),
    if_neg (show ¬ max 1 (cronFloorHorizon / secondSpan / cronFloorSeconds) < 1 by decide)]
  by_cases hlate : now + cronFloorHorizon ≤ first
  · refine ⟨_, by rw [if_pos hlate], ?_⟩
    simp only [true_iff]
    intro f g hfg hlow hhigh
    have := hleast.2 ⟨hfg.left, hlow⟩
    omega
  · rw [if_neg hlate]
    refine ⟨_, rfl, ?_⟩
    have hwalk : (trigger.fastCronFloor (now + cronFloorHorizon) 105408 (cronFloorSeconds * secondSpan) first).getD
          (walkCronFloor trigger (now + cronFloorHorizon) (cronFloorSeconds * secondSpan) 105408 first 0 none) =
        walkCronFloor trigger (now + cronFloorHorizon) (cronFloorSeconds * secondSpan) 105408 first 0 none := by
      rcases fastCronFloor_none_or hlaw hleast.1.1 (by decide : 0 < 105408) with hnone | hsome
      · rw [hnone, Option.getD_none]
      · rw [hsome, Option.getD_some]
    have hspan : cronFloorHorizon = ((105408 : Nat) : Int) * (cronFloorSeconds * secondSpan) := by decide
    have hnow := hleast.1.2
    rw [hwalk, walkCronFloor_accepted hlaw _ _ _ _ hleast.1.1 (by omega) (by omega)]
    refine ⟨fun hall f g hfg hlow hhigh => ?_, fun hall f g hfg hlow hhigh => ?_⟩
    · exact hall f g hfg (hleast.2 ⟨hfg.left, hlow⟩) hhigh
    · exact hall f g hfg (hnow.trans hlow) hhigh

end Check

end QRadarDashboard.Services
