import QRadarDashboard.Lib.Calendar
import Mathlib.Data.List.Basic
import Mathlib.Data.List.TakeWhile
import Mathlib.Tactic.IntervalCases

/-!
# Python's `datetime`, with its ISO format

A `DateTime` has the fields of a `datetime` and the offset its `tzinfo` gives for it, in microseconds.
-/

namespace QRadarDashboard.Lib

def dayMicros : Nat := 86400000000

structure DateTime where
  year : Nat
  month : Nat
  day : Nat
  hour : Nat
  minute : Nat
  second : Nat
  microsecond : Nat
  utcoffset : Option Int
  date_ok : ValidDate year month day
  time_ok : hour < 24 ∧ minute < 60 ∧ second < 60 ∧ microsecond < 1000000
  offset_ok : ∀ o ∈ utcoffset, -dayMicros < o ∧ o < dayMicros

namespace DateTime

def wall (d : DateTime) : Nat :=
  (ymd2ord d.year d.month d.day - 1) * dayMicros +
    ((d.hour * 60 + d.minute) * 60 + d.second) * 1000000 + d.microsecond

def epochWall : Nat := 719162 * dayMicros

/-- Microseconds since the epoch of an aware time whose offset is `o`. -/
def instant (d : DateTime) (o : Int) : Int := d.wall - o - epochWall

def ofWall (n : Int) : Option DateTime :=
  if h : 0 ≤ n ∧ n < maxOrdinal * dayMicros then
    let days := n.toNat / dayMicros
    let rest := n.toNat % dayMicros
    let date := ord2ymd (days + 1)
    some {
      year := date.1, month := date.2.1, day := date.2.2
      hour := rest / 3600000000, minute := rest / 60000000 % 60
      second := rest / 1000000 % 60, microsecond := rest % 1000000
      utcoffset := some 0
      date_ok := (ord2ymd_spec (Nat.le_add_left 1 _) (by
        have hlt : n.toNat < maxOrdinal * dayMicros := by omega
        have := Nat.div_lt_of_lt_mul (Nat.mul_comm _ _ ▸ hlt)
        omega)).1
      time_ok := by
        have : rest < 86400000000 := Nat.mod_lt _ (by decide)
        omega
      offset_ok := by simp [dayMicros] }
  else none

/-- `astimezone(UTC)` of an aware time whose offset is `o`; none when it leaves the years 1 to 9999. -/
def toUtc (d : DateTime) (o : Int) : Option DateTime :=
  if o = 0 then some { d with utcoffset := some 0, offset_ok := by simp [dayMicros] }
  else ofWall (d.wall - o)

def utc (d : DateTime) : DateTime :=
  match d.utcoffset with
  | none => d
  | some o => (d.toUtc o).getD d

def timestamp (d : DateTime) : Int := d.instant (d.utcoffset.getD 0)

def InRange (d : DateTime) : Prop :=
  ∀ o ∈ d.utcoffset, o = 0 ∨ (0 ≤ d.wall - o ∧ d.wall - o < maxOrdinal * dayMicros)

end DateTime

/-! ## Writing -/

/-- `n` in exactly `w` decimal digits. -/
def fixed : Nat → Nat → List Char
  | 0, _ => []
  | w + 1, n => fixed w (n / 10) ++ [Nat.digitChar (n % 10)]

def isoTime (hour minute second microsecond : Nat) : List Char :=
  fixed 2 hour ++ ':' :: (fixed 2 minute ++ ':' :: (fixed 2 second ++
    if microsecond = 0 then [] else '.' :: fixed 6 microsecond))

def isoOffset : Option Int → List Char
  | none => []
  | some o =>
    let a := o.natAbs
    (if o < 0 then '-' else '+') :: (fixed 2 (a / 3600000000) ++ ':' :: (fixed 2 (a / 60000000 % 60) ++
      if a % 60000000 = 0 then []
      else ':' :: (fixed 2 (a / 1000000 % 60) ++
        if a % 1000000 = 0 then [] else '.' :: fixed 6 (a % 1000000))))

def DateTime.isoformat (d : DateTime) : List Char :=
  fixed 4 d.year ++ '-' :: (fixed 2 d.month ++ '-' :: (fixed 2 d.day ++
    'T' :: (isoTime d.hour d.minute d.second d.microsecond ++ isoOffset d.utcoffset)))

/-! ## Reading -/

def digitVal (c : Char) : Option Nat := if c.isDigit then some (c.toNat - 48) else none

/-- Reads exactly `w` decimal digits. -/
def readDigits : Nat → List Char → Option (Nat × List Char)
  | 0, cs => some (0, cs)
  | w + 1, cs =>
    match readDigits w cs with
    | some (n, c :: rest) => (digitVal c).map (fun v => (n * 10 + v, rest))
    | _ => none

def dateEnd (cs : List Char) : Option Nat :=
  if cs.length = 7 then some 7
  else if cs[4]? = some '-' then
    if cs[5]? = some 'W' then
      if cs[8]? = some '-' then
        if cs.length = 9 then none
        else if cs[10]?.any Char.isDigit then some 8
        else some 10
      else some 8
    else some 10
  else if cs[4]? = some 'W' then
    let last := 7 + ((cs.drop 7).takeWhile Char.isDigit).length
    if last < 9 then some last else if last % 2 = 0 then some 7 else some 8
  else some 8

def isoweek1monday (year : Nat) : Nat :=
  let firstday := ymd2ord year 1 1
  let firstweekday := (firstday + 6) % 7
  if firstweekday > 3 then firstday - firstweekday + 7 else firstday - firstweekday

def isoweekToGregorian (year week day : Nat) : Option (Nat × Nat × Nat) :=
  let first := ymd2ord year 1 1 % 7
  let weekOk := (0 < week ∧ week < 53) ∨ (week = 53 ∧ (first = 4 ∨ (first = 3 ∧ isLeap year)))
  if 1 ≤ year ∧ weekOk ∧ 0 < day ∧ day < 8 then
    some (ord2ymd (isoweek1monday year + (week - 1) * 7 + (day - 1)))
  else none

def dash (hasSep : Bool) (cs : List Char) : Option (List Char) :=
  if (cs.head? = some '-') ↔ hasSep then some (if hasSep then cs.tail else cs) else none

def readDate (cs : List Char) : Option (Nat × Nat × Nat) := do
  let (year, cs) ← readDigits 4 cs
  let hasSep : Bool := cs.head? = some '-'
  let cs := if hasSep then cs.tail else cs
  if cs.head? = some 'W' then
    let (week, cs) ← readDigits 2 cs.tail
    if cs.isEmpty then isoweekToGregorian year week 1
    else
      let cs ← dash hasSep cs
      let (day, _) ← readDigits 1 cs
      isoweekToGregorian year week day
  else
    let (month, cs) ← readDigits 2 cs
    let cs ← dash hasSep cs
    let (day, _) ← readDigits 2 cs
    return (year, month, day)

def readFraction (cs : List Char) : Option Nat := do
  let k := min cs.length 6
  if k = 0 then none
  else
    let (n, rest) ← readDigits k cs
    if rest.all Char.isDigit then some (n * 10 ^ (6 - k)) else none

/-- `HH[:?MM[:?SS[{.,}f+]]]` -/
def readHms (cs : List Char) : Option (Nat × Nat × Nat × Nat) := do
  let (hour, cs) ← readDigits 2 cs
  if cs.isEmpty then return (hour, 0, 0, 0)
  else
    let hasSep : Bool := cs.head? = some ':'
    let (minute, cs) ← readDigits 2 (if hasSep then cs.tail else cs)
    if cs.isEmpty then return (hour, minute, 0, 0)
    else if hasSep ∧ cs.head? ≠ some ':' then none
    else
      let (second, cs) ← readDigits 2 (if hasSep then cs.tail else cs)
      match cs with
      | [] => return (hour, minute, second, 0)
      | c :: rest =>
        if c = '.' ∨ c = ',' then return (hour, minute, second, ← readFraction rest) else none

/-- The parts of `cs` around its first `c`. -/
def cutAt (c : Char) (cs : List Char) : Option (List Char × List Char) :=
  if c ∈ cs then some (cs.takeWhile (· ≠ c), (cs.dropWhile (· ≠ c)).tail) else none

def readOffset (sign : Int) (cs : List Char) : Option (Option Int) := do
  if cs.length = 0 ∨ cs.length = 1 ∨ cs.length = 3 then none
  else
    let (hour, minute, second, microsecond) ← readHms cs
    let size : Int := ((hour * 60 + minute) * 60 + second) * 1000000 + microsecond
    if size < dayMicros then some (some (sign * size)) else none

def readTime (cs : List Char) : Option ((Nat × Nat × Nat × Nat) × Option Int) := do
  match cutAt '-' cs with
  | some (time, zone) => return (← readHms time, ← readOffset (-1) zone)
  | none =>
    match cutAt '+' cs with
    | some (time, zone) => return (← readHms time, ← readOffset 1 zone)
    | none =>
      match cutAt 'Z' cs with
      | some (time, []) => return (← readHms time, some 0)
      | some (_, _ :: _) => none
      | none => return (← readHms cs, none)

def mkDateTime (date : Nat × Nat × Nat) (time : Nat × Nat × Nat × Nat) (o : Option Int) :
    Option DateTime :=
  if h : ValidDate date.1 date.2.1 date.2.2 ∧
      (time.1 < 24 ∧ time.2.1 < 60 ∧ time.2.2.1 < 60 ∧ time.2.2.2 < 1000000) ∧
      ∀ x ∈ o, -dayMicros < x ∧ x < dayMicros then
    some {
      year := date.1, month := date.2.1, day := date.2.2
      hour := time.1, minute := time.2.1, second := time.2.2.1, microsecond := time.2.2.2
      utcoffset := o, date_ok := h.1, time_ok := h.2.1, offset_ok := h.2.2 }
  else none

/-- `datetime.fromisoformat`; none is its `ValueError`. -/
def fromisoformat (cs : List Char) : Option DateTime := do
  if cs.length < 7 then none
  else
    let sep ← dateEnd cs
    let date ← readDate (cs.take sep)
    if cs.length ≤ sep then mkDateTime date (0, 0, 0, 0) none
    else
      let (time, o) ← readTime (cs.drop (sep + 1))
      mkDateTime date time o

/-! ## The instant survives the move to UTC -/

namespace DateTime

theorem wall_ofWall {n u} (h : ofWall n = some u) : (u.wall : Int) = n ∧ u.utcoffset = some 0 := by
  unfold ofWall at h
  split at h
  · rename_i hn
    simp only [Option.some.injEq] at h
    subst h
    refine ⟨?_, rfl⟩
    have hpos : 1 ≤ n.toNat / dayMicros + 1 := Nat.le_add_left 1 _
    have hmax : n.toNat / dayMicros + 1 ≤ maxOrdinal := by
      have hlt : n.toNat < maxOrdinal * dayMicros := by omega
      have := Nat.div_lt_of_lt_mul (Nat.mul_comm _ _ ▸ hlt)
      omega
    have hord := (ord2ymd_spec hpos hmax).2
    simp only [wall, hord, Nat.add_sub_cancel]
    have hsplit := Nat.div_add_mod n.toNat dayMicros
    have hrest : n.toNat % dayMicros < 86400000000 := Nat.mod_lt _ (by decide)
    have htime : ((n.toNat % dayMicros / 3600000000 * 60 + n.toNat % dayMicros / 60000000 % 60) * 60 +
        n.toNat % dayMicros / 1000000 % 60) * 1000000 + n.toNat % dayMicros % 1000000 =
        n.toNat % dayMicros := by omega
    have hnat : n.toNat / dayMicros * dayMicros +
        ((n.toNat % dayMicros / 3600000000 * 60 + n.toNat % dayMicros / 60000000 % 60) * 60 +
        n.toNat % dayMicros / 1000000 % 60) * 1000000 + n.toNat % dayMicros % 1000000 = n.toNat := by
      rw [Nat.add_assoc, htime, Nat.mul_comm, hsplit]
    rw [hnat]
    omega
  · cases h

theorem toUtc_instant {d u : DateTime} {o} (h : d.toUtc o = some u) :
    u.utcoffset = some 0 ∧ u.instant 0 = d.instant o := by
  unfold toUtc at h
  split at h
  · rename_i ho
    simp only [Option.some.injEq] at h
    subst h
    exact ⟨rfl, by rw [ho]; rfl⟩
  · obtain ⟨hw, hoff⟩ := wall_ofWall h
    refine ⟨hoff, ?_⟩
    unfold instant
    omega

theorem toUtc_eq_some_utc {d : DateTime} {o} (ho : d.utcoffset = some o) (h : d.InRange) : d.toUtc o = some d.utc := by
  have hsome : (d.toUtc o).isSome = true := by
    unfold toUtc
    split
    · rfl
    · rcases h o (by simp [ho]) with h0 | hr
      · contradiction
      · unfold ofWall
        rw [dif_pos hr]
        rfl
  obtain ⟨u, hu⟩ := Option.isSome_iff_exists.mp hsome
  simp [utc, ho, hu]

theorem inRange_of_toUtc {d u : DateTime} {o} (ho : d.utcoffset = some o) (h : d.toUtc o = some u) : d.InRange := by
  intro o' ho'
  cases ho.symm.trans ho'
  unfold toUtc at h
  split at h
  · exact Or.inl ‹_›
  · unfold ofWall at h
    split at h
    · exact Or.inr ‹_›
    · cases h

theorem toUtc_zero {d : DateTime} (h : d.utcoffset = some 0) : d.toUtc 0 = some d := by
  unfold toUtc
  rw [if_pos rfl]
  cases d
  simp only at h
  subst h
  rfl

theorem utc_spec {d : DateTime} {o} (ho : d.utcoffset = some o) (h : d.InRange) :
    d.utc.utcoffset = some 0 ∧ d.utc.timestamp = d.timestamp := by
  obtain ⟨hoff, hinst⟩ := toUtc_instant (toUtc_eq_some_utc ho h)
  refine ⟨hoff, ?_⟩
  simpa [timestamp, hoff, ho] using hinst

theorem utc_of_utc {d : DateTime} (h : d.utcoffset = some 0) : d.utc = d := by
  simp [utc, h, toUtc_zero h]

end DateTime

/-! ## `fromisoformat` reads what `isoformat` writes -/

theorem digitVal_digitChar : ∀ n < 10, digitVal (Nat.digitChar n) = some n := by decide

theorem isDigit_digitChar : ∀ n < 10, (Nat.digitChar n).isDigit = true := by decide

theorem readDigits_fixed {w n} (h : n < 10 ^ w) (rest : List Char) :
    readDigits w (fixed w n ++ rest) = some (n, rest) := by
  induction w generalizing n rest with
  | zero =>
    have hn : n = 0 := by simpa using h
    simp [readDigits, fixed, hn]
  | succ w ih =>
    have hdiv : n / 10 < 10 ^ w := Nat.div_lt_of_lt_mul (by rwa [pow_succ, Nat.mul_comm] at h)
    have hmod : n % 10 < 10 := Nat.mod_lt _ (by decide)
    rw [fixed, List.append_assoc, readDigits, ih hdiv]
    simp only [List.cons_append, List.nil_append, digitVal_digitChar _ hmod, Option.map_some]
    rw [Nat.div_add_mod' n 10]

theorem length_fixed (w n : Nat) : (fixed w n).length = w := by
  induction w generalizing n with
  | zero => rfl
  | succ w ih => simp [fixed, ih]

theorem isDigit_of_mem_fixed {w n c} (h : c ∈ fixed w n) : c.isDigit = true := by
  induction w generalizing n with
  | zero => cases h
  | succ w ih =>
    rcases List.mem_append.mp h with h | h
    · exact ih h
    · rw [List.mem_singleton.mp h]
      exact isDigit_digitChar _ (Nat.mod_lt _ (by decide))

theorem cutAt_append {c a b} (h : c ∉ a) : cutAt c (a ++ c :: b) = some (a, b) := by
  have hne : ∀ x ∈ a, decide (x ≠ c) = true := by
    intro x hx
    simp only [ne_eq, decide_not, Bool.not_eq_true', decide_eq_false_iff_not]
    intro heq
    exact h (heq ▸ hx)
  unfold cutAt
  rw [if_pos (by simp), List.takeWhile_append_of_pos hne, List.dropWhile_append_of_pos hne]
  simp

theorem cutAt_none {c cs} (h : c ∉ cs) : cutAt c cs = none := by
  simp [cutAt, h]

theorem mem_isoTime {h m s us c} (hc : c ∈ isoTime h m s us) : c.isDigit = true ∨ c = ':' ∨ c = '.' := by
  simp only [isoTime, List.mem_append, List.mem_cons] at hc
  rcases hc with hc | rfl | hc | rfl | hc | hc
  · exact Or.inl (isDigit_of_mem_fixed hc)
  · exact Or.inr (Or.inl rfl)
  · exact Or.inl (isDigit_of_mem_fixed hc)
  · exact Or.inr (Or.inl rfl)
  · exact Or.inl (isDigit_of_mem_fixed hc)
  · split at hc
    · cases hc
    · rcases List.mem_cons.mp hc with rfl | hc
      · exact Or.inr (Or.inr rfl)
      · exact Or.inl (isDigit_of_mem_fixed hc)

theorem not_mem_isoTime {h m s us c} (hd : c.isDigit = false) (h₁ : c ≠ ':') (h₂ : c ≠ '.') : c ∉ isoTime h m s us := by
  intro hc
  rcases mem_isoTime hc with hc | hc | hc
  · rw [hc] at hd
    cases hd
  · exact h₁ hc
  · exact h₂ hc

theorem readHms_isoTime {h m s us} (hh : h < 100) (hm : m < 100) (hs : s < 100)
    (hus : us < 1000000) : readHms (isoTime h m s us) = some (h, m, s, us) := by
  unfold readHms isoTime
  rw [readDigits_fixed (show h < 10 ^ 2 from hh)]
  simp only [Option.bind_eq_bind, Option.bind_some, List.isEmpty_cons, Bool.false_eq_true, if_false,
    List.head?_cons, decide_true, if_true, List.tail_cons]
  rw [readDigits_fixed (show m < 10 ^ 2 from hm)]
  simp only [Option.bind_some, List.isEmpty_cons, Bool.false_eq_true, if_false, List.head?_cons,
    ne_eq, not_true_eq_false, and_false, List.tail_cons]
  rw [readDigits_fixed (show s < 10 ^ 2 from hs)]
  simp only [Option.bind_some]
  by_cases h0 : us = 0
  · simp [h0]
  · have hread : readFraction (fixed 6 us) = some us := by
      have hd := readDigits_fixed (show us < 10 ^ 6 from hus) []
      rw [List.append_nil] at hd
      simp only [readFraction, length_fixed, Nat.min_self, OfNat.ofNat_ne_zero, if_false, hd, Option.bind_eq_bind,
        Option.bind_some, List.all_nil, if_true, Nat.sub_self, pow_zero, Nat.mul_one]
    simp [h0, hread]

theorem readTime_isoTime_utc {h m s us} (hh : h < 100) (hm : m < 100) (hs : s < 100) (hus : us < 1000000) :
    readTime (isoTime h m s us ++ isoOffset (some 0)) = some ((h, m, s, us), some 0) := by
  have hzone : isoOffset (some 0) = '+' :: ['0', '0', ':', '0', '0'] := rfl
  have hdash : '-' ∉ isoTime h m s us ++ '+' :: ['0', '0', ':', '0', '0'] := by
    simp [not_mem_isoTime (c := '-') rfl (by decide) (by decide)]
  have hplus : '+' ∉ isoTime h m s us := not_mem_isoTime rfl (by decide) (by decide)
  have hoff : readOffset 1 ['0', '0', ':', '0', '0'] = some (some 0) := by with_unfolding_all decide
  unfold readTime
  rw [hzone, cutAt_none hdash]
  simp only [cutAt_append hplus, readHms_isoTime hh hm hs hus, hoff]
  rfl

theorem readDate_iso {y m d} (hy : y < 10000) (hm : m < 100) (hd : d < 100) :
    readDate (fixed 4 y ++ '-' :: (fixed 2 m ++ '-' :: fixed 2 d)) = some (y, m, d) := by
  have hnotW : (fixed 2 m ++ '-' :: fixed 2 d).head? ≠ some 'W' := by
    have hdig := isDigit_digitChar (m / 10 % 10) (Nat.mod_lt _ (by decide))
    simp only [fixed, List.nil_append, List.cons_append, List.head?_cons, ne_eq, Option.some.injEq]
    intro heq
    rw [heq] at hdig
    cases hdig
  have hday := readDigits_fixed (w := 2) (n := d) (by simpa using hd) []
  rw [List.append_nil] at hday
  unfold readDate
  rw [readDigits_fixed (by simpa using hy)]
  simp only [Option.bind_eq_bind, Option.bind_some, List.head?_cons, decide_true, if_true,
    List.tail_cons, if_neg hnotW]
  rw [readDigits_fixed (show m < 10 ^ 2 from hm)]
  simp [dash, hday]

theorem dateEnd_iso {y m d} (rest : List Char) :
    dateEnd (fixed 4 y ++ '-' :: (fixed 2 m ++ '-' :: (fixed 2 d ++ 'T' :: rest))) = some 10 := by
  have hdig := isDigit_digitChar (m / 10 % 10) (Nat.mod_lt _ (by decide))
  have hne : Nat.digitChar (m / 10 % 10) ≠ 'W' := by
    intro heq
    rw [heq] at hdig
    cases hdig
  simp [dateEnd, fixed, hne]

theorem daysInMonth_le {y m} (h : 1 ≤ m ∧ m ≤ 12) : daysInMonth y m ≤ 31 := by
  obtain ⟨h₁, h₂⟩ := h
  unfold daysInMonth
  split
  · decide
  · interval_cases m <;> decide

theorem fromisoformat_isoformat {d} (h : d.utcoffset = some 0) : fromisoformat d.isoformat = some d := by
  obtain ⟨hyear, hmonth, hday⟩ := d.date_ok
  obtain ⟨hhour, hminute, hsecond, hmicro⟩ := d.time_ok
  have hmax := daysInMonth_le (y := d.year) hmonth
  have hdate := readDate_iso (y := d.year) (m := d.month) (d := d.day) (by omega) (by omega) (by omega)
  have htime := readTime_isoTime_utc (h := d.hour) (m := d.minute) (s := d.second) (by omega)
    (by omega) (by omega) hmicro
  have htake : d.isoformat.take 10 =
      fixed 4 d.year ++ '-' :: (fixed 2 d.month ++ '-' :: fixed 2 d.day) := by
    simp [DateTime.isoformat, fixed]
  have hdrop : d.isoformat.drop (10 + 1) =
      isoTime d.hour d.minute d.second d.microsecond ++ isoOffset (some 0) := by
    simp [DateTime.isoformat, fixed, h]
  have hlen : 11 ≤ d.isoformat.length := by simp [DateTime.isoformat, fixed]
  have hmk : mkDateTime (d.year, d.month, d.day) (d.hour, d.minute, d.second, d.microsecond) (some 0) =
      some d := by
    have hok : ValidDate d.year d.month d.day ∧
        (d.hour < 24 ∧ d.minute < 60 ∧ d.second < 60 ∧ d.microsecond < 1000000) ∧
        ∀ x ∈ some (0 : Int), -dayMicros < x ∧ x < dayMicros :=
      ⟨d.date_ok, d.time_ok, by simp [dayMicros]⟩
    unfold mkDateTime
    rw [dif_pos hok]
    cases d
    simp only at h
    subst h
    rfl
  unfold fromisoformat
  rw [if_neg (by omega), show dateEnd d.isoformat = some 10 from dateEnd_iso _]
  simp only [Option.bind_eq_bind, Option.bind_some, htake, hdate, if_neg (show ¬ d.isoformat.length ≤ 10 by omega),
    hdrop, htime, hmk]

end QRadarDashboard.Lib
