import Mathlib.Tactic.NormNum

/-!
# The proleptic Gregorian calendar

Ordinals as Python's `datetime` counts them: day 1 is 0001-01-01.
-/

namespace QRadarDashboard.Lib

def isLeap (year : Nat) : Bool := year % 4 = 0 ∧ (year % 100 ≠ 0 ∨ year % 400 = 0)

/-- Days before month `m` in a year that is not a leap year. -/
def monthStart : Nat → Nat
  | 1 => 0
  | 2 => 31
  | 3 => 59
  | 4 => 90
  | 5 => 120
  | 6 => 151
  | 7 => 181
  | 8 => 212
  | 9 => 243
  | 10 => 273
  | 11 => 304
  | 12 => 334
  | _ => 365

def daysInMonth (year month : Nat) : Nat :=
  if month = 2 ∧ isLeap year then 29 else monthStart (month + 1) - monthStart month

def daysBeforeMonth (year month : Nat) : Nat :=
  monthStart month + if 2 < month ∧ isLeap year then 1 else 0

def daysBeforeYear (year : Nat) : Nat :=
  (year - 1) * 365 + (year - 1) / 4 - (year - 1) / 100 + (year - 1) / 400

def ymd2ord (year month day : Nat) : Nat := daysBeforeYear year + daysBeforeMonth year month + day

def maxOrdinal : Nat := 3652059

/-- The month of day `n` (from 0) of a year, and the days before that month. -/
def monthOf (leap : Bool) (n : Nat) : Nat × Nat :=
  let start (m : Nat) := monthStart m + if 2 < m ∧ leap then 1 else 0
  let m := (n + 50) / 32
  if n < start m then (m - 1, start (m - 1)) else (m, start m)

def ord2ymd (n : Nat) : Nat × Nat × Nat :=
  let n := n - 1
  let n400 := n / 146097
  let n := n % 146097
  let n100 := n / 36524
  let n := n % 36524
  let n4 := n / 1461
  let n := n % 1461
  let n1 := n / 365
  let n := n % 365
  let year := n400 * 400 + 1 + n100 * 100 + n4 * 4 + n1
  if n1 = 4 ∨ n100 = 4 then (year - 1, 12, 31)
  else
    let leap := n1 = 3 ∧ (n4 ≠ 24 ∨ n100 = 3)
    let (month, preceding) := monthOf leap n
    (year, month, n - preceding + 1)

structure ValidDate (year month day : Nat) : Prop where
  year_ok : 1 ≤ year ∧ year ≤ 9999
  month_ok : 1 ≤ month ∧ month ≤ 12
  day_ok : 1 ≤ day ∧ day ≤ daysInMonth year month

instance (year month day : Nat) : Decidable (ValidDate year month day) :=
  decidable_of_iff ((1 ≤ year ∧ year ≤ 9999) ∧ (1 ≤ month ∧ month ≤ 12) ∧
    (1 ≤ day ∧ day ≤ daysInMonth year month))
    ⟨fun h => ⟨h.1, h.2.1, h.2.2⟩, fun h => ⟨h.year_ok, h.month_ok, h.day_ok⟩⟩

/-! ## The ordinal of a date gives the date back -/

theorem isLeap_iff (year : Nat) : isLeap year = true ↔ year % 4 = 0 ∧ (year % 100 ≠ 0 ∨ year % 400 = 0) := by
  simp [isLeap]

theorem isLeap_cycles {a b c d} (hb : b ≤ 3) (hc : c ≤ 24) (hd : d ≤ 3) :
    isLeap (a * 400 + 1 + b * 100 + c * 4 + d) = true ↔ d = 3 ∧ (c ≠ 24 ∨ b = 3) := by
  rw [isLeap_iff]
  omega

theorem daysBeforeYear_cycles {a b c d} (hb : b ≤ 3) (hc : c ≤ 24) (hd : d ≤ 3) :
    daysBeforeYear (a * 400 + 1 + b * 100 + c * 4 + d) = 146097 * a + 36524 * b + 1461 * c + 365 * d := by
  unfold daysBeforeYear
  omega

structure MonthSpec (leap : Bool) (n month start : Nat) : Prop where
  month_ok : 1 ≤ month ∧ month ≤ 12
  start_eq : start = monthStart month + if 2 < month ∧ leap then 1 else 0
  start_le : start ≤ n
  day_lt : n - start < if month = 2 ∧ leap then 29 else monthStart (month + 1) - monthStart month

instance (leap : Bool) (n month start : Nat) : Decidable (MonthSpec leap n month start) :=
  decidable_of_iff ((1 ≤ month ∧ month ≤ 12) ∧
    start = (monthStart month + if 2 < month ∧ leap then 1 else 0) ∧ start ≤ n ∧
    n - start < if month = 2 ∧ leap then 29 else monthStart (month + 1) - monthStart month)
    ⟨fun h => ⟨h.1, h.2.1, h.2.2.1, h.2.2.2⟩,
      fun h => ⟨h.month_ok, h.start_eq, h.start_le, h.day_lt⟩⟩

theorem monthOf_spec : ∀ leap : Bool, ∀ n < if leap then 366 else 365,
    MonthSpec leap n (monthOf leap n).1 (monthOf leap n).2 := by
  decide +kernel

theorem cycles_cases (n : Nat) :
    ∃ a b c d r, n = 146097 * a + 36524 * b + 1461 * c + 365 * d + r ∧
      a = n / 146097 ∧ b = n % 146097 / 36524 ∧ c = n % 146097 % 36524 / 1461 ∧
      d = n % 146097 % 36524 % 1461 / 365 ∧ r = n % 146097 % 36524 % 1461 % 365 ∧
      b ≤ 4 ∧ c ≤ 24 ∧ d ≤ 4 ∧ r ≤ 364 ∧ (b = 4 → c = 0 ∧ d = 0 ∧ r = 0) ∧
      (d = 4 → r = 0 ∧ c ≤ 23) := by
  refine ⟨_, _, _, _, _, ?_, rfl, rfl, rfl, rfl, rfl, ?_⟩ <;> omega

theorem lastDay_spec {year n} (hyear : 1 ≤ year ∧ year ≤ 9999) (hleap : isLeap year = true)
    (hn : n = daysBeforeYear year + 366) : ValidDate year 12 31 ∧ ymd2ord year 12 31 = n := by
  refine ⟨⟨hyear, by decide, by decide, ?_⟩, ?_⟩
  · simp [daysInMonth, monthStart]
  · simp [ymd2ord, daysBeforeMonth, monthStart, hleap, hn]

theorem monthOf_date {year r n} (hyear : 1 ≤ year ∧ year ≤ 9999)
    (hr : r < if isLeap year then 366 else 365) (hn : n = daysBeforeYear year + r + 1) :
    ValidDate year (monthOf (isLeap year) r).1 (r - (monthOf (isLeap year) r).2 + 1) ∧
      ymd2ord year (monthOf (isLeap year) r).1 (r - (monthOf (isLeap year) r).2 + 1) = n := by
  have h := monthOf_spec (isLeap year) r hr
  have hday := h.day_lt
  refine ⟨⟨hyear, h.month_ok, by omega, ?_⟩, ?_⟩
  · unfold daysInMonth
    omega
  · have hle := h.start_le
    have hstart : (monthOf (isLeap year) r).2 = daysBeforeMonth year (monthOf (isLeap year) r).1 :=
      h.start_eq
    unfold ymd2ord
    omega

theorem ord2ymd_spec {n} (hpos : 1 ≤ n) (hmax : n ≤ maxOrdinal) :
    ValidDate (ord2ymd n).1 (ord2ymd n).2.1 (ord2ymd n).2.2 ∧
      ymd2ord (ord2ymd n).1 (ord2ymd n).2.1 (ord2ymd n).2.2 = n := by
  have hmax' : n ≤ 3652059 := hmax
  obtain ⟨a, b, c, d, r, hn, ha, hb, hc, hd, hr, hb4, hc24, hd4, hr364, hb0, hd0⟩ := cycles_cases (n - 1)
  unfold ord2ymd
  simp only [← ha, ← hb, ← hc, ← hd, ← hr]
  split
  · rename_i hlast
    by_cases hd' : d = 4
    · obtain ⟨rfl, hc23⟩ := hd0 hd'
      subst hd'
      have hb3 : b ≤ 3 := by omega
      have hyear : a * 400 + 1 + b * 100 + c * 4 + 4 - 1 = a * 400 + 1 + b * 100 + c * 4 + 3 := by omega
      rw [hyear]
      refine lastDay_spec (by omega) ((isLeap_cycles hb3 hc24 (by omega)).mpr (by omega)) ?_
      rw [daysBeforeYear_cycles hb3 hc24 (by omega)]
      omega
    · obtain rfl : b = 4 := by omega
      obtain ⟨rfl, rfl, rfl⟩ := hb0 rfl
      have hyear : a * 400 + 1 + 4 * 100 + 0 * 4 + 0 - 1 = a * 400 + 1 + 3 * 100 + 24 * 4 + 3 := by omega
      rw [hyear]
      refine lastDay_spec (by omega) ((isLeap_cycles (by omega) (by omega) (by omega)).mpr (by omega)) ?_
      rw [daysBeforeYear_cycles (by omega) (by omega) (by omega)]
      omega
  · rename_i hnot
    have hb3 : b ≤ 3 := by omega
    have hd3 : d ≤ 3 := by omega
    have hleap : decide (d = 3 ∧ (c ≠ 24 ∨ b = 3)) = isLeap (a * 400 + 1 + b * 100 + c * 4 + d) := by
      rw [Bool.eq_iff_iff, decide_eq_true_iff]
      exact (isLeap_cycles hb3 hc24 hd3).symm
    have hday : n = daysBeforeYear (a * 400 + 1 + b * 100 + c * 4 + d) + r + 1 := by
      rw [daysBeforeYear_cycles hb3 hc24 hd3]
      omega
    rw [hleap]
    refine monthOf_date (by omega) ?_ hday
    split <;> omega

end QRadarDashboard.Lib
