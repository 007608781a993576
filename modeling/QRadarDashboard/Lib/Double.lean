import QRadarDashboard.Lib.Json
import Mathlib.Tactic.Positivity

/-!
# The rounding of a double

Of the range only the normal numbers are meant.
-/

namespace QRadarDashboard.Lib

inductive PyDouble where
  | finite (x : ℚ)
  | infinite (negative : Bool)
  | nan

def PyDouble.isInteger : PyDouble → Bool
  | .finite x => x.den = 1
  | .infinite _ => false
  | .nan => false

/-- `int(x)` of a number: its whole part, towards zero. -/
def towardsZero (x : ℚ) : Int := if 0 ≤ x then ⌊x⌋ else ⌈x⌉

namespace Double

def ulp (x : ℚ) : ℚ := 2 ^ (Int.log 2 |x| - 52)

def round (x : ℚ) : ℚ := roundHalfEven (x / ulp x) * ulp x

def Overflows (x : ℚ) : Prop := 2 ^ 1024 ≤ |round x|

instance (x : ℚ) : Decidable (Overflows x) := inferInstanceAs (Decidable (_ ≤ _))

/-- An addend of `sum`: the running total, and what its roundings lost (Neumaier's compensation). -/
def sumStep (total : ℚ × ℚ) (x : ℚ) : ℚ × ℚ :=
  let t := round (total.1 + x)
  let lost := if |x| ≤ |total.1| then round (round (total.1 - t) + x) else round (round (x - t) + total.1)
  (t, round (total.2 + lost))

/-- `sum` of doubles, as Python computes it from version 3.12 on. -/
def sum (xs : List ℚ) : ℚ :=
  let total := xs.foldl sumStep (0, 0)
  round (total.1 + total.2)

/-! ## The error of a rounding -/

theorem roundHalfEven_intCast (n : Int) : roundHalfEven n = n := by
  simp [roundHalfEven]

theorem abs_roundHalfEven_sub (x : ℚ) : |(roundHalfEven x : ℚ) - x| ≤ 1 / 2 := by
  have hlow := Int.floor_le x
  have hhigh := Int.lt_floor_add_one x
  rw [abs_le]
  unfold roundHalfEven
  simp only
  split
  · constructor <;> linarith
  · split
    · push_cast
      constructor <;> linarith
    · split
      · constructor <;> linarith
      · push_cast
        constructor <;> linarith

theorem ulp_pos (x : ℚ) : 0 < ulp x := zpow_pos (by norm_num) _

theorem ulp_le (x : ℚ) (hx : x ≠ 0) : ulp x * 2 ^ 52 ≤ |x| := by
  have hlog := Int.zpow_log_le_self (b := 2) (by norm_num) (abs_pos.mpr hx)
  have hsplit : ulp x * 2 ^ 52 = 2 ^ Int.log 2 |x| := by
    rw [ulp, ← zpow_natCast, ← zpow_add₀ (by norm_num)]
    norm_num
  rw [hsplit]
  exact_mod_cast hlog

theorem abs_round_sub (x : ℚ) : |round x - x| ≤ |x| / 2 ^ 53 := by
  by_cases hx : x = 0
  · simp [hx, round, ulp, roundHalfEven]
  · have hpos := ulp_pos x
    have hscale : round x - x = (roundHalfEven (x / ulp x) - x / ulp x) * ulp x := by
      rw [round, sub_mul, div_mul_cancel₀ x hpos.ne']
    have herror := abs_roundHalfEven_sub (x / ulp x)
    have hulp := ulp_le x hx
    rw [hscale, abs_mul, abs_of_pos hpos]
    calc |(roundHalfEven (x / ulp x) : ℚ) - x / ulp x| * ulp x ≤ 1 / 2 * ulp x :=
          mul_le_mul_of_nonneg_right herror hpos.le
      _ ≤ |x| / 2 ^ 53 := by
          rw [le_div_iff₀ (by norm_num)]
          linarith

theorem round_intCast {n : Int} (h : |n| < 2 ^ 53) : round n = n := by
  by_cases hn : n = 0
  · simp [hn, round, ulp, roundHalfEven]
  · have hpos := ulp_pos (n : ℚ)
    have habs : (0 : ℚ) < |(n : ℚ)| := abs_pos.mpr (by exact_mod_cast hn)
    have hlog : Int.log 2 |(n : ℚ)| ≤ 52 := by
      refine Int.lt_add_one_iff.mp ((Int.lt_zpow_iff_log_lt (by norm_num) habs).mp ?_)
      exact_mod_cast h
    obtain ⟨k, hk⟩ := Int.eq_ofNat_of_zero_le (show 0 ≤ 52 - Int.log 2 |(n : ℚ)| by omega)
    have hulp : ulp (n : ℚ) = 1 / 2 ^ k := by
      rw [ulp, show Int.log 2 |(n : ℚ)| - 52 = -(k : Int) by omega, zpow_neg, zpow_natCast, one_div]
    have hwhole : (n : ℚ) / ulp n = ((n * 2 ^ k : Int) : ℚ) := by
      rw [hulp, div_div_eq_mul_div, div_one]
      push_cast
      ring
    rw [round, hwhole, roundHalfEven_intCast, ← hwhole, div_mul_cancel₀ _ hpos.ne']

/-! ## Rounding keeps the order -/

theorem roundHalfEven_bounds (x : ℚ) : ⌊x⌋ ≤ roundHalfEven x ∧ roundHalfEven x ≤ ⌊x⌋ + 1 := by
  unfold roundHalfEven
  simp only
  split_ifs <;> omega

theorem roundHalfEven_mono {x y} (h : x ≤ y) : roundHalfEven x ≤ roundHalfEven y := by
  rcases (Int.floor_le_floor h).lt_or_eq with hlt | heq
  · have hx := (roundHalfEven_bounds x).2
    have hy := (roundHalfEven_bounds y).1
    omega
  · -- in one unit the larger remainder rounds up no later
    unfold roundHalfEven
    simp only [heq]
    split_ifs <;> first | omega | linarith

theorem roundHalfEven_neg (x : ℚ) : roundHalfEven (-x) = -roundHalfEven x := by
  by_cases hwhole : x = (⌊x⌋ : ℚ)
  · rw [hwhole, ← Int.cast_neg, roundHalfEven_intCast, roundHalfEven_intCast]
  · have hlt : (⌊x⌋ : ℚ) < x := lt_of_le_of_ne (Int.floor_le x) (Ne.symm hwhole)
    have hfloor : ⌊-x⌋ = -⌊x⌋ - 1 := by
      rw [Int.floor_eq_iff]
      push_cast
      have := Int.lt_floor_add_one x
      constructor <;> linarith
    unfold roundHalfEven
    simp only [hfloor]
    push_cast
    split_ifs <;> first | omega | linarith

theorem round_nonneg {x} (hx : 0 ≤ x) : 0 ≤ round x := by
  have hle := roundHalfEven_mono (div_nonneg hx (ulp_pos x).le)
  rw [show roundHalfEven (0 : ℚ) = 0 from roundHalfEven_intCast 0] at hle
  exact mul_nonneg (by exact_mod_cast hle) (ulp_pos x).le

/-- The ends of the binade of a number round to themselves. -/
theorem round_binade {x} (hx : 0 < x) : 2 ^ Int.log 2 x ≤ round x ∧ round x ≤ 2 ^ (Int.log 2 x + 1) := by
  have hpos := ulp_pos x
  have hulp : ulp x = 2 ^ Int.log 2 x / 2 ^ 52 := by
    rw [ulp, abs_of_pos hx, zpow_sub₀ (by norm_num)]
    norm_num
  have hlow : ((2 ^ 52 : Int) : ℚ) ≤ x / ulp x := by
    rw [le_div_iff₀ hpos, hulp]
    have := Int.zpow_log_le_self (b := 2) (by norm_num) hx
    push_cast at this ⊢
    linarith
  have hhigh : x / ulp x ≤ ((2 ^ 53 : Int) : ℚ) := by
    rw [div_le_iff₀ hpos, hulp]
    have := (Int.lt_zpow_succ_log_self (b := 2) (by norm_num) x).le
    rw [zpow_add_one₀ (by norm_num)] at this
    push_cast at this ⊢
    linarith
  have hlow' := roundHalfEven_mono hlow
  have hhigh' := roundHalfEven_mono hhigh
  rw [roundHalfEven_intCast] at hlow' hhigh'
  have hlowQ : ((2 : ℚ) ^ 52) ≤ roundHalfEven (x / ulp x) := by exact_mod_cast hlow'
  have hhighQ : (roundHalfEven (x / ulp x) : ℚ) ≤ 2 ^ 53 := by exact_mod_cast hhigh'
  constructor
  · calc (2 : ℚ) ^ Int.log 2 x = 2 ^ 52 * ulp x := by rw [hulp, mul_div_cancel₀ _ (by norm_num)]
      _ ≤ round x := mul_le_mul_of_nonneg_right hlowQ hpos.le
  · calc round x ≤ 2 ^ 53 * ulp x := mul_le_mul_of_nonneg_right hhighQ hpos.le
      _ = 2 ^ (Int.log 2 x + 1) := by
          rw [hulp, zpow_add_one₀ (by norm_num)]
          norm_num
          ring

theorem round_nonpos {x} (hx : x ≤ 0) : round x ≤ 0 := by
  have hle := roundHalfEven_mono (div_nonpos_of_nonpos_of_nonneg hx (ulp_pos x).le)
  rw [show roundHalfEven (0 : ℚ) = 0 from roundHalfEven_intCast 0] at hle
  exact mul_nonpos_of_nonpos_of_nonneg (by exact_mod_cast hle) (ulp_pos x).le

theorem round_mono_of_pos {x y} (hx : 0 < x) (h : x ≤ y) : round x ≤ round y := by
  have hy := hx.trans_le h
  rcases (Int.log_mono_right hx h).lt_or_eq with hlt | heq
  · calc round x ≤ 2 ^ (Int.log 2 x + 1) := (round_binade hx).2
      _ ≤ 2 ^ Int.log 2 y := zpow_le_zpow_right₀ (by norm_num) hlt
      _ ≤ round y := (round_binade hy).1
  · have hulp : ulp x = ulp y := by rw [ulp, ulp, abs_of_pos hx, abs_of_pos hy, heq]
    have hle := roundHalfEven_mono (div_le_div_of_nonneg_right h (ulp_pos y).le)
    rw [round, round, hulp]
    exact mul_le_mul_of_nonneg_right (by exact_mod_cast hle) (ulp_pos y).le

theorem round_neg (x : ℚ) : round (-x) = -round x := by
  rw [round, round, ulp, abs_neg, ← ulp, neg_div, roundHalfEven_neg]
  push_cast
  ring

theorem round_mono {x y} (h : x ≤ y) : round x ≤ round y := by
  rcases lt_or_ge 0 x with hx | hx
  · exact round_mono_of_pos hx h
  rcases lt_or_ge y 0 with hy | hy
  · have hneg := round_mono_of_pos (neg_pos.mpr hy) (neg_le_neg h)
    rw [round_neg, round_neg] at hneg
    exact neg_le_neg_iff.mp hneg
  · exact (round_nonpos hx).trans (round_nonneg hy)

theorem floor_round_div {u : Int} {scale d : Nat} (hscale : 0 < scale) (hd : 0 < d) (hdouble : d < 2 ^ 53)
    (hsmall : |u| < 2 ^ 52) : ⌊round (round ((u : ℚ) / scale) / round (d : Int))⌋ = u / (scale * d : Int) := by
  have hscaleQ : (0 : ℚ) < scale := by exact_mod_cast hscale
  have hdQ : (0 : ℚ) < d := by exact_mod_cast hd
  have hpos : (0 : Int) < scale * d := by positivity
  rw [round_intCast (by rw [abs_of_nonneg (Int.natCast_nonneg d)]; exact_mod_cast hdouble), Int.cast_natCast]
  have hdivmod := Int.mul_ediv_add_emod u (scale * d)
  generalize hk : u / (scale * d : Int) = k at hdivmod
  by_cases hexact : u % (scale * d : Int) = 0
  · have hu : u = scale * (d * k) := by
      rw [← hdivmod, hexact]
      ring
    have hwhole : (u : ℚ) / scale = ((d * k : Int) : ℚ) := by
      rw [hu, Int.cast_mul, Int.cast_natCast, mul_div_cancel_left₀ _ hscaleQ.ne']
    have hle : |(d * k : Int)| ≤ |u| := by
      rw [hu, abs_mul (scale : Int), abs_of_nonneg (Int.natCast_nonneg scale)]
      exact le_mul_of_one_le_left (abs_nonneg _) (by exact_mod_cast hscale)
    have hkle : |k| ≤ |(d * k : Int)| := by
      rw [abs_mul, abs_of_nonneg (Int.natCast_nonneg d)]
      exact le_mul_of_one_le_left (abs_nonneg _) (by exact_mod_cast hd)
    rw [hwhole, round_intCast (by omega), Int.cast_mul, Int.cast_natCast, mul_div_cancel_left₀ _ hdQ.ne',
      round_intCast (by omega), Int.floor_intCast]
  · have hlow := Int.emod_nonneg u hpos.ne'
    have hhigh := Int.emod_lt_of_pos u hpos
    set x : ℚ := u / scale with hx
    set y := round x
    have hfirst := abs_round_sub x
    have hsecond := abs_round_sub (y / d)
    have hux : (u : ℚ) = x * scale := by rw [hx, div_mul_cancel₀ _ hscaleQ.ne']
    have huabs : |x| * scale ≤ 2 ^ 52 - 1 := by
      have hunit : |u| ≤ 2 ^ 52 - 1 := by omega
      rw [show |x| * scale = |x * scale| by rw [abs_mul, abs_of_pos hscaleQ], ← hux]
      exact_mod_cast hunit
    -- the two errors, in units of the dividend
    have herror : |round (y / d) * (scale * d) - u| < 1 := by
      have hsum : round (y / d) * (scale * d) - u = ((round (y / d) - y / d) * d + (y - x)) * scale := by
        rw [hux]
        field_simp
        ring
      have hquotient : |(round (y / d) - y / d) * d| ≤ |y| / 2 ^ 53 := by
        rw [abs_mul, abs_of_pos hdQ]
        calc |round (y / d) - y / d| * d ≤ |y / d| / 2 ^ 53 * d := mul_le_mul_of_nonneg_right hsecond hdQ.le
          _ = |y| / 2 ^ 53 := by
              rw [abs_div, abs_of_pos hdQ]
              field_simp
      have hy : |y| ≤ |x| + |x| / 2 ^ 53 := by
        have := abs_sub_abs_le_abs_sub y x
        linarith
      have htotal : |(round (y / d) - y / d) * d + (y - x)| ≤ |x| * ((2 + 1 / 2 ^ 53) / 2 ^ 53) := by
        refine le_trans (abs_add_le _ _) ?_
        linarith
      rw [hsum, abs_mul, abs_of_pos hscaleQ]
      calc |(round (y / d) - y / d) * d + (y - x)| * scale ≤ |x| * ((2 + 1 / 2 ^ 53) / 2 ^ 53) * scale :=
            mul_le_mul_of_nonneg_right htotal hscaleQ.le
        _ = |x| * scale * ((2 + 1 / 2 ^ 53) / 2 ^ 53) := by ring
        _ ≤ (2 ^ 52 - 1) * ((2 + 1 / 2 ^ 53) / 2 ^ 53) := mul_le_mul_of_nonneg_right huabs (by positivity)
        _ < 1 := by norm_num
    rw [Int.floor_eq_iff]
    rw [abs_lt] at herror
    have hkQ : (u : ℚ) = scale * d * k + (u % (scale * d : Int) : Int) := by exact_mod_cast hdivmod.symm
    have hr1 : (1 : ℚ) ≤ (u % (scale * d : Int) : Int) := by exact_mod_cast (show 1 ≤ u % (scale * d : Int) by omega)
    have hr2 : ((u % (scale * d : Int) : Int) : ℚ) ≤ scale * d - 1 := by
      exact_mod_cast (show u % (scale * d : Int) ≤ scale * d - 1 by omega)
    have hN : (0 : ℚ) < scale * d := by positivity
    constructor
    · refine le_of_mul_le_mul_right ?_ hN
      linarith
    · refine lt_of_mul_lt_mul_right ?_ hN.le
      linarith

/-! ## The finite doubles as Python's floats -/

/-- A finite double, by its value. A quotient of integers that is none of these raises in Python. -/
structure Rounded where
  val : ℚ
deriving DecidableEq

instance : PyFloat Rounded where
  ofInt n := ⟨round n⟩
  ofRat q := ⟨round q⟩
  add a b := ⟨round (a.val + b.val)⟩
  mul a b := ⟨round (a.val * b.val)⟩
  div a b := ⟨round (a.val / b.val)⟩
  divInt a b := ⟨round (a / b)⟩
  lt a b := decide (a.val < b.val)
  le a b := decide (a.val ≤ b.val)
  eq a b := decide (a.val = b.val)
  floor x := ⌊x.val⌋
  isfinite _ := true
  percent x := toString (roundHalfEven (x.val * 100)) ++ "%"
  general x := general x.val

instance : PartialOrder Rounded := PartialOrder.lift Rounded.val (fun a b h => by cases a; cases b; cases h; rfl)

end Double

end QRadarDashboard.Lib
