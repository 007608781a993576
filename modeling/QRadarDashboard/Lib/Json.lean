import Mathlib.Data.Rat.Floor
import Mathlib.Data.Int.Log

/-!
# Floats and JSON values

A number is an `int` or a float of type `φ`. An object lists its members in order.
-/

namespace QRadarDashboard.Lib

inductive Json (φ : Type) where
  | null
  | bool (b : Bool)
  | int (n : Int)
  | float (x : φ)
  | str (s : String)
  | arr (items : List (Json φ))
  | obj (members : List (String × Json φ))
deriving Repr, Inhabited

abbrev JsonObject (φ : Type) := List (String × Json φ)

variable {φ : Type} [DecidableEq φ]

mutual

def Json.same : Json φ → Json φ → Bool
  | .null, .null => true
  | .bool a, .bool b => a = b
  | .int a, .int b => a = b
  | .float a, .float b => a = b
  | .str a, .str b => a = b
  | .arr as, .arr bs => Json.sameItems as bs
  | .obj as, .obj bs => Json.sameMembers as bs
  | _, _ => false

def Json.sameItems : List (Json φ) → List (Json φ) → Bool
  | [], [] => true
  | a :: as, b :: bs => Json.same a b && Json.sameItems as bs
  | _, _ => false

def Json.sameMembers : List (String × Json φ) → List (String × Json φ) → Bool
  | [], [] => true
  | (k, a) :: as, (l, b) :: bs => k = l && Json.same a b && Json.sameMembers as bs
  | _, _ => false

end

mutual

theorem Json.same_iff : (a b : Json φ) → (Json.same a b = true ↔ a = b)
  | .arr as, b => by cases b <;> simp [Json.same, Json.sameItems_iff as]
  | .obj as, b => by cases b <;> simp [Json.same, Json.sameMembers_iff as]
  | .null, b | .bool _, b | .int _, b | .float _, b | .str _, b => by cases b <;> simp [Json.same]

theorem Json.sameItems_iff : (as bs : List (Json φ)) → (Json.sameItems as bs = true ↔ as = bs)
  | [], bs => by cases bs <;> simp [Json.sameItems]
  | a :: as, bs => by
      cases bs with
      | nil => simp [Json.sameItems]
      | cons b bs => simp [Json.sameItems, Json.same_iff a b, Json.sameItems_iff as bs]

theorem Json.sameMembers_iff : (as bs : List (String × Json φ)) → (Json.sameMembers as bs = true ↔ as = bs)
  | [], bs => by cases bs <;> simp [Json.sameMembers]
  | (k, a) :: as, bs => by
      cases bs with
      | nil => simp [Json.sameMembers]
      | cons item bs =>
        obtain ⟨l, b⟩ := item
        simp [Json.sameMembers, Json.same_iff a b, Json.sameMembers_iff as bs]

end

instance : DecidableEq (Json φ) := fun a b => decidable_of_iff _ (Json.same_iff a b)

/-!
## Floats of the modelled program

The modelled code computes a few densities and shares with floats. The model is generic in the float
type: it names the operations the code uses and assumes no law about them, so every result holds for
IEEE doubles as for exact rationals. `ℚ` is the instance on which definitions are evaluated.
-/

/-- The float operations the modelled code uses. No law is assumed. -/
class PyFloat (φ : Type) where
  /-- `float(n)` -/
  ofInt : Int → φ
  /-- A decimal literal of the source. -/
  ofRat : ℚ → φ
  add : φ → φ → φ
  mul : φ → φ → φ
  div : φ → φ → φ
  /-- `a / b` of two integers. -/
  divInt : Int → Int → φ
  lt : φ → φ → Bool
  le : φ → φ → Bool
  eq : φ → φ → Bool
  /-- `math.floor` -/
  floor : φ → Int
  /-- `math.isfinite` -/
  isfinite : φ → Bool
  /-- `f"{x:.0%}"` -/
  percent : φ → String
  /-- `f"{x:g}"` -/
  general : φ → String

def roundHalfEven (x : ℚ) : Int :=
  let n := ⌊x⌋
  let r := x - n
  if r < 1 / 2 then n
  else if 1 / 2 < r then n + 1
  else if n % 2 = 0 then n else n + 1

def stripFraction (digits fraction : List Char) : List Char :=
  match (fraction.reverse.dropWhile (· = '0')).reverse with
  | [] => digits
  | fraction => digits ++ '.' :: fraction

def significant (x : ℚ) : List Char × Int :=
  let e := Int.log 10 x
  let m := roundHalfEven (x * 10 ^ (5 - e))
  if m = 1000000 then ("100000".toList, e + 1) else ((toString m).toList, e)

/-- `f"{x:g}"` of an exact number. -/
def general (x : ℚ) : String :=
  if x = 0 then "0"
  else
    let (digits, e) := significant |x|
    let sign := if x < 0 then ['-'] else []
    if -4 ≤ e ∧ e < 6 then
      if 0 ≤ e then
        String.ofList (sign ++ stripFraction (digits.take (e.toNat + 1)) (digits.drop (e.toNat + 1)))
      else
        String.ofList (sign ++ stripFraction ['0'] (List.replicate (-e - 1).toNat '0' ++ digits))
    else
      let exponent := (toString e.natAbs).toList
      let padded := if exponent.length < 2 then '0' :: exponent else exponent
      String.ofList (sign ++ stripFraction (digits.take 1) (digits.drop 1) ++
        'e' :: (if e < 0 then '-' else '+') :: padded)
instance : PyFloat ℚ where
  ofInt n := n
  ofRat q := q
  add := (· + ·)
  mul := (· * ·)
  div := (· / ·)
  divInt a b := a / b
  lt a b := decide (a < b)
  le a b := decide (a ≤ b)
  eq a b := decide (a = b)
  floor x := ⌊x⌋
  isfinite _ := true
  percent x := toString (roundHalfEven (x * 100)) ++ "%"
  general := general

/-- The laws of the comparisons that IEEE doubles keep, NaN and the infinities included. -/
class OrderedFloat (φ : Type) [PyFloat φ] : Prop where
  lt_of_lt_of_le : ∀ {a b c : φ}, PyFloat.lt a b = true → PyFloat.le b c = true → PyFloat.lt a c = true
  le_trans : ∀ {a b c : φ}, PyFloat.le a b = true → PyFloat.le b c = true → PyFloat.le a c = true

instance : OrderedFloat ℚ where
  lt_of_lt_of_le := fun {a b c} hab hbc => by
    simp only [PyFloat.lt, PyFloat.le, decide_eq_true_eq] at *
    exact hab.trans_le hbc
  le_trans := fun {a b c} hab hbc => by
    simp only [PyFloat.le, decide_eq_true_eq] at *
    exact hab.trans hbc

end QRadarDashboard.Lib
