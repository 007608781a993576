import Mathlib.Data.List.DropRight

/-!
# Text

Python's `str` methods, which read the Unicode tables, and the digits of `str` and `int`.
-/

namespace QRadarDashboard.Lib

instance lawfulTexts : LawfulBEq (List Char) := inferInstance

/-- The properties of characters that `str.isspace` and `str.isprintable` read. -/
structure UnicodeTables where
  isspace : Char → Bool
  isprintable : Char → Bool

namespace UnicodeTables

variable (u : UnicodeTables)

def rstrip (s : List Char) : List Char := (s.reverse.dropWhile u.isspace).reverse

def strip (s : List Char) : List Char := u.rstrip (s.dropWhile u.isspace)

variable {u}

theorem rstrip_prefix (s : List Char) : u.rstrip s <+: s := List.rdropWhile_prefix _ _

theorem rstrip_ne_nil {s c} (hc : c ∈ s) (hspace : u.isspace c = false) : u.rstrip s ≠ [] := by
  intro hnil
  have h := List.rdropWhile_eq_nil_iff.mp (show s.rdropWhile u.isspace = [] from hnil) c hc
  rw [hspace] at h
  cases h

theorem strip_eq_nil_iff (u : UnicodeTables) (s : List Char) : u.strip s = [] ↔ s.all u.isspace = true := by
  have hnil : s.dropWhile u.isspace = [] ↔ s.all u.isspace = true := by
    rw [List.dropWhile_eq_nil_iff, List.all_eq_true]
  rw [← hnil]
  constructor
  · intro h
    cases hdrop : s.dropWhile u.isspace with
    | nil => rfl
    | cons c rest =>
      have hhead := List.head?_dropWhile_not u.isspace s
      rw [hdrop] at hhead
      rw [strip, hdrop] at h
      exact absurd h (rstrip_ne_nil List.mem_cons_self (by simpa using hhead))
  · intro h
    rw [strip, h]
    rfl

theorem head_strip {s c rest} (h : u.strip s = c :: rest) : u.isspace c = false := by
  have hpre : u.strip s <+: s.dropWhile u.isspace := rstrip_prefix _
  rw [h] at hpre
  obtain ⟨tail, htail⟩ := hpre
  have hhead := List.head?_dropWhile_not u.isspace s
  rw [← htail] at hhead
  simpa using hhead

theorem last_rstrip {s c} (h : (u.rstrip s).getLast? = some c) : u.isspace c = false := by
  obtain ⟨front, hfront⟩ := List.getLast?_eq_some_iff.mp h
  have hne : u.rstrip s ≠ [] := by simp [hfront]
  have hlast := List.rdropWhile_last_not u.isspace s hne
  have hget : (u.rstrip s).getLast hne = c := by simp [hfront]
  exact (congrArg u.isspace hget).symm.trans (Bool.eq_false_iff.mpr hlast)

theorem last_strip {s c front} (h : u.strip s = front ++ [c]) : u.isspace c = false :=
  last_rstrip (List.getLast?_eq_some_iff.mpr ⟨front, h⟩)

theorem strip_eq_self {s c d} (hhead : s.head? = some c) (hc : u.isspace c = false)
    (hlast : s.getLast? = some d) (hd : u.isspace d = false) : u.strip s = s := by
  cases s with
  | nil => cases hhead
  | cons e rest =>
    cases hhead
    obtain ⟨front, hfront⟩ := List.getLast?_eq_some_iff.mp hlast
    rw [strip, List.dropWhile_cons_of_neg (by simp [hc]), hfront]
    exact List.rdropWhile_concat_neg u.isspace front d (by simp [hd])

end UnicodeTables

def asciiTables : UnicodeTables where
  isspace c := c = ' ' ∨ (9 ≤ c.toNat ∧ c.toNat ≤ 13) ∨ (28 ≤ c.toNat ∧ c.toNat ≤ 31)
  isprintable c := 32 ≤ c.toNat ∧ c.toNat < 127

/-! ## `replace` -/

/-- `s.replace(old, new)` behind `skip` characters of an occurrence, for an `old` that is not empty. -/
def replaceFrom (old new : List Char) : Nat → List Char → List Char
  | _, [] => []
  | skip + 1, _ :: rest => replaceFrom old new skip rest
  | 0, c :: rest =>
    if old <+: c :: rest then new ++ replaceFrom old new (old.length - 1) rest
    else c :: replaceFrom old new 0 rest

def replaceText (old new s : List Char) : List Char := replaceFrom old new 0 s

theorem length_replaceFrom {old} (hold : old ≠ []) (skip : Nat) (s : List Char) :
    ∃ base count, (skip = 0 → old <:+: s → 0 < count) ∧
      ∀ new, (replaceFrom old new skip s).length = base + count * new.length := by
  induction s generalizing skip with
  | nil => exact ⟨0, 0, fun _ hinfix => absurd (List.infix_nil.mp hinfix) hold, fun new => by simp [replaceFrom]⟩
  | cons c rest ih =>
    cases skip with
    | succ skip =>
      obtain ⟨base, count, _, hlength⟩ := ih skip
      exact ⟨base, count, nofun, hlength⟩
    | zero =>
      by_cases hpre : old <+: c :: rest
      · obtain ⟨base, count, _, hlength⟩ := ih (old.length - 1)
        refine ⟨base, count + 1, fun _ _ => Nat.succ_pos count, fun new => ?_⟩
        rw [replaceFrom, if_pos hpre, List.length_append, hlength, Nat.succ_mul]
        omega
      · obtain ⟨base, count, hpos, hlength⟩ := ih 0
        refine ⟨base + 1, count, fun _ hinfix => ?_, fun new => ?_⟩
        · exact hpos rfl ((List.infix_cons_iff.mp hinfix).resolve_left hpre)
        · rw [replaceFrom, if_neg hpre, List.length_cons, hlength]
          omega

theorem replaceText_injective {old s} (hold : old ≠ []) (h : old <:+: s) :
    Function.Injective (fun new => replaceText old new s) := by
  intro new new' heq
  have hlength : new.length = new'.length := by
    obtain ⟨base, count, hpos, hlength⟩ := length_replaceFrom hold 0 s
    have hboth := congrArg List.length heq
    simp only [replaceText, hlength] at hboth
    exact Nat.eq_of_mul_eq_mul_left (hpos rfl h) (by omega)
  induction s with
  | nil => exact absurd (List.infix_nil.mp h) hold
  | cons c rest ih =>
    simp only [replaceText, replaceFrom] at heq
    by_cases hpre : old <+: c :: rest
    · rw [if_pos hpre, if_pos hpre] at heq
      exact List.append_inj_left heq hlength
    · rw [if_neg hpre, if_neg hpre] at heq
      exact ih ((List.infix_cons_iff.mp h).resolve_left hpre) (List.cons.inj heq).2

/-! ## The digits of an integer -/

theorem natRepr_injective {m n : Nat} (h : m.repr = n.repr) : m = n := by
  have hdigits : Nat.toDigits 10 m = Nat.toDigits 10 n := by rw [← Nat.toList_repr, ← Nat.toList_repr, h]
  have hvalue := congrArg (fun digits => Nat.ofDigitChars 10 digits 0) hdigits
  simpa using hvalue

theorem natRepr_ne_minus {m : Nat} (text : String) : m.repr ≠ "-" ++ text := by
  intro h
  have hmem : '-' ∈ Nat.toDigits 10 m := by
    rw [← Nat.toList_repr, h, String.toList_append]
    exact List.mem_append_left _ (by decide)
  have hdigit := Nat.isDigit_of_mem_toDigits (by decide) (by decide) hmem
  revert hdigit
  decide

theorem intRepr_injective {a b : Int} (h : a.repr = b.repr) : a = b := by
  rw [Int.repr_eq_if, Int.repr_eq_if] at h
  split_ifs at h
  · have := natRepr_injective h
    omega
  · exact absurd h (natRepr_ne_minus _)
  · exact absurd h.symm (natRepr_ne_minus _)
  · have := natRepr_injective (String.append_right_inj _ |>.mp h)
    omega

theorem intRepr_ne_empty (a : Int) : a.repr ≠ "" := by
  rw [Int.repr_eq_if]
  split_ifs
  · exact Nat.repr_ne_empty
  · exact fun h => by simp at h

/-! ## `int` of a text of digits -/

/-- The properties of characters that `str.isdigit` and `int` read: a decimal digit has a value. -/
structure DigitTables where
  isdigit : Char → Bool
  decimal : Char → Option Nat

/-- The digits `int` accepts, unless the limit is raised. -/
def maxStrDigits : Nat := 4300

/-- Why `int` refuses a text. -/
inductive IntError where
  | invalidLiteral (text : String)
  | tooManyDigits (digits : Nat)
deriving DecidableEq

def IntError.text : IntError → String
  | .invalidLiteral text => "invalid literal for int() with base 10: '" ++ text ++ "'"
  | .tooManyDigits digits =>
    s!"Exceeds the limit ({maxStrDigits} digits) for integer string conversion: value has {digits} digits; " ++
      "use sys.set_int_max_str_digits() to increase the limit"

namespace DigitTables

variable (t : DigitTables)

/-- `text.isdigit()` -/
def isdigitText (text : List Char) : Bool := !text.isEmpty && text.all t.isdigit

def isDecimal (c : Char) : Bool := (t.decimal c).isSome

def value (digits : List Char) : Nat := digits.foldl (fun n c => 10 * n + (t.decimal c).getD 0) 0

/-- `int(text)` of a text without sign, underscore or space: the digits that lead it are counted first. -/
def readInt (text : List Char) : Except IntError Nat :=
  let digits := text.takeWhile t.isDecimal
  if maxStrDigits < digits.length then .error (.tooManyDigits digits.length)
  else if digits.length < text.length ∨ text = [] then .error (.invalidLiteral (String.ofList text))
  else .ok (t.value digits)

variable {t}

/-- A text is read exactly when it is some decimal digits, at most `maxStrDigits` of them. -/
theorem readInt_eq_ok {text n} :
    t.readInt text = .ok n ↔ text ≠ [] ∧ text.all t.isDecimal = true ∧ text.length ≤ maxStrDigits ∧ t.value text = n := by
  have htake : text.all t.isDecimal = true ↔ ¬ (text.takeWhile t.isDecimal).length < text.length := by
    rw [not_lt]
    constructor
    · intro hall
      rw [List.takeWhile_eq_self_iff.mpr (fun c hc => List.all_eq_true.mp hall c hc)]
    · intro hlength
      have hself := (List.takeWhile_prefix (l := text) t.isDecimal).eq_of_length_le hlength
      exact List.all_eq_true.mpr (List.takeWhile_eq_self_iff.mp hself)
  constructor
  · intro h
    unfold readInt at h
    dsimp only at h
    split_ifs at h with hlong hshort
    obtain ⟨hshort, hne⟩ := not_or.mp hshort
    have hall := htake.mpr hshort
    have hself := List.takeWhile_eq_self_iff.mpr (fun c hc => List.all_eq_true.mp hall c hc)
    rw [hself] at h hlong
    exact ⟨hne, hall, not_lt.mp hlong, Except.ok.inj h⟩
  · rintro ⟨hne, hall, hlength, rfl⟩
    have hself := List.takeWhile_eq_self_iff.mpr (fun c hc => List.all_eq_true.mp hall c hc)
    unfold readInt
    dsimp only
    rw [hself, if_neg (not_lt.mpr hlength), if_neg (by simp [hne])]

end DigitTables

/-- What `int` takes as a space: of ASCII less than `str.isspace` does. -/
def UnicodeTables.isIntSpace (u : UnicodeTables) (c : Char) : Bool :=
  if c.toNat < 127 then c = ' ' ∨ (9 ≤ c.toNat ∧ c.toNat ≤ 13) else u.isspace c

/-- The text between the spaces that `int` skips. -/
def UnicodeTables.stripInt (u : UnicodeTables) (text : List Char) : List Char :=
  ((text.dropWhile u.isIntSpace).reverse.dropWhile u.isIntSpace).reverse

def splitSign : List Char → Bool × List Char
  | '-' :: rest => (true, rest)
  | '+' :: rest => (false, rest)
  | text => (false, text)

def strayUnderscore (scanned : List Char) : Prop :=
  scanned.head? = some '_' ∨ scanned.getLast? = some '_' ∨ ['_', '_'] <:+: scanned

instance (scanned : List Char) : Decidable (strayUnderscore scanned) := inferInstanceAs (Decidable (_ ∨ _))

/-- `int(text)` -/
def DigitTables.readSigned (t : DigitTables) (u : UnicodeTables) (text : List Char) : Except IntError Int :=
  let (negative, rest) := splitSign (u.stripInt text)
  let scanned := rest.takeWhile (fun c => t.isDecimal c || c = '_')
  let digits := scanned.filter t.isDecimal
  if strayUnderscore scanned then .error (.invalidLiteral (String.ofList text))
  else if maxStrDigits < digits.length then .error (.tooManyDigits digits.length)
  else if scanned.length < rest.length ∨ scanned = [] then .error (.invalidLiteral (String.ofList text))
  else .ok (if negative then -(t.value digits : Int) else t.value digits)

theorem toNat_of_isDigit {c : Char} (hc : c.isDigit = true) : c.toNat < 128 := by
  simp only [Char.isDigit, Bool.and_eq_true, decide_eq_true_eq, UInt32.le_iff_toNat_le] at hc
  exact lt_of_le_of_lt hc.2 (by decide)

def asciiDigits : DigitTables where
  isdigit c := c.isDigit
  decimal c := if c.isDigit then some (c.toNat - 48) else none

/-- The tables of Python: on ASCII every version has the same. -/
structure PyDigits extends DigitTables where
  decimal_ascii : ∀ c : Char, c.toNat < 128 → decimal c = asciiDigits.decimal c
  isdigit_ascii : ∀ c : Char, c.toNat < 128 → isdigit c = asciiDigits.isdigit c

namespace PyDigits

def ascii : PyDigits := ⟨asciiDigits, fun _ _ => rfl, fun _ _ => rfl⟩

variable (t : PyDigits)

theorem isdigit_of_isDigit {c : Char} (hc : c.isDigit = true) : t.isdigit c = true := by
  rw [t.isdigit_ascii c (toNat_of_isDigit hc)]
  exact hc

theorem decimal_of_isDigit {c : Char} (hc : c.isDigit = true) : t.decimal c = some (c.toNat - 48) := by
  rw [t.decimal_ascii c (toNat_of_isDigit hc)]
  exact if_pos hc

theorem isDecimal_of_isDigit {c} (hc : c.isDigit = true) : t.isDecimal c = true := by
  rw [DigitTables.isDecimal, t.decimal_of_isDigit hc]
  rfl

theorem value_toDigits (n : Nat) : t.value (Nat.toDigits 10 n) = n := by
  have hvalue : t.value (Nat.toDigits 10 n) = Nat.ofDigitChars 10 (Nat.toDigits 10 n) 0 := by
    refine List.foldl_ext _ _ _ (fun k c hc => ?_)
    rw [t.decimal_of_isDigit (Nat.isDigit_of_mem_toDigits (by decide) (by decide) hc)]
    rfl
  rw [hvalue]
  simp

end PyDigits

theorem stripInt_eq_self {u : UnicodeTables} {text} (h : ∀ c ∈ text, u.isIntSpace c = false) :
    u.stripInt text = text := by
  have hdrop : ∀ {l : List Char}, (∀ c ∈ l, u.isIntSpace c = false) → l.dropWhile u.isIntSpace = l := by
    intro l hl
    cases l with
    | nil => rfl
    | cons c l => exact List.dropWhile_cons_of_neg (by simp [hl c List.mem_cons_self])
  rw [UnicodeTables.stripInt, hdrop h, hdrop (fun c hc => h c (List.mem_reverse.mp hc)), List.reverse_reverse]

/-- `int` reads ASCII digits, after a minus or without one. -/
theorem readSigned_digits {u} {minus digits : List Char} (hminus : minus = [] ∨ minus = ['-'])
    (hne : digits ≠ []) (hdigits : digits.all Char.isDigit = true) (hlength : digits.length ≤ maxStrDigits) :
    ∃ n, asciiDigits.readSigned u (minus ++ digits) = .ok n := by
  have hdigit : ∀ c ∈ digits, c.isDigit = true := List.all_eq_true.mp hdigits
  have hnot : ∀ {c : Char}, c.isDigit = false → c ∉ digits := by
    intro c hc hmem
    rw [hdigit c hmem] at hc
    cases hc
  have hspace : ∀ c ∈ minus ++ digits, u.isIntSpace c = false := by
    have hgraph : ∀ {c : Char}, 33 ≤ c.toNat ∧ c.toNat < 127 → u.isIntSpace c = false := by
      rintro c ⟨hlow, hhigh⟩
      rw [UnicodeTables.isIntSpace, if_pos hhigh, decide_eq_false_iff_not]
      rintro (rfl | hc)
      · revert hlow
        decide
      · omega
    intro c hc
    rcases List.mem_append.mp hc with hc | hc
    · rcases hminus with rfl | rfl
      · cases hc
      · rw [List.mem_singleton.mp hc]
        exact hgraph (by decide)
    · have hrange := hdigit c hc
      simp only [Char.isDigit, Bool.and_eq_true, decide_eq_true_eq, UInt32.le_iff_toNat_le] at hrange
      exact hgraph ⟨le_trans (by decide) hrange.1, lt_of_le_of_lt hrange.2 (by decide)⟩
  have hsign : splitSign (minus ++ digits) = (!minus.isEmpty, digits) := by
    rcases hminus with rfl | rfl
    · cases digits with
      | nil => exact absurd rfl hne
      | cons c rest =>
        rw [List.nil_append]
        unfold splitSign
        split
        · rename_i heq
          exact absurd (heq ▸ List.mem_cons_self) (hnot (by decide : '-'.isDigit = false))
        · rename_i heq
          exact absurd (heq ▸ List.mem_cons_self) (hnot (by decide : '+'.isDigit = false))
        · rfl
    · rfl
  have hdecimal : ∀ c ∈ digits, asciiDigits.isDecimal c = true := by
    intro c hc
    simp [DigitTables.isDecimal, asciiDigits, hdigit c hc]
  have hscanned : digits.takeWhile (fun c => asciiDigits.isDecimal c || c = '_') = digits :=
    List.takeWhile_eq_self_iff.mpr (fun c hc => by simp [hdecimal c hc])
  have hstray : ¬ strayUnderscore digits := by
    have hunderscore := hnot (by decide : '_'.isDigit = false)
    rintro (hhead | hlast | hpair)
    · exact hunderscore (List.mem_of_mem_head? hhead)
    · exact hunderscore (List.mem_of_getLast? hlast)
    · exact hunderscore (hpair.subset List.mem_cons_self)
  unfold DigitTables.readSigned
  rw [stripInt_eq_self hspace, hsign]
  simp only [hscanned, hstray, if_false, List.filter_eq_self.mpr hdecimal, not_lt.mpr hlength, lt_irrefl, hne, or_self]
  exact ⟨_, rfl⟩

/-!
## Tokens

A text is cut from the left: a rule says how many of the items that follow belong to the token an item begins. An item
that is a token of its own, and that no token reaches across, separates the tokens before it from those after it.
-/

structure Munch (α : Type) where
  extra : α → List α → Nat
  extra_le : ∀ c rest, extra c rest ≤ rest.length

namespace Munch

variable {α : Type} (m : Munch α)

def tokens (text : List α) : List (List α) :=
  match text with
  | [] => []
  | c :: rest => (c :: rest.take (m.extra c rest)) :: tokens (rest.drop (m.extra c rest))
termination_by text.length
decreasing_by
  simp only [List.length_drop, List.length_cons]
  omega

structure Separates (sep : α) : Prop where
  alone : ∀ rest, m.extra sep rest = 0
  stops : ∀ c before after, m.extra c (before ++ sep :: after) = m.extra c before

variable {m} {sep : α}

theorem tokens_nil : m.tokens [] = [] := by rw [tokens]

theorem tokens_cons (c : α) (rest : List α) :
    m.tokens (c :: rest) = (c :: rest.take (m.extra c rest)) :: m.tokens (rest.drop (m.extra c rest)) := by rw [tokens]

theorem tokens_append_sep (hsep : m.Separates sep) (before after : List α) :
    m.tokens (before ++ sep :: after) = m.tokens before ++ [sep] :: m.tokens after := by
  induction hn : before.length using Nat.strongRecOn generalizing before with
  | ind n ih =>
    cases before with
    | nil =>
      rw [List.nil_append, tokens_cons, hsep.alone, tokens_nil]
      rfl
    | cons c before =>
      have hle := m.extra_le c before
      have hshort : (before.drop (m.extra c before)).length < n := by
        rw [List.length_drop, ← hn, List.length_cons]
        omega
      rw [List.cons_append, tokens_cons, hsep.stops, List.take_append_of_le_length hle,
        List.drop_append_of_le_length hle, ih _ hshort _ rfl, tokens_cons, List.cons_append]

/-- Of the tokens that are kept, those around some separators are those before and those after them, when the
separator itself is not kept. -/
theorem kept_append_seps (hsep : m.Separates sep) {kept : List α → Bool} (hkept : kept [sep] = false) {count}
    (hcount : 0 < count) (before after : List α) :
    (m.tokens (before ++ (List.replicate count sep ++ after))).filter kept =
      (m.tokens before).filter kept ++ (m.tokens after).filter kept := by
  induction count generalizing before with
  | zero => omega
  | succ count ih =>
    rw [List.replicate_succ, List.cons_append, tokens_append_sep hsep, List.filter_append,
      List.filter_cons_of_neg (by rw [hkept]; exact Bool.false_ne_true)]
    cases count with
    | zero => rfl
    | succ count =>
      have h := ih (Nat.succ_pos _) []
      rw [List.nil_append, tokens_nil, List.filter_nil, List.nil_append] at h
      rw [h]

end Munch

end QRadarDashboard.Lib
