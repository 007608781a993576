import QRadarDashboard.Basic
import QRadarDashboard.Lib.Double
import QRadarDashboard.Lib.PyText
import QRadarDashboard.Lib.Sort
import Mathlib.Data.Char

/-!
# The AQL gate (`app/services/aql_validator.py`)

A lexer blanks the literals and the comments of a query; the checks read the tokens of what is left.
-/

namespace QRadarDashboard.Services
open Lib

/-! ## The Unicode tables -/

/-- The character properties the gate reads. On ASCII they are the ones every version of the tables has. -/
structure AqlTables where
  unicode : UnicodeTables
  digits : DigitTables
  /-- `str.upper` of one character. -/
  upper : Char → List Char
  isspace_ascii : ∀ c : Char, c.toNat < 128 → unicode.isspace c = asciiTables.isspace c
  decimal_ascii : ∀ c : Char, c.toNat < 128 → digits.decimal c = asciiDigits.decimal c
  isdigit_ascii : ∀ c : Char, c.toNat < 128 → digits.isdigit c = asciiDigits.isdigit c

namespace AqlTables

variable (t : AqlTables)

def upperText (token : List Char) : List Char := token.flatMap t.upper

/-- `token.isspace()` -/
def isspaceText (token : List Char) : Bool := !token.isEmpty && token.all t.unicode.isspace

end AqlTables

/-! ## The lexer -/

inductive AqlQuote where
  | single | double
deriving DecidableEq

def AqlQuote.char : AqlQuote → Char
  | .single => '\''
  | .double => '"'

def quoteOf (c : Char) : Option AqlQuote :=
  if c = '\'' then some .single else if c = '"' then some .double else none

/-- What one turn of the loop of `_lex` takes. `body` is what stands between the delimiters. -/
inductive AqlPiece where
  | code (c : Char)
  | lineComment (body : List Char)
  | blockComment (body : List Char) (closed : Bool)
  | literal (quote : AqlQuote) (body : List Char) (closed : Bool)

def AqlPiece.text : AqlPiece → List Char
  | .code c => [c]
  | .lineComment body => '-' :: '-' :: body
  | .blockComment body closed => '/' :: '*' :: (body ++ if closed then ['*', '/'] else [])
  | .literal quote body closed => quote.char :: (body ++ if closed then [quote.char] else [])

/-- What a turn appends to `out`. -/
def AqlPiece.blanked : AqlPiece → List Char
  | .code c => [c]
  | piece => List.replicate piece.text.length ' '

/-- `aql.find("*/", i + 2)`: the text before the end of a block comment, and the text after it. -/
def blockBody : List Char → List Char × Option (List Char)
  | [] => ([], none)
  | c :: rest =>
    if c = '*' ∧ rest.head? = some '/' then ([], some rest.tail)
    else (c :: (blockBody rest).1, (blockBody rest).2)

def literalBody (quote : Char) : List Char → List Char × Option (List Char)
  | [] => ([], none)
  | [c] => if c = quote then ([], some []) else ([c], none)
  | c :: d :: rest =>
    if c = quote then
      if d = quote then (c :: d :: (literalBody quote rest).1, (literalBody quote rest).2)
      else ([], some (d :: rest))
    else (c :: (literalBody quote (d :: rest)).1, (literalBody quote (d :: rest)).2)

-- `lexPieces` ends by these
theorem length_blockBody {text body after} (h : blockBody text = (body, some after)) : after.length < text.length := by
  induction text generalizing body with
  | nil => cases h
  | cons c rest ih =>
    rw [blockBody] at h
    split at h
    · cases h
      rw [List.length_tail, List.length_cons]
      omega
    · have := ih (Prod.ext rfl (Prod.mk.inj h).2)
      rw [List.length_cons]
      omega

theorem length_literalBody {quote text body after}
    (h : literalBody quote text = (body, some after)) : after.length < text.length := by
  fun_induction literalBody quote text generalizing body with
  | case1 => cases h
  | case2 =>
    cases h
    exact Nat.one_pos
  | case3 => cases h
  | case4 rest ih =>
    have := ih (Prod.ext rfl (Prod.mk.inj h).2)
    simp only [List.length_cons]
    omega
  | case5 d rest =>
    cases h
    exact Nat.lt_succ_self _
  | case6 c d rest _ ih =>
    have := ih (Prod.ext rfl (Prod.mk.inj h).2)
    simp only [List.length_cons] at this ⊢
    omega

/-- The loop of `_lex` -/
def lexPieces (text : List Char) : List AqlPiece :=
  match text with
  | [] => []
  | c :: rest =>
    if c = '-' ∧ rest.head? = some '-' then
      .lineComment (rest.tail.takeWhile (fun d => d ≠ '\n')) :: lexPieces (rest.tail.dropWhile (fun d => d ≠ '\n'))
    else if c = '/' ∧ rest.head? = some '*' then
      match _hbody : blockBody rest.tail with
      | (body, some after) => .blockComment body true :: lexPieces after
      | (body, none) => [.blockComment body false]
    else
      match quoteOf c with
      | none => .code c :: lexPieces rest
      | some quote =>
        match _hbody : literalBody c rest with
        | (body, some after) => .literal quote body true :: lexPieces after
        | (body, none) => [.literal quote body false]
termination_by text.length
decreasing_by
  · have hdrop := List.length_dropWhile_le (fun d => decide (d ≠ '\n')) rest.tail
    rw [List.length_tail] at hdrop
    rw [List.length_cons]
    omega
  · have := length_blockBody _hbody
    rw [List.length_tail] at this
    rw [List.length_cons]
    omega
  · exact Nat.lt_succ_self _
  · have := length_literalBody _hbody
    rw [List.length_cons]
    omega

/-- `LexResult.stripped` -/
def strippedText (text : List Char) : List Char := (lexPieces text).flatMap AqlPiece.blanked

/-! ## The tokens -/

/-- `[A-Za-z_]` -/
def isWordStart (c : Char) : Bool := c.isAlpha || c = '_'

/-- `[A-Za-z0-9_]` -/
def isWordChar (c : Char) : Bool := c.isAlphanum || c = '_'

/-- `<=`, `>=`, `<>`, `!=`, `::` -/
def isOperatorPair (c d : Char) : Bool :=
  [('<', '='), ('>', '='), ('<', '>'), ('!', '='), (':', ':')].contains (c, d)

/-- `_TOKEN_RE`: how many characters a match that begins with `c` takes of the ones after it. -/
def tokenExtra (t : DigitTables) (c : Char) (rest : List Char) : Nat :=
  if isWordStart c then (rest.takeWhile isWordChar).length
  else if t.isDecimal c then (rest.takeWhile t.isDecimal).length
  else
    match rest with
    | d :: _ => if isOperatorPair c d then 1 else 0
    | [] => 0

theorem tokenExtra_le (t : DigitTables) (c : Char) (rest : List Char) : tokenExtra t c rest ≤ rest.length := by
  unfold tokenExtra
  split
  · exact (List.takeWhile_prefix _).length_le
  · split
    · exact (List.takeWhile_prefix _).length_le
    · split
      · split
        · exact Nat.succ_le_succ (Nat.zero_le _)
        · exact Nat.zero_le _
      · exact Nat.le_refl _

/-- `_TOKEN_RE.findall` -/
def tokenRule (t : DigitTables) : Munch Char where
  extra := tokenExtra t
  extra_le := tokenExtra_le t

def tokensOf (t : AqlTables) (stripped : List Char) : List (List Char) :=
  ((tokenRule t.digits).tokens stripped).filter (fun token => !t.isspaceText token)

/-- `_lex(aql).tokens` -/
def lexTokens (t : AqlTables) (aql : List Char) : List (List Char) := tokensOf t (strippedText aql)

/-! ## The checks -/

def keyword (s : String) : List Char := s.toList

def bannedKeywords : List (List Char) :=
  ["INSERT", "UPDATE", "DELETE", "DROP", "CREATE", "ALTER", "TRUNCATE", "GRANT", "REVOKE", "EXEC", "EXECUTE", "MERGE",
    "REPLACE", "CALL", "COPY", "INTO", "ATTACH", "PRAGMA", "SET", "COMMIT", "ROLLBACK"].map keyword

def allowedDatasets : List (List Char) := ["EVENTS", "FLOWS"].map keyword

def timeWindowTokens : List (List Char) := ["LAST", "START", "STOP"].map keyword

inductive AqlHours where
  | hours (h : ℚ)
  | infinite
deriving DecidableEq

/-- An entry of `reasons`, with what its text names. -/
inductive AqlReason where
  | empty
  | multipleStatements
  | notSelect
  | disallowedKeywords (found : List (List Char))
  | noDataset
  | datasetsNotPermitted (bad : List (List Char))
  | noTimeWindow
  | timeRange (hours : AqlHours) (maxHours : Int)
  | limit (rows : Nat) (maxRows : Int)
deriving DecidableEq

/-- How `validate_aql` ends without a result: `AQLValidationError`, or another exception that escapes. -/
inductive AqlFailure where
  | rejected (reasons : List AqlReason)
  | escaped (e : Exc)
deriving DecidableEq

structure ValidatedAql where
  normalized : List Char
  datasets : List (List Char)
  hasTimeWindow : Bool
deriving DecidableEq

structure AqlLimits where
  maxTimeRangeHours : Option Int := none
  maxResultRows : Option Int := none
  arielMaxTimeRangeHours : Int := 168
  arielMaxResultRows : Int := 10000

/-- `given or default` -/
def orLimit (given : Option Int) (default : Int) : Int :=
  match given with
  | some n => if n = 0 then default else n
  | none => default

def AqlLimits.hours (limits : AqlLimits) : Int := orLimit limits.maxTimeRangeHours limits.arielMaxTimeRangeHours

def AqlLimits.rows (limits : AqlLimits) : Int := orLimit limits.maxResultRows limits.arielMaxResultRows

/-- A `;` that another token follows. -/
def hasNonTrailing (t : AqlTables) : List (List Char) → Bool
  | [] => false
  | token :: rest => (token = [';'] && rest.any (fun later => !t.isspaceText later)) || hasNonTrailing t rest

def extractDatasets : List (List Char) → List (List Char)
  | token :: next :: rest =>
    if token = keyword "FROM" then next :: extractDatasets (next :: rest) else extractDatasets (next :: rest)
  | _ => []

def unitHours (unit : List Char) : Option ℚ :=
  if unit ∈ ["MINUTES", "MINUTE", "MINS", "MIN"].map keyword then some (Double.round (1 / 60))
  else if unit ∈ ["HOURS", "HOUR"].map keyword then some 1
  else if unit ∈ ["DAYS", "DAY"].map keyword then some 24
  else none

def doubleLimit : ℚ := 2 ^ 1024

/-- `n * unit` of an integer and a float. -/
def spanHours (n : Nat) (unit : ℚ) : Except Exc AqlHours :=
  if doubleLimit ≤ Double.round n then .error (.overflow "int too large to convert to float")
  else if doubleLimit ≤ Double.round (Double.round n * unit) then .ok .infinite
  else .ok (.hours (Double.round (Double.round n * unit)))

/-- `int(text)` -/
def readNumber (t : AqlTables) (text : List Char) : Except Exc Nat :=
  (t.digits.readInt text).mapError (fun e => .value e.text)

/-- The number and the unit after the first `LAST` that two tokens follow. -/
def lastClause (t : AqlTables) : List (List Char) → Option (List Char × List Char)
  | token :: number :: unit :: rest =>
    if t.upperText token = keyword "LAST" then some (number, t.upperText unit)
    else lastClause t (number :: unit :: rest)
  | _ => none

/-- `_time_window`: `none` without a window; a window has a size when it is known. -/
def timeWindow (t : AqlTables) (tokens : List (List Char)) : Except Exc (Option (Option AqlHours)) :=
  match lastClause t tokens with
  | some (number, unit) =>
    match t.digits.isdigitText number, unitHours unit with
    | true, some perUnit => do
        let n ← readNumber t number
        let hours ← spanHours n perUnit
        return some (some hours)
    | _, _ => .ok (some none)
  | none =>
    if keyword "START" ∈ tokens.map t.upperText ∧ keyword "STOP" ∈ tokens.map t.upperText then .ok (some none)
    else if (tokens.map t.upperText).any (fun token => timeWindowTokens.contains token) then .ok (some none)
    else .ok none

/-- The number after the first `LIMIT` that a number follows. -/
def limitClause (t : AqlTables) : List (List Char) → Option (List Char)
  | token :: next :: rest =>
    if token = keyword "LIMIT" ∧ t.digits.isdigitText next = true then some next else limitClause t (next :: rest)
  | _ => none

def explicitLimit (t : AqlTables) (upperTokens : List (List Char)) : Except Exc (Option Nat) :=
  match limitClause t upperTokens with
  | some number => do return some (← readNumber t number)
  | none => .ok none

def AqlHours.exceeds (hours : AqlHours) (maxHours : Int) : Bool :=
  match hours with
  | .hours h => (maxHours : ℚ) < h
  | .infinite => true

def datasetReasons (datasets : List (List Char)) : List AqlReason :=
  if datasets = [] then [.noDataset]
  else
    let bad := datasets.filter (fun dataset => !allowedDatasets.contains dataset)
    if bad = [] then [] else [.datasetsNotPermitted bad]

def keywordReasons (upperTokens : List (List Char)) : List AqlReason :=
  let found := sortOn id ((upperTokens.filter (fun token => bannedKeywords.contains token)).dedup)
  if found = [] then [] else [.disallowedKeywords found]

def windowReasons (window : Option (Option AqlHours)) (maxHours : Int) : List AqlReason :=
  match window with
  | none => [.noTimeWindow]
  | some none => []
  | some (some hours) => if hours.exceeds maxHours then [.timeRange hours maxHours] else []

def limitReasons (limit : Option Nat) (maxRows : Int) : List AqlReason :=
  match limit with
  | none => []
  | some n => if maxRows < (n : Int) then [.limit n maxRows] else []

/-- `reasons`, in the order of the checks. -/
def aqlReasons (t : AqlTables) (limits : AqlLimits) (tokens : List (List Char)) (window : Option (Option AqlHours))
    (limit : Option Nat) : List AqlReason :=
  (if hasNonTrailing t tokens then [.multipleStatements] else []) ++
    (if (tokens.map t.upperText).head? = some (keyword "SELECT") then [] else [.notSelect]) ++
    keywordReasons (tokens.map t.upperText) ++ datasetReasons (extractDatasets (tokens.map t.upperText)) ++
    windowReasons window limits.hours ++ limitReasons limit limits.rows

def validateAql (t : AqlTables) (limits : AqlLimits) (aql : List Char) : Except AqlFailure ValidatedAql :=
  if t.unicode.strip aql = [] then .error (.rejected [.empty])
  else do
    let tokens := lexTokens t aql
    let window ← (timeWindow t tokens).mapError AqlFailure.escaped
    let limit ← (explicitLimit t (tokens.map t.upperText)).mapError AqlFailure.escaped
    let reasons := aqlReasons t limits tokens window limit
    if reasons = [] then
      return ⟨t.unicode.strip aql, extractDatasets (tokens.map t.upperText), window.isSome⟩
    else throw (.rejected reasons)

end QRadarDashboard.Services
