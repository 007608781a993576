import QRadarDashboard.Lib.Dict
import QRadarDashboard.Lib.Double
import QRadarDashboard.Lib.UrlParse
import QRadarDashboard.Waf.Observations

/-!
# The rules of the normalizer (`app/waf/normalize.py`)

An endpoint is a path without authority, query and fragment, decoded once, with dot segments resolved and identifiers
replaced by placeholders.
-/

namespace QRadarDashboard.Waf
open Lib

/-- What the normalizer reads of the Unicode tables, of the standard library and of floating point. -/
structure NormalizeTables extends UnicodeTables, UrlTables where
  /-- A character that `\d` matches. -/
  isdecimal : Char → Bool
  upper : List Char → List Char
  lower : List Char → List Char
  /-- `unicodedata.normalize("NFC", s)` -/
  nfc : List Char → List Char
  /-- `math.log2` -/
  log2 : ℚ → ℚ

def maxEndpointLength : Nat := 255
def maxSegmentLength : Nat := 64
def maxPathSegments : Nat := 12

def idSegment : List Char := "\x7bid\x7d".toList
def uuidSegment : List Char := "\x7buuid\x7d".toList
def hexSegment : List Char := "\x7bhex\x7d".toList
def opaqueSegment : List Char := "\x7bopaque\x7d".toList
def longSegment : List Char := "\x7blong\x7d".toList
def truncatedSegment : List Char := "\x7btruncated\x7d".toList
def overlongEndpoint : List Char := "\x7boverlong\x7d".toList

/-! ## Segments -/

/-- A pattern that ends in `$`: at the end, or before a final newline. -/
def matchesLine (pattern : List Char → Bool) (s : List Char) : Bool :=
  pattern s || (decide (s.getLast? = some '\n') && pattern s.dropLast)

variable (t : NormalizeTables)

/-- `\d{1,19}` -/
def numericPattern (s : List Char) : Bool :=
  decide (1 ≤ s.length) && decide (s.length ≤ 19) && s.all t.isdecimal

def uuidBody (s : List Char) : Bool :=
  decide ((s.splitOn '-').map List.length = [8, 4, 4, 4, 12]) && (s.splitOn '-').all (fun group => group.all isHexDigit)

def uuidPattern (s : List Char) : Bool :=
  let opened := if s.head? = some '{' then s.drop 1 else s
  uuidBody (if opened.getLast? = some '}' then opened.dropLast else opened)

/-- `[0-9a-fA-F]{8,}` -/
def hexPattern (s : List Char) : Bool := decide (8 ≤ s.length) && s.all isHexDigit

/-- `v\d+(\.\d+)?`, whatever the case of the `v`. -/
def apiVersionPattern : List Char → Bool
  | [] => false
  | c :: rest =>
    (c = 'v' || c = 'V') && decide (rest.takeWhile t.isdecimal ≠ []) &&
      (match rest.dropWhile t.isdecimal with
        | [] => true
        | d :: minor => d = '.' && decide (minor ≠ []) && minor.all t.isdecimal)

def charCounts (text : List Char) : Dict Char Nat :=
  text.foldl (fun counts char => counts.set char ((counts.get? char).getD 0 + 1)) []

/-- Bits per character. -/
def shannonEntropy (text : List Char) : ℚ :=
  -Double.sum ((charCounts text).map (fun item =>
    let share := Double.round (item.2 / text.length)
    Double.round (share * t.log2 share)))

def isHighEntropy (segment : List Char) : Bool :=
  decide (16 ≤ segment.length) && segment.any Char.isAlpha && segment.any t.isdecimal &&
    decide (7 / 2 ≤ shannonEntropy t segment)

/-- `_template_segment`: the segment kept or the placeholder for it, and the rule that fired. -/
def templateSegment (segment : List Char) : List Char × List String :=
  if matchesLine (apiVersionPattern t) segment then (segment, ["api_version_preserved"])
  else if matchesLine (numericPattern t) segment then (idSegment, ["numeric_segment"])
  else if matchesLine uuidPattern segment then (uuidSegment, ["uuid_segment"])
  else if matchesLine hexPattern segment then (hexSegment, ["hex_segment"])
  else if isHighEntropy t segment then (opaqueSegment, ["opaque_segment"])
  else if maxSegmentLength < segment.length then (longSegment, ["long_segment"])
  else (segment, [])

/-! ## Paths -/

def schemeSeparator : List Char := [':', '/', '/']

def stripTarget (text : List Char) : Except Exc (List Char × List String) :=
  if schemeSeparator <:+: text then
    match urlsplit t.toUrlTables text with
    | .error message => .error (.value message)
    | .ok split => .ok (split.path,
        (if split.scheme ≠ [] ∨ split.netloc ≠ [] then ["authority_stripped"] else []) ++
          (if split.query ≠ [] then ["query_stripped"] else []) ++
          if split.fragment ≠ [] then ["fragment_stripped"] else [])
  else .ok (beforeChar '?' (beforeChar '#' text),
    (if '#' ∈ text then ["fragment_stripped"] else []) ++
      if '?' ∈ beforeChar '#' text then ["query_stripped"] else [])

def decodeOnce (raw : List Char) : List Char × List String :=
  (t.nfc (unquote raw),
    (if unquote raw ≠ raw then ["percent_decoded"] else []) ++
      if replacementChar ∈ unquote raw then ["invalid_bytes"] else [])

def isControl (c : Char) : Bool := decide (c.toNat ≤ 0x1f) || c.toNat = 0x7f

/-- `_CONTROL.sub("", s)` -/
def withoutControls (s : List Char) : List Char := s.filter (fun c => !isControl c)

def parentSegment : List Char := ['.', '.']

/-- One segment against the stack, which `..` pops. It climbs above the root when there is nothing to pop. -/
def resolveSegment (acc : List (List Char) × Bool) (part : List Char) : List (List Char) × Bool :=
  if part = parentSegment then
    if acc.1 = [] then (acc.1, true) else (acc.1.dropLast, acc.2)
  else (acc.1 ++ [part], acc.2)

def pathParts (path : List Char) : List (List Char) :=
  (path.splitOn '/').filter (fun part => decide (part ≠ []) && decide (part ≠ ['.']))

def joinSegments (segments : List (List Char)) : List Char :=
  if segments = [] then ['/'] else segments.flatMap (fun segment => '/' :: segment)

/-- `tuple(sorted(rules))` -/
def sortedRules (rules : List String) : List String := sortOn (fun rule => rule) rules.dedup

def templateStack (stack : List (List Char)) : List (List Char) :=
  (stack.take maxPathSegments).map (fun segment => (templateSegment t segment).1) ++
    if maxPathSegments < stack.length then [truncatedSegment] else []

def endpointOfPath (path : List Char) (rules : List String) : NormalizedEndpoint :=
  let resolved := (pathParts path).foldl resolveSegment ([], false)
  let endpoint := joinSegments (templateStack t resolved.1)
  let rules := rules ++
    (if ['/', '/'] <:+: path then ["repeated_slashes"] else []) ++
    (if ['.'] ∈ path.splitOn '/' then ["dot_segment"] else []) ++
    (if parentSegment ∈ pathParts path then ["parent_segment"] else []) ++
    (if maxPathSegments < resolved.1.length then ["path_truncated"] else []) ++
    (resolved.1.take maxPathSegments).flatMap (fun segment => (templateSegment t segment).2) ++
    if maxEndpointLength < endpoint.length then ["overlong"] else []
  { value := some (String.ofList (if maxEndpointLength < endpoint.length then overlongEndpoint else endpoint))
    rules := sortedRules rules
    traversalAttempt := resolved.2 }

def normalizePath (path : List Char) (rules : List String) : NormalizedEndpoint :=
  let decoded := decodeOnce t path
  let clean := withoutControls decoded.1
  let rules := rules ++ decoded.2 ++ if decoded.1.any isControl then ["control_stripped"] else []
  if clean = [] then { value := none, rules := sortedRules (rules ++ ["empty_path"]) }
  else endpointOfPath t clean rules

def normalizeEndpoint (rawUrl : Option String) : Except Exc NormalizedEndpoint :=
  match rawUrl with
  | none => .ok { value := none, rules := ["absent"] }
  | some raw =>
    if t.strip raw.toList = [] then .ok { value := none, rules := ["empty"] }
    else (stripTarget t (t.strip raw.toList)).map (fun target => normalizePath t target.1 target.2)

/-! ## The other fields -/

def supportedMethods : List String :=
  ["GET", "HEAD", "POST", "PUT", "PATCH", "DELETE", "OPTIONS", "TRACE", "CONNECT"]

def normalizeMethod (rawMethod : Option String) : Option String :=
  match rawMethod with
  | none => none
  | some raw =>
    let candidate := String.ofList (t.upper (t.strip raw.toList))
    if candidate ∈ supportedMethods then some candidate else none

inductive RawCode where
  | absent
  | bool (b : Bool)
  | int (n : Int)
  | text (s : String)

/-- The digits `int()` accepts, unless the limit is raised. -/
def intMaxStrDigits : Nat := 4300

/-- `int(text)` of ASCII digits. -/
def parseInt (digits : List Char) : Except Exc Int :=
  if intMaxStrDigits < digits.length then
    .error (.value (s!"Exceeds the limit ({intMaxStrDigits} digits) for integer string conversion: value has " ++
      s!"{digits.length} digits; use sys.set_int_max_str_digits() to increase the limit"))
  else .ok (Nat.ofDigitChars 10 digits 0)

def statusOf (value : Int) : Option Int := if 100 ≤ value ∧ value ≤ 599 then some value else none

def normalizeResponseCode (rawCode : RawCode) : Except Exc (Option Int) :=
  match rawCode with
  | .absent => .ok none
  | .bool _ => .ok none
  | .int n => .ok (statusOf n)
  | .text s =>
    let text := t.strip s.toList
    if text ≠ [] ∧ text.all Char.isDigit then (parseInt text).map statusOf else .ok none

def normalizeVirtualHost (rawHost : Option String) : Option String :=
  match rawHost with
  | none => none
  | some raw =>
    let host := t.lower (t.strip raw.toList)
    if host = [] then none
    else
      let host := withoutControls host
      let host := if host.head? ≠ some '[' ∧ host.count ':' = 1 then beforeChar ':' host else host
      let host := (host.reverse.dropWhile (fun c => c = '.')).reverse
      if host.take 255 = [] then none else some (String.ofList (host.take 255))

def normalizer : Normalizer where
  endpoint := normalizeEndpoint t
  method := normalizeMethod t
  virtualHost := normalizeVirtualHost t

end QRadarDashboard.Waf
