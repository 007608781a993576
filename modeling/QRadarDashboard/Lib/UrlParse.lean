import QRadarDashboard.Lib.PyText
import Mathlib.Data.List.Infix

/-!
# URLs

`urlsplit` and `unquote` of Python's `urllib.parse`. Unicode normalization and IP addresses are parameters.
-/

namespace QRadarDashboard.Lib

/-- What `urlsplit` reads of other modules. -/
structure UrlTables where
  /-- `unicodedata.normalize("NFKC", s)` -/
  nfkc : List Char → List Char
  /-- The version of `ipaddress.ip_address(host)`, or the message of its error. -/
  ipVersion : List Char → Except String Nat

def isAscii (c : Char) : Bool := c.toNat < 128

def isHexDigit (c : Char) : Bool :=
  c.isDigit || (decide ('a' ≤ c) && decide (c ≤ 'f')) || (decide ('A' ≤ c) && decide (c ≤ 'F'))

/-- `s.split(c, 1)[0]` -/
def beforeChar (c : Char) (s : List Char) : List Char := s.takeWhile (fun d => d ≠ c)

/-- What `s.split(c, 1)` puts behind the separator. -/
def afterChar (c : Char) (s : List Char) : List Char := (s.dropWhile (fun d => d ≠ c)).drop 1

theorem beforeChar_append {c s} (h : c ∉ s) (rest : List Char) : beforeChar c (s ++ c :: rest) = s := by
  unfold beforeChar
  rw [List.takeWhile_append_of_pos (fun d hd => by simpa using fun heq : d = c => h (heq ▸ hd)),
    List.takeWhile_cons_of_neg (by simp), List.append_nil]

theorem beforeChar_of_not_mem {c s} (h : c ∉ s) : beforeChar c s = s := by
  unfold beforeChar
  rw [List.takeWhile_eq_self_iff]
  intro d hd
  simpa using fun heq : d = c => h (heq ▸ hd)

/-! ## Splitting -/

structure SplitResult where
  scheme : List Char
  netloc : List Char
  path : List Char
  query : List Char
  fragment : List Char

def unsafeUrlByte (c : Char) : Bool := c = '\t' || c = '\r' || c = '\n'

/-- A character of `scheme_chars`. -/
def schemeChar (c : Char) : Bool := c.isAlphanum || c = '+' || c = '-' || c = '.'

def splitScheme (url : List Char) : List Char × List Char :=
  let name := beforeChar ':' url
  if ':' ∈ url ∧ name.head?.any Char.isAlpha ∧ name.all schemeChar then (name.map Char.toLower, afterChar ':' url)
  else ([], url)

/-- The authority after a leading `//`, and the rest. -/
def splitNetloc : List Char → List Char × List Char
  | '/' :: '/' :: rest =>
    let delimiter := fun c => c = '/' || c = '?' || c = '#'
    (rest.takeWhile (fun c => !delimiter c), rest.dropWhile (fun c => !delimiter c))
  | url => ([], url)

/-- `_check_bracketed_host`: the message of the error it raises. -/
def bracketedHostError? (t : UrlTables) (host : List Char) : Option String :=
  match host with
  | 'v' :: version =>
    match version.dropWhile isHexDigit with
    | '.' :: address =>
      if version.head?.any isHexDigit ∧ address ≠ [] then none else some "IPvFuture address is invalid"
    | _ => some "IPvFuture address is invalid"
  | host =>
    match t.ipVersion host with
    | .error message => some message
    | .ok version => if version = 4 then some "An IPv4 address cannot be in brackets" else none

def bracketedNetlocError? (t : UrlTables) (netloc : List Char) : Option String :=
  let hostnameAndPort := (netloc.reverse.takeWhile (fun c => c ≠ '@')).reverse
  if '[' ∈ hostnameAndPort then
    let bracketed := afterChar '[' hostnameAndPort
    if beforeChar '[' hostnameAndPort ≠ [] then some "Invalid IPv6 URL"
    else if (afterChar ']' bracketed).head?.any (fun c => c ≠ ':') then some "Invalid IPv6 URL"
    else bracketedHostError? t (beforeChar ']' bracketed)
  else bracketedHostError? t (beforeChar ':' hostnameAndPort)

/-- `_checknetloc`: a character that NFKC turns into a delimiter is refused. -/
def netlocError? (t : UrlTables) (netloc : List Char) : Option String :=
  let n := netloc.filter (fun c => c ≠ '@' && c ≠ ':' && c ≠ '#' && c ≠ '?')
  if netloc.all isAscii then none
  else if n = t.nfkc n then none
  else if (t.nfkc n).any (fun c => c = '/' || c = '?' || c = '#' || c = '@' || c = ':') then
    some ("netloc '" ++ String.ofList netloc ++ "' contains invalid characters under NFKC normalization")
  else none

/-- What `urlsplit` refuses an authority for. -/
def authorityError? (t : UrlTables) (netloc : List Char) : Option String :=
  if decide ('[' ∈ netloc) ≠ decide (']' ∈ netloc) then some "Invalid IPv6 URL"
  else if '[' ∈ netloc ∧ (bracketedNetlocError? t netloc).isSome then bracketedNetlocError? t netloc
  else netlocError? t netloc

/-- The text `urlsplit` parses: without leading controls and spaces, and without the characters it removes. -/
def cleanUrl (url : List Char) : List Char :=
  (url.dropWhile (fun c => c.toNat ≤ 0x20)).filter (fun c => !unsafeUrlByte c)

def authorityAndRest (url : List Char) : List Char × List Char := splitNetloc (splitScheme (cleanUrl url)).2

/-- `urlsplit(url)`, or the message of the `ValueError` it raises. -/
def urlsplit (t : UrlTables) (url : List Char) : Except String SplitResult :=
  match authorityError? t (authorityAndRest url).1 with
  | some message => .error message
  | none => .ok {
      scheme := (splitScheme (cleanUrl url)).1
      netloc := (authorityAndRest url).1
      path := beforeChar '?' (beforeChar '#' (authorityAndRest url).2)
      query := afterChar '?' (beforeChar '#' (authorityAndRest url).2)
      fragment := afterChar '#' (authorityAndRest url).2 }

/-! ### The path of a request target -/

theorem infix_append_cons {α : Type} {pattern l₁ l₂ : List α} {x} (h : pattern <:+: l₁ ++ x :: l₂)
    (hx : x ∉ pattern) : pattern <:+: l₁ ∨ pattern <:+: l₂ := by
  obtain ⟨s, e, heq⟩ := h
  rcases List.append_eq_append_iff.mp heq with ⟨a, hleft, _⟩ | ⟨c, hleft, hright⟩
  · exact Or.inl ⟨s, a, hleft.symm⟩
  · cases c with
    | nil => exact Or.inl ⟨s, [], by simpa using hleft⟩
    | cons y c =>
      rw [List.cons_append, List.cons.injEq] at hright
      obtain ⟨rfl, hright⟩ := hright
      -- The pattern ends behind the separator, so it begins behind it.
      have hsplit : s ++ pattern = (l₁ ++ [x]) ++ c := by simpa using hleft
      rcases List.append_eq_append_iff.mp hsplit with ⟨a, ha, hc⟩ | ⟨a, _, hc⟩
      · cases a using List.reverseRecOn with
        | nil => exact Or.inr ⟨[], e, by rw [hright, hc]; simp⟩
        | append_singleton a y =>
          rw [← List.append_assoc] at ha
          have hlast : x = y := by simpa using (List.append_inj' ha rfl).2
          subst hlast
          exact absurd (by simp [hc]) hx
      · exact Or.inr ⟨a, e, by rw [hright, hc]⟩

theorem authorityError?_nil (t : UrlTables) : authorityError? t [] = none := by
  simp [authorityError?, netlocError?]

theorem cleanUrl_of_slash (rest : List Char) :
    cleanUrl ('/' :: rest) = ('/' :: rest).filter (fun c => !unsafeUrlByte c) := by
  rw [cleanUrl, List.dropWhile_cons_of_neg (by decide)]

theorem splitScheme_of_slash (rest : List Char) : splitScheme ('/' :: rest) = ([], '/' :: rest) := by
  have hname : beforeChar ':' ('/' :: rest) = '/' :: beforeChar ':' rest := by
    rw [beforeChar, List.takeWhile_cons_of_pos (by decide)]
    rfl
  unfold splitScheme
  rw [hname]
  simp

theorem splitNetloc_of_path {url} (h : ¬ ['/', '/'] <+: url) : splitNetloc url = ([], url) := by
  unfold splitNetloc
  split
  · rename_i rest
    exact absurd ⟨rest, rfl⟩ h
  · rfl

theorem path_of_query {path query} (hquery : '?' ∉ path) (hfragment : '#' ∉ path) :
    beforeChar '?' (beforeChar '#' (path ++ '?' :: query)) = path := by
  have hcut : beforeChar '#' (path ++ '?' :: query) = path ++ '?' :: beforeChar '#' query := by
    unfold beforeChar
    rw [List.takeWhile_append_of_pos (fun c hc => by simpa using fun heq : c = '#' => hfragment (heq ▸ hc)),
      List.takeWhile_cons_of_pos (by decide)]
  rw [hcut, beforeChar_append hquery]

theorem authorityAndRest_query {path query} (hslash : path.head? = some '/') (hquery : '?' ∉ path) :
    authorityAndRest (path ++ '?' :: query) = ((authorityAndRest path).1,
        (authorityAndRest path).2 ++ '?' :: query.filter (fun c => !unsafeUrlByte c)) ∧
      ∀ c ∈ (authorityAndRest path).2, c ∈ path := by
  obtain ⟨tail, rfl⟩ : ∃ tail, path = '/' :: tail := by
    cases path with
    | nil => cases hslash
    | cons c tail =>
      cases hslash
      exact ⟨tail, rfl⟩
  have hslashSafe : unsafeUrlByte '/' = false := by decide
  have hquerySafe : unsafeUrlByte '?' = false := by decide
  have hpath : authorityAndRest ('/' :: tail) = splitNetloc ('/' :: tail.filter (fun c => !unsafeUrlByte c)) := by
    rw [authorityAndRest, cleanUrl_of_slash, List.filter_cons_of_pos (by simp [hslashSafe]), splitScheme_of_slash]
  have hall : authorityAndRest (('/' :: tail) ++ '?' :: query) =
      splitNetloc ('/' :: (tail.filter (fun c => !unsafeUrlByte c) ++
        '?' :: query.filter (fun c => !unsafeUrlByte c))) := by
    rw [authorityAndRest, List.cons_append, cleanUrl_of_slash, List.filter_cons_of_pos (by simp [hslashSafe]),
      splitScheme_of_slash, List.filter_append, List.filter_cons_of_pos (by simp [hquerySafe])]
  have hsub : ∀ c ∈ tail.filter (fun c => !unsafeUrlByte c), c ∈ '/' :: tail :=
    fun c hc => List.mem_cons_of_mem _ (List.mem_filter.mp hc).1
  rw [hpath, hall]
  generalize tail.filter (fun c => !unsafeUrlByte c) = clean at hsub ⊢
  generalize query.filter (fun c => !unsafeUrlByte c) = query
  cases clean with
  | nil => exact ⟨rfl, by simp [splitNetloc]⟩
  | cons c clean =>
    by_cases hc : c = '/'
    · subst hc
      have hno : '?' ∉ clean := fun h => hquery (hsub _ (List.mem_cons_of_mem _ h))
      have hnetloc : ∀ l, splitNetloc ('/' :: '/' :: l) =
        (l.takeWhile (fun c => !(c = '/' || c = '?' || c = '#')), l.dropWhile (fun c => !(c = '/' || c = '?' || c = '#'))) :=
        fun _ => rfl
      rw [List.cons_append, hnetloc, hnetloc, List.takeWhile_append, List.dropWhile_append]
      refine ⟨?_, fun d hd => hsub d (List.mem_cons_of_mem _ ((List.dropWhile_sublist _).subset hd))⟩
      by_cases hend : clean.dropWhile (fun c => !(c = '/' || c = '?' || c = '#')) = []
      · -- The authority is the whole path, and the query delimits it.
        have htake : clean.takeWhile (fun c => !(c = '/' || c = '?' || c = '#')) = clean := by
          have := List.takeWhile_append_dropWhile (p := fun c => !(c = '/' || c = '?' || c = '#')) (l := clean)
          rwa [hend, List.append_nil] at this
        rw [htake, hend]
        simp
      · have hshort : (clean.takeWhile (fun c => !(c = '/' || c = '?' || c = '#'))).length ≠ clean.length := by
          intro hlength
          have := congrArg List.length
            (List.takeWhile_append_dropWhile (p := fun c => !(c = '/' || c = '?' || c = '#')) (l := clean))
          rw [List.length_append, hlength] at this
          exact hend (List.length_eq_zero_iff.mp (by omega))
        rw [if_neg hshort, if_neg (fun hnil => hend (List.isEmpty_iff.mp hnil))]
    · have hnot : ∀ l, ¬ ['/', '/'] <+: '/' :: c :: l := by
        rintro l ⟨rest, hparts⟩
        simp only [List.cons_append, List.nil_append, List.cons.injEq, true_and] at hparts
        exact hc hparts.1.symm
      rw [List.cons_append, splitNetloc_of_path (hnot _), splitNetloc_of_path (hnot _)]
      refine ⟨rfl, fun d hd => ?_⟩
      rcases List.mem_cons.mp hd with rfl | hd
      · exact List.mem_cons_self
      · exact hsub d hd

/-- `urlsplit` reads the path of a target with a query as it reads the target without. -/
theorem urlsplit_query (t : UrlTables) {path query} (hslash : path.head? = some '/')
    (hquery : '?' ∉ path) (hfragment : '#' ∉ path) (hnone : authorityError? t (authorityAndRest path).1 = none) :
    ∃ split, urlsplit t (path ++ '?' :: query) = .ok split ∧ split.path = (authorityAndRest path).2 := by
  obtain ⟨hrest, hsub⟩ := @authorityAndRest_query path query hslash hquery
  unfold urlsplit
  rw [hrest, hnone]
  exact ⟨_, rfl, path_of_query (fun h => hquery (hsub _ h)) (fun h => hfragment (hsub _ h))⟩

theorem urlsplit_query_error (t : UrlTables) {path query} (hslash : path.head? = some '/')
    (hquery : '?' ∉ path) {message} (herror : authorityError? t (authorityAndRest path).1 = some message) :
    urlsplit t (path ++ '?' :: query) = .error message := by
  unfold urlsplit
  rw [(authorityAndRest_query hslash hquery).1, herror]

/-- A path that begins no authority and holds no character that `urlsplit` removes is read as it is. -/
theorem authorityAndRest_of_safe {path} (hslash : path.head? = some '/') (hsafe : ∀ c ∈ path, unsafeUrlByte c = false)
    (hnone : ¬ ['/', '/'] <+: path) : authorityAndRest path = ([], path) := by
  obtain ⟨tail, rfl⟩ : ∃ tail, path = '/' :: tail := by
    cases path with
    | nil => cases hslash
    | cons c tail =>
      cases hslash
      exact ⟨tail, rfl⟩
  have hclean : ('/' :: tail).filter (fun c => !unsafeUrlByte c) = '/' :: tail :=
    List.filter_eq_self.mpr (fun c hc => by simp [hsafe c hc])
  rw [authorityAndRest, cleanUrl_of_slash, hclean, splitScheme_of_slash, splitNetloc_of_path hnone]

/-! ## Percent decoding -/

def hexValue (c : Char) : Nat :=
  if c.isDigit then c.toNat - '0'.toNat else c.toLower.toNat - 'a'.toNat + 10

/-- `unquote_to_bytes` of ASCII text: a malformed escape stays as it is. -/
def unquoteToBytes : List Char → List Nat
  | '%' :: a :: b :: rest =>
    if isHexDigit a && isHexDigit b then (hexValue a * 16 + hexValue b) :: unquoteToBytes rest
    else '%'.toNat :: unquoteToBytes (a :: b :: rest)
  | c :: rest => c.toNat :: unquoteToBytes rest
  | [] => []

/-- A character begun: the bits so far, the bytes owed and the bounds of the next one. -/
structure Utf8Pending where
  code : Nat
  owed : Nat
  low : Nat
  high : Nat

def replacementChar : Char := '\uFFFD'

def utf8Lead (b : Nat) : List Char × Option Utf8Pending :=
  if b < 0x80 then ([Char.ofNat b], none)
  else if 0xC2 ≤ b ∧ b ≤ 0xDF then ([], some ⟨b - 0xC0, 1, 0x80, 0xBF⟩)
  else if b = 0xE0 then ([], some ⟨0, 2, 0xA0, 0xBF⟩)
  else if b = 0xED then ([], some ⟨0xD, 2, 0x80, 0x9F⟩)
  else if 0xE1 ≤ b ∧ b ≤ 0xEF then ([], some ⟨b - 0xE0, 2, 0x80, 0xBF⟩)
  else if b = 0xF0 then ([], some ⟨0, 3, 0x90, 0xBF⟩)
  else if 0xF1 ≤ b ∧ b ≤ 0xF3 then ([], some ⟨b - 0xF0, 3, 0x80, 0xBF⟩)
  else if b = 0xF4 then ([], some ⟨4, 3, 0x80, 0x8F⟩)
  else ([replacementChar], none)

def utf8Step (pending : Option Utf8Pending) (b : Nat) : List Char × Option Utf8Pending :=
  match pending with
  | none => utf8Lead b
  | some p =>
    if p.low ≤ b ∧ b ≤ p.high then
      if p.owed = 1 then ([Char.ofNat (p.code * 64 + (b - 0x80))], none)
      else ([], some ⟨p.code * 64 + (b - 0x80), p.owed - 1, 0x80, 0xBF⟩)
    else (replacementChar :: (utf8Lead b).1, (utf8Lead b).2)

/-- `bytes.decode("utf-8", "replace")` -/
def decodeUtf8 (pending : Option Utf8Pending) : List Nat → List Char
  | [] => if pending.isSome then [replacementChar] else []
  | b :: rest => (utf8Step pending b).1 ++ decodeUtf8 (utf8Step pending b).2 rest

/-- `unquote(s, errors="replace")`: each run of ASCII characters is decoded on its own. -/
def unquote (s : List Char) : List Char :=
  if '%' ∉ s then s
  else (s.splitBy (fun a b => isAscii a == isAscii b)).flatMap (fun run =>
    if run.all isAscii then decodeUtf8 none (unquoteToBytes run) else run)

example : unquote "/caf%C3%A9/%FF%FE/%zz".toList = "/café/\uFFFD\uFFFD/%zz".toList := by decide

end QRadarDashboard.Lib
