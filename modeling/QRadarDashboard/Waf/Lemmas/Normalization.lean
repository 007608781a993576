import QRadarDashboard.Waf.Normalization

/-!
# The shape of a normalized endpoint
-/

namespace QRadarDashboard.Waf
open Lib

variable {t : NormalizeTables}

/-! ## Splitting -/

theorem splitOn_cons (sep c : Char) (l : List Char) :
    ∃ group groups, l.splitOn sep = group :: groups ∧
      (c :: l).splitOn sep = if c = sep then [] :: group :: groups else (c :: group) :: groups := by
  obtain ⟨group, groups, hsplit⟩ := List.exists_cons_of_ne_nil (List.splitOn_ne_nil sep l)
  refine ⟨group, groups, hsplit, ?_⟩
  rw [List.splitOn_cons_eq_if_modifyHead, hsplit]
  by_cases h : c = sep <;> simp [h]

theorem mem_of_mem_splitOn {sep} {l group : List Char} (h : group ∈ l.splitOn sep) : ∀ c ∈ group, c ∈ l ∧ c ≠ sep := by
  induction l generalizing group with
  | nil =>
    rw [List.splitOn_nil, List.mem_singleton] at h
    subst h
    simp
  | cons d l ih =>
    obtain ⟨first, groups, hsplit, hcons⟩ := splitOn_cons sep d l
    rw [hcons] at h
    have hrest : ∀ other ∈ first :: groups, ∀ c ∈ other, c ∈ d :: l ∧ c ≠ sep := by
      intro other hother c hc
      obtain ⟨hmem, hne⟩ := ih (hsplit ▸ hother) c hc
      exact ⟨List.mem_cons_of_mem _ hmem, hne⟩
    split at h
    · rcases List.mem_cons.mp h with rfl | h
      · simp
      · exact hrest group h
    · rename_i hne
      rcases List.mem_cons.mp h with rfl | h
      · intro c hc
        rcases List.mem_cons.mp hc with rfl | hc
        · exact ⟨List.mem_cons_self, hne⟩
        · exact hrest first List.mem_cons_self c hc
      · exact hrest group (List.mem_cons_of_mem _ h)

theorem exists_mem_splitOn {sep c} {l : List Char} (h : c ∈ l) (hne : c ≠ sep) :
    ∃ group ∈ l.splitOn sep, c ∈ group := by
  induction l with
  | nil => cases h
  | cons d l ih =>
    obtain ⟨first, groups, hsplit, hcons⟩ := splitOn_cons sep d l
    rw [hcons]
    rcases List.mem_cons.mp h with rfl | h
    · rw [if_neg hne]
      exact ⟨_, List.mem_cons_self, List.mem_cons_self⟩
    · obtain ⟨group, hgroup, hc⟩ := ih h
      rw [hsplit] at hgroup
      split
      · exact ⟨group, List.mem_cons_of_mem _ hgroup, hc⟩
      · rcases List.mem_cons.mp hgroup with rfl | hgroup
        · exact ⟨_, List.mem_cons_self, List.mem_cons_of_mem _ hc⟩
        · exact ⟨group, List.mem_cons_of_mem _ hgroup, hc⟩

/-! ## Dot segments -/

theorem mem_foldl_resolve {parts : List (List Char)} {acc segment} (h : segment ∈ (parts.foldl resolveSegment acc).1) :
    segment ∈ acc.1 ∨ segment ∈ parts ∧ segment ≠ parentSegment := by
  induction parts generalizing acc with
  | nil => exact Or.inl h
  | cons part parts ih =>
    rcases ih h with hacc | ⟨hmem, hne⟩
    · unfold resolveSegment at hacc
      split at hacc
      · split at hacc
        · exact Or.inl hacc
        · exact Or.inl (List.mem_of_mem_dropLast hacc)
      · rename_i hpart
        rcases List.mem_append.mp hacc with hacc | hacc
        · exact Or.inl hacc
        · rw [List.mem_singleton.mp hacc]
          exact Or.inr ⟨List.mem_cons_self, hpart⟩
    · exact Or.inr ⟨List.mem_cons_of_mem _ hmem, hne⟩

/-- Some prefix of the parts, read from a stack of `depth` segments, has more parents than other segments. -/
def Climbs (depth : Nat) (parts : List (List Char)) : Prop :=
  ∃ k, depth + ((parts.take k).countP (fun part => part ≠ parentSegment)) <
    (parts.take k).count parentSegment

theorem climbs_cons (depth : Nat) (part : List Char) (parts : List (List Char)) :
    Climbs depth (part :: parts) ↔
      if part = parentSegment then depth = 0 ∨ Climbs (depth - 1) parts else Climbs (depth + 1) parts := by
  have hcons : ∀ k, ((part :: parts).take (k + 1)).countP (fun part => part ≠ parentSegment) =
        (parts.take k).countP (fun part => part ≠ parentSegment) + (if part = parentSegment then 0 else 1) ∧
      ((part :: parts).take (k + 1)).count parentSegment =
        (parts.take k).count parentSegment + (if part = parentSegment then 1 else 0) := by
    intro k
    rw [List.take_succ_cons, List.countP_cons, List.count_cons]
    by_cases hparent : part = parentSegment <;> simp [hparent]
  constructor
  · rintro ⟨k, hk⟩
    cases k with
    | zero => simp at hk
    | succ k =>
      rw [(hcons k).1, (hcons k).2] at hk
      split at hk
      · rename_i hparent
        rw [if_pos hparent]
        by_cases hzero : depth = 0
        · exact Or.inl hzero
        · exact Or.inr ⟨k, by omega⟩
      · rename_i hparent
        rw [if_neg hparent]
        exact ⟨k, by omega⟩
  · intro h
    split at h
    · rename_i hparent
      rcases h with hzero | ⟨k, hk⟩
      · exact ⟨1, by simp [hparent, hzero]⟩
      · refine ⟨k + 1, ?_⟩
        rw [(hcons k).1, (hcons k).2, if_pos hparent, if_pos hparent]
        omega
    · rename_i hparent
      obtain ⟨k, hk⟩ := h
      refine ⟨k + 1, ?_⟩
      rw [(hcons k).1, (hcons k).2, if_neg hparent, if_neg hparent]
      omega

theorem resolve_traversal (parts : List (List Char)) (acc : List (List Char) × Bool) :
    (parts.foldl resolveSegment acc).2 = true ↔ acc.2 = true ∨ Climbs acc.1.length parts := by
  induction parts generalizing acc with
  | nil => simp [Climbs]
  | cons part parts ih =>
    rw [List.foldl_cons, ih, climbs_cons]
    unfold resolveSegment
    by_cases hparent : part = parentSegment
    · by_cases hempty : acc.1 = []
      · simp [hparent, hempty]
      · have hlength : acc.1.length ≠ 0 := fun h => hempty (List.length_eq_zero_iff.mp h)
        simp [hparent, hempty, List.length_dropLast]
    · simp [hparent]

/-! ## Segments -/

def AsciiDecimals (t : NormalizeTables) : Prop := ∀ c, isAscii c = true → t.isdecimal c = c.isDigit

structure PlainSegment (segment : List Char) : Prop where
  ne_nil : segment ≠ []
  ne_dot : segment ≠ ['.']
  ne_parent : segment ≠ parentSegment
  no_slash : '/' ∉ segment
  no_control : ∀ c ∈ segment, isControl c = false

structure CanonicalSegment (t : NormalizeTables) (segment : List Char) : Prop extends PlainSegment segment where
  bounded : apiVersionPattern t segment = true ∨ segment.length ≤ maxSegmentLength
  not_numeric : numericPattern t segment = false
  not_uuid : uuidPattern segment = false
  not_hex : hexPattern segment = false

theorem not_uuidBody {s c} (hc : c ∈ s) (hne : c ≠ '-') (hhex : isHexDigit c = false) : uuidBody s = false := by
  obtain ⟨group, hgroup, hmem⟩ := exists_mem_splitOn hc hne
  have hnot : (s.splitOn '-').all (fun group => group.all isHexDigit) = false := by
    rw [List.all_eq_false]
    refine ⟨group, hgroup, ?_⟩
    rw [Bool.not_eq_true, List.all_eq_false]
    exact ⟨c, hmem, by simp [hhex]⟩
  rw [uuidBody, hnot, Bool.and_false]

theorem not_uuidPattern {c rest} (hopen : c ≠ '{') (hne : c ≠ '-') (hclose : c ≠ '}')
    (hhex : isHexDigit c = false) : uuidPattern (c :: rest) = false := by
  unfold uuidPattern
  rw [List.head?_cons, if_neg (by simpa using hopen)]
  dsimp only
  split
  · rename_i hlast
    cases rest with
    | nil =>
      simp only [List.getLast?_singleton, Option.some.injEq] at hlast
      exact absurd hlast hclose
    | cons d rest => exact not_uuidBody (List.mem_cons_self (a := c)) hne hhex
  · exact not_uuidBody (List.mem_cons_self (a := c)) hne hhex

theorem canonical_of_apiVersion (ht : AsciiDecimals t) {segment} (h : PlainSegment segment)
    (hversion : apiVersionPattern t segment = true) : CanonicalSegment t segment := by
  cases segment with
  | nil => exact absurd rfl h.ne_nil
  | cons c rest =>
    have hv : c = 'v' ∨ c = 'V' := by
      simp only [apiVersionPattern, Bool.and_eq_true, Bool.or_eq_true, decide_eq_true_eq] at hversion
      exact hversion.1.1
    have hdecimal : t.isdecimal c = false := by
      rcases hv with rfl | rfl
      · rw [ht _ (by decide)]
        decide
      · rw [ht _ (by decide)]
        decide
    have hhex : isHexDigit c = false := by
      rcases hv with rfl | rfl <;> decide
    refine ⟨h, Or.inl hversion, ?_, ?_, ?_⟩
    · simp [numericPattern, hdecimal]
    · refine not_uuidPattern ?_ ?_ ?_ hhex
      · rcases hv with rfl | rfl <;> decide
      · rcases hv with rfl | rfl <;> decide
      · rcases hv with rfl | rfl <;> decide
    · simp [hexPattern, hhex]

def placeholders : List (List Char) :=
  [idSegment, uuidSegment, hexSegment, opaqueSegment, longSegment, truncatedSegment]

theorem canonical_of_placeholder (ht : AsciiDecimals t) {segment} (h : segment ∈ placeholders) :
    CanonicalSegment t segment := by
  have hshape : segment ≠ [] ∧ segment ≠ ['.'] ∧ segment ≠ parentSegment ∧ '/' ∉ segment ∧
      segment.all (fun c => !isControl c) = true ∧ segment.length ≤ maxSegmentLength ∧ segment.head? = some '{' ∧
      uuidPattern segment = false := by
    revert segment
    decide
  obtain ⟨hnil, hdot, hparent, hslash, hplain, hlength, hhead, huuid⟩ := hshape
  have hcontrol : ∀ c ∈ segment, isControl c = false := by simpa using hplain
  refine ⟨⟨hnil, hdot, hparent, hslash, hcontrol⟩, Or.inr hlength, ?_, huuid, ?_⟩
  · cases segment with
    | nil => cases hhead
    | cons c rest =>
      cases hhead
      have hdecimal : t.isdecimal '{' = false := by
        rw [ht _ (by decide)]
        decide
      simp [numericPattern, hdecimal]
  · cases segment with
    | nil => cases hhead
    | cons c rest =>
      cases hhead
      simp [hexPattern, show isHexDigit '{' = false by decide]

theorem pattern_of_matchesLine {pattern : List Char → Bool} {segment}
    (h : ∀ c ∈ segment, isControl c = false) : matchesLine pattern segment = pattern segment := by
  have hlast : segment.getLast? ≠ some '\n' := by
    intro hlast
    have hnewline := h _ (List.mem_of_getLast? hlast)
    revert hnewline
    decide
  simp [matchesLine, hlast]

theorem canonical_templateSegment (ht : AsciiDecimals t) {segment} (h : PlainSegment segment) :
    CanonicalSegment t (templateSegment t segment).1 := by
  unfold templateSegment
  simp only [pattern_of_matchesLine h.no_control]
  split
  · rename_i hversion
    exact canonical_of_apiVersion ht h hversion
  · split
    · exact canonical_of_placeholder ht (by simp [placeholders])
    · rename_i hnumeric
      split
      · exact canonical_of_placeholder ht (by simp [placeholders])
      · rename_i huuid
        split
        · exact canonical_of_placeholder ht (by simp [placeholders])
        · rename_i hhex
          split
          · exact canonical_of_placeholder ht (by simp [placeholders])
          · split
            · exact canonical_of_placeholder ht (by simp [placeholders])
            · rename_i hlength
              exact ⟨h, Or.inr (not_lt.mp hlength), by simpa using hnumeric, by simpa using huuid, by simpa using hhex⟩

theorem plain_of_resolved {path segment} (hpath : ∀ c ∈ path, isControl c = false)
    (h : segment ∈ ((pathParts path).foldl resolveSegment ([], false)).1) : PlainSegment segment := by
  rcases mem_foldl_resolve h with hnil | ⟨hmem, hparent⟩
  · cases hnil
  · obtain ⟨hsplit, hkept⟩ := List.mem_filter.mp hmem
    simp only [Bool.and_eq_true, decide_eq_true_eq] at hkept
    have hchars := mem_of_mem_splitOn hsplit
    exact ⟨hkept.1, hkept.2, hparent, fun hslash => (hchars _ hslash).2 rfl,
      fun c hc => hpath c (hchars c hc).1⟩

/-! ## Endpoints -/

/-- What every endpoint that is not overlong is: the root, or at most the bound of segments and a truncation mark. -/
structure CanonicalEndpoint (t : NormalizeTables) (endpoint : List Char) (segments : List (List Char)) : Prop where
  joined : endpoint = joinSegments segments
  segments_ok : ∀ segment ∈ segments, CanonicalSegment t segment
  depth : segments.length ≤ maxPathSegments ∨
    ∃ kept, kept.length = maxPathSegments ∧ segments = kept ++ [truncatedSegment]
  length_le : endpoint.length ≤ maxEndpointLength

theorem canonical_templateStack (ht : AsciiDecimals t) {stack}
    (h : ∀ segment ∈ stack, PlainSegment segment) : ∀ segment ∈ templateStack t stack, CanonicalSegment t segment := by
  intro segment hsegment
  rcases List.mem_append.mp hsegment with hsegment | hsegment
  · obtain ⟨source, hsource, rfl⟩ := List.mem_map.mp hsegment
    exact canonical_templateSegment ht (h source (List.mem_of_mem_take hsource))
  · split at hsegment
    · rw [List.mem_singleton.mp hsegment]
      exact canonical_of_placeholder ht (by simp [placeholders])
    · cases hsegment

theorem depth_templateStack (t : NormalizeTables) (stack : List (List Char)) :
    (templateStack t stack).length ≤ maxPathSegments ∨
      ∃ kept, kept.length = maxPathSegments ∧ templateStack t stack = kept ++ [truncatedSegment] := by
  unfold templateStack
  split
  · rename_i hdeep
    refine Or.inr ⟨_, ?_, rfl⟩
    rw [List.length_map, List.length_take]
    omega
  · rename_i hshallow
    refine Or.inl ?_
    rw [List.append_nil, List.length_map, List.length_take]
    omega

theorem normalizePath_canonical (ht : AsciiDecimals t) {path rules v}
    (h : (normalizePath t path rules).value = some v) :
    (v.toList = overlongEndpoint ∨ ∃ segments, CanonicalEndpoint t v.toList segments) ∧
      ((normalizePath t path rules).traversalAttempt = true ↔
        Climbs 0 (pathParts (withoutControls (decodeOnce t path).1))) := by
  have hcontrols : ∀ c ∈ withoutControls (decodeOnce t path).1, isControl c = false := by
    intro c hc
    simpa using (List.mem_filter.mp hc).2
  unfold normalizePath at h ⊢
  dsimp only at h ⊢
  split at h
  · cases h
  · rename_i hsome
    rw [if_neg hsome]
    unfold endpointOfPath at h ⊢
    dsimp only at h ⊢
    have hplain : ∀ segment ∈ ((pathParts (withoutControls (decodeOnce t path).1)).foldl resolveSegment ([], false)).1,
        PlainSegment segment := fun segment => plain_of_resolved hcontrols
    refine ⟨?_, ?_⟩
    · rw [Option.some.injEq] at h
      subst h
      rw [String.toList_ofList]
      split
      · exact Or.inl rfl
      · rename_i hlength
        exact Or.inr ⟨_, rfl, canonical_templateStack ht hplain, depth_templateStack t _, not_lt.mp hlength⟩
    · rw [resolve_traversal]
      simp

/-! ## Request targets -/

/-- A request target in origin form, without query and fragment, as it is after `strip`. -/
structure OriginForm (t : NormalizeTables) (p : String) : Prop where
  slash : p.toList.head? = some '/'
  no_query : '?' ∉ p.toList
  no_fragment : '#' ∉ p.toList
  no_scheme : ¬ schemeSeparator <:+: p.toList
  stripped : t.strip p.toList = p.toList

variable {p q : String}

theorem OriginForm.strip_query (hp : OriginForm t p) (hmark : t.isspace '?' = false)
    (hq : t.strip q.toList = q.toList) : t.strip (p.toList ++ '?' :: q.toList) = p.toList ++ '?' :: q.toList := by
  have hslash := hp.slash
  cases hpath : p.toList with
  | nil =>
    rw [hpath] at hslash
    cases hslash
  | cons c rest =>
    have hc : t.isspace c = false := UnicodeTables.head_strip (hp.stripped.trans hpath)
    rcases List.eq_nil_or_concat' q.toList with hquery | ⟨front, d, hquery⟩
    · rw [hquery]
      exact UnicodeTables.strip_eq_self rfl hc List.getLast?_concat hmark
    · have hd : t.isspace d = false := UnicodeTables.last_strip (hq.trans hquery)
      have hsplit : c :: rest ++ '?' :: (front ++ [d]) = (c :: rest ++ '?' :: front) ++ [d] := by simp
      rw [hquery, hsplit]
      exact UnicodeTables.strip_eq_self rfl hc List.getLast?_concat hd

def SameEndpoint (e e' : NormalizedEndpoint) : Prop :=
  e.value = e'.value ∧ e.traversalAttempt = e'.traversalAttempt

theorem SameEndpoint.symm {e e'} (h : SameEndpoint e e') : SameEndpoint e' e :=
  ⟨h.1.symm, h.2.symm⟩

theorem SameEndpoint.trans {e e' e''} (h : SameEndpoint e e') (h' : SameEndpoint e' e'') :
    SameEndpoint e e'' := ⟨h.1.trans h'.1, h.2.trans h'.2⟩

theorem normalizePath_rules (t : NormalizeTables) (path : List Char) (rules rules' : List String) :
    SameEndpoint (normalizePath t path rules) (normalizePath t path rules') := by
  unfold normalizePath
  dsimp only
  split
  · exact ⟨rfl, rfl⟩
  · exact ⟨rfl, rfl⟩

theorem OriginForm.ne_nil (hp : OriginForm t p) : p.toList ≠ [] := by
  intro hnil
  have hslash := hp.slash
  rw [hnil] at hslash
  cases hslash

theorem OriginForm.endpoint (hp : OriginForm t p) :
    normalizeEndpoint t (some p) = .ok (normalizePath t p.toList []) := by
  simp only [normalizeEndpoint, hp.stripped, hp.ne_nil, if_false, stripTarget, hp.no_scheme,
    beforeChar_of_not_mem hp.no_fragment, beforeChar_of_not_mem hp.no_query, hp.no_fragment, hp.no_query]
  rfl

theorem OriginForm.endpoint_query (hp : OriginForm t p) (hmark : t.isspace '?' = false)
    (hq : t.strip q.toList = q.toList) : normalizeEndpoint t (some (p ++ "?" ++ q)) =
      (stripTarget t (p.toList ++ '?' :: q.toList)).map (fun target => normalizePath t target.1 target.2) := by
  have htext : (p ++ "?" ++ q).toList = p.toList ++ '?' :: q.toList := by simp
  simp only [normalizeEndpoint, htext, hp.strip_query hmark hq]
  rw [if_neg (by simp)]

theorem OriginForm.scheme_iff (hp : OriginForm t p) :
    schemeSeparator <:+: p.toList ++ '?' :: q.toList ↔ schemeSeparator <:+: q.toList := by
  constructor
  · intro h
    rcases infix_append_cons h (by decide) with h | h
    · exact absurd h hp.no_scheme
    · exact h
  · rintro ⟨s, e, h⟩
    exact ⟨p.toList ++ '?' :: s, e, by simp [← h]⟩

theorem OriginForm.strip_cases (hp : OriginForm t p) (q : String) :
    (¬ schemeSeparator <:+: q.toList →
      ∃ rules, stripTarget t (p.toList ++ '?' :: q.toList) = .ok (p.toList, rules)) ∧
    (schemeSeparator <:+: q.toList → authorityError? t.toUrlTables (authorityAndRest p.toList).1 = none →
      ∃ rules, stripTarget t (p.toList ++ '?' :: q.toList) = .ok ((authorityAndRest p.toList).2, rules)) ∧
    (schemeSeparator <:+: q.toList → authorityError? t.toUrlTables (authorityAndRest p.toList).1 ≠ none →
      ∃ e, stripTarget t (p.toList ++ '?' :: q.toList) = .error e) := by
  refine ⟨?_, ?_, ?_⟩
  · intro hno
    unfold stripTarget
    rw [if_neg (fun h => hno (hp.scheme_iff.mp h)), path_of_query hp.no_query hp.no_fragment]
    exact ⟨_, rfl⟩
  · intro hyes hnone
    obtain ⟨split, hsplit, hpath⟩ := urlsplit_query t.toUrlTables hp.slash hp.no_query hp.no_fragment hnone
    unfold stripTarget
    rw [if_pos (hp.scheme_iff.mpr hyes), hsplit]
    exact ⟨_, by rw [← hpath]⟩
  · intro hyes hsome
    obtain ⟨message, hmessage⟩ := Option.ne_none_iff_exists'.mp hsome
    unfold stripTarget
    rw [if_pos (hp.scheme_iff.mpr hyes), urlsplit_query_error t.toUrlTables hp.slash hp.no_query hmessage]
    exact ⟨_, rfl⟩

/-- What `urlsplit` makes of the path does not matter: it reads no authority it refuses, and the path it leaves
normalizes as the path itself. -/
def UrlsplitHarmless (t : NormalizeTables) (p : String) : Prop :=
  authorityError? t.toUrlTables (authorityAndRest p.toList).1 = none ∧
    SameEndpoint (normalizePath t (authorityAndRest p.toList).2 []) (normalizePath t p.toList [])

/-- A path without tab, line feed and carriage return that does not begin with two slashes is read as it is. -/
theorem harmless_of_safe (hp : OriginForm t p) (hsafe : ∀ c ∈ p.toList, unsafeUrlByte c = false)
    (hnone : ¬ ['/', '/'] <+: p.toList) : UrlsplitHarmless t p := by
  unfold UrlsplitHarmless
  rw [authorityAndRest_of_safe hp.slash hsafe hnone]
  exact ⟨authorityError?_nil _, rfl, rfl⟩

/-- A query changes nothing exactly when it does not reach `urlsplit`, or that does not matter. -/
theorem OriginForm.same_iff (hp : OriginForm t p) (hmark : t.isspace '?' = false) (hq : t.strip q.toList = q.toList) :
    (∃ e, normalizeEndpoint t (some (p ++ "?" ++ q)) = .ok e ∧ SameEndpoint e (normalizePath t p.toList [])) ↔
      ¬ schemeSeparator <:+: q.toList ∨ UrlsplitHarmless t p := by
  obtain ⟨hplain, hok, herror⟩ := hp.strip_cases q
  rw [hp.endpoint_query hmark hq]
  by_cases hyes : schemeSeparator <:+: q.toList
  · by_cases hnone : authorityError? t.toUrlTables (authorityAndRest p.toList).1 = none
    · obtain ⟨rules, hstrip⟩ := hok hyes hnone
      rw [hstrip]
      constructor
      · rintro ⟨e, he, hsame⟩
        cases he
        exact Or.inr ⟨hnone, (normalizePath_rules t _ _ _).trans hsame⟩
      · rintro (hno | ⟨_, hsame⟩)
        · exact absurd hyes hno
        · exact ⟨_, rfl, (normalizePath_rules t _ _ _).trans hsame⟩
    · obtain ⟨e, hstrip⟩ := herror hyes hnone
      rw [hstrip]
      constructor
      · rintro ⟨e, he, _⟩
        cases he
      · rintro (hno | ⟨hnone', _⟩)
        · exact absurd hyes hno
        · exact absurd hnone' hnone
  · obtain ⟨rules, hstrip⟩ := hplain hyes
    rw [hstrip]
    constructor
    · exact fun _ => Or.inl hyes
    · exact fun _ => ⟨_, rfl, normalizePath_rules t _ _ _⟩

theorem normalizeVirtualHost_some {t raw host}
    (h : normalizeVirtualHost t raw = some host) : host ≠ "" ∧ host.length ≤ 255 := by
  cases raw with
  | none => cases h
  | some text =>
    unfold normalizeVirtualHost at h
    dsimp only at h
    simp only [Option.ite_none_left_eq_some, Option.some.injEq] at h
    obtain ⟨_, hne, rfl⟩ := h
    rw [String.length_ofList]
    exact ⟨fun hempty => hne (String.ofList_eq_empty_iff.mp hempty), List.length_take_le _ _⟩

end QRadarDashboard.Waf
