import QRadarDashboard.Security.LdapNames

/-!
# The escape of one character, and of a name
-/

namespace QRadarDashboard.Security
open Lib

variable {last index : Nat} {ch : Char}

theorem hex02_spec : ∀ code < 128, ∃ hi lo, hex02 code = [hi, lo] ∧ hexValue hi = some (code / 16) ∧
    hexValue lo = some (code % 16) := by
  intro code hcode
  have hall : ∀ code < 128, (hex02 code).map hexValue = [some (code / 16), some (code % 16)] := by decide
  have h := hall code hcode
  rw [List.map_eq_cons_iff] at h
  obtain ⟨hi, rest, hdigits, hhi, hrest⟩ := h
  obtain ⟨lo, tail, rfl, hlo, htail⟩ := List.map_eq_cons_iff.mp hrest
  rw [List.map_eq_nil_iff.mp htail] at hdigits
  exact ⟨hi, lo, hdigits, hhi, hlo⟩

structure Plain (last : Nat) (ch : Char) (index : Nat) : Prop where
  unlisted : ch ∉ hexEscapes.keys
  control : 32 ≤ ch.toNat ∧ ch.toNat ≠ 127
  space : ch = ' ' → index ≠ 0 ∧ index ≠ last
  hash : ch = '#' → index ≠ 0

theorem escapedChar_cases (last : Nat) (ch : Char) (index : Nat) :
    (escapedChar last ch index = '\\' :: hex02 ch.toNat ∧ ch.toNat < 128) ∨
      (escapedChar last ch index = [ch] ∧ Plain last ch index) := by
  unfold escapedChar
  split
  next escape hescape =>
    have htable : ∀ item ∈ hexEscapes, item.2.toList = '\\' :: hex02 item.1.toNat ∧ item.1.toNat < 128 := by decide
    exact Or.inl (htable _ (Dict.mem_of_get? hescape))
  next hunlisted =>
    split_ifs with hspace hhash hcontrol
    · rw [hspace.1]
      exact Or.inl ⟨by decide, by decide⟩
    · rw [hhash.1]
      exact Or.inl ⟨by decide, by decide⟩
    · exact Or.inl ⟨rfl, by omega⟩
    · refine Or.inr ⟨rfl, Dict.get?_eq_none_iff.mp hunlisted, by omega, ?_, fun h hindex => hhash ⟨h, hindex⟩⟩
      intro h
      exact ⟨fun hindex => hspace ⟨h, Or.inl hindex⟩, fun hindex => hspace ⟨h, Or.inr hindex⟩⟩

/-! ## The round trip -/

theorem unescape_cons {c} (hc : c ≠ '\\') (rest : List Char) : unescape (c :: rest) = c :: unescape rest := by
  rw [unescape]
  exact fun _ _ _ h _ => hc h

theorem unescape_hex {code} (hcode : code < 128) (rest : List Char) :
    unescape ('\\' :: hex02 code ++ rest) = Char.ofNat code :: unescape rest := by
  obtain ⟨hi, lo, hdigits, hhi, hlo⟩ := hex02_spec code hcode
  rw [hdigits]
  show unescape ('\\' :: hi :: lo :: rest) = _
  rw [unescape, hhi, hlo]
  show Char.ofNat (16 * (code / 16) + code % 16) :: unescape rest = _
  rw [Nat.div_add_mod]

theorem unescape_escapedChar (last : Nat) (ch : Char) (index : Nat) (rest : List Char) :
    unescape (escapedChar last ch index ++ rest) = ch :: unescape rest := by
  rcases escapedChar_cases last ch index with ⟨heq, hcode⟩ | ⟨heq, hplain⟩
  · rw [heq, unescape_hex hcode, Char.ofNat_toNat]
  · rw [heq]
    refine unescape_cons (fun hslash => hplain.unlisted ?_) rest
    rw [hslash]
    decide

def escapedFrom (last index : Nat) (value : List Char) : List Char :=
  (value.zipIdx index).flatMap (fun item => escapedChar last item.1 item.2)

@[simp] theorem escapedFrom_cons (value : List Char) :
    escapedFrom last index (ch :: value) = escapedChar last ch index ++ escapedFrom last (index + 1) value := by
  simp [escapedFrom]

theorem escapeLdapName_eq (value : List Char) : escapeLdapName value = escapedFrom (value.length - 1) 0 value := by
  unfold escapeLdapName
  split_ifs with hnil
  · rw [hnil]
    rfl
  · rfl

theorem unescape_escapedFrom (last index : Nat) (value : List Char) :
    unescape (escapedFrom last index value) = value := by
  induction value generalizing index with
  | nil => rfl
  | cons ch value ih => rw [escapedFrom_cons, unescape_escapedChar, ih]

theorem unescape_escapeLdapName (value : List Char) : unescape (escapeLdapName value) = value := by
  rw [escapeLdapName_eq, unescape_escapedFrom]

theorem escapeLdapName_injective : Function.Injective escapeLdapName :=
  Function.LeftInverse.injective unescape_escapeLdapName

theorem renderBindName_injective {template} (h : usernamePlaceholder <:+: template) :
    Function.Injective (renderBindName template) :=
  (replaceText_injective (by decide) h).comp escapeLdapName_injective

/-! ## What is left in the escaped text -/

theorem hexDigit_of_value {c n} (h : hexValue c = some n) :
    c ≠ '\\' ∧ c ≠ ' ' ∧ c ≠ '#' ∧ isControl c = false ∧ c ∉ hexEscapes.keys := by
  refine ⟨?_, ?_, ?_, ?_, fun hkey => ?_⟩
  · rintro rfl
    cases h
  · rintro rfl
    cases h
  · rintro rfl
    cases h
  · have hrange : '0' ≤ c ∧ c ≤ 'f' := by
      unfold hexValue at h
      split_ifs at h with hdigit hlower hupper
      · exact ⟨hdigit.1, Char.le_trans hdigit.2 (show '9' ≤ 'f' by decide)⟩
      · exact ⟨Char.le_trans (show '0' ≤ 'a' by decide) hlower.1, hlower.2⟩
      · exact ⟨Char.le_trans (show '0' ≤ 'A' by decide) hupper.1, Char.le_trans hupper.2 (show 'F' ≤ 'f' by decide)⟩
    have hlow : 48 ≤ c.toNat := UInt32.le_iff_toNat_le.mp (Char.le_def.mp hrange.1)
    have hhigh : c.toNat ≤ 102 := UInt32.le_iff_toNat_le.mp (Char.le_def.mp hrange.2)
    have hlt : ¬ c.toNat < 32 := by omega
    have hge : ¬ 127 ≤ c.toNat := by omega
    simp [isControl, hlt, hge]
  · have hkeys : hexEscapes.keys.all (hexValue · == none) := by decide
    rw [beq_iff_eq.mp (List.all_eq_true.mp hkeys c hkey)] at h
    cases h

theorem mem_escapedChar {c} (h : c ∈ escapedChar last ch index) :
    c = '\\' ∨ (∃ n, hexValue c = some n) ∨ (c = ch ∧ Plain last ch index) := by
  rcases escapedChar_cases last ch index with ⟨heq, hcode⟩ | ⟨heq, hplain⟩
  · obtain ⟨hi, lo, hdigits, hhi, hlo⟩ := hex02_spec ch.toNat hcode
    rw [heq, hdigits] at h
    simp only [List.mem_cons, List.not_mem_nil, or_false] at h
    rcases h with rfl | rfl | rfl
    · exact Or.inl rfl
    · exact Or.inr (Or.inl ⟨_, hhi⟩)
    · exact Or.inr (Or.inl ⟨_, hlo⟩)
  · rw [heq, List.mem_singleton] at h
    exact Or.inr (Or.inr ⟨h, hplain⟩)

theorem mem_escapedFrom {value c} (h : c ∈ escapedFrom last index value) :
    c = '\\' ∨ (∃ n, hexValue c = some n) ∨ ∃ i, Plain last c i := by
  obtain ⟨item, _, hitem⟩ := List.mem_flatMap.mp h
  rcases mem_escapedChar hitem with hslash | hdigit | ⟨rfl, hplain⟩
  · exact Or.inl hslash
  · exact Or.inr (Or.inl hdigit)
  · exact Or.inr (Or.inr ⟨_, hplain⟩)

theorem controls_escapedChar (last : Nat) (ch : Char) (index : Nat) :
    (escapedChar last ch index).filter isControl = [ch].filter (fun c => isControl c && 128 ≤ c.toNat) := by
  rcases escapedChar_cases last ch index with ⟨heq, hcode⟩ | ⟨heq, hplain⟩
  · obtain ⟨hi, lo, hdigits, hhi, hlo⟩ := hex02_spec ch.toNat hcode
    rw [heq, hdigits, List.filter_eq_nil_iff.mpr, List.filter_eq_nil_iff.mpr]
    · simp [hcode]
    · intro c hc
      simp only [List.mem_cons, List.not_mem_nil, or_false] at hc
      rcases hc with rfl | rfl | rfl
      · decide
      · simp [(hexDigit_of_value hhi).2.2.2.1]
      · simp [(hexDigit_of_value hlo).2.2.2.1]
  · have hcontrol : isControl ch = (isControl ch && decide (128 ≤ ch.toNat)) := by
      have := hplain.control
      unfold isControl
      rcases Nat.lt_or_ge ch.toNat 127 with hlt | hge
      · simp; omega
      · simp; omega
    rw [heq, List.filter_singleton, List.filter_singleton, ← hcontrol]

theorem controls_escapedFrom (last index : Nat) (value : List Char) :
    (escapedFrom last index value).filter isControl = value.filter (fun c => isControl c && 128 ≤ c.toNat) := by
  induction value generalizing index with
  | nil => rfl
  | cons ch value ih =>
    rw [escapedFrom_cons, List.filter_append, controls_escapedChar, ih, ← List.filter_append]
    rfl

theorem slash_escapedFrom {value before after} (h : escapedFrom last index value = before ++ '\\' :: after) :
    ∃ hi lo rest, after = hi :: lo :: rest ∧ (hexValue hi).isSome ∧ (hexValue lo).isSome := by
  induction value generalizing index before with
  | nil => cases before <;> cases h
  | cons ch value ih =>
    rw [escapedFrom_cons] at h
    rcases escapedChar_cases last ch index with ⟨heq, hcode⟩ | ⟨heq, hplain⟩
    · obtain ⟨hi, lo, hdigits, hhi, hlo⟩ := hex02_spec ch.toNat hcode
      have hhi' := (hexDigit_of_value hhi).1
      have hlo' := (hexDigit_of_value hlo).1
      rw [heq, hdigits] at h
      match before, h with
      | [], h =>
        cases h
        exact ⟨hi, lo, _, rfl, by rw [hhi]; rfl, by rw [hlo]; rfl⟩
      | [_], h => exact absurd (List.cons.inj (List.cons.inj h).2).1 hhi'
      | [_, _], h => exact absurd (List.cons.inj (List.cons.inj (List.cons.inj h).2).2).1 hlo'
      | _ :: _ :: _ :: before, h => exact ih (List.cons.inj (List.cons.inj (List.cons.inj h).2).2).2
    · rw [heq] at h
      match before, h with
      | [], h =>
        refine absurd ?_ hplain.unlisted
        rw [(List.cons.inj h).1]
        decide
      | _ :: before, h => exact ih (List.cons.inj h).2

theorem head_escapedFrom {value c} (h : (escapedFrom last 0 value).head? = some c) : c ≠ '#' ∧ c ≠ ' ' := by
  cases value with
  | nil => cases h
  | cons ch value =>
    rw [escapedFrom_cons] at h
    rcases escapedChar_cases last ch 0 with ⟨heq, _⟩ | ⟨heq, hplain⟩
    · rw [heq] at h
      cases h
      decide
    · rw [heq] at h
      cases h
      exact ⟨fun hhash => hplain.hash hhash rfl, fun hspace => (hplain.space hspace).1 rfl⟩

theorem last_escapedFrom {value c} (h : (escapedFrom (value.length - 1) 0 value).getLast? = some c) : c ≠ ' ' := by
  rcases List.eq_nil_or_concat value with rfl | ⟨front, ch, rfl⟩
  · cases h
  · have hfrom : escapedFrom ((front.concat ch).length - 1) 0 (front.concat ch) =
        escapedFrom front.length 0 front ++ escapedChar front.length ch front.length := by
      simp [escapedFrom, List.zipIdx_append]
    rw [hfrom] at h
    rcases escapedChar_cases front.length ch front.length with ⟨heq, hcode⟩ | ⟨heq, hplain⟩
    · obtain ⟨hi, lo, hdigits, _, hlo⟩ := hex02_spec ch.toNat hcode
      rw [heq, hdigits, List.getLast?_append] at h
      cases h
      exact (hexDigit_of_value hlo).2.1
    · rw [heq, List.getLast?_concat] at h
      cases h
      exact fun hspace => (hplain.space hspace).2 rfl

end QRadarDashboard.Security
