import QRadarDashboard.Security.Lemmas.Crypto
import QRadarDashboard.Security.Lemmas.LdapNames
import QRadarDashboard.Security.Lemmas.Redaction

/-!
# Stored and logged secrets
-/

namespace QRadarDashboard.Security
open Lib

variable {κ σ : Type} {fernet : Fernet κ σ} {key : κ} {n : Nat} {json : List (Nat × κ)}

/-- Every value that a deployment encrypts is read by it and by the later ones, and every unversioned token of the first
key by all. -/
structure Readable (fernet : Fernet κ σ) (key : κ) (ds : List (Deployment κ)) : Prop where
  later : ds.Pairwise (fun d d' => Reads fernet d.settings d'.settings)
  own : ∀ d ∈ ds, Reads fernet d.settings d.settings
  legacy : ∀ d ∈ ds, ReadsLegacy fernet key d.settings

/-- Rotations keep every value readable exactly if none has reached its second step, or ENCRYPTION_KEYS_JSON has the
first key from the start. -/
theorem rotation_readable [Nonempty σ] (hf : fernet.Lawful)
    (hstart : (withKeys [] json).get? n = none ∨ (withKeys [] json).get? n = some key) {tr : List (RotationTaken κ)}
    {d : Deployment κ} (h : RotationRun (firstDeployment key n json) tr d) :
    Readable fernet key (deployments (firstDeployment key n json) tr) ↔
      ¬ Activates tr ∨ (withKeys [] json).get? n = some key := by
  have hok := rotationOk_run h
  constructor
  · intro hreadable
    refine or_iff_not_imp_right.mpr (fun hmissing hactivates => ?_)
    have hnone : (withKeys [] json).get? n = none := hstart.resolve_right hmissing
    have hlt := hok.activated.mpr hactivates
    have hrotated := (hok.rotated d hok.last).1
    -- the last deployment does not read what the first one has written
    have hreads : Reads fernet (firstDeployment key n json).settings d.settings := by
      rcases List.mem_cons.mp hok.last with rfl | hlast
      · exact absurd hlt (Nat.lt_irrefl n)
      · exact List.rel_of_pairwise_cons hreadable.later hlast
    have hfirst : (firstDeployment key n json).settings.Active key := by
      have hget := (rotated_first key n json).keyring_first rfl
      rwa [hnone, Option.none_or] at hget
    obtain ⟨active, hactive⟩ := hrotated.active
    have hget := (reads_iff hf hfirst hactive).mp hreads
    rw [show (firstDeployment key n json).settings.encryptionKeyVersion = n from rfl, get?_keyring, hrotated.firstKey, hnone,
      if_neg (Nat.ne_of_lt hlt)] at hget
    cases hget
  · intro hcondition
    -- the key under which a deployment writes is still that of its version later
    have hkept : ∀ x ∈ deployments (firstDeployment key n json) tr, ∀ y ∈ deployments (firstDeployment key n json) tr,
        Later x y → ∀ active, x.settings.Active active →
          y.settings.encryptionKeyring.get? x.settings.encryptionKeyVersion = some active := by
      intro x hx y hy hlater active hactive
      have hrx := (hok.rotated x hx).1
      have hry := (hok.rotated y hy).1
      by_cases hfirst : x.settings.encryptionKeyVersion = n
      · rw [EncryptionSettings.Active, hfirst, hrx.keyring_first hfirst] at hactive
        rw [hfirst]
        rcases hcondition with hnever | hjson
        · rw [hry.keyring_first (hok.version_eq hnever hy), hactive]
        · rw [hjson, Option.some_or] at hactive
          rw [keyring_of_jsonKey (hry.firstKey.trans hjson), ← hactive]
      · have hle := hrx.version_le
        obtain ⟨found, hfound⟩ := Option.isSome_iff_exists.mp (hrx.rotated (by omega))
        rw [EncryptionSettings.Active, keyring_of_jsonKey hfound] at hactive
        rw [keyring_of_jsonKey (hlater.jsonKey hfound), hactive]
    have hreads : ∀ x ∈ deployments (firstDeployment key n json) tr, ∀ y ∈ deployments (firstDeployment key n json) tr,
        Later x y → Reads fernet x.settings y.settings := by
      intro x hx y hy hlater
      obtain ⟨active, hactive⟩ := (hok.rotated x hx).1.active
      obtain ⟨active', hactive'⟩ := (hok.rotated y hy).1.active
      exact (reads_iff hf hactive hactive').mpr (hkept x hx y hy hlater active hactive)
    refine ⟨?_, fun x hx => hreads x hx x hx (Later.refl x), fun x hx => ?_⟩
    · exact List.Pairwise.imp_of_mem (fun hx hy hlater => hreads _ hx _ hy hlater) hok.ordered
    · have hrx := (hok.rotated x hx).1
      obtain ⟨active, hactive⟩ := hrx.active
      refine readsLegacy_of_get? hf hactive (show x.settings.encryptionKeyring.get? n = some key from ?_)
      have hfirst : ((withKeys [] json).get? n).or (some key) = some key := by
        rcases hstart with hnone | hsome
        · rw [hnone, Option.none_or]
        · rw [hsome, Option.some_or]
      rcases hcondition with hnever | hjson
      · rw [hrx.keyring_first (hok.version_eq hnever hx), hfirst]
      · exact keyring_of_jsonKey (hrx.firstKey.trans hjson)

def markedFernet : Fernet Bool Unit where
  digits := .ascii
  encrypt key _ plaintext := String.ofList ((if key then 't' else 'f') :: plaintext.toList)
  decrypt key token :=
    match token.toList with
    | [] => none
    | mark :: rest => if mark = (if key then 't' else 'f') then some (String.ofList rest) else none

theorem markedFernet_lawful : markedFernet.Lawful where
  decrypt_encrypt := fun key _ plaintext => by simp [markedFernet]
  decrypt_other := fun {key key'} _ plaintext hne => by cases key <;> cases key' <;> simp_all [markedFernet]
  unprefixed := fun key _ plaintext => by cases key <;> simp [markedFernet, versionPrefix]

theorem rotation_readable_listed : ∃ (tr : List (RotationTaken Bool)) (d : Deployment Bool),
    RotationRun (firstDeployment false 1 [(1, false)]) tr d ∧ d.settings.encryptionKeyVersion = 2 ∧
    Readable markedFernet false (deployments (firstDeployment false 1 [(1, false)]) tr) := by
  obtain ⟨tr, d, h, hversion⟩ := exists_run_of_replay Deployment.rotate (fun d => d) (firstDeployment false 1 [(1, false)])
    [.addKey true, .activate true] (fun r => r.2.settings.encryptionKeyVersion) 2 (by decide)
  exact ⟨tr, d, h, hversion, (rotation_readable markedFernet_lawful (Or.inr rfl) h).mpr (Or.inr rfl)⟩

def readBack (settings settings' : EncryptionSettings Bool) (plaintext : String) : Except EncryptionError String := do
  let encryptor ← settings.encryptor
  let encryptor' ← settings'.encryptor
  encryptor'.decrypt markedFernet (encryptor.encrypt markedFernet () plaintext)

def lostVersion : EncryptionError := .keyRotation
  ("ciphertext was written with key version 1, which is not in the current keyring; " ++
    "add it back to ENCRYPTION_KEYS_JSON to decrypt")

def lostLegacy : EncryptionError := .keyRotation "failed to decrypt an unversioned (legacy) value with any known key"

/-- One rotation leads to settings that read neither a value of version 1 nor an unversioned token of the first key. -/
def LosesFirstKey (makePrimary : Bool) : Prop :=
  ∃ (tr : List (RotationTaken Bool)) (d : Deployment Bool), RotationRun (firstDeployment false 1 []) tr d ∧
    tr.map Taken.input = [.addKey true, .activate makePrimary] ∧
    readBack (firstDeployment false 1 []).settings d.settings "token" = .error lostVersion ∧
    (d.settings.encryptor >>= fun encryptor => encryptor.decrypt markedFernet (markedFernet.encrypt false () "token")) =
      .error lostLegacy

theorem losesFirstKey (makePrimary : Bool) : LosesFirstKey makePrimary := by
  obtain ⟨tr, d, h, hinputs, hv⟩ := exists_run_of_inputs Deployment.rotate (fun d => d) (firstDeployment false 1 [])
    [.addKey true, .activate makePrimary]
    (fun r => (readBack (firstDeployment false 1 []).settings r.2.settings "token",
      r.2.settings.encryptor >>= fun encryptor => encryptor.decrypt markedFernet (markedFernet.encrypt false () "token")))
    (.error lostVersion, .error lostLegacy) (by cases makePrimary <;> decide)
  obtain ⟨hversioned, hlegacy⟩ := Prod.mk.inj hv
  exact ⟨tr, d, h, hinputs, hversioned, hlegacy⟩

theorem rotation_loses_first_key : LosesFirstKey false ∧ LosesFirstKey true := ⟨losesFirstKey false, losesFirstKey true⟩

/-! ## Redaction -/

/-- Redaction hides the difference of two values that differ in secrets and tokens exactly if the tokens are whole
texts. It keeps the rest, and a second one changes nothing. -/
theorem redaction_hides_iff {φ : Type} {v w : Json φ} (h : Alike v w) :
    (redact v = redact w ↔ AlikeButTokens v w) ∧ KeepsRest v (redact v) ∧ redact (redact v) = redact v :=
  ⟨redact_eq_iff (fun _ _ htext => redactText_eq_iff htext) v w h, redact_keepsRest v, redact_idem v⟩

def loginEvent (password token : String) : Json Int :=
  .obj [("db_password", .str password), ("attempt", .int 2), ("correlation_id", .str "3e1c7f60-5d0e-4c7e-9f7d-0a6f3f6f7a11"),
    ("sent", .arr [.str "ok", .str token])]

theorem redaction_hides_whole : redact (loginEvent "hunter2" "QdE3kx81pLwz0Rt5uVb7Nm2c") =
    redact (loginEvent "letmein" "00000000-0000-0000-0000-000000000000") := by
  have hgap : outsideTokens "QdE3kx81pLwz0Rt5uVb7Nm2c".toList =
      outsideTokens "00000000-0000-0000-0000-000000000000".toList := by
    rw [outsideTokens_eq_gap.mpr (by decide), outsideTokens_eq_gap.mpr (by decide)]
  have halike : Alike (loginEvent "hunter2" "QdE3kx81pLwz0Rt5uVb7Nm2c")
      (loginEvent "letmein" "00000000-0000-0000-0000-000000000000") :=
    ⟨rfl, Or.inl (by decide), rfl, Or.inr rfl, rfl, Or.inr rfl, rfl, Or.inr ⟨rfl, hgap, trivial⟩, trivial⟩
  refine (redaction_hides_iff halike).1.mpr ?_
  exact ⟨rfl, Or.inl (by decide), rfl, Or.inr rfl, rfl, Or.inr rfl, rfl,
    Or.inr ⟨Or.inl rfl, Or.inr ⟨by decide, by decide⟩, trivial⟩, trivial⟩

def refusal (token : String) : Json Int := .obj [("message", .str ("refused: " ++ token))]

theorem token_in_text_shows :
    Alike (refusal "QdE3kx81pLwz0Rt5uVb7Nm2c") (refusal "00000000-0000-0000-0000-000000000000") ∧
    redact (refusal "QdE3kx81pLwz0Rt5uVb7Nm2c") ≠ redact (refusal "00000000-0000-0000-0000-000000000000") := by
  refine ⟨⟨rfl, Or.inr ?_, trivial⟩, by decide⟩
  show outsideTokens _ = outsideTokens _
  decide

/-! ## Names in a directory -/

def dnSpecials : List Char := ",+\"<>;=*()".toList

structure NothingSpecial (name text : List Char) : Prop where
  controls : text.filter isControl = name.filter (fun c => isControl c && 0x80 ≤ c.toNat)
  slash : ∀ before after, text = before ++ '\\' :: after →
    ∃ hi lo rest, after = hi :: lo :: rest ∧ (hexValue hi).isSome ∧ (hexValue lo).isSome
  specials : ∀ c ∈ dnSpecials, c ∉ text
  head : ∀ c, text.head? = some c → c ≠ '#' ∧ c ≠ ' '
  last : ∀ c, text.getLast? = some c → c ≠ ' '

theorem nothingSpecial (name : List Char) : NothingSpecial name (escapeLdapName name) where
  controls := by rw [escapeLdapName_eq, controls_escapedFrom]
  slash := by
    intro before after h
    rw [escapeLdapName_eq] at h
    exact slash_escapedFrom h
  specials := by
    intro c hc hmem
    have hall : dnSpecials.all (fun c => c ≠ '\\' ∧ c ∈ hexEscapes.keys) := by decide
    have hlisted := decide_eq_true_iff.mp (List.all_eq_true.mp hall c hc)
    rw [escapeLdapName_eq] at hmem
    rcases mem_escapedFrom hmem with hslash | ⟨n, hdigit⟩ | ⟨i, hplain⟩
    · exact hlisted.1 hslash
    · exact (hexDigit_of_value hdigit).2.2.2.2 hlisted.2
    · exact hplain.unlisted hlisted.2
  head := by
    intro c h
    rw [escapeLdapName_eq] at h
    exact head_escapedFrom h
  last := by
    intro c h
    rw [escapeLdapName_eq] at h
    exact last_escapedFrom h

/-- Undoing the escapes gives the name back, the escaped text has nothing special, and a template with the placeholder
renders different names to different texts. -/
theorem ldap_name_escaped :
    (∀ name, unescape (escapeLdapName name) = name ∧ NothingSpecial name (escapeLdapName name)) ∧
      ∀ template, usernamePlaceholder <:+: template → Function.Injective (renderBindName template) :=
  ⟨fun name => ⟨unescape_escapeLdapName name, nothingSpecial name⟩, fun _ h => renderBindName_injective h⟩

theorem ldap_name_escaped_corp :
    renderBindName "cn=\x7busername\x7d,dc=corp".toList "a*b".toList = "cn=a\\2ab,dc=corp".toList ∧
      Function.Injective (renderBindName "cn=\x7busername\x7d,dc=corp".toList) :=
  ⟨by decide, ldap_name_escaped.2 _ (by decide)⟩

/-- The escape takes a control beyond ASCII for a letter. -/
theorem control_beyond_ascii_kept :
    isControl '\u0085' = true ∧ '\u0085' ∈ escapeLdapName ("eve".toList ++ ['\u0085']) := by decide

end QRadarDashboard.Security
