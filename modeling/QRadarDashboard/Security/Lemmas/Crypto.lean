import QRadarDashboard.Lib.Except
import QRadarDashboard.Security.Crypto

/-!
# Which deployments read which values
-/

namespace QRadarDashboard.Security
open Lib

variable {κ σ : Type}

/-! ## The prefix -/

theorem versionPrefix_versioned (t : PyDigits) (version : Nat) (token : String) :
    versionPrefix t s!"v{version}:{token}" = some (version, token) := by
  have hlist : (s!"v{version}:{token}").toList = 'v' :: (Nat.toDigits 10 version ++ ':' :: token.toList) := by
    simp [toString]
  have hdigits : ∀ c ∈ Nat.toDigits 10 version, t.isDecimal c = true := fun c hc =>
    t.isDecimal_of_isDigit (Nat.isDigit_of_mem_toDigits (by decide) (by decide) hc)
  have hcolon : t.isDecimal ':' = false := by
    rw [DigitTables.isDecimal, t.decimal_ascii ':' (by decide)]
    rfl
  have htake : (Nat.toDigits 10 version ++ ':' :: token.toList).takeWhile t.isDecimal = Nat.toDigits 10 version := by
    rw [List.takeWhile_append_of_pos hdigits]
    simp [hcolon]
  rw [versionPrefix, hlist]
  simp only [htake, List.drop_left, List.isEmpty_iff, Nat.toDigits_ne_nil, if_false, t.value_toDigits]
  simp

/-! ## The keyring -/

theorem get?_withKeys (keys : Dict Nat κ) (extra : List (Nat × κ)) (version : Nat) :
    (withKeys keys extra).get? version = ((withKeys [] extra).get? version).or (keys.get? version) := by
  induction extra using List.reverseRecOn with
  | nil => simp [withKeys]
  | append_singleton extra item ih =>
    simp only [withKeys, List.foldl_append, List.foldl_cons, List.foldl_nil, Dict.get?_set] at ih ⊢
    split_ifs
    · rfl
    · exact ih

def EncryptionSettings.jsonKey (settings : EncryptionSettings κ) (version : Nat) : Option κ :=
  (withKeys [] settings.encryptionKeysJson).get? version

theorem get?_keyring (settings : EncryptionSettings κ) (version : Nat) :
    settings.encryptionKeyring.get? version =
      (settings.jsonKey version).or (if version = settings.encryptionKeyVersion then settings.encryptionKey else none) := by
  rw [EncryptionSettings.encryptionKeyring, get?_withKeys, EncryptionSettings.jsonKey]
  congr 1
  cases settings.encryptionKey with
  | none => simp
  | some primary => simp [Dict.get?_cons, eq_comm]

def EncryptionSettings.Active (settings : EncryptionSettings κ) (key : κ) : Prop :=
  settings.encryptionKeyring.get? settings.encryptionKeyVersion = some key

theorem encryptor_ok {settings : EncryptionSettings κ} {key} (h : settings.Active key) :
    settings.encryptor = .ok ⟨settings.encryptionKeyVersion, settings.encryptionKeyring, key, h⟩ := by
  have hne : settings.encryptionKeyring.isEmpty = false := by
    cases hkeys : settings.encryptionKeyring with
    | nil => rw [EncryptionSettings.Active, hkeys] at h; cases h
    | cons item keys => rfl
  rw [EncryptionSettings.encryptor, Encryptor.new, if_neg (by simp [hne])]
  split
  · next hnone => rw [EncryptionSettings.Active, hnone] at h; cases h
  · next active hactive =>
    cases Option.some.inj (h.symm.trans hactive)
    rfl

/-! ## Reading back -/

variable {fernet : Fernet κ σ}

/-- Every value encrypted under the first settings is decrypted under the second. -/
def Reads (fernet : Fernet κ σ) (settings settings' : EncryptionSettings κ) : Prop :=
  ∀ seed plaintext, ∃ encryptor encryptor', settings.encryptor = .ok encryptor ∧ settings'.encryptor = .ok encryptor' ∧
    encryptor'.decrypt fernet (encryptor.encrypt fernet seed plaintext) = .ok plaintext

def ReadsLegacy (fernet : Fernet κ σ) (key : κ) (settings : EncryptionSettings κ) : Prop :=
  ∀ seed plaintext, ∃ encryptor, settings.encryptor = .ok encryptor ∧
    encryptor.decrypt fernet (fernet.encrypt key seed plaintext) = .ok plaintext

theorem reads_iff [Nonempty σ] (hf : fernet.Lawful) {settings settings' : EncryptionSettings κ} {key key'}
    (h : settings.Active key) (h' : settings'.Active key') :
    Reads fernet settings settings' ↔ settings'.encryptionKeyring.get? settings.encryptionKeyVersion = some key := by
  constructor
  · intro hreads
    obtain ⟨seed⟩ := ‹Nonempty σ›
    obtain ⟨encryptor, encryptor', hok, hok', hdecrypt⟩ := hreads seed ""
    cases (encryptor_ok h).symm.trans hok
    cases (encryptor_ok h').symm.trans hok'
    rw [Encryptor.encrypt, Encryptor.decrypt, versionPrefix_versioned] at hdecrypt
    cases hget : settings'.encryptionKeyring.get? settings.encryptionKeyVersion with
    | none =>
      simp only [hget] at hdecrypt
      cases hdecrypt
    | some found =>
      by_cases hfound : found = key
      · rw [hfound]
      · simp only [hget, hf.decrypt_other seed "" hfound] at hdecrypt
        cases hdecrypt
  · intro hget seed plaintext
    refine ⟨_, _, encryptor_ok h, encryptor_ok h', ?_⟩
    rw [Encryptor.encrypt, Encryptor.decrypt, versionPrefix_versioned]
    simp only [hget, hf.decrypt_encrypt]

theorem multiDecrypt_mem (hf : fernet.Lawful) {keys key} (hkey : key ∈ keys) (seed : σ)
    (plaintext : String) : multiDecrypt fernet keys (fernet.encrypt key seed plaintext) = some plaintext := by
  induction keys with
  | nil => cases hkey
  | cons first keys ih =>
    rw [multiDecrypt, List.findSome?_cons]
    by_cases hfirst : first = key
    · rw [hfirst, hf.decrypt_encrypt]
    · rw [hf.decrypt_other seed plaintext hfirst]
      exact ih ((List.mem_cons.mp hkey).resolve_left (Ne.symm hfirst))

theorem readsLegacy_of_get? (hf : fernet.Lawful) {settings : EncryptionSettings κ} {key key' version}
    (h : settings.Active key') (hget : settings.encryptionKeyring.get? version = some key) :
    ReadsLegacy fernet key settings := by
  intro seed plaintext
  have hmem : key ∈ settings.encryptionKeyring.map (fun item => item.2) :=
    List.mem_map.mpr ⟨(version, key), Dict.mem_of_get? hget, rfl⟩
  refine ⟨_, encryptor_ok h, ?_⟩
  rw [Encryptor.decrypt, hf.unprefixed]
  simp only [multiDecrypt_mem hf hmem]

/-! ## Rotations -/

abbrev RotationTaken (κ : Type) := Taken (Deployment κ) (RotationStep κ) (Deployment κ)

abbrev RotationRun (start : Deployment κ) := Run Deployment.rotate (fun d => d) start

def deployments (start : Deployment κ) (tr : List (RotationTaken κ)) : List (Deployment κ) :=
  start :: tr.map (fun e => e.output)

/-- ENCRYPTION_KEY is `key` under version `n`, before any rotation. -/
def firstDeployment (key : κ) (n : Nat) (json : List (Nat × κ)) : Deployment κ := { settings := ⟨some key, n, json⟩ }

structure Rotated (key : κ) (n : Nat) (json : List (Nat × κ)) (d : Deployment κ) : Prop where
  version_le : n ≤ d.settings.encryptionKeyVersion
  firstKey : d.settings.jsonKey n = (withKeys [] json).get? n
  primary : d.settings.encryptionKeyVersion = n → d.settings.encryptionKey = some key
  pending : ∀ next, d.pending = some next → d.settings.jsonKey (d.settings.encryptionKeyVersion + 1) = some next
  rotated : n < d.settings.encryptionKeyVersion → (d.settings.jsonKey d.settings.encryptionKeyVersion).isSome

theorem jsonKey_append (settings : EncryptionSettings κ) (next : Nat) (key : κ) (version : Nat) :
    EncryptionSettings.jsonKey { settings with encryptionKeysJson := settings.encryptionKeysJson ++ [(next, key)] } version =
      if version = next then some key else settings.jsonKey version := by
  simp only [EncryptionSettings.jsonKey, withKeys, List.foldl_append, List.foldl_cons, List.foldl_nil, Dict.get?_set]

theorem jsonKey_eq_none {settings : EncryptionSettings κ} {version}
    (h : version ∉ settings.encryptionKeysJson.map (fun item => item.1)) : settings.jsonKey version = none := by
  rw [EncryptionSettings.jsonKey, withKeys, Dict.get?_foldl_set_of_ne]
  · rfl
  · intro item hitem hversion
    exact h (List.mem_map.mpr ⟨item, hitem, hversion⟩)

variable {key : κ} {n : Nat} {json : List (Nat × κ)} {d d' : Deployment κ} {step : RotationStep κ}

theorem rotated_first (key : κ) (n : Nat) (json : List (Nat × κ)) : Rotated key n json (firstDeployment key n json) :=
  ⟨Nat.le_refl n, rfl, fun _ => rfl, nofun, fun h => absurd h (Nat.lt_irrefl n)⟩

theorem rotate_cases (h : d.rotate step = .ok d') :
    (∃ next, step = .addKey next ∧ d'.pending = some next ∧
      d'.settings.encryptionKeyVersion = d.settings.encryptionKeyVersion ∧
      d'.settings.encryptionKey = d.settings.encryptionKey ∧
      d.settings.jsonKey (d.settings.encryptionKeyVersion + 1) = none ∧
      ∀ version, d'.settings.jsonKey version =
        if version = d.settings.encryptionKeyVersion + 1 then some next else d.settings.jsonKey version) ∨
    (∃ makePrimary next, step = .activate makePrimary ∧ d.pending = some next ∧ d'.pending = none ∧
      d'.settings.encryptionKeyVersion = d.settings.encryptionKeyVersion + 1 ∧
      ∀ version, d'.settings.jsonKey version = d.settings.jsonKey version) := by
  cases step with
  | addKey next =>
    simp only [Deployment.rotate] at h
    split_ifs at h with hbusy
    cases h
    refine Or.inl ⟨next, rfl, rfl, rfl, rfl, jsonKey_eq_none (fun hmem => hbusy (Or.inr hmem)), fun version => ?_⟩
    exact jsonKey_append d.settings _ next version
  | activate makePrimary =>
    simp only [Deployment.rotate] at h
    split at h
    · cases h
    · next next hpending =>
      cases h
      exact Or.inr ⟨makePrimary, next, rfl, hpending, rfl, rfl, fun _ => rfl⟩

theorem Rotated.rotate (h : Rotated key n json d) (hstep : d.rotate step = .ok d') : Rotated key n json d' := by
  have hle := h.version_le
  rcases rotate_cases hstep with ⟨next, _, hpending, hversion, hprimary, _, hjson⟩ |
    ⟨_, next, _, hpending, hnone, hversion, hjson⟩
  · refine ⟨hversion ▸ hle, ?_, fun hfirst => ?_, fun next' hnext => ?_, fun hlt => ?_⟩
    · rw [hjson, if_neg (by omega)]
      exact h.firstKey
    · rw [hprimary]
      exact h.primary (hversion ▸ hfirst)
    · rw [hversion, hjson, if_pos rfl]
      exact hpending.symm.trans hnext
    · rw [hversion] at hlt ⊢
      rw [hjson, if_neg (by omega)]
      exact h.rotated hlt
  · refine ⟨by omega, (hjson n).trans h.firstKey, fun hfirst => by omega, fun next' hnext => ?_, fun _ => ?_⟩
    · rw [hnone] at hnext
      cases hnext
    · rw [hversion, hjson, h.pending next hpending]
      rfl

theorem Rotated.active (h : Rotated key n json d) : ∃ active, d.settings.Active active := by
  have hget := get?_keyring d.settings d.settings.encryptionKeyVersion
  rw [if_pos rfl] at hget
  by_cases hfirst : d.settings.encryptionKeyVersion = n
  · rw [h.primary hfirst] at hget
    cases hjson : d.settings.jsonKey d.settings.encryptionKeyVersion with
    | none => exact ⟨key, by rw [EncryptionSettings.Active, hget, hjson, Option.none_or]⟩
    | some found => exact ⟨found, by rw [EncryptionSettings.Active, hget, hjson, Option.some_or]⟩
  · have hle := h.version_le
    obtain ⟨found, hjson⟩ := Option.isSome_iff_exists.mp (h.rotated (by omega))
    exact ⟨found, by rw [EncryptionSettings.Active, hget, hjson, Option.some_or]⟩

structure Later (d d' : Deployment κ) : Prop where
  version : d.settings.encryptionKeyVersion ≤ d'.settings.encryptionKeyVersion
  jsonKey : ∀ {version found}, d.settings.jsonKey version = some found → d'.settings.jsonKey version = some found

theorem Later.refl (d : Deployment κ) : Later d d := ⟨Nat.le_refl _, fun h => h⟩

theorem Later.trans {d''} (h : Later d d') (h' : Later d' d'') : Later d d'' :=
  ⟨Nat.le_trans h.version h'.version, fun hfound => h'.jsonKey (h.jsonKey hfound)⟩

theorem later_rotate (hstep : d.rotate step = .ok d') : Later d d' := by
  rcases rotate_cases hstep with ⟨_, _, _, hversion, _, hnew, hjson⟩ | ⟨_, _, _, _, _, hversion, hjson⟩
  · refine ⟨by omega, fun {version found} hfound => ?_⟩
    rw [hjson, if_neg ?_]
    · exact hfound
    · rintro rfl
      rw [hnew] at hfound
      cases hfound
  · exact ⟨by omega, fun {version found} hfound => (hjson version).trans hfound⟩

def Activates (tr : List (RotationTaken κ)) : Prop := ∃ e ∈ tr, ∃ makePrimary, e.input = .activate makePrimary

structure RotationOk (key : κ) (n : Nat) (json : List (Nat × κ)) (tr : List (RotationTaken κ)) (d : Deployment κ) :
    Prop where
  rotated : ∀ x ∈ deployments (firstDeployment key n json) tr, Rotated key n json x ∧ Later x d
  ordered : (deployments (firstDeployment key n json) tr).Pairwise Later
  last : d ∈ deployments (firstDeployment key n json) tr
  activated : n < d.settings.encryptionKeyVersion ↔ Activates tr

theorem deployments_snoc (start : Deployment κ) (tr : List (RotationTaken κ)) (e : RotationTaken κ) :
    deployments start (tr ++ [e]) = deployments start tr ++ [e.output] := by
  simp [deployments]

theorem rotationOk_run {tr : List (RotationTaken κ)} (h : RotationRun (firstDeployment key n json) tr d) :
    RotationOk key n json tr d := by
  refine h.invariant' (RotationOk key n json) ?_ ?_
  · refine ⟨fun x hx => ?_, List.pairwise_singleton _ _, List.mem_singleton.mpr rfl, ?_⟩
    · rw [List.mem_singleton.mp hx]
      exact ⟨rotated_first key n json, Later.refl _⟩
    · exact ⟨fun hlt => absurd hlt (Nat.lt_irrefl n), fun ⟨e, he, _⟩ => absurd he List.not_mem_nil⟩
  · intro tr d step d' hok hstep
    have hlater := later_rotate hstep
    refine ⟨fun x hx => ?_, ?_, ?_, ?_⟩
    · rw [deployments_snoc] at hx
      rcases List.mem_append.mp hx with hx | hx
      · exact ⟨(hok.rotated x hx).1, (hok.rotated x hx).2.trans hlater⟩
      · rw [List.mem_singleton.mp hx]
        exact ⟨(hok.rotated d hok.last).1.rotate hstep, Later.refl _⟩
    · rw [deployments_snoc, List.pairwise_append]
      refine ⟨hok.ordered, List.pairwise_singleton _ _, fun x hx y hy => ?_⟩
      rw [List.mem_singleton.mp hy]
      exact (hok.rotated x hx).2.trans hlater
    · rw [deployments_snoc]
      exact List.mem_append_right _ (List.mem_singleton.mpr rfl)
    · have hle := (hok.rotated d hok.last).1.version_le
      rcases rotate_cases hstep with ⟨next, rfl, _, hversion, _⟩ | ⟨makePrimary, next, rfl, _, _, hversion, _⟩
      · rw [hversion, hok.activated]
        constructor
        · rintro ⟨e, he, hinput⟩
          exact ⟨e, List.mem_append_left _ he, hinput⟩
        · rintro ⟨e, he, makePrimary, hinput⟩
          rcases List.mem_append.mp he with he | he
          · exact ⟨e, he, makePrimary, hinput⟩
          · rw [List.mem_singleton.mp he] at hinput
            cases hinput
      · refine ⟨fun _ => ⟨_, List.mem_append_right _ (List.mem_singleton.mpr rfl), makePrimary, rfl⟩, fun _ => ?_⟩
        omega

/-! ## Readable values -/

theorem keyring_of_jsonKey {settings : EncryptionSettings κ} {version found}
    (h : settings.jsonKey version = some found) : settings.encryptionKeyring.get? version = some found := by
  rw [get?_keyring, h, Option.some_or]

theorem Rotated.keyring_first (h : Rotated key n json d) (hfirst : d.settings.encryptionKeyVersion = n) :
    d.settings.encryptionKeyring.get? n = ((withKeys [] json).get? n).or (some key) := by
  rw [get?_keyring, h.firstKey, if_pos hfirst.symm, h.primary hfirst]

theorem RotationOk.version_eq {tr} (h : RotationOk key n json tr d) (hnever : ¬ Activates tr) {x}
    (hx : x ∈ deployments (firstDeployment key n json) tr) : x.settings.encryptionKeyVersion = n := by
  have hle := (h.rotated x hx).1.version_le
  have hlast := (h.rotated x hx).2.version
  have hnot : ¬ n < d.settings.encryptionKeyVersion := fun hlt => hnever (h.activated.mp hlt)
  omega

end QRadarDashboard.Security
