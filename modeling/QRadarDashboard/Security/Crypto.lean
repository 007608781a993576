import QRadarDashboard.Lib.Dict
import QRadarDashboard.Lib.PyText
import QRadarDashboard.Lib.Run

/-!
# Field encryption with key rotation (`app/security/crypto.py`)

A stored value carries the version of its key. The keyring is built anew from the settings of each deployment.
-/

namespace QRadarDashboard.Security
open Lib

/-- What the code relies on of Fernet: `κ` are its keys, and a token depends on a seed. `digits` are those of the
version before a token. -/
structure Fernet (κ σ : Type) where
  digits : PyDigits
  encrypt : κ → σ → String → String
  /-- `none` is `InvalidToken`. -/
  decrypt : κ → String → Option String

/-- `_PREFIX_RE`: the version and the token behind it. -/
def versionPrefix (t : PyDigits) (stored : String) : Option (Nat × String) :=
  match stored.toList with
  | 'v' :: rest =>
    let digits := rest.takeWhile t.isDecimal
    match rest.drop digits.length with
    | ':' :: token => if digits.isEmpty then none else some (t.value digits, String.ofList token)
    | _ => none
  | _ => none

/-- Decryption with the key of a token gives the plaintext, with another one nothing; a token is not read as a
versioned value. -/
structure Fernet.Lawful {κ σ : Type} (fernet : Fernet κ σ) : Prop where
  decrypt_encrypt : ∀ key seed plaintext, fernet.decrypt key (fernet.encrypt key seed plaintext) = some plaintext
  decrypt_other : ∀ {key key'} seed plaintext, key' ≠ key →
    fernet.decrypt key' (fernet.encrypt key seed plaintext) = none
  unprefixed : ∀ key seed plaintext, versionPrefix fernet.digits (fernet.encrypt key seed plaintext) = none

variable {κ σ : Type}

/-- The settings that the keyring is built from; a malformed ENCRYPTION_KEYS_JSON is refused at startup. -/
structure EncryptionSettings (κ : Type) where
  encryptionKey : Option κ
  encryptionKeyVersion : Nat := 1
  /-- The items of ENCRYPTION_KEYS_JSON. -/
  encryptionKeysJson : List (Nat × κ) := []

def withKeys (keys : Dict Nat κ) (extra : List (Nat × κ)) : Dict Nat κ :=
  extra.foldl (fun keys item => Dict.set keys item.1 item.2) keys

def EncryptionSettings.encryptionKeyring (settings : EncryptionSettings κ) : Dict Nat κ :=
  withKeys (settings.encryptionKey.toList.map (fun primary => (settings.encryptionKeyVersion, primary)))
    settings.encryptionKeysJson

inductive EncryptionError where
  | runtime (message : String)
  /-- `KeyRotationError` -/
  | keyRotation (message : String)
deriving DecidableEq

structure Encryptor (κ : Type) where
  activeVersion : Nat
  keyring : Dict Nat κ
  active : κ
  active_mem : keyring.get? activeVersion = some active

def Encryptor.new (keyring : Dict Nat κ) (activeVersion : Nat) : Except EncryptionError (Encryptor κ) :=
  if keyring.isEmpty then .error (.runtime "ENCRYPTION_KEY is not configured; cannot handle encrypted columns")
  else
    match h : keyring.get? activeVersion with
    | none => .error (.runtime s!"active encryption key version {activeVersion} is not in the keyring")
    | some active => .ok ⟨activeVersion, keyring, active, h⟩

variable (fernet : Fernet κ σ)

def Encryptor.encrypt (encryptor : Encryptor κ) (seed : σ) (plaintext : String) : String :=
  s!"v{encryptor.activeVersion}:{fernet.encrypt encryptor.active seed plaintext}"

/-- `MultiFernet.decrypt`: the first key that decrypts. -/
def multiDecrypt (keys : List κ) (token : String) : Option String := keys.findSome? (fun key => fernet.decrypt key token)

def Encryptor.decrypt (encryptor : Encryptor κ) (stored : String) : Except EncryptionError String :=
  match versionPrefix fernet.digits stored with
  | some (version, token) =>
    match encryptor.keyring.get? version with
    | none => .error (.keyRotation (s!"ciphertext was written with key version {version}, which is not in the " ++
        "current keyring; add it back to ENCRYPTION_KEYS_JSON to decrypt"))
    | some key =>
      match fernet.decrypt key token with
      | none => .error (.keyRotation s!"failed to decrypt with key version {version}; key material may be wrong")
      | some plaintext => .ok plaintext
  | none =>
    match multiDecrypt fernet (encryptor.keyring.map (fun item => item.2)) stored with
    | none => .error (.keyRotation "failed to decrypt an unversioned (legacy) value with any known key")
    | some plaintext => .ok plaintext

def EncryptionSettings.encryptor (settings : EncryptionSettings κ) : Except EncryptionError (Encryptor κ) :=
  Encryptor.new settings.encryptionKeyring settings.encryptionKeyVersion

/-! ## Rotation -/

structure Deployment (κ : Type) where
  settings : EncryptionSettings κ
  pending : Option κ := none

inductive RotationStep (κ : Type) where
  /-- Step 1: the new key goes into ENCRYPTION_KEYS_JSON under the next version. -/
  | addKey (key : κ)
  /-- Step 2: ENCRYPTION_KEY_VERSION becomes that version, and the key ENCRYPTION_KEY if desired. -/
  | activate (makePrimary : Bool)

def Deployment.rotate (d : Deployment κ) : RotationStep κ → Except Unit (Deployment κ)
  | .addKey key =>
    let next := d.settings.encryptionKeyVersion + 1
    if d.pending.isSome ∨ next ∈ d.settings.encryptionKeysJson.map (fun item => item.1) then .error ()
    else .ok {
      settings := { d.settings with encryptionKeysJson := d.settings.encryptionKeysJson ++ [(next, key)] }
      pending := some key }
  | .activate makePrimary =>
    match d.pending with
    | none => .error ()
    | some key => .ok {
        settings := { d.settings with
          encryptionKeyVersion := d.settings.encryptionKeyVersion + 1
          encryptionKey := if makePrimary then some key else d.settings.encryptionKey }
        pending := none }

end QRadarDashboard.Security
