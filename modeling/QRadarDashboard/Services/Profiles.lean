import QRadarDashboard.History.Scan
import QRadarDashboard.Lib.ReadCommitted
import QRadarDashboard.Lib.UnitOfWork

/-!
# Source profiles (`app/services/waf_profiles.py`, `app/services/ips_profiles.py`, `app/workers/tasks.py`)

Requests of the API and validation tasks are transactions that may overlap; a task probes QRadar between its two reads
of the row. The families differ in their columns: `μ` are those of the mapping, `ℓ` those that only describe the
source.
-/

namespace QRadarDashboard.Services
open Lib Lib.ReadCommitted History

inductive ProfileValidationStatus where
  | unvalidated | valid | invalid | inconclusive
deriving DecidableEq

def ProfileValidationStatus.value : ProfileValidationStatus → String
  | .unvalidated => "UNVALIDATED"
  | .valid => "VALID"
  | .invalid => "INVALID"
  | .inconclusive => "INCONCLUSIVE"

/-! ## Columns -/

/-- Columns of a row: what an UPDATE leaves of the stored ones, which is the new ones if they were not written since. -/
class Columns (μ : Type) where
  flush : (loaded current stored : μ) → μ
  flush_self : ∀ loaded stored, flush loaded loaded stored = stored
  flush_loaded : ∀ loaded current, flush loaded current loaded = current

/-- The action values of a site, by outcome. -/
structure ActionValueMap where
  blocked : List String := []
  allowed : List String := []
deriving DecidableEq

structure WafFieldMapping where
  url : String
  method : String
  virtualHost : Option String := none
  action : Option String := none
  responseCode : Option String := none
  ruleId : Option String := none
  userAgent : Option String := none
  actionValueMap : ActionValueMap := {}
deriving DecidableEq

def WafFieldMapping.flush (loaded current stored : WafFieldMapping) : WafFieldMapping where
  url := written loaded.url current.url stored.url
  method := written loaded.method current.method stored.method
  virtualHost := written loaded.virtualHost current.virtualHost stored.virtualHost
  action := written loaded.action current.action stored.action
  responseCode := written loaded.responseCode current.responseCode stored.responseCode
  ruleId := written loaded.ruleId current.ruleId stored.ruleId
  userAgent := written loaded.userAgent current.userAgent stored.userAgent
  actionValueMap := written loaded.actionValueMap current.actionValueMap stored.actionValueMap

instance wafColumns : Columns WafFieldMapping where
  flush := WafFieldMapping.flush
  flush_self _ _ := by simp [WafFieldMapping.flush]
  flush_loaded _ _ := by simp [WafFieldMapping.flush]

/-- The mapping of an IPS profile: its references as one JSON column, by logical field with their kind and name. -/
structure IpsFieldMapping where
  references : List (String × Option (String × String))
  actionValueMap : ActionValueMap := {}

def IpsFieldMapping.flush (loaded current stored : IpsFieldMapping) : IpsFieldMapping where
  references := written loaded.references current.references stored.references
  actionValueMap := written loaded.actionValueMap current.actionValueMap stored.actionValueMap

instance ipsColumns : Columns IpsFieldMapping where
  flush := IpsFieldMapping.flush
  flush_self _ _ := by simp [IpsFieldMapping.flush]
  flush_loaded _ _ := by simp [IpsFieldMapping.flush]

/-- What describes a WAF source. -/
structure ProductLabel where
  productLabel : Option String
deriving DecidableEq

instance labelColumns : Columns ProductLabel where
  flush loaded current stored := ⟨written loaded.productLabel current.productLabel stored.productLabel⟩
  flush_self _ _ := by simp
  flush_loaded _ _ := by simp

/-- What describes an IPS source. -/
structure IpsMetadata where
  productLabel : Option String
  preset : Option String

instance metadataColumns : Columns IpsMetadata where
  flush loaded current stored :=
    ⟨written loaded.productLabel current.productLabel stored.productLabel,
      written loaded.preset current.preset stored.preset⟩
  flush_self _ _ := by simp
  flush_loaded _ _ := by simp

/-! ## Profiles -/

/-- `ProfileValidation`: the status, and the report of the probe. -/
structure ProfileValidation (ρ : Type) where
  status : ProfileValidationStatus
  report : ρ

/-- A stored `validation_report`: that of the probe, with the version it is about. -/
structure ValidationReport (ρ : Type) where
  report : ρ
  profileVersion : Nat
  validatedAt : Int
deriving DecidableEq

section Profiles

variable {μ ℓ ρ : Type} [Columns μ] [DecidableEq μ] [Columns ℓ] [DecidableEq ℓ] [DecidableEq ρ]

/-- A row of `waf_source_profile` or `ips_source_profile`. An empty report is none. -/
structure SourceProfile (μ ℓ ρ : Type) where
  enabled : Bool := false
  profileVersion : Nat := 1
  metadata : ℓ
  mapping : μ
  validationStatus : ProfileValidationStatus := .unvalidated
  validatedProfileVersion : Option Nat := none
  validatedAt : Option Int := none
  validationReport : Option (ValidationReport ρ) := none
  validationRequestedAt : Option Int := none
  validationRequestedBy : Option String := none
  updatedBy : Option String

namespace SourceProfile

/-- A flush of the row loaded as `loaded` and changed to `current`. -/
def flush (loaded current stored : SourceProfile μ ℓ ρ) : SourceProfile μ ℓ ρ where
  enabled := written loaded.enabled current.enabled stored.enabled
  profileVersion := written loaded.profileVersion current.profileVersion stored.profileVersion
  metadata := Columns.flush loaded.metadata current.metadata stored.metadata
  mapping := Columns.flush loaded.mapping current.mapping stored.mapping
  validationStatus := written loaded.validationStatus current.validationStatus stored.validationStatus
  validatedProfileVersion :=
    written loaded.validatedProfileVersion current.validatedProfileVersion stored.validatedProfileVersion
  validatedAt := written loaded.validatedAt current.validatedAt stored.validatedAt
  validationReport := written loaded.validationReport current.validationReport stored.validationReport
  validationRequestedAt :=
    written loaded.validationRequestedAt current.validationRequestedAt stored.validationRequestedAt
  validationRequestedBy :=
    written loaded.validationRequestedBy current.validationRequestedBy stored.validationRequestedBy
  updatedBy := written loaded.updatedBy current.updatedBy stored.updatedBy

/-- `upsert` of a profile that is there. A changed mapping gets a new version, which nothing has validated. -/
def upsert (p : SourceProfile μ ℓ ρ) (mapping : μ) (metadata : ℓ) (actor : String) :
    SourceProfile μ ℓ ρ :=
  if p.mapping = mapping ∧ p.metadata = metadata then p
  else
    let p :=
      if p.mapping = mapping then p
      else { p with
        profileVersion := p.profileVersion + 1
        mapping := mapping
        validationStatus := .unvalidated
        validationReport := none
        validatedAt := none
        validationRequestedAt := none
        validationRequestedBy := none }
    { p with metadata := metadata, updatedBy := some actor }

/-- `set_enabled`: why not. Only the version that validated is enabled. -/
def enableRefusal (p : SourceProfile μ ℓ ρ) (enabled : Bool) : Option String :=
  if enabled && (p.validationStatus ≠ .valid || p.validatedProfileVersion ≠ some p.profileVersion) then
    some (s!"profile version {p.profileVersion} has not validated " ++
      s!"(status {p.validationStatus.value}); run validation first")
  else none

/-- `request_validation`: why not. -/
def validationRefusal (p : SourceProfile μ ℓ ρ) (pendingTimeoutSeconds now : Int) : Option String :=
  p.validationRequestedAt.bind (fun requestedAt =>
    if now - requestedAt < seconds pendingTimeoutSeconds then
      some (s!"validation of version {p.profileVersion} is already running " ++
        s!"since {isoformatUtc requestedAt}")
    else none)

end SourceProfile

/-- What a row is given besides its mapping: by `request_validation`, `set_enabled` and `store_validation`, and by the
two ends of a task that leave the result of before. -/
inductive ProfileWrite (ρ : Type) where
  | request (now : Int) (actor : String)
  | enable (enabled : Bool) (actor : String)
  | result (validation : ProfileValidation ρ) (now : Int) (actor : String)
  | clear

namespace SourceProfile

def write (p : SourceProfile μ ℓ ρ) : ProfileWrite ρ → SourceProfile μ ℓ ρ
  | .request now actor => { p with
      validationRequestedAt := some now, validationRequestedBy := some actor, updatedBy := some actor }
  | .enable enabled actor => if p.enabled = enabled then p else { p with enabled := enabled, updatedBy := some actor }
  | .result validation now actor => { p with
      validationStatus := validation.status
      validatedProfileVersion := some p.profileVersion
      validatedAt := some now
      validationReport := some ⟨validation.report, p.profileVersion, now⟩
      validationRequestedAt := none
      validationRequestedBy := none
      updatedBy := some actor }
  | .clear => { p with validationRequestedAt := none, validationRequestedBy := none }

end SourceProfile

/-- `collection_ineligibility`: why the source must not be collected now. Of the log source, whether it is there and
monitored. -/
def collectionIneligibility (wafCollectionEnabled : Bool) (monitoringEnabled : Option Bool)
    (p : SourceProfile μ ℓ ρ) : Option String :=
  if !wafCollectionEnabled then some "WAF collection is disabled (WAF_COLLECTION_ENABLED=false)"
  else match monitoringEnabled with
  | none => some "the profile's log source no longer exists"
  | some monitoring =>
    if !p.enabled then some "the profile is disabled"
    else if !monitoring then some "monitoring is disabled for the log source"
    else if p.validatedProfileVersion ≠ some p.profileVersion then
      match p.validatedProfileVersion with
      | none => some s!"profile version {p.profileVersion} has never been validated"
      | some version => some (s!"profile version {p.profileVersion} has not been validated " ++
          s!"(last validated: {version})")
    else if p.validationStatus ≠ .valid then some s!"profile validation is {p.validationStatus.value}"
    else none

/-- `IpsCollector._ineligibility` -/
def ipsIneligibility (monitoringEnabled : Bool) (p : SourceProfile μ ℓ ρ) : Option String :=
  if !p.enabled then some "profile disabled"
  else if !monitoringEnabled then some "monitoring disabled"
  else if p.validatedProfileVersion ≠ some p.profileVersion then some "current profile version is not validated"
  else if p.validationStatus ≠ .valid then some s!"profile validation is {p.validationStatus.value}"
  else none

/-! ## Requests and tasks -/

/-- The log source, if it is there, and its profile. -/
structure ProfileStore (μ ℓ ρ : Type) where
  logSource : Bool
  profile : Option (SourceProfile μ ℓ ρ) := none

/-- A `PUT`: the mapping it carries, or why that is refused. -/
structure ProfileIn (μ ℓ : Type) where
  expectedProfileVersion : Option Nat
  mapping : Except String μ
  metadata : ℓ
  now : Int
  actor : String

/-- A delivery of `validate_waf_profile` or `validate_ips_profile`: its retries, whether the log source is there and the
pipeline lock was free, and what QRadar answers a probe. -/
structure ValidationTask (μ ρ : Type) where
  lockRetryCount : Nat
  sourceFound : Bool
  acquired : Bool
  validate : μ → Except String (ProfileValidation ρ)
  now : Int

inductive ProfileRequest (μ ℓ ρ : Type) where
  | put (body : ProfileIn μ ℓ)
  | validate (now : Int) (actor : String)
  | setEnabled (enabled : Bool) (actor : String)
  | task (t : ValidationTask μ ρ)

inductive ProfileRefusal where
  | notFound (message : String)
  | conflict (message : String) (currentVersion : Option Nat) (updatedBy pendingSince : Option String)
  | unprocessable (message : String)
  /-- `StaleDataError`: the UPDATE found no row. -/
  | staleData

/-- What a task returns without writing. -/
inductive TaskStatus where
  | notFound | notPending
  | staleRequeued (validatedVersion currentVersion : Nat)
  | lockedRequeued (lockRetryCount : Nat)

/-- What a row is locked for. -/
inductive ProfileWork (μ ℓ ρ : Type) where
  | validate (now : Int) (actor : String)
  | setEnabled (enabled : Bool) (actor : String)
  /-- The end of a task that read the row `read`. -/
  | failed (read : SourceProfile μ ℓ ρ)
  | sourceBusy (read : SourceProfile μ ℓ ρ)
  | checked (read : SourceProfile μ ℓ ρ) (result : ProfileValidation ρ) (now : Int)

inductive ProfileTx (μ ℓ ρ : Type) where
  | put (body : ProfileIn μ ℓ)
  /-- The log source is locked; its profile is not read yet. -/
  | sourceLocked (body : ProfileIn μ ℓ)
  | inserting (p : SourceProfile μ ℓ ρ)
  /-- The profile that was read, and as `upsert` changed it. A `write` follows in the same transaction. -/
  | updating (loaded upserted : SourceProfile μ ℓ ρ) (write : Option (ProfileWrite ρ))
  /-- The row is locked; the commit is next. -/
  | updated (loaded upserted : SourceProfile μ ℓ ρ) (write : Option (ProfileWrite ρ))
  | task (t : ValidationTask μ ρ)
  | locking (work : ProfileWork μ ℓ ρ)
  | saving (loaded : SourceProfile μ ℓ ρ) (write : ProfileWrite ρ)
  | unchanged
  | refused (e : ProfileRefusal)
  | ended (status : TaskStatus)

structure ProfileSettings where
  validationPendingTimeoutSeconds : Int := 900
  validationLockMaxRetries : Nat := 20

variable (settings : ProfileSettings)

def conflictDetail (message : String) (p : SourceProfile μ ℓ ρ) : ProfileRefusal :=
  .conflict message (some p.profileVersion) p.updatedBy (p.validationRequestedAt.map isoformatUtc)

/-- The rest of a `PUT`, on the profile it read. A changed mapping is validated at once. -/
def putProfile (body : ProfileIn μ ℓ) : Option (SourceProfile μ ℓ ρ) → ProfileTx μ ℓ ρ
  | none =>
    if body.expectedProfileVersion.isSome then
      .refused (.conflict "the profile does not exist; create it with expected_profile_version null" none none none)
    else match body.mapping with
    | .error message => .refused (.unprocessable message)
    | .ok mapping => .inserting {
        metadata := body.metadata
        mapping := mapping
        validationRequestedAt := some body.now
        validationRequestedBy := some body.actor
        updatedBy := some body.actor }
  | some p =>
    if body.expectedProfileVersion ≠ some p.profileVersion then
      .refused (conflictDetail s!"profile version conflict; current version is {p.profileVersion}" p)
    else match body.mapping with
    | .error message => .refused (.unprocessable message)
    | .ok mapping =>
      let upserted := p.upsert mapping body.metadata body.actor
      if p.mapping = mapping then
        if p.metadata = body.metadata then .unchanged else .updating p upserted none
      else match upserted.validationRefusal settings.validationPendingTimeoutSeconds body.now with
      | some message => .refused (.unprocessable message)
      | none => .updating p upserted (some (.request body.now body.actor))

/-- A task, on the row it read: QRadar is asked of the mapping of that row. -/
def runTask (t : ValidationTask μ ρ) : Option (SourceProfile μ ℓ ρ) → ProfileTx μ ℓ ρ
  | none => .ended .notFound
  | some p =>
    if p.validationRequestedAt.isNone then .ended .notPending
    else if !t.sourceFound then .locking (.failed p)
    else if !t.acquired then
      if t.lockRetryCount < settings.validationLockMaxRetries then
        .ended (.lockedRequeued (t.lockRetryCount + 1))
      else .locking (.sourceBusy p)
    else match t.validate p.mapping with
    | .error _ => .locking (.failed p)
    | .ok result => .locking (.checked p result t.now)

/-- The actor of a task is the one who asked for the validation it read. -/
def taskActor (read : SourceProfile μ ℓ ρ) : String :=
  match read.validationRequestedBy with
  | none => "system"
  | some actor => if actor = "" then "system" else actor

/-- The end of a task that read `read`, on the row it has locked. -/
def settleTask (read p : SourceProfile μ ℓ ρ) (write : ProfileWrite ρ) : ProfileTx μ ℓ ρ :=
  if p.profileVersion ≠ read.profileVersion then .ended (.staleRequeued read.profileVersion p.profileVersion)
  else .saving p write

def settleWork (family : String) : ProfileWork μ ℓ ρ → Option (SourceProfile μ ℓ ρ) → ProfileTx μ ℓ ρ
  | .validate now actor, some p =>
    match p.validationRefusal settings.validationPendingTimeoutSeconds now with
    | some message => .refused (conflictDetail message p)
    | none => .saving p (.request now actor)
  | .setEnabled enabled actor, some p =>
    match p.enableRefusal enabled with
    | some message => .refused (conflictDetail message p)
    | none => .saving p (.enable enabled actor)
  | .failed read, some p => settleTask read p .clear
  | .sourceBusy read, some p =>
    if p.profileVersion = read.profileVersion ∧ p.validationRequestedAt = none then .ended .notPending
    else settleTask read p .clear
  | .checked read validation now, some p => settleTask read p (.result validation now (taskActor read))
  | .validate _ _, none | .setEnabled _ _, none => .refused (.notFound (family ++ " source profile not found"))
  | _, none => .ended .notFound

inductive ProfileKey where
  | source | profile
deriving DecidableEq

def ProfileRequest.enter : ProfileRequest μ ℓ ρ → ProfileTx μ ℓ ρ
  | .put body => .put body
  | .validate now actor => .locking (.validate now actor)
  | .setEnabled enabled actor => .locking (.setEnabled enabled actor)
  | .task t => .task t

/-- The statements of the requests and of a task. An UPDATE locks its row. -/
def profileNext (family : String) :
    ProfileTx μ ℓ ρ → Statement (ProfileStore μ ℓ ρ) ProfileKey (ProfileTx μ ℓ ρ)
  | .put body => .lock .source (fun store =>
    if store.logSource then .sourceLocked body else .refused (.notFound "log source not found"))
  | .sourceLocked body => .read (fun store => putProfile settings body store.profile)
  | .inserting p => .commit (fun store => { store with profile := store.profile.or (some p) })
  | .updating loaded upserted write => .lock .profile (fun store =>
    if store.profile.isSome then .updated loaded upserted write else .refused .staleData)
  | .task t => .read (fun store => runTask settings t store.profile)
  | .locking work => .lock .profile (fun store => settleWork settings family work store.profile)
  | .updated loaded upserted write => .commit (fun store => { store with
      profile := store.profile.map (fun stored =>
        let stored := loaded.flush upserted stored
        match write with
        | none => stored
        | some write => upserted.flush (upserted.write write) stored) })
  | .saving loaded write => .commit (fun store =>
    { store with profile := store.profile.map (loaded.flush (loaded.write write)) })
  | .unchanged | .refused _ | .ended _ => .rollback

end Profiles

end QRadarDashboard.Services
