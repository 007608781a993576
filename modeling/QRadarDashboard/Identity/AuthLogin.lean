import QRadarDashboard.Basic
import QRadarDashboard.Identity.UserAdmin

/-!
# Sign-in of a local account (`app/services/auth_login.py`, `app/services/auth_sessions.py`)

The row is locked from the first flush on. The password may change meanwhile.
-/

namespace QRadarDashboard.Identity
open Lib Lib.ReadCommitted

structure AuthSettings where
  loginLockoutThreshold : Int := 5
  loginLockoutMinutes : Int := 15
  sessionMaxHours : Int := 12
  threshold_ok : 1 ≤ loginLockoutThreshold ∧ loginLockoutThreshold ≤ 50
  minutes_ok : 1 ≤ loginLockoutMinutes ∧ loginLockoutMinutes ≤ 1440

structure AuthEnv where
  settings : AuthSettings
  verifyPassword : String → Option String → Bool
  passwordPolicyReasons : String → String → List String

variable (env : AuthEnv)

/-! ## The lock -/

def isLocked (user : Account) (now : Int) : Bool := user.lockedUntil.any (fun lockedUntil => lockedUntil > now)

def clearExpiredLock (user : Account) (now : Int) : Account :=
  if user.lockedUntil.any (fun lockedUntil => lockedUntil ≤ now) then
    { user with lockedUntil := none, failedLoginCount := 0 }
  else user

def applyFailure (user : Account) (now : Int) (threshold lockMinutes : Int) : Account :=
  let user := { user with failedLoginCount := user.failedLoginCount + 1 }
  if user.failedLoginCount ≥ threshold then { user with lockedUntil := some (now + seconds (lockMinutes * 60)) }
  else user

def disabled (user : Account) : Bool := user.disabledAt.isSome || !user.isActive

/-! ## Sign-in -/

structure AuthSession where
  tokenHash : String
  createdAt : Int
  lastSeenAt : Int
  expiresAt : Int
deriving DecidableEq

def issueSession (token : String) (now : Int) : AuthSession :=
  { tokenHash := token
    createdAt := now
    lastSeenAt := now
    expiresAt := now + seconds (env.settings.sessionMaxHours * 3600) }

/-- `_success` on the copy of the row. -/
def signIn (user : Account) (now : Int) (recordLogin : Bool := true) : Account :=
  { user with
    failedLoginCount := 0
    lockedUntil := none
    lastLoginAt := if recordLogin then some now else user.lastLoginAt }

/-- One call: its clock, its password and the token of the session it would issue. -/
structure LoginCall where
  now : Int
  password : String
  token : String

inductive LoginOutcome where
  /-- The account is locked: only an audit record. -/
  | locked
  | counted (user : Account)
  | refused (user : Account)
  | success (user : Account) (session : AuthSession)

def LoginOutcome.isCounted : LoginOutcome → Bool
  | .counted _ => true
  | _ => false

def countFailure (user : Account) (now : Int) : LoginOutcome :=
  .counted (applyFailure user now env.settings.loginLockoutThreshold env.settings.loginLockoutMinutes)

def emptyPassword (user : Account) (call : LoginCall) : LoginOutcome :=
  if isLocked user call.now then .locked else countFailure env user call.now

def localSignIn (user : Account) (call : LoginCall) : LoginOutcome :=
  if isLocked user call.now then .locked
  else
    let user := clearExpiredLock user call.now
    if !env.verifyPassword call.password user.hashedPassword then countFailure env user call.now
    else if disabled user then .refused user
    else .success (signIn user call.now) (issueSession env call.token call.now)

def authenticate (user : Account) (call : LoginCall) : LoginOutcome :=
  if call.password = "" then emptyPassword env user call else localSignIn env user call

/-! ## The account and its sessions -/

/-- The row of the account and its sessions, each with the number of password changes committed when the row was read
for it; this and `changes` are no columns. -/
structure AuthStore where
  user : Account
  sessions : List (AuthSession × Option Nat)
  changes : Nat := 0

/-- A change of the password by its owner. `hash` is the new password hashed. -/
structure ChangeCall where
  now : Int
  currentPassword : String
  newPassword : String
  hash : PasswordHash
  token : String

structure ResetCall where
  password : String
  hash : PasswordHash

inductive AuthRequest where
  | login (call : LoginCall)
  | change (call : ChangeCall)
  | reset (call : ResetCall)

inductive AuthTx where
  | login (call : LoginCall)
  /-- The row is read; `since` is the number of password changes then. -/
  | loaded (call : LoginCall) (copy : Account) (since : Nat)
  | flushed (call : LoginCall) (copy : Account) (since : Nat)
  | change (call : ChangeCall)
  | changeLoaded (call : ChangeCall) (copy : Account)
  | changeFlushed (call : ChangeCall) (copy : Account)
  /-- The sessions the DELETE saw. -/
  | changeRevoked (call : ChangeCall) (copy : Account) (seen : List (AuthSession × Option Nat))
  | reset (call : ResetCall)
  | resetLocked (call : ResetCall)
  | resetRevoked (call : ResetCall) (seen : List (AuthSession × Option Nat))
  | refused

def AuthRequest.enter : AuthRequest → AuthTx
  | .login call => .login call
  | .change call => .change call
  | .reset call => .reset call

def commitLogin (copy : Account) (since : Nat) (store : AuthStore) : LoginOutcome → AuthStore
  | .locked => store
  | .counted user | .refused user => { store with user := copy.flush user store.user }
  | .success user session => { store with
      user := copy.flush user store.user
      sessions := store.sessions ++ [(session, some since)] }

/-- The checks of `change_own_password`, in order. -/
def changeAccepted (copy : Account) (call : ChangeCall) : Bool :=
  match copy.username with
  | none => false
  | some username =>
    copy.authSource = "LOCAL" && username ≠ "" &&
      env.verifyPassword call.currentPassword copy.hashedPassword &&
      (env.passwordPolicyReasons call.newPassword username).isEmpty

def resetAccepted (user : Account) (call : ResetCall) : Bool :=
  match user.username with
  | none => false
  | some username =>
    user.authSource = "LOCAL" && username ≠ "" && (env.passwordPolicyReasons call.password username).isEmpty

/-- `change_own_password` on the copy of the row. -/
def changedPassword (copy : Account) (call : ChangeCall) : Account :=
  signIn { copy with hashedPassword := some call.hash.1, mustChangePassword := false } call.now false

def resetPassword (user : Account) (call : ResetCall) : Account :=
  { user with
    hashedPassword := some call.hash.1
    mustChangePassword := true
    failedLoginCount := 0
    lockedUntil := none }

def revoke (seen sessions : List (AuthSession × Option Nat)) : List (AuthSession × Option Nat) :=
  sessions.filter (fun item => item ∉ seen)

/-- The statements of `authenticate`, `change_own_password` and `reset_password`. A DELETE flushes first, so a change
locks the row before it revokes. -/
def authNext : AuthTx → Statement AuthStore Unit AuthTx
  | .login call => .read (fun store => .loaded call store.user store.changes)
  | .loaded call copy since =>
    match authenticate env copy call with
    | .locked => .commit (fun store => store)
    | _ => .lock () (fun _ => .flushed call copy since)
  | .flushed call copy since => .commit (fun store => commitLogin copy since store (authenticate env copy call))
  | .change call => .read (fun store =>
    if disabled store.user then .refused else .changeLoaded call store.user)
  | .changeLoaded call copy =>
    if changeAccepted env copy call then .lock () (fun _ => .changeFlushed call copy) else .rollback
  | .changeFlushed call copy => .read (fun store => .changeRevoked call copy store.sessions)
  | .changeRevoked call copy seen => .commit (fun store => {
      user := copy.flush (changedPassword copy call) store.user
      sessions := revoke seen store.sessions ++ [(issueSession env call.token call.now, none)]
      changes := store.changes + 1 })
  | .reset call => .lock () (fun store =>
    if resetAccepted env store.user call then .resetLocked call else .refused)
  | .resetLocked call => .read (fun store => .resetRevoked call store.sessions)
  | .resetRevoked call seen => .commit (fun store => {
      user := resetPassword store.user call
      sessions := revoke seen store.sessions
      changes := store.changes + 1 })
  | .refused => .rollback

/-! ## Calls one after the other -/

def unlockUser (user : Account) : Account := { user with lockedUntil := none, failedLoginCount := 0 }

inductive LockCall where
  | login (call : LoginCall)
  | unlock
  | reset (call : ResetCall)

inductive LockEvent where
  | refusedLocked
  /-- A counted failure, with the end of the lock it started. -/
  | counted (lock : Option Int)
  | refusedDisabled
  | success
  /-- An unlock or a reset. -/
  | cleared
  /-- A reset that raised. -/
  | rejected
deriving DecidableEq

structure LockOutput where
  user : Account
  event : LockEvent

/-- The lock that a counted failure started: `apply_failure` returned `True`. -/
def startedLock (user : Account) : Option Int :=
  if user.failedLoginCount ≥ env.settings.loginLockoutThreshold then user.lockedUntil else none

def lockStep (user : Account) : LockCall → Except Exc LockOutput
  | .login call =>
    match authenticate env user call with
    | .locked => .ok ⟨user, .refusedLocked⟩
    | .counted after => .ok ⟨after, .counted (startedLock env after)⟩
    | .refused after => .ok ⟨after, .refusedDisabled⟩
    | .success after _ => .ok ⟨after, .success⟩
  | .unlock => .ok ⟨unlockUser user, .cleared⟩
  | .reset call =>
    if resetAccepted env user call then .ok ⟨resetPassword user call, .cleared⟩ else .ok ⟨user, .rejected⟩

end QRadarDashboard.Identity
