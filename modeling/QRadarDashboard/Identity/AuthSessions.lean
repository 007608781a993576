import QRadarDashboard.Identity.AuthLogin

/-!
# The principal of a request (`app/services/auth_sessions.py`, `app/security/auth.py`)

A lookup is a transaction of its own, driven through the generator `get_session`; the exception of a refused one
leaves through it. The sessions are those of one user.
-/

namespace QRadarDashboard.Identity
open Lib

/-! ## The contexts of the lookup -/

inductive AuthException where
  | authenticationRequired (detail : String)
  | http (status : Nat) (detail : String)
  /-- the generator has no more values -/
  | stopAsyncIteration
deriving DecidableEq

section Contexts

variable {σ α : Type}

structure DbTransaction (σ : Type) where
  committed : σ
  pending : σ

/-- `get_session`, resumed after its `yield`: it commits, or rolls back and raises the exception that it was
thrown. -/
def getSession (tx : DbTransaction σ) : Option AuthException → σ × AuthException
  | none => (tx.pending, .stopAsyncIteration)
  | some e => (tx.committed, e)

/-- `suppress(StopAsyncIteration)` around a resumption, and what is raised after it. -/
def suppressed (raised : AuthException) (after : Except AuthException α) : Except AuthException α :=
  if raised = .stopAsyncIteration then after else .error raised

/-- `_request_session` around a body, which returns what it wrote with its result. -/
def requestSession (st : σ) (body : σ → σ × Except AuthException α) : σ × Except AuthException α :=
  let (pending, result) := body st
  match result with
  | .ok a =>
    let (st', raised) := getSession ⟨st, pending⟩ none
    (st', suppressed raised (.ok a))
  | .error e =>
    let (st', raised) := getSession ⟨st, pending⟩ (some e)
    (st', suppressed raised (.error e))

end Contexts

/-! ## The lookup -/

structure SessionSettings where
  idleMinutes : Nat
  maxHours : Nat

/-- `tokenHash` is `token_hash`. -/
structure SessionEnv where
  tokenHash : String → String
  apiPrefix : String

def requiredDetail : String := "Authentication required."

def mustChangeDetail : String := "A password change is required before any other request."

def sessionExpired (row : AuthSession) (now : Int) (cfg : SessionSettings) : Bool :=
  decide (row.expiresAt ≤ now) || decide (row.createdAt + seconds (cfg.maxHours * 3600) ≤ now) ||
    decide (seconds (cfg.idleMinutes * 60) ≤ now - row.lastSeenAt)

structure SessionStore where
  user : Option User
  sessions : List AuthSession

structure CookieRequest where
  token : Option String
  /-- the clock of the lookup -/
  now : Int
  /-- the clock when the lookup is over -/
  doneAt : Int
  method : String
  path : String

variable (env : SessionEnv) (cfg : SessionSettings)

def SessionStore.rowOf (st : SessionStore) (token : Option String) : Option AuthSession :=
  match token with
  | none => none
  | some token =>
    if token = "" ∨ 512 < token.length then none
    else st.sessions.find? (fun row => row.tokenHash = env.tokenHash token)

def SessionStore.delete (st : SessionStore) (row : AuthSession) : SessionStore :=
  { st with sessions := st.sessions.filter (fun other => other.tokenHash ≠ row.tokenHash) }

def principalFromCookie (token : Option String) (now : Int) (st : SessionStore) :
    SessionStore × Except AuthException (User × AuthSession) :=
  match st.rowOf env token with
  | none => (st, .error (.authenticationRequired requiredDetail))
  | some row =>
    if sessionExpired row now cfg then (st.delete row, .error (.authenticationRequired requiredDetail))
    else
      match st.user with
      | none => (st.delete row, .error (.authenticationRequired requiredDetail))
      | some user =>
        if disabled user.toAccount then (st.delete row, .error (.authenticationRequired requiredDetail))
        else (st, .ok (user, row))

def allowedWhilePasswordMustChange (method path : String) : Bool :=
  let method := String.ofList (method.toList.map Char.toUpper)
  [("GET", env.apiPrefix ++ "/me"), ("POST", env.apiPrefix ++ "/auth/password"), ("POST", env.apiPrefix ++ "/auth/logout")].contains
    (method, path)

def SessionStore.touchLastSeen (st : SessionStore) (row : AuthSession) (now : Int) : SessionStore :=
  if seconds 60 ≤ now - row.lastSeenAt then
    { st with sessions := st.sessions.map (fun other =>
        if other.tokenHash = row.tokenHash then { other with lastSeenAt := now } else other) }
  else st

/-- The body of `_session_principal` in its `try`. -/
def sessionBody (req : CookieRequest) (st : SessionStore) : SessionStore × Except AuthException User :=
  match principalFromCookie env cfg req.token req.now st with
  | (st', .error e) => (st', .error e)
  | (st', .ok (user, row)) =>
    if user.mustChangePassword && !allowedWhilePasswordMustChange env req.method req.path then
      (st', .error (.http 403 mustChangeDetail))
    else (st'.touchLastSeen row req.doneAt, .ok user)

def sessionPrincipal (req : CookieRequest) (st : SessionStore) : SessionStore × Except AuthException User :=
  match requestSession st (sessionBody env cfg req) with
  | (st', .error (.authenticationRequired detail)) => (st', .error (.http 401 detail))
  | outcome => outcome

/-! ## The requests and what comes between them -/

inductive SessionEvent where
  | request (req : CookieRequest)
  | settings (cfg : SessionSettings)
  /-- the account changes: it is disabled, enabled, or given other roles -/
  | account (user : Option User)
  /-- a logout, a cleanup or a revocation deletes the sessions with these hashes -/
  | delete (hashes : List String)

/-- `refused` holds the hashes of the cookies whose rows a lookup refused; it is not stored. -/
structure SessionState where
  store : SessionStore
  settings : SessionSettings
  lastAt : Option Int := none
  refused : List String := []

structure SessionReport where
  state : SessionState
  outcome : Option (Except AuthException User) := none

def SessionStore.dead (st : SessionStore) (row : AuthSession) (now : Int) : Bool :=
  sessionExpired row now cfg || st.user.all (fun user => disabled user.toAccount)

def sessionStep (st : SessionState) : SessionEvent → Except Unit SessionReport
  | .request req =>
    if req.doneAt < req.now ∨ st.lastAt.any (fun last => req.now < last) then .error ()
    else
      let (store, outcome) := sessionPrincipal env st.settings req st.store
      let refused := match st.store.rowOf env req.token with
        | some row => if st.store.dead st.settings row req.now then st.refused ++ [row.tokenHash] else st.refused
        | none => st.refused
      .ok { state := { st with store, lastAt := some req.doneAt, refused }, outcome := some outcome }
  | .settings cfg => .ok { state := { st with settings := cfg } }
  | .account user => .ok { state := { st with store := { st.store with user } } }
  | .delete hashes =>
    .ok { state := { st with store := { st.store with
      sessions := st.store.sessions.filter (fun row => row.tokenHash ∉ hashes) } } }

abbrev SessionTaken := Taken SessionState SessionEvent SessionReport

/-! ## The cleanup -/

/-- The condition of the query of `cleanup_expired`. -/
def cleanable (row : AuthSession) (now : Int) (cfg : SessionSettings) : Bool :=
  decide (row.expiresAt ≤ now) || decide (row.lastSeenAt ≤ now - seconds (cfg.idleMinutes * 60))

structure CleanupBatch (cfg : SessionSettings) (batch : Nat) (now : Int) (st : SessionStore) (chosen : List AuthSession) :
    Prop where
  bounded : chosen.length ≤ batch
  stored : ∀ row ∈ chosen, row ∈ st.sessions ∧ cleanable row now cfg = true

/-- `cleanup_expired`, with what its query returned. -/
def SessionStore.cleanup (st : SessionStore) (chosen : List AuthSession) : SessionStore :=
  { st with sessions := st.sessions.filter (fun row => row ∉ chosen) }

end QRadarDashboard.Identity
