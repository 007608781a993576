import QRadarDashboard.Identity.AuthSessions

/-!
# The sessions that were refused
-/

namespace QRadarDashboard.Identity
open Lib

variable {env : SessionEnv} {cfg : SessionSettings} {st : SessionStore} {row : AuthSession} {token : Option String}
  {now later : Int}

/-! ## The lookup -/

theorem sessionExpired_later (h : sessionExpired row now cfg = true) (hlater : now ≤ later) :
    sessionExpired row later cfg = true := by
  simp only [sessionExpired, Bool.or_eq_true, decide_eq_true_eq] at h ⊢
  omega

theorem dead_later (h : st.dead cfg row now = true) (hlater : now ≤ later) : st.dead cfg row later = true := by
  simp only [SessionStore.dead, Bool.or_eq_true] at h ⊢
  exact h.imp_left (fun hexpired => sessionExpired_later hexpired hlater)

theorem principalFromCookie_none (h : st.rowOf env token = none) :
    principalFromCookie env cfg token now st = (st, .error (.authenticationRequired requiredDetail)) := by
  simp only [principalFromCookie, h]

theorem principalFromCookie_dead (h : st.rowOf env token = some row) (hdead : st.dead cfg row now = true) :
    principalFromCookie env cfg token now st = (st.delete row, .error (.authenticationRequired requiredDetail)) := by
  simp only [principalFromCookie, h]
  split
  · rfl
  · rename_i hexpired
    simp only [SessionStore.dead, hexpired, Bool.false_or, Option.all_eq_true] at hdead
    split
    · rfl
    · rename_i user huser
      rw [if_pos (hdead user huser)]

theorem principalFromCookie_alive (h : st.rowOf env token = some row) (halive : st.dead cfg row now = false) :
    ∃ user, principalFromCookie env cfg token now st = (st, .ok (user, row)) := by
  simp only [SessionStore.dead, Bool.or_eq_false_iff] at halive
  cases huser : st.user with
  | none => simp [huser] at halive
  | some user =>
    have halive : sessionExpired row now cfg = false ∧ disabled user.toAccount = false := by simpa [huser] using halive
    exact ⟨user, by simp [principalFromCookie, h, halive.1, huser, halive.2]⟩

theorem suppressed_self {α : Type} (e : AuthException) : suppressed e (.error e : Except AuthException α) = .error e := by
  unfold suppressed
  split <;> rfl

theorem requestSession_error {σ α : Type} {st pending} {body : σ → σ × Except AuthException α} {e}
    (h : body st = (pending, .error e)) : requestSession st body = (st, .error e) := by
  simp only [requestSession, h, getSession, suppressed_self]

theorem requestSession_ok {σ α : Type} {st pending} {body : σ → σ × Except AuthException α} {a}
    (h : body st = (pending, .ok a)) : requestSession st body = (pending, .ok a) := by
  simp only [requestSession, h, getSession, suppressed, if_true]

inductive RequestOutcome (env : SessionEnv) (cfg : SessionSettings) (req : CookieRequest) (st : SessionStore) : Prop
  | refused (hdead : ∀ row, st.rowOf env req.token = some row → st.dead cfg row req.now = true)
      (hresult : sessionPrincipal env cfg req st = (st, .error (.http 401 requiredDetail)))
  | mustChange {row : AuthSession} (hrow : st.rowOf env req.token = some row)
      (halive : st.dead cfg row req.now = false)
      (hresult : sessionPrincipal env cfg req st = (st, .error (.http 403 mustChangeDetail)))
  | served {row : AuthSession} (user : User) (hrow : st.rowOf env req.token = some row)
      (halive : st.dead cfg row req.now = false)
      (hresult : sessionPrincipal env cfg req st = (st.touchLastSeen row req.doneAt, .ok user))

theorem sessionPrincipal_cases (env : SessionEnv) (cfg : SessionSettings) (st : SessionStore) (req : CookieRequest) :
    RequestOutcome env cfg req st := by
  cases hrow : st.rowOf env req.token with
  | none =>
    refine .refused (fun row h => by cases hrow.symm.trans h) ?_
    have hbody : sessionBody env cfg req st = (st, .error (.authenticationRequired requiredDetail)) := by
      rw [sessionBody, principalFromCookie_none hrow]
    simp only [sessionPrincipal, requestSession_error hbody]
  | some row =>
    cases hdead : st.dead cfg row req.now with
    | true =>
      refine .refused (fun other h => ?_) ?_
      · cases hrow.symm.trans h
        exact hdead
      · have hbody : sessionBody env cfg req st =
            (st.delete row, .error (.authenticationRequired requiredDetail)) := by
          rw [sessionBody, principalFromCookie_dead hrow hdead]
        simp only [sessionPrincipal, requestSession_error hbody]
    | false =>
      obtain ⟨user, hok⟩ := principalFromCookie_alive hrow hdead
      by_cases hchange : (user.mustChangePassword && !allowedWhilePasswordMustChange env req.method req.path) = true
      · refine .mustChange hrow hdead ?_
        have hbody : sessionBody env cfg req st = (st, .error (.http 403 mustChangeDetail)) := by
          simp only [sessionBody, hok, hchange, if_true]
        simp only [sessionPrincipal, requestSession_error hbody]
      · refine .served user hrow hdead ?_
        have hbody : sessionBody env cfg req st = (st.touchLastSeen row req.doneAt, .ok user) := by
          simp only [sessionBody, hok, hchange]
          rfl
        simp only [sessionPrincipal, requestSession_ok hbody]

theorem sessionPrincipal_store (req : CookieRequest) : (sessionPrincipal env cfg req st).1 = st ∨
    ∃ row, st.rowOf env req.token = some row ∧ st.dead cfg row req.now = false ∧
      (sessionPrincipal env cfg req st).1 = st.touchLastSeen row req.doneAt := by
  cases sessionPrincipal_cases env cfg st req with
  | refused _ hresult => exact .inl (by rw [hresult])
  | mustChange _ _ hresult => exact .inl (by rw [hresult])
  | served user hrow halive hresult => exact .inr ⟨_, hrow, halive, by rw [hresult]⟩

/-! ## The row of a cookie -/

def SessionStore.find (st : SessionStore) (hash : String) : Option AuthSession :=
  st.sessions.find? (fun row => row.tokenHash = hash)

def hashOf (env : SessionEnv) (token : Option String) : Option String := token.map env.tokenHash

theorem rowOf_spec (h : st.rowOf env token = some row) :
    hashOf env token = some row.tokenHash ∧ st.find row.tokenHash = some row := by
  unfold SessionStore.rowOf at h
  split at h
  · cases h
  · split at h
    · cases h
    · rename_i text _
      have hhash : row.tokenHash = env.tokenHash text := by simpa using List.find?_some h
      rw [hashOf, Option.map_some, SessionStore.find, hhash]
      exact ⟨rfl, h⟩

theorem tokenHash_of_rowOf (h : st.rowOf env token = some row) : hashOf env token = some row.tokenHash := (rowOf_spec h).1

theorem find_of_rowOf (h : st.rowOf env token = some row) : st.find row.tokenHash = some row := (rowOf_spec h).2

theorem find_touchLastSeen {hash} (hne : hash ≠ row.tokenHash) : (st.touchLastSeen row now).find hash = st.find hash := by
  unfold SessionStore.touchLastSeen
  split
  · unfold SessionStore.find
    simp only [List.find?_map]
    have hhash : (fun other : AuthSession => decide (other.tokenHash = hash)) ∘ (fun other : AuthSession =>
        if other.tokenHash = row.tokenHash then { other with lastSeenAt := now } else other) =
        fun other => decide (other.tokenHash = hash) := by
      funext other
      simp only [Function.comp]
      split <;> rfl
    rw [hhash]
    cases hfind : st.sessions.find? (fun other => decide (other.tokenHash = hash)) with
    | none => rfl
    | some found =>
      have hfound : found.tokenHash = hash := by simpa using List.find?_some hfind
      simp [hfound, hne]
  · rfl

theorem find_deleted (hashes : List String) {hash found}
    (h : ({ st with sessions := st.sessions.filter (fun row => row.tokenHash ∉ hashes) } : SessionStore).find hash = some found) :
    st.find hash = some found := by
  unfold SessionStore.find at h ⊢
  rw [List.find?_filter] at h
  have hhash : found.tokenHash = hash ∧ found.tokenHash ∉ hashes := by
    have := List.find?_some h
    simp only [decide_eq_true_eq] at this
    exact ⟨this.2, this.1⟩
  rw [← h]
  congr 1
  funext row
  by_cases heq : row.tokenHash = hash
  · simp [heq, ← hhash.1, hhash.2]
  · simp [heq]

/-! ## The run -/

def SessionTaken.refuses (env : SessionEnv) (e : SessionTaken) (token : Option String) : Bool :=
  match e.input with
  | .request req => decide (req.token = token) && (e.before.store.rowOf env token).isSome &&
      !(principalFromCookie env e.before.settings token req.now e.before.store).2.isOk
  | _ => false

def SessionTaken.accepts (env : SessionEnv) (e : SessionTaken) (token : Option String) : Bool :=
  match e.input with
  | .request req => decide (req.token = token) &&
      (principalFromCookie env e.before.settings token req.now e.before.store).2.isOk
  | _ => false

def SessionState.StillDead (st : SessionState) : Prop :=
  ∀ hash ∈ st.refused, ∀ row, st.store.find hash = some row →
    ∃ last, st.lastAt = some last ∧ st.store.dead st.settings row last = true

def SessionState.stillDead (st : SessionState) : Bool :=
  st.refused.all (fun hash => (st.store.find hash).all (fun row =>
    st.lastAt.any (fun last => st.store.dead st.settings row last)))

theorem stillDead_iff {st : SessionState} : st.stillDead = true ↔ st.StillDead := by
  simp only [SessionState.stillDead, SessionState.StillDead, List.all_eq_true, Option.all_eq_true, Option.any_eq_true]

/-- The condition on a change of the settings or of the account: what was refused and is still stored stays dead. -/
def SessionTaken.KeepsDead (e : SessionTaken) : Prop :=
  match e.input with
  | .settings cfg => SessionState.StillDead { e.before with settings := cfg }
  | .account user => SessionState.StillDead { e.before with store := { e.before.store with user } }
  | .request _ | .delete _ => True

theorem SessionState.StillDead.step {st event report} (h : st.StillDead)
    (hkeep : SessionTaken.KeepsDead ⟨st, event, report⟩) (hstep : sessionStep env st event = .ok report) :
    report.state.StillDead ∧ ∀ hash ∈ st.refused, hash ∈ report.state.refused := by
  cases event with
  | settings cfg =>
    cases hstep
    exact ⟨hkeep, fun _ h => h⟩
  | account user =>
    cases hstep
    exact ⟨hkeep, fun _ h => h⟩
  | delete hashes =>
    cases hstep
    exact ⟨fun hash hhash row hrow => h hash hhash row (find_deleted hashes hrow), fun _ h => h⟩
  | request req =>
    simp only [sessionStep] at hstep
    split at hstep
    · cases hstep
    · rename_i hclock
      rw [not_or, Int.not_lt] at hclock
      have hlast (last : Int) (hlast : st.lastAt = some last) : last ≤ req.now := by
        simpa [hlast] using hclock.2
      cases hstep
      have hold (hash : String) (hhash : hash ∈ st.refused) (row : AuthSession) (hrow : st.store.find hash = some row) :
          st.store.dead st.settings row req.now = true := by
        obtain ⟨last, hsome, hdead⟩ := h hash hhash row hrow
        exact dead_later hdead (hlast last hsome)
      -- the store keeps the rows of the sessions that are dead now
      have hrows (hash : String) (row : AuthSession)
          (hdead : ∀ found, st.store.find hash = some found → st.store.dead st.settings found req.now = true)
          (hrow : (sessionPrincipal env st.settings req st.store).1.find hash = some row) :
          st.store.find hash = some row ∧ (sessionPrincipal env st.settings req st.store).1.user = st.store.user := by
        rcases sessionPrincipal_store req with hsame | ⟨alive, halive, hnot, htouched⟩
        · rw [hsame] at hrow ⊢
          exact ⟨hrow, rfl⟩
        · have hne : hash ≠ alive.tokenHash := by
            rintro rfl
            have := hdead alive (find_of_rowOf halive)
            rw [hnot] at this
            cases this
          rw [htouched] at hrow ⊢
          rw [find_touchLastSeen hne] at hrow
          refine ⟨hrow, ?_⟩
          unfold SessionStore.touchLastSeen
          split <;> rfl
      have hdone (hash : String)
          (hdead : ∀ found, st.store.find hash = some found → st.store.dead st.settings found req.now = true) (row : AuthSession)
          (hrow : (sessionPrincipal env st.settings req st.store).1.find hash = some row) :
          (sessionPrincipal env st.settings req st.store).1.dead st.settings row req.doneAt = true := by
        obtain ⟨hfound, huser⟩ := hrows hash row hdead hrow
        have hafter := dead_later (hdead row hfound) hclock.1
        simp only [SessionStore.dead, huser] at hafter ⊢
        exact hafter
      constructor
      · intro hash hhash row hrow
        refine ⟨req.doneAt, rfl, hdone hash (fun found hfound => ?_) row hrow⟩
        simp only at hhash
        split at hhash
        · rename_i refused hrefused
          split at hhash
          · rename_i hdead
            rcases List.mem_append.mp hhash with hhash | hhash
            · exact hold hash hhash found hfound
            · rw [List.mem_singleton.mp hhash, find_of_rowOf hrefused] at hfound
              cases hfound
              exact hdead
          · exact hold hash hhash found hfound
        · exact hold hash hhash found hfound
      · intro hash hhash
        simp only
        split
        · split
          · exact List.mem_append_left _ hhash
          · exact hhash
        · exact hhash

theorem refused_of_refuses {st event report}
    (hstep : sessionStep env st event = .ok report) (h : SessionTaken.refuses env ⟨st, event, report⟩ token = true) :
    ∃ row, st.store.rowOf env token = some row ∧ row.tokenHash ∈ report.state.refused := by
  cases event with
  | request req =>
    simp only [SessionTaken.refuses, Bool.and_eq_true, decide_eq_true_eq] at h
    obtain ⟨⟨rfl, hsome⟩, hrefused⟩ := h
    obtain ⟨row, hrow⟩ := Option.isSome_iff_exists.mp hsome
    have hdead : st.store.dead st.settings row req.now = true := by
      cases hdead : st.store.dead st.settings row req.now with
      | true => rfl
      | false =>
        obtain ⟨user, hok⟩ := principalFromCookie_alive hrow hdead
        rw [hok] at hrefused
        cases hrefused
    simp only [sessionStep] at hstep
    split at hstep
    · cases hstep
    · cases hstep
      refine ⟨row, hrow, ?_⟩
      simp only [hrow, hdead, if_true]
      exact List.mem_append_right _ (List.mem_singleton_self _)
  | _ => cases h

theorem SessionState.StillDead.not_accepts {st event report} (h : st.StillDead)
    (hstep : sessionStep env st event = .ok report) {hash} (hhash : hash ∈ st.refused)
    (htoken : hashOf env token = some hash) : SessionTaken.accepts env ⟨st, event, report⟩ token = false := by
  cases event with
  | request req =>
    refine Bool.eq_false_iff.mpr (fun haccepts => ?_)
    simp only [SessionTaken.accepts, Bool.and_eq_true, decide_eq_true_eq] at haccepts
    obtain ⟨rfl, haccepted⟩ := haccepts
    simp only [sessionStep] at hstep
    split at hstep
    · cases hstep
    · rename_i hclock
      rw [not_or, Int.not_lt] at hclock
      cases hrow : st.store.rowOf env req.token with
      | none =>
        rw [principalFromCookie_none hrow] at haccepted
        cases haccepted
      | some row =>
        cases (tokenHash_of_rowOf hrow).symm.trans htoken
        obtain ⟨last, hlast, hdead⟩ := h row.tokenHash hhash row (find_of_rowOf hrow)
        have hle : last ≤ req.now := by simpa [hlast] using hclock.2
        rw [principalFromCookie_dead hrow (dead_later hdead hle)] at haccepted
        cases haccepted
  | _ => rfl

/-! ## The lifetime of a session -/

theorem find_touchLastSeen_self (h : st.find row.tokenHash = some row) :
    (st.touchLastSeen row now).find row.tokenHash =
      some (if seconds 60 ≤ now - row.lastSeenAt then { row with lastSeenAt := now } else row) := by
  unfold SessionStore.touchLastSeen
  split
  · unfold SessionStore.find at h ⊢
    have hhash : (fun other : AuthSession => decide (other.tokenHash = row.tokenHash)) ∘ (fun other : AuthSession =>
        if other.tokenHash = row.tokenHash then { other with lastSeenAt := now } else other) =
        fun other => decide (other.tokenHash = row.tokenHash) := by
      funext other
      simp only [Function.comp]
      split <;> rfl
    rw [List.find?_map, hhash, h, Option.map_some, if_pos rfl]
  · exact h

def SessionTaken.servedAt (env : SessionEnv) (hash : String) (e : SessionTaken) : Option Int :=
  match e.input, e.output.outcome with
  | .request req, some (.ok _) => if hashOf env req.token = some hash then some req.doneAt else none
  | _, _ => none

/-- The stored instant is that of the issue or of a served request, and less than a minute before any other. -/
structure SeenAt (env : SessionEnv) (issued : AuthSession) (tr : List SessionTaken) (row : AuthSession) : Prop where
  created : row.createdAt = issued.createdAt
  seen : row.lastSeenAt = issued.createdAt ∨
    ∃ e ∈ tr, SessionTaken.servedAt env issued.tokenHash e = some row.lastSeenAt
  recent : ∀ e ∈ tr, ∀ t, SessionTaken.servedAt env issued.tokenHash e = some t → t < row.lastSeenAt + seconds 60

theorem SeenAt.concat {issued tr e} (h : SeenAt env issued tr row)
    (hnone : SessionTaken.servedAt env issued.tokenHash e = none) : SeenAt env issued (tr ++ [e]) row := by
  refine ⟨h.created, h.seen.imp_right (fun ⟨first, hfirst, hserved⟩ => ⟨first, by simp [hfirst], hserved⟩), ?_⟩
  intro first hfirst t hserved
  rcases List.mem_append.mp hfirst with hfirst | hfirst
  · exact h.recent first hfirst t hserved
  · rw [List.mem_singleton.mp hfirst, hnone] at hserved
    cases hserved

theorem SeenAt.touched {issued tr e} (h : SeenAt env issued tr row)
    (hserved : SessionTaken.servedAt env issued.tokenHash e = some now) :
    SeenAt env issued (tr ++ [e]) (if seconds 60 ≤ now - row.lastSeenAt then { row with lastSeenAt := now } else row) := by
  split
  · rename_i hminute
    refine ⟨h.created, .inr ⟨e, by simp, hserved⟩, fun first hfirst t ht => ?_⟩
    dsimp only
    rcases List.mem_append.mp hfirst with hfirst | hfirst
    · have := h.recent first hfirst t ht
      unfold seconds at *
      omega
    · rw [List.mem_singleton.mp hfirst, hserved] at ht
      rw [← Option.some.inj ht]
      unfold seconds
      omega
  · rename_i hminute
    refine ⟨h.created, h.seen.imp_right (fun ⟨first, hfirst, hserved⟩ => ⟨first, by simp [hfirst], hserved⟩), ?_⟩
    intro first hfirst t ht
    rcases List.mem_append.mp hfirst with hfirst | hfirst
    · exact h.recent first hfirst t ht
    · rw [List.mem_singleton.mp hfirst, hserved] at ht
      rw [← Option.some.inj ht]
      unfold seconds at *
      omega

theorem seenAt_step {issued tr st event report}
    (h : ∀ row, st.store.find issued.tokenHash = some row → SeenAt env issued tr row)
    (hstep : sessionStep env st event = .ok report) :
    ∀ row, report.state.store.find issued.tokenHash = some row → SeenAt env issued (tr ++ [⟨st, event, report⟩]) row := by
  intro row hrow
  cases event with
  | settings cfg =>
    cases hstep
    exact (h row hrow).concat rfl
  | account user =>
    cases hstep
    exact (h row hrow).concat rfl
  | delete hashes =>
    cases hstep
    exact (h row (find_deleted hashes hrow)).concat rfl
  | request req =>
    simp only [sessionStep] at hstep
    split at hstep
    · cases hstep
    · cases hstep
      cases sessionPrincipal_cases env st.settings st.store req with
      | refused _ hresult | mustChange _ _ hresult =>
        rw [hresult] at hrow
        refine (h row hrow).concat ?_
        simp only [SessionTaken.servedAt, hresult]
      | @served found user hfound _ hresult =>
        rw [hresult] at hrow
        by_cases hhash : found.tokenHash = issued.tokenHash
        · have hseen := h found (hhash ▸ find_of_rowOf hfound)
          rw [← hhash, find_touchLastSeen_self (find_of_rowOf hfound)] at hrow
          rw [← Option.some.inj hrow]
          refine hseen.touched ?_
          simp only [SessionTaken.servedAt, hresult, tokenHash_of_rowOf hfound, hhash, if_true]
        · rw [find_touchLastSeen (Ne.symm hhash)] at hrow
          refine (h row hrow).concat ?_
          simp [SessionTaken.servedAt, hresult, tokenHash_of_rowOf hfound, hhash]

theorem sessionRun_seenAt {st₀ st : SessionState} {issued : AuthSession} {tr : List SessionTaken}
    (hissued : st₀.store.find issued.tokenHash = some issued) (hfresh : issued.lastSeenAt = issued.createdAt)
    (hrun : Run (sessionStep env) SessionReport.state st₀ tr st) :
    ∀ row, st.store.find issued.tokenHash = some row → SeenAt env issued tr row := by
  refine hrun.invariant' (fun tr st => ∀ row, st.store.find issued.tokenHash = some row → SeenAt env issued tr row)
    ?_ seenAt_step
  intro row hrow
  cases hissued.symm.trans hrow
  exact ⟨rfl, .inl hfresh, by simp⟩

theorem sessionExpired_of_cleanable (h : cleanable row now cfg = true) : sessionExpired row now cfg = true := by
  simp only [cleanable, sessionExpired, Bool.or_eq_true, decide_eq_true_eq] at h ⊢
  omega

end QRadarDashboard.Identity
