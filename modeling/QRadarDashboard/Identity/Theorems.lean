import QRadarDashboard.Identity.Lemmas.AuthLogin
import QRadarDashboard.Identity.Lemmas.AuthSessions
import QRadarDashboard.Identity.Lemmas.UserAdmin
import QRadarDashboard.Lib.Except

/-!
# Accounts
-/

namespace QRadarDashboard.Identity
open Lib Lib.ReadCommitted

/-! ## The last administrator -/

section UserAdmin

variable {τ : Type} [DecidableEq τ] {env : UserAdminEnv}

abbrev AdminSteps (τ : Type) [DecidableEq τ] (env : UserAdminEnv) (users : Users) :=
  Steps (τ := τ) (fun (users : Users) (id : String) => users.get? id) AdminRequest.enter (adminNext env) users

/-- If no removal commits while another request is between its guard's list and its end, an administrator can always
sign in. -/
theorem last_admin_kept {users : Users} (hkeys : users.keys.Nodup) (h₀ : HasAdmin users)
    {tr : List (Taken (Db Users String τ AdminTx) (Move τ AdminRequest) (Db Users String τ AdminTx))}
    {db : Db Users String τ AdminTx} (h : AdminSteps τ env users tr db)
    (halone : ∀ e ∈ tr, ∀ t, e.input = .advance t → RemovesAlone e.before t) :
    (∀ e ∈ tr, HasAdmin e.output.committed) ∧ HasAdmin db.committed := by
  have hquiet : AdminOk env (Db.quiet users : Db Users String τ AdminTx) :=
    ⟨fun _ _ hopen => (by cases hopen), hkeys, fun _ _ hopen => (by cases hopen), h₀⟩
  have hreached := h.reached (AdminOk env) (fun e => ∀ t, e.input = .advance t → RemovesAlone e.before t) hquiet
    (fun hok halone hstep => hok.step halone hstep) halone
  exact ⟨fun e he => (hreached.1 e he).admin, hreached.2.admin⟩

def adminRole : Role := ⟨"admin", ["admin:*"]⟩

def directoryUser (name : String) : User :=
  { username := some name, authSource := "LDAP", roles := [adminRole] }

def twoAdmins : Users := [("1", directoryUser "ada"), ("2", directoryUser "bea")]

def plainEnv : UserAdminEnv where
  catalog := [adminRole]
  normalizeUsername := some
  email := .ok
  display := id
  passwordPolicyReasons := fun _ _ => []
  hashPassword := fun _ => ⟨"hash", by decide⟩

def upToCommit {τ : Type} (t : τ) (request : AdminRequest) : List (Move τ AdminRequest) :=
  .start t request :: List.replicate 4 (.advance t)

def disableOf (id : String) : AdminRequest := .target id (.setDisabled true 0)

theorem last_admin_kept_one : ∃ tr db, AdminSteps (Fin 2) plainEnv twoAdmins tr db ∧
    db.committed.map (fun item => actingAdmin item.2) = [false, true] ∧ (∀ t, db.session t = none) ∧
    (∀ e ∈ tr, HasAdmin e.output.committed) ∧ HasAdmin db.committed := by
  obtain ⟨tr, db, h, hv⟩ := exists_run_of_replay
    (fun (db : Db Users String (Fin 2) AdminTx) (move : Move (Fin 2) AdminRequest) =>
      db.step (fun users id => users.get? id) AdminRequest.enter (adminNext plainEnv) move) (fun db => db)
    (Db.quiet twoAdmins)
    (upToCommit 0 (disableOf "1") ++ [.start 1 (disableOf "2"), .advance 1, .advance 1, .advance 0] ++
      List.replicate 3 (.advance 1))
    (fun r => (r.2.committed.map (fun item => actingAdmin item.2), decide (∀ t, r.2.session t = none),
      r.1.all (fun e => decide (∀ t, RemovesAlone e.before t))))
    ([false, true], true, true) (by decide)
  simp only [Prod.mk.injEq, decide_eq_true_eq, List.all_eq_true] at hv
  obtain ⟨hcommitted, hended, halone⟩ := hv
  exact ⟨tr, db, h, hcommitted, hended,
    last_admin_kept (by decide) ⟨"1", _, rfl, rfl⟩ h (fun e he t _ => halone e he t)⟩

/-- The same two requests, each guard looking before either commits: nobody is left. -/
theorem both_admins_disabled : HasAdmin twoAdmins ∧
    ∃ tr db, AdminSteps Nat plainEnv twoAdmins tr db ∧ ¬ HasAdmin db.committed := by
  refine ⟨⟨"1", _, rfl, rfl⟩, ?_⟩
  obtain ⟨tr, db, h, hv⟩ := exists_run_of_replay
    (fun (db : Db Users String Nat AdminTx) (move : Move Nat AdminRequest) =>
      db.step (fun users id => users.get? id) AdminRequest.enter (adminNext plainEnv) move) (fun db => db)
    (Db.quiet twoAdmins) (upToCommit 0 (disableOf "1") ++ upToCommit 1 (disableOf "2") ++ [.advance 0, .advance 1])
    (fun r => r.2.committed.any (fun item => actingAdmin item.2)) false (by decide)
  refine ⟨tr, db, h, fun hadmin => ?_⟩
  rw [hadmin.any] at hv
  cases hv

end UserAdmin

/-! ## Failed sign-ins -/

section AuthLogin

variable {τ : Type} [DecidableEq τ] {env : AuthEnv}

/-- If no success, unlock or reset comes in between and every failure is counted on the stored count, no failure is
lost, and the account locks at the threshold. -/
theorem failures_counted {store : AuthStore} (h₀ : store.user.failedLoginCount = 0) {tr : List (AuthTaken τ)}
    {db : Db AuthStore Unit τ AuthTx} (h : AuthSteps τ env store tr db)
    (hkeeps : ∀ e ∈ tr, AuthTaken.keepsCount env e = true) (hfresh : ∀ e ∈ tr, AuthTaken.upToDate env e = true) :
    CountExact env tr db := by
  refine h.invariant (CountExact env) (fun e => AuthTaken.keepsCount env e = true ∧ AuthTaken.upToDate env e = true)
    ?_ (fun hexact hcond hstep => countExact_step hstep hcond.1 hcond.2 hexact) (fun e he => ⟨hkeeps e he, hfresh e he⟩)
  intro _
  refine ⟨h₀, fun hzero => ?_⟩
  have := env.settings.threshold_ok.1
  simp only [countedFailures, List.countP_nil, Nat.cast_zero] at hzero
  omega

def twoStrikes : AuthEnv where
  settings := { loginLockoutThreshold := 2, threshold_ok := by decide, minutes_ok := by decide }
  verifyPassword := fun password hash => hash = some password
  passwordPolicyReasons := fun _ _ => []

def localAccount : AuthStore where
  user := { username := some "ada", authSource := "LOCAL", hashedPassword := some "right" }
  sessions := []

def wrongPassword : AuthRequest := .login ⟨0, "wrong", "token"⟩

theorem failures_counted_two : ∃ tr db, AuthSteps Nat twoStrikes localAccount tr db ∧ countedFailures twoStrikes tr = 2 ∧
    CountExact twoStrikes tr db := by
  obtain ⟨tr, db, h, hv⟩ := exists_run_of_replay
    (fun (db : Db AuthStore Unit Nat AuthTx) (move : Move Nat AuthRequest) =>
      db.step (fun store _ => some store) AuthRequest.enter (authNext twoStrikes) move) (fun db => db)
    (Db.quiet localAccount)
    [.start 0 wrongPassword, .advance 0, .advance 0, .advance 0, .start 1 wrongPassword, .advance 1, .advance 1, .advance 1]
    (fun r => (countedFailures twoStrikes r.1, r.1.all (AuthTaken.keepsCount twoStrikes),
      r.1.all (AuthTaken.upToDate twoStrikes)))
    (2, true, true) (by decide)
  simp only [Prod.mk.injEq] at hv
  obtain ⟨hcount, hkeeps, hfresh⟩ := hv
  exact ⟨tr, db, h, hcount, failures_counted rfl h (List.all_eq_true.mp hkeeps) (List.all_eq_true.mp hfresh)⟩

/-- Two calls read the row before either has counted: the count is one after two failures. -/
theorem failure_lost : ∃ tr db, AuthSteps Nat twoStrikes localAccount tr db ∧
    (∀ e ∈ tr, AuthTaken.keepsCount twoStrikes e = true) ∧ countedFailures twoStrikes tr = 2 ∧
    db.committed.user.failedLoginCount = 1 ∧ db.committed.user.lockedUntil = none ∧ ¬ CountExact twoStrikes tr db := by
  obtain ⟨tr, db, h, hv⟩ := exists_run_of_replay
    (fun (db : Db AuthStore Unit Nat AuthTx) (move : Move Nat AuthRequest) =>
      db.step (fun store _ => some store) AuthRequest.enter (authNext twoStrikes) move) (fun db => db)
    (Db.quiet localAccount)
    [.start 0 wrongPassword, .start 1 wrongPassword, .advance 0, .advance 1, .advance 0, .advance 0, .advance 1, .advance 1]
    (fun r => (r.1.all (AuthTaken.keepsCount twoStrikes), countedFailures twoStrikes r.1,
      r.2.committed.user.failedLoginCount, r.2.committed.user.lockedUntil))
    (true, 2, 1, none) (by decide)
  simp only [Prod.mk.injEq] at hv
  obtain ⟨hkeeps, hcount, hone, hunlocked⟩ := hv
  refine ⟨tr, db, h, List.all_eq_true.mp hkeeps, hcount, hone, hunlocked, fun hexact => ?_⟩
  have htwo := (hexact (by rw [hcount]; decide)).1
  rw [hone, hcount] at htwo
  cases htwo

/-! ## Sessions of an old password -/

/-- If no password change commits between a sign-in's read of the row and its session's commit, a change ends every
session issued before it. -/
theorem old_sessions_revoked {store : AuthStore} (h₀ : SessionsCurrent store) {tr : List (AuthTaken τ)}
    {db : Db AuthStore Unit τ AuthTx} (h : AuthSteps τ env store tr db)
    (hcurrent : ∀ e ∈ tr, AuthTaken.readsCurrent env e = true) :
    (∀ e ∈ tr, SessionsCurrent e.output.committed) ∧ SessionsCurrent db.committed :=
  (authDiscipline env).committed_steps SessionsCurrent (fun e => AuthTaken.readsCurrent env e = true) h₀
    (fun hinv hsession hnext hcond hP => sessionsCurrent_commit hinv hsession hnext hcond hP) h hcurrent

def rightPassword : AuthRequest := .login ⟨0, "right", "token"⟩

def newPassword : AuthRequest := .reset ⟨"other", ⟨"other", by decide⟩⟩

theorem old_sessions_revoked_reset : ∃ tr db, AuthSteps Bool twoStrikes localAccount tr db ∧
    db.committed.changes = 1 ∧ db.committed.sessions = [] ∧
    (∀ e ∈ tr, SessionsCurrent e.output.committed) ∧ SessionsCurrent db.committed := by
  obtain ⟨tr, db, h, hv⟩ := exists_run_of_replay
    (fun (db : Db AuthStore Unit Bool AuthTx) (move : Move Bool AuthRequest) =>
      db.step (fun store _ => some store) AuthRequest.enter (authNext twoStrikes) move) (fun db => db)
    (Db.quiet localAccount)
    [.start false rightPassword, .advance false, .advance false, .advance false,
      .start true newPassword, .advance true, .advance true, .advance true]
    (fun r => (r.2.committed.changes, r.2.committed.sessions, r.1.all (AuthTaken.readsCurrent twoStrikes)))
    (1, [], true) (by decide)
  simp only [Prod.mk.injEq] at hv
  obtain ⟨hchanges, hsessions, hcurrent⟩ := hv
  refine ⟨tr, db, h, hchanges, hsessions, old_sessions_revoked ?_ h (List.all_eq_true.mp hcurrent)⟩
  intro item hitem
  cases hitem

/-- A sign-in verifies the old hash, a reset commits, and the sign-in commits its session. -/
theorem old_session_survives : ∃ tr db, AuthSteps Bool twoStrikes localAccount tr db ∧
    db.committed.user.hashedPassword = some "other" ∧ db.committed.changes = 1 ∧
    db.committed.sessions.map (fun item => (item.1.tokenHash, item.2)) = [("token", some 0)] ∧
    ∀ t, db.session t = none := by
  obtain ⟨tr, db, h, hv⟩ := exists_run_of_replay
    (fun (db : Db AuthStore Unit Bool AuthTx) (move : Move Bool AuthRequest) =>
      db.step (fun store _ => some store) AuthRequest.enter (authNext twoStrikes) move) (fun db => db)
    (Db.quiet localAccount)
    [.start false rightPassword, .advance false, .start true newPassword, .advance true, .advance true, .advance true,
      .advance false, .advance false]
    (fun r => ((r.2.committed.user.hashedPassword, r.2.committed.changes),
      r.2.committed.sessions.map (fun item => (item.1.tokenHash, item.2)),
      (r.2.session false).isNone && (r.2.session true).isNone))
    ((some "other", 1), [("token", some 0)], true) (by decide)
  simp only [Prod.mk.injEq, Bool.and_eq_true] at hv
  obtain ⟨⟨hhash, hchanges⟩, hsessions, hfalse, htrue⟩ := hv
  refine ⟨tr, db, h, hhash, hchanges, hsessions, fun t => ?_⟩
  cases t with
  | false => exact Option.isNone_iff_eq_none.mp hfalse
  | true => exact Option.isNone_iff_eq_none.mp htrue

/-! ## The lockout -/

/-- Over every sequential run on a new account whose clock does not run backwards: a sign-in is refused for the lock
exactly when one is in force, and locks exactly when it is the threshold-th failure since the latest restart, if and
only if no empty password meets an elapsed lock that is still stored (or the threshold is one). -/
theorem lockout_exact_iff {user : Account} (hcount : user.failedLoginCount = 0) (hfree : user.lockedUntil = none)
    {tr : List LockTaken} {s : Account} (hrun : Run (lockStep env) (fun output => output.user) user tr s)
    (hclock : ClockKept tr) :
    (∀ past e rest, tr = past ++ e :: rest → ∀ call, e.input = .login call → LockExact env past e call) ↔
      ∀ e ∈ tr, LockTaken.noEmptyAfterLock env e = true :=
  (lockRun_exact hcount hfree hrun hclock).1

def signInAt (minutes : Int) (password : String) : LockCall := .login ⟨seconds (minutes * 60), password, "token"⟩

theorem lockout_exact_twoStrikes : ∃ (tr : List LockTaken) (s : Account),
    Run (lockStep twoStrikes) (fun output => output.user) localAccount.user tr s ∧
      tr.map (fun e => e.output.event) = [.counted none, .counted (some (seconds 960)), .refusedLocked, .counted none,
        .cleared, .success] ∧
      ∀ past e rest, tr = past ++ e :: rest → ∀ call, e.input = .login call → LockExact twoStrikes past e call := by
  obtain ⟨tr, s, hrun, hv⟩ := exists_run_of_replay (lockStep twoStrikes) (fun output => output.user) localAccount.user
    [signInAt 0 "wrong", signInAt 1 "", signInAt 2 "right", signInAt 16 "wrong", .unlock, signInAt 17 "right"]
    (fun r => (r.1.map (fun e => e.output.event), decide (ClockKept r.1), r.1.all (LockTaken.noEmptyAfterLock twoStrikes)))
    ([.counted none, .counted (some (seconds 960)), .refusedLocked, .counted none, .cleared, .success], true, true)
    (by decide)
  simp only [Prod.mk.injEq, decide_eq_true_eq] at hv
  obtain ⟨hevents, hclock, hempty⟩ := hv
  exact ⟨tr, s, hrun, hevents, (lockout_exact_iff rfl rfl hrun hclock).mpr (List.all_eq_true.mp hempty)⟩

/-- An empty password after the lock has elapsed is the first failure since, and locks the account again. -/
theorem empty_password_locks_again : ∃ (past : List LockTaken) (e : LockTaken) (s : Account) (call : LoginCall),
    Run (lockStep twoStrikes) (fun output => output.user) localAccount.user (past ++ [e]) s ∧ ClockKept (past ++ [e]) ∧
      e.input = .login call ∧ call.password = "" ∧ failuresSince past call.now = 0 ∧
      LockTaken.lock e = some (seconds 1860) ∧ ¬ LockExact twoStrikes past e call := by
  obtain ⟨past, s, hrun, hinputs, hv⟩ := exists_run_of_inputs (lockStep twoStrikes) (fun output => output.user)
    localAccount.user [signInAt 0 "wrong", signInAt 1 "wrong"]
    (fun r => (decide (ClockKept (r.1 ++ [⟨r.2, signInAt 16 "", ⟨r.2, .rejected⟩⟩])), failuresSince r.1 (seconds 960),
      ((lockStep twoStrikes r.2 (signInAt 16 "")).toOption.map (fun output => output.event))))
    (true, 0, some (.counted (some (seconds 1860)))) (by decide)
  simp only [Prod.mk.injEq, decide_eq_true_eq] at hv
  obtain ⟨hclock, hsince, hevent⟩ := hv
  obtain ⟨output, hstep, hevent⟩ := exists_ok_of_toOption hevent
  have hlock : LockTaken.lock ⟨s, signInAt 16 "", output⟩ = some (seconds 1860) := by
    simp only [LockTaken.lock, hevent]
  refine ⟨past, ⟨s, signInAt 16 "", output⟩, output.user, ⟨seconds (16 * 60), "", "token"⟩, hrun.snoc hstep, ?_, rfl, rfl,
    hsince, hlock, fun hexact => ?_⟩
  · rw [ClockKept, List.filterMap_append] at hclock ⊢
    exact hclock
  · have hone := (hexact.locks.mp (by rw [hlock]; rfl)).2
    rw [show failuresSince past (seconds (16 * 60)) = 0 from hsince] at hone
    exact absurd hone (by decide)

end AuthLogin

/-! ## The directory configuration -/

section LdapConfig

variable {τ : Type} [DecidableEq τ] {validateDirectory : ValidateDirectory}

def acceptedWrites (tr : List (LdapTaken τ)) : List LdapWrite := tr.filterMap LdapTaken.accepted

def LastSaved (stored₀ : Option LdapConfig) (writes : List LdapWrite) (stored : Option LdapConfig) : Prop :=
  match writes.getLast? with
  | none => stored = stored₀
  | some write => ∃ row, stored = some row ∧ row.toDirectorySpec = write.spec ∧ row.version = write.version + 1

/-- If every request commits while the row it has read is still stored, no two accepted requests name one version, each
raises it by one, and the last configuration is stored. -/
theorem directory_saves {stored₀ : Option LdapConfig} {tr : List (LdapTaken τ)} {db : LdapDb τ}
    (h : Run (ldapStep validateDirectory) (fun db => db) (Db.quiet stored₀) tr db)
    (hcurrent : ∀ e ∈ tr, LdapTaken.ReadsCurrent e) :
    (∀ e ∈ tr, ∀ write, LdapTaken.accepted e = some write → storedVersion e.before.committed = write.version ∧
      storedVersion e.output.committed = write.version + 1) ∧
    (acceptedWrites tr).Pairwise (fun write write' => write.version < write'.version) ∧
    LastSaved stored₀ (acceptedWrites tr) db.committed := by
  have hrun : (∀ t tx, db.session t = some tx → tx.Compared) ∧
      (∀ e ∈ tr, ∀ write, LdapTaken.accepted e = some write → storedVersion e.before.committed = write.version ∧
        storedVersion e.output.committed = write.version + 1) ∧
      (acceptedWrites tr).Pairwise (fun write write' => write.version < write'.version) ∧
      (∀ write ∈ acceptedWrites tr, write.version < storedVersion db.committed) ∧
      LastSaved stored₀ (acceptedWrites tr) db.committed := by
    refine h.invariant (fun tr db => (∀ t tx, db.session t = some tx → tx.Compared) ∧
      (∀ e ∈ tr, ∀ write, LdapTaken.accepted e = some write → storedVersion e.before.committed = write.version ∧
        storedVersion e.output.committed = write.version + 1) ∧
      (acceptedWrites tr).Pairwise (fun write write' => write.version < write'.version) ∧
      (∀ write ∈ acceptedWrites tr, write.version < storedVersion db.committed) ∧
      LastSaved stored₀ (acceptedWrites tr) db.committed) LdapTaken.ReadsCurrent ?_ ?_ hcurrent
    · exact ⟨fun _ _ hopen => by simp [Db.quiet] at hopen, by simp, List.Pairwise.nil, by simp [acceptedWrites], rfl⟩
    rintro tr db move db' ⟨hcompared, hversions, hsorted, hbelow, hlast⟩ hcond hstep
    refine ⟨compared_step hcompared hstep, ?_⟩
    rcases accepted_step hcompared hstep hcond with ⟨hnone, hsame⟩ | ⟨write, hsome, hnamed, row, hrow, hspec, hnext⟩
    · have hwrites : acceptedWrites (tr ++ [⟨db, move, db'⟩]) = acceptedWrites tr := by
        rw [acceptedWrites, List.filterMap_append, List.filterMap_cons_none hnone, List.filterMap_nil, List.append_nil]
        rfl
      rw [hwrites, hsame]
      refine ⟨fun e he write hwrite => ?_, hsorted, hbelow, hlast⟩
      rcases List.mem_append.mp he with he | he
      · exact hversions e he write hwrite
      · rw [List.mem_singleton.mp he, hnone] at hwrite
        cases hwrite
    · have hwrites : acceptedWrites (tr ++ [⟨db, move, db'⟩]) = acceptedWrites tr ++ [write] := by
        rw [acceptedWrites, List.filterMap_append, List.filterMap_cons_some hsome, List.filterMap_nil]
        rfl
      have hraised : storedVersion db'.committed = write.version + 1 := by
        rw [hrow]
        exact hnext
      rw [hwrites]
      refine ⟨fun e he write' hwrite => ?_, ?_, fun write' hwrite => ?_, ?_⟩
      · rcases List.mem_append.mp he with he | he
        · exact hversions e he write' hwrite
        · rw [List.mem_singleton.mp he] at hwrite ⊢
          cases hsome.symm.trans hwrite
          exact ⟨hnamed, hraised⟩
      · refine List.pairwise_append.mpr ⟨hsorted, List.pairwise_singleton _ _, fun write' hwrite' write'' hwrite'' => ?_⟩
        rw [List.mem_singleton.mp hwrite'', ← hnamed]
        exact hbelow write' hwrite'
      · rw [hraised]
        rcases List.mem_append.mp hwrite with hwrite | hwrite
        · have hlt := hbelow write' hwrite
          omega
        · rw [List.mem_singleton.mp hwrite]
          omega
      · rw [LastSaved, List.getLast?_append, List.getLast?_singleton]
        exact ⟨row, hrow, hspec, hnext⟩
  exact ⟨hrun.2.1, hrun.2.2.1, hrun.2.2.2.2⟩

def directory (url : String) : DirectorySpec where
  enabled := true
  urls := [url]
  startTls := false
  caPem := none
  bindTemplate := "{username}"
  timeoutSeconds := 5
  userSearchBase := none

def saveDirectory (url : String) (version : Int) : LdapRequest :=
  { body := { directory url with version := version }, username := some "ana", subject := "ana", now := 0 }

def inTurn : List (Move Bool LdapRequest) :=
  [.start false (saveDirectory "ldaps://one" 0), .advance false, .advance false, .advance false,
    .start false (saveDirectory "ldaps://two" 1), .advance false, .advance false, .advance false,
    .start true (saveDirectory "ldaps://three" 1), .advance true, .advance true]

def readsCurrent (e : LdapTaken Bool) : Bool :=
  match e.input with
  | .start _ _ => true
  | .advance t =>
    match e.before.session t with
    | some (.updated _ loaded) => e.before.committed = some loaded
    | _ => true

theorem readsCurrent_sound {e} (h : readsCurrent e) : LdapTaken.ReadsCurrent e := by
  intro t write loaded hinput hopen
  simpa [readsCurrent, hinput, hopen] using h

theorem directory_saves_inTurn : ∃ (tr : List (LdapTaken Bool)) (db : LdapDb Bool),
    Run (ldapStep .ok) (fun db => db) (Db.quiet none) tr db ∧ storedVersion db.committed = 2 ∧
    (acceptedWrites tr).Pairwise (fun write write' => write.version < write'.version) ∧
    LastSaved none (acceptedWrites tr) db.committed := by
  obtain ⟨tr, db, h, hv⟩ := exists_run_of_replay (ldapStep (τ := Bool) .ok) (fun db => db) (Db.quiet none) inTurn
    (fun r => (storedVersion r.2.committed, r.1.all readsCurrent)) (2, true) (by decide)
  obtain ⟨hversion, hall⟩ := Prod.mk.inj hv
  obtain ⟨_, hsorted, hlast⟩ := directory_saves h (fun e he => readsCurrent_sound (List.all_eq_true.mp hall e he))
  exact ⟨tr, db, h, hversion, hsorted, hlast⟩

def firstDirectory : LdapConfig := { directory "ldaps://one" with version := 1, updatedBy := some "ana", updatedAt := 0 }

/-- Two requests that have read version 1 before either commits are both accepted. -/
theorem directory_save_lost : ∃ (tr : List (LdapTaken Bool)) (db : LdapDb Bool),
    Run (ldapStep .ok) (fun db => db) (Db.quiet (some firstDirectory)) tr db ∧
    (acceptedWrites tr).map (fun write => (write.spec.urls, write.version)) =
      [(["ldaps://two"], 1), (["ldaps://three"], 1)] ∧
    storedVersion db.committed = 2 := by
  obtain ⟨tr, db, h, hv⟩ := exists_run_of_replay (ldapStep (τ := Bool) .ok) (fun db => db)
    (Db.quiet (some firstDirectory))
    [.start false (saveDirectory "ldaps://two" 1), .start true (saveDirectory "ldaps://three" 1), .advance false,
      .advance true, .advance false, .advance false, .advance true, .advance true]
    (fun r => ((acceptedWrites r.1).map (fun write => (write.spec.urls, write.version)), storedVersion r.2.committed))
    ([(["ldaps://two"], 1), (["ldaps://three"], 1)], 2) (by decide)
  obtain ⟨hwrites, hversion⟩ := Prod.mk.inj hv
  exact ⟨tr, db, h, hwrites, hversion⟩

end LdapConfig

/-! ## The sessions of a cookie -/

section AuthSessions

def NeverAccepted (env : SessionEnv) (tr : List SessionTaken) : Prop :=
  tr.Pairwise (fun e e' => ∀ token, SessionTaken.refuses env e token = true → SessionTaken.accepts env e' token = false)

/-- While no change of the settings or of the account makes a refused session valid again, a cookie whose session was
refused is never accepted. -/
theorem refused_sessions_stay (env : SessionEnv) {st₀ : SessionState} (h₀ : st₀.refused = []) {tr : List SessionTaken}
    {st : SessionState} (h : Run (sessionStep env) SessionReport.state st₀ tr st)
    (hkeep : ∀ e ∈ tr, SessionTaken.KeepsDead e) : NeverAccepted env tr := by
  have hinit : st₀.StillDead := by
    intro hash hhash
    rw [h₀] at hhash
    cases hhash
  refine (h.invariant (fun tr st => st.StillDead ∧ (∀ e ∈ tr, ∀ token, SessionTaken.refuses env e token = true →
    ∃ hash, hashOf env token = some hash ∧ hash ∈ st.refused) ∧ NeverAccepted env tr)
    SessionTaken.KeepsDead ⟨hinit, by simp, .nil⟩ ?_ hkeep).2.2
  intro tr st event report ⟨hdead, hrefused, hpairs⟩ hkeeps hstep
  obtain ⟨hnext, hmore⟩ := hdead.step hkeeps hstep
  refine ⟨hnext, fun e he token hrefuses => ?_, List.pairwise_append.mpr ⟨hpairs, by simp, fun e he e' he' token hrefuses => ?_⟩⟩
  · rcases List.mem_append.mp he with he | he
    · obtain ⟨hash, htoken, hhash⟩ := hrefused e he token hrefuses
      exact ⟨hash, htoken, hmore hash hhash⟩
    · cases List.mem_singleton.mp he
      obtain ⟨row, hrow, hhash⟩ := refused_of_refuses hstep hrefuses
      exact ⟨row.tokenHash, tokenHash_of_rowOf hrow, hhash⟩
  · cases List.mem_singleton.mp he'
    obtain ⟨hash, htoken, hhash⟩ := hrefused e he token hrefuses
    exact hdead.not_accepts hstep hhash htoken

def plainTokens : SessionEnv := ⟨fun token => token, "/api/v1"⟩

def signedIn : SessionState where
  store := {
    user := some (directoryUser "ada")
    sessions := [⟨"cookie", 0, 0, seconds (12 * 3600)⟩] }
  settings := ⟨30, 12⟩

def requestAt (minutes : Int) : SessionEvent :=
  .request ⟨some "cookie", seconds (minutes * 60), seconds (minutes * 60), "GET", "/api/v1/me"⟩

def acceptedRequests (tr : List SessionTaken) : List Bool :=
  tr.filterMap (fun (e : SessionTaken) => e.output.outcome.map Except.isOk)

def shortened : List SessionEvent := [requestAt 10, requestAt 50, .settings ⟨15, 12⟩, requestAt 60]

theorem refused_sessions_stay_shortened : ∃ (tr : List SessionTaken) (st : SessionState),
    Run (sessionStep plainTokens) SessionReport.state signedIn tr st ∧ tr.map Taken.input = shortened ∧
      acceptedRequests tr = [true, false, false] ∧ NeverAccepted plainTokens tr := by
  obtain ⟨tr, st, hrun, hinputs, hcomputed⟩ := exists_run_of_inputs (sessionStep plainTokens) SessionReport.state signedIn
    shortened (fun (r : List SessionTaken × SessionState) => (acceptedRequests r.1, r.1.all (fun (e : SessionTaken) =>
      match e.input with
      | .settings cfg => SessionState.stillDead { e.before with settings := cfg }
      | .account _ => false
      | _ => true))) ([true, false, false], true) (by decide)
  simp only [Prod.mk.injEq, List.all_eq_true] at hcomputed
  obtain ⟨haccepted, hdead⟩ := hcomputed
  refine ⟨tr, st, hrun, hinputs, haccepted, refused_sessions_stay plainTokens rfl hrun ?_⟩
  rintro ⟨before, input, output⟩ he
  have hkeeps := hdead _ he
  cases input with
  | settings cfg => exact stillDead_iff.mp hkeeps
  | account user => cases hkeeps
  | request req => trivial
  | delete hashes => trivial

def lengthened : List SessionEvent := [requestAt 50, .settings ⟨480, 12⟩, requestAt 60]

theorem refused_session_accepted : ∃ (tr : List SessionTaken) (st : SessionState),
    Run (sessionStep plainTokens) SessionReport.state signedIn tr st ∧ tr.map Taken.input = lengthened ∧
      ¬ NeverAccepted plainTokens tr := by
  obtain ⟨tr, st, hrun, hinputs, haccepted⟩ := exists_run_of_inputs (sessionStep plainTokens) SessionReport.state signedIn
    lengthened (fun (r : List SessionTaken × SessionState) => r.1.map (fun (e : SessionTaken) =>
      (SessionTaken.refuses plainTokens e (some "cookie"), SessionTaken.accepts plainTokens e (some "cookie"))))
    [(true, false), (false, false), (false, true)] (by decide)
  refine ⟨tr, st, hrun, hinputs, fun hnever => ?_⟩
  have hpairs : (tr.map (fun (e : SessionTaken) => (SessionTaken.refuses plainTokens e (some "cookie"),
      SessionTaken.accepts plainTokens e (some "cookie")))).Pairwise (fun p q => p.1 = true → q.2 = false) :=
    List.pairwise_map.mpr (hnever.imp (fun h => h (some "cookie")))
  rw [haccepted] at hpairs
  exact absurd hpairs (by decide)

/-- The row of a session that was issued at `createdAt` and is at `now` within its lifetime and its idle time. -/
structure LiveAt (env : SessionEnv) (cfg : SessionSettings) (issued : AuthSession) (past : List SessionTaken) (now : Int) :
    Prop where
  lifetime : now < issued.createdAt + seconds (cfg.maxHours * 3600)
  idle : now - seconds (cfg.idleMinutes * 60) < issued.createdAt ∨ ∃ e ∈ past, ∃ t,
    SessionTaken.servedAt env issued.tokenHash e = some t ∧ now - seconds (cfg.idleMinutes * 60) < t

/-- A request with the session's cookie is served only within the lifetime and the idle time; if its row is idle, every
request served before was less than the idle time and a minute ago; the must-change gate changes nothing. -/
structure LifetimeExact (env : SessionEnv) (issued : AuthSession) (past : List SessionTaken) (e : SessionTaken)
    (req : CookieRequest) : Prop where
  served : (∃ user, e.output.outcome = some (.ok user)) → LiveAt env e.before.settings issued past req.now
  idle : ∀ row, e.before.store.rowOf env req.token = some row →
    seconds (e.before.settings.idleMinutes * 60) ≤ req.now - row.lastSeenAt → ∀ first ∈ past, ∀ t,
      SessionTaken.servedAt env issued.tokenHash first = some t →
        t < req.now - seconds (e.before.settings.idleMinutes * 60) + seconds 60
  mustChange : e.output.outcome = some (.error (.http 403 mustChangeDetail)) → e.output.state.store = e.before.store

/-- Over every run of requests in which the clock does not go back: each request with the cookie keeps to the lifetime,
and a cleanup deletes only rows whose cookie is refused at that instant. -/
theorem session_lifetime_exact {env : SessionEnv} {st₀ st : SessionState} {issued : AuthSession} {tr : List SessionTaken}
    (hissued : st₀.store.find issued.tokenHash = some issued) (hfresh : issued.lastSeenAt = issued.createdAt)
    (hrun : Run (sessionStep env) SessionReport.state st₀ tr st) :
    (∀ past e rest, tr = past ++ e :: rest → ∀ req, e.input = .request req →
      hashOf env req.token = some issued.tokenHash → LifetimeExact env issued past e req) ∧
    ∀ (store : SessionStore) (cfg : SessionSettings) (batch : Nat) (req : CookieRequest) (chosen : List AuthSession),
      CleanupBatch cfg batch req.now store chosen → ∀ row ∈ store.sessions, row ∉ (store.cleanup chosen).sessions →
        store.rowOf env req.token = some row →
        (sessionPrincipal env cfg req store).2 = .error (.http 401 requiredDetail) := by
  constructor
  · rintro past e rest rfl req hreq hhash
    have hseen := sessionRun_seenAt hissued hfresh hrun.before
    have hstep := hrun.taken e (by simp)
    have hrowOf : ∀ row, e.before.store.rowOf env req.token = some row → SeenAt env issued past row := by
      intro row hrow
      have hsame := Option.some.inj ((tokenHash_of_rowOf hrow).symm.trans hhash)
      exact hseen row (hsame ▸ find_of_rowOf hrow)
    obtain ⟨before, input, output⟩ := e
    cases hreq
    simp only [sessionStep] at hstep
    split at hstep
    · cases hstep
    · cases hstep
      cases sessionPrincipal_cases env before.settings before.store req with
      | refused hdead hresult =>
        refine ⟨?_, fun row hrow hidle first hfirst t ht => ?_, fun _ => ?_⟩
        · rintro ⟨user, houtcome⟩
          simp [hresult] at houtcome
        · have := (hrowOf row hrow).recent first hfirst t ht
          omega
        · simp [hresult]
      | mustChange hrow halive hresult =>
        refine ⟨?_, fun row hrow hidle first hfirst t ht => ?_, fun _ => ?_⟩
        · rintro ⟨user, houtcome⟩
          simp [hresult] at houtcome
        · have := (hrowOf row hrow).recent first hfirst t ht
          omega
        · simp [hresult]
      | @served row user hrow halive hresult =>
        have hseen := hrowOf row hrow
        refine ⟨fun _ => ?_, fun row hrow hidle first hfirst t ht => ?_, fun houtcome => ?_⟩
        · simp only [SessionStore.dead, sessionExpired, Bool.or_eq_false_iff, decide_eq_false_iff_not, not_le] at halive
          obtain ⟨⟨⟨_, hlife⟩, hidle⟩, _⟩ := halive
          have hrecent : req.now - seconds (before.settings.idleMinutes * 60) < row.lastSeenAt := by omega
          refine ⟨hseen.created ▸ hlife, ?_⟩
          rcases hseen.seen with hnew | ⟨first, hfirst, hserved⟩
          · exact .inl (hnew ▸ hrecent)
          · exact .inr ⟨first, hfirst, row.lastSeenAt, hserved, hrecent⟩
        · have := (hrowOf row hrow).recent first hfirst t ht
          omega
        · simp [hresult] at houtcome
  · intro store cfg batch req chosen hbatch row hmem hdeleted hrow
    have hchosen : row ∈ chosen := by
      by_contra hnot
      exact hdeleted (List.mem_filter.mpr ⟨hmem, decide_eq_true hnot⟩)
    have hexpired := sessionExpired_of_cleanable (hbatch.stored row hchosen).2
    cases sessionPrincipal_cases env cfg store req with
    | refused _ hresult => rw [hresult]
    | mustChange hother halive hresult | served _ hother halive hresult =>
      cases hrow.symm.trans hother
      simp [SessionStore.dead, hexpired] at halive

def cookieSession : AuthSession := ⟨"cookie", 0, 0, seconds (12 * 3600)⟩

theorem session_lifetime_exact_touches : ∃ (tr : List SessionTaken) (st : SessionState),
    Run (sessionStep plainTokens) SessionReport.state signedIn tr st ∧
      acceptedRequests tr = [true, true, true, false] ∧
      ∀ past e rest, tr = past ++ e :: rest → ∀ req, e.input = .request req →
        hashOf plainTokens req.token = some "cookie" →
        LifetimeExact plainTokens cookieSession past e req := by
  obtain ⟨tr, st, hrun, haccepted⟩ := exists_run_of_replay (sessionStep plainTokens) SessionReport.state signedIn
    [requestAt 0, requestAt 0, requestAt 29, requestAt 59] (fun r => acceptedRequests r.1) [true, true, true, false]
    (by decide)
  have hissued : signedIn.store.find cookieSession.tokenHash = some cookieSession := by decide
  exact ⟨tr, st, hrun, haccepted, (session_lifetime_exact hissued rfl hrun).1⟩

end AuthSessions

end QRadarDashboard.Identity
