import QRadarDashboard.Identity.AuthLogin

/-!
# Counted failures
-/

namespace QRadarDashboard.Identity
open Lib Lib.ReadCommitted

variable {env : AuthEnv} {τ : Type}

abbrev AuthTaken (τ : Type) :=
  Taken (Db AuthStore Unit τ AuthTx) (Move τ AuthRequest) (Db AuthStore Unit τ AuthTx)

def AuthTaken.mover (e : AuthTaken τ) : Option AuthTx :=
  match e.input with
  | .start _ _ => none
  | .advance t => e.before.session t

def AuthTaken.counts (env : AuthEnv) (e : AuthTaken τ) : Bool :=
  match AuthTaken.mover e with
  | some (.flushed call copy _) => (authenticate env copy call).isCounted
  | _ => false

/-- The step is no success, unlock or reset: no password changes, and a call that is refused clears no lock. -/
def AuthTaken.keepsCount (env : AuthEnv) (e : AuthTaken τ) : Bool :=
  match AuthTaken.mover e with
  | some (.flushed call copy _) =>
    match authenticate env copy call with
    | .success _ _ => false
    | .refused user => user = copy
    | _ => true
  | some (.changeRevoked _ _ _) | some (.resetRevoked _ _) => false
  | _ => true

def attempted (copy : Account) (call : LoginCall) : Account :=
  if call.password = "" then copy else clearExpiredLock copy call.now

/-- A failure is counted, while the stored count is below the threshold, on the count that is stored. -/
def AuthTaken.upToDate (env : AuthEnv) (e : AuthTaken τ) : Bool :=
  match AuthTaken.mover e with
  | some (.flushed call copy _) =>
    (authenticate env copy call).isCounted →
      e.before.committed.user.failedLoginCount < env.settings.loginLockoutThreshold →
      copy.failedLoginCount = e.before.committed.user.failedLoginCount ∧
        (attempted copy call).failedLoginCount = copy.failedLoginCount
  | _ => true

theorem authenticate_counted {copy user call}
    (h : authenticate env copy call = .counted user) : isLocked copy call.now = false ∧
      user = applyFailure (attempted copy call) call.now env.settings.loginLockoutThreshold
        env.settings.loginLockoutMinutes := by
  unfold attempted
  by_cases hempty : call.password = ""
  · rw [authenticate, if_pos hempty, emptyPassword] at h
    rw [if_pos hempty]
    split_ifs at h with hlocked
    cases h
    exact ⟨Bool.eq_false_iff.mpr hlocked, rfl⟩
  · rw [authenticate, if_neg hempty, localSignIn] at h
    rw [if_neg hempty]
    split_ifs at h with hlocked
    refine ⟨Bool.eq_false_iff.mpr hlocked, ?_⟩
    dsimp only at h
    split_ifs at h
    cases h
    rfl

@[simp] theorem flush_self (copy stored : Account) : copy.flush copy stored = stored := by
  simp [Account.flush, written]

theorem flush_applyFailure {copy stored call} (threshold : Int) {minutes} (hminutes : 1 ≤ minutes)
    (hunlocked : isLocked copy call.now = false) (hcopy : copy.failedLoginCount = stored.failedLoginCount)
    (hattempted : (attempted copy call).failedLoginCount = copy.failedLoginCount) :
    (copy.flush (applyFailure (attempted copy call) call.now threshold minutes) stored).failedLoginCount =
      stored.failedLoginCount + 1 ∧
    (threshold ≤ stored.failedLoginCount + 1 →
      (copy.flush (applyFailure (attempted copy call) call.now threshold minutes) stored).lockedUntil =
        some (call.now + seconds (minutes * 60))) := by
  have hcount : (applyFailure (attempted copy call) call.now threshold minutes).failedLoginCount =
      copy.failedLoginCount + 1 := by
    rw [applyFailure]
    dsimp only
    split_ifs <;> simp only [hattempted]
  constructor
  · have hne : ¬ stored.failedLoginCount + 1 = stored.failedLoginCount := by omega
    simp only [Account.flush, written, hcount, hcopy, hne, if_false]
  · intro hreached
    have hlock : (applyFailure (attempted copy call) call.now threshold minutes).lockedUntil =
        some (call.now + seconds (minutes * 60)) := by
      rw [applyFailure]
      dsimp only
      rw [if_pos (by rw [hattempted, hcopy]; exact hreached)]
    -- a lock that reached so far would have refused the call
    have hne : ¬ some (call.now + seconds (minutes * 60)) = copy.lockedUntil := by
      intro heq
      rw [isLocked, ← heq] at hunlocked
      simp only [Option.any_some, decide_eq_false_iff_not, not_lt, seconds] at hunlocked
      omega
    simp only [Account.flush, written, hlock, hne, if_false]

variable [DecidableEq τ]

abbrev AuthSteps (τ : Type) [DecidableEq τ] (env : AuthEnv) (store : AuthStore) :=
  Steps (τ := τ) (fun (store : AuthStore) (_ : Unit) => some store) AuthRequest.enter (authNext env) store

theorem committed_keepsCount {db db' move}
    (hstep : db.step (fun (store : AuthStore) (_ : Unit) => some store) AuthRequest.enter (authNext env) move = .ok db')
    (hkeeps : AuthTaken.keepsCount env (⟨db, move, db'⟩ : AuthTaken τ) = true) :
    (AuthTaken.counts env (⟨db, move, db'⟩ : AuthTaken τ) = false ∧ db'.committed.user = db.committed.user) ∨
    ∃ t call copy since user, move = .advance t ∧ db.session t = some (.flushed call copy since) ∧
      authenticate env copy call = .counted user ∧ AuthTaken.counts env (⟨db, move, db'⟩ : AuthTaken τ) = true ∧
      db'.committed.user = copy.flush user db.committed.user := by
  cases move with
  | start t request => exact Or.inl ⟨rfl, by rw [step_start hstep]⟩
  | advance t =>
    obtain ⟨tx, hsession, hperform⟩ := step_advance hstep
    have hmover : AuthTaken.mover (⟨db, .advance t, db'⟩ : AuthTaken τ) = some tx := hsession
    have hidle : (∀ f, authNext env tx = .commit f → ∀ store, f store = store) →
        db'.committed.user = db.committed.user := by
      intro hid
      rcases perform_committed hperform with hsame | ⟨f, hnext, hf⟩
      · rw [hsame]
      · rw [hf, hid f hnext]
    rw [AuthTaken.keepsCount, hmover] at hkeeps
    rw [AuthTaken.counts, hmover]
    cases tx with
    | flushed call copy since =>
      have hcommit : db'.committed = commitLogin copy since db.committed (authenticate env copy call) := by
        rw [authNext] at hperform
        cases hperform
        rfl
      simp only at hkeeps ⊢
      cases houtcome : authenticate env copy call with
      | locked => exact Or.inl ⟨rfl, by rw [hcommit, houtcome]; rfl⟩
      | counted user =>
        exact Or.inr ⟨t, call, copy, since, user, rfl, hsession, houtcome, rfl, by rw [hcommit, houtcome]; rfl⟩
      | refused user =>
        rw [houtcome] at hkeeps
        refine Or.inl ⟨rfl, ?_⟩
        rw [hcommit, houtcome, show user = copy from of_decide_eq_true hkeeps]
        exact flush_self copy db.committed.user
      | success user session =>
        rw [houtcome] at hkeeps
        cases hkeeps
    | loaded call copy since =>
      refine Or.inl ⟨rfl, hidle (fun f hnext store => ?_)⟩
      rw [authNext] at hnext
      split at hnext <;> cases hnext
      rfl
    | changeLoaded call copy =>
      refine Or.inl ⟨rfl, hidle (fun f hnext => ?_)⟩
      rw [authNext] at hnext
      split_ifs at hnext
    | changeRevoked call copy seen => cases hkeeps
    | resetRevoked call seen => cases hkeeps
    | _ => exact Or.inl ⟨rfl, hidle (fun f hnext => by cases hnext)⟩

def countedFailures (env : AuthEnv) (tr : List (AuthTaken τ)) : Nat := tr.countP (AuthTaken.counts env)

/-- The count is exact up to the threshold, where one of the calls has locked the account. -/
def CountExact (env : AuthEnv) (tr : List (AuthTaken τ)) (db : Db AuthStore Unit τ AuthTx) : Prop :=
  (countedFailures env tr : Int) ≤ env.settings.loginLockoutThreshold →
    db.committed.user.failedLoginCount = countedFailures env tr ∧
    ((countedFailures env tr : Int) = env.settings.loginLockoutThreshold →
      ∃ e ∈ tr, ∃ call copy since, AuthTaken.mover e = some (.flushed call copy since) ∧
        db.committed.user.lockedUntil = some (call.now + seconds (env.settings.loginLockoutMinutes * 60)))

theorem countExact_step {tr db db' move}
    (hstep : db.step (fun (store : AuthStore) (_ : Unit) => some store) AuthRequest.enter (authNext env) move = .ok db')
    (hkeeps : AuthTaken.keepsCount env (⟨db, move, db'⟩ : AuthTaken τ) = true)
    (hfresh : AuthTaken.upToDate env (⟨db, move, db'⟩ : AuthTaken τ) = true) (h : CountExact env tr db) :
    CountExact env (tr ++ [⟨db, move, db'⟩]) db' := by
  intro hle
  rcases committed_keepsCount hstep hkeeps with ⟨hcounts, hsame⟩ |
    ⟨t, call, copy, since, user, rfl, hsession, houtcome, hcounts, hcommit⟩
  · have hcount : countedFailures env (tr ++ [⟨db, move, db'⟩]) = countedFailures env tr := by
      simp [countedFailures, hcounts]
    rw [hcount] at hle ⊢
    obtain ⟨hstored, hlocked⟩ := h hle
    rw [hsame]
    refine ⟨hstored, fun heq => ?_⟩
    obtain ⟨e, he, hlock⟩ := hlocked heq
    exact ⟨e, List.mem_append_left _ he, hlock⟩
  · have hcount : countedFailures env (tr ++ [⟨db, .advance t, db'⟩]) = countedFailures env tr + 1 := by
      simp [countedFailures, hcounts]
    rw [hcount] at hle ⊢
    push_cast at hle ⊢
    obtain ⟨hstored, _⟩ := h (by omega)
    have hmover : AuthTaken.mover (⟨db, .advance t, db'⟩ : AuthTaken τ) = some (.flushed call copy since) := hsession
    rw [AuthTaken.upToDate, hmover] at hfresh
    have hbelow : db.committed.user.failedLoginCount < env.settings.loginLockoutThreshold := by omega
    obtain ⟨hcopy, hattempted⟩ := of_decide_eq_true hfresh (by rw [houtcome]; rfl) hbelow
    have hcopy : copy.failedLoginCount = db.committed.user.failedLoginCount := hcopy
    obtain ⟨hunlocked, rfl⟩ := authenticate_counted houtcome
    obtain ⟨hnew, hlock⟩ := flush_applyFailure env.settings.loginLockoutThreshold
      env.settings.minutes_ok.1 hunlocked hcopy hattempted
    rw [hcommit]
    refine ⟨by rw [hnew, hstored], fun heq => ?_⟩
    exact ⟨_, List.mem_append_right _ (List.mem_singleton_self _), call, copy, since, hmover, hlock (by omega)⟩

/-! ## Sessions and password changes -/

def AuthTx.owned : AuthTx → Set Unit
  | .flushed _ _ _ | .changeFlushed _ _ | .changeRevoked _ _ _ | .resetLocked _ | .resetRevoked _ _ => {()}
  | _ => ∅

def AuthTx.Knows (tx : AuthTx) (_ : Unit) (row : Option AuthStore) : Prop :=
  match tx with
  | .changeRevoked _ _ seen | .resetRevoked _ seen => ∃ store, row = some store ∧ store.sessions = seen
  | _ => True

def authDiscipline (env : AuthEnv) :
    Discipline (fun (store : AuthStore) (_ : Unit) => some store) AuthRequest.enter (authNext env) where
  owned := AuthTx.owned
  Knows := AuthTx.Knows
  enter := by
    intro request
    cases request <;> rfl
  read := by
    intro tx f hnext store k hk
    cases tx with
    | login call => cases hnext; cases hk
    | loaded call copy since =>
      rw [authNext] at hnext
      split at hnext <;> cases hnext
    | change call =>
      cases hnext
      simp only at hk
      split_ifs at hk <;> cases hk
    | changeLoaded call copy =>
      rw [authNext] at hnext
      split_ifs at hnext
    | changeFlushed call copy =>
      cases hnext
      exact ⟨rfl, fun _ => ⟨store, rfl, rfl⟩⟩
    | resetLocked call =>
      cases hnext
      exact ⟨rfl, fun _ => ⟨store, rfl, rfl⟩⟩
    | _ => cases hnext
  lock := by
    intro tx k f hnext store k' hk
    cases tx with
    | loaded call copy since =>
      rw [authNext] at hnext
      split at hnext <;> cases hnext
      exact Or.inr ⟨rfl, rfl, trivial⟩
    | changeLoaded call copy =>
      rw [authNext] at hnext
      split_ifs at hnext
      cases hnext
      exact Or.inr ⟨rfl, rfl, trivial⟩
    | reset call =>
      cases hnext
      simp only at hk ⊢
      split_ifs at hk ⊢
      · exact Or.inr ⟨trivial, rfl, trivial⟩
      · cases hk
    | _ => cases hnext
  commit := by
    intro tx f hnext store k hk _
    cases tx with
    | loaded call copy since =>
      rw [authNext] at hnext
      split at hnext <;> cases hnext
      rfl
    | changeLoaded call copy =>
      rw [authNext] at hnext
      split_ifs at hnext
    | flushed call copy since => exact absurd rfl hk
    | changeRevoked call copy seen => exact absurd rfl hk
    | resetRevoked call seen => exact absurd rfl hk
    | _ => cases hnext

/-- Every session of a sign-in was issued by a call that read the row after the last password change. -/
def SessionsCurrent (store : AuthStore) : Prop :=
  ∀ item ∈ store.sessions, ∀ since ∈ item.2, since = store.changes

instance (store : AuthStore) : Decidable (SessionsCurrent store) :=
  inferInstanceAs (Decidable (∀ item ∈ store.sessions, ∀ since ∈ item.2, since = store.changes))

/-- A sign-in that commits a session has read the row after the last password change. -/
def AuthTaken.readsCurrent (env : AuthEnv) (e : AuthTaken τ) : Bool :=
  match AuthTaken.mover e with
  | some (.flushed call copy since) =>
    match authenticate env copy call with
    | .success _ _ => since = e.before.committed.changes
    | _ => true
  | _ => true

theorem revoke_self (sessions : List (AuthSession × Option Nat)) : revoke sessions sessions = [] := by
  refine List.filter_eq_nil_iff.mpr (fun item hitem => ?_)
  simp [hitem]

omit [DecidableEq τ] in
theorem sessionsCurrent_commit {db db' t tx} {f : AuthStore → AuthStore}
    (hinv : (authDiscipline env).Inv db) (hsession : db.session t = some tx) (hnext : authNext env tx = .commit f)
    (hcurrent : AuthTaken.readsCurrent env (⟨db, .advance t, db'⟩ : AuthTaken τ) = true)
    (h : SessionsCurrent db.committed) : SessionsCurrent (f db.committed) := by
  have hmover : AuthTaken.mover (⟨db, .advance t, db'⟩ : AuthTaken τ) = some tx := hsession
  rw [AuthTaken.readsCurrent, hmover] at hcurrent
  cases tx with
  | loaded call copy since =>
    rw [authNext] at hnext
    split at hnext <;> cases hnext
    exact h
  | changeLoaded call copy =>
    rw [authNext] at hnext
    split_ifs at hnext
  | flushed call copy since =>
    cases hnext
    simp only at hcurrent ⊢
    cases houtcome : authenticate env copy call with
    | success user session =>
      rw [houtcome] at hcurrent
      intro item hitem
      rcases List.mem_append.mp hitem with hitem | hitem
      · exact h item hitem
      · rw [List.mem_singleton.mp hitem]
        intro n hn
        cases hn
        exact of_decide_eq_true hcurrent
    | _ => exact h
  | changeRevoked call copy seen =>
    cases hnext
    obtain ⟨_, _, store, hstore, hseen⟩ := hinv t _ hsession () rfl
    cases hstore
    -- the row was locked before the DELETE, so it saw every session there is
    intro item hitem
    simp only [hseen, revoke_self, List.nil_append] at hitem
    rw [List.mem_singleton.mp hitem]
    exact nofun
  | resetRevoked call seen =>
    cases hnext
    obtain ⟨_, _, store, hstore, hseen⟩ := hinv t _ hsession () rfl
    cases hstore
    intro item hitem
    simp [hseen, revoke_self] at hitem
  | _ => cases hnext

/-! ## The lock over a run

What the calls before say of the lock and of the failures to count, beside what the account stores. -/

section Lockout

variable {env : AuthEnv} {past : List (Taken Account LockCall LockOutput)} {user : Account} {now : Int}

abbrev LockTaken := Taken Account LockCall LockOutput

def LockTaken.time (e : LockTaken) : Option Int :=
  match e.input with
  | .login call => some call.now
  | _ => none

def LockTaken.lock (e : LockTaken) : Option Int :=
  match e.output.event with
  | .counted lock => lock
  | _ => none

def LockTaken.isFailure (e : LockTaken) : Bool :=
  match e.output.event with
  | .counted _ => true
  | _ => false

def LockInForce (past : List LockTaken) (now : Int) : Prop :=
  ∃ before e after lockEnd, past = before ++ e :: after ∧ LockTaken.lock e = some lockEnd ∧ now < lockEnd ∧
    ∀ later ∈ after, later.output.event ≠ .cleared

def LockTaken.restarts (now : Int) (e : LockTaken) : Bool :=
  e.output.event = .success || e.output.event = .cleared || (LockTaken.lock e).any (fun lockEnd => lockEnd ≤ now)

def failuresSince (past : List LockTaken) (now : Int) : Nat :=
  (past.reverse.takeWhile (fun e => !LockTaken.restarts now e)).countP LockTaken.isFailure

structure LockExact (env : AuthEnv) (past : List LockTaken) (e : LockTaken) (call : LoginCall) : Prop where
  refused : e.output.event = .refusedLocked ↔ LockInForce past call.now
  unchanged : e.output.event = .refusedLocked → e.output.user = e.before
  locks : (LockTaken.lock e).isSome = true ↔ LockTaken.isFailure e = true ∧
    (failuresSince past call.now : Int) + 1 = env.settings.loginLockoutThreshold
  minutes : ∀ lockEnd, LockTaken.lock e = some lockEnd →
    lockEnd = call.now + seconds (env.settings.loginLockoutMinutes * 60)

/-- No empty password meets an elapsed lock that is still stored, or one failure is enough to lock. -/
def LockTaken.noEmptyAfterLock (env : AuthEnv) (e : LockTaken) : Bool :=
  match e.input with
  | .login call => env.settings.loginLockoutThreshold = 1 || call.password ≠ "" ||
      e.before.lockedUntil.all (fun lockedUntil => call.now < lockedUntil)
  | _ => true

theorem lockInForce_concat {e : LockTaken} : LockInForce (past ++ [e]) now ↔
    (∃ lockEnd, LockTaken.lock e = some lockEnd ∧ now < lockEnd) ∨
      (LockInForce past now ∧ e.output.event ≠ .cleared) := by
  constructor
  · rintro ⟨before, first, after, lockEnd, hsplit, hlock, hlt, hafter⟩
    rcases List.eq_nil_or_concat after with rfl | ⟨after, last, rfl⟩
    · obtain ⟨_, hlast⟩ := List.append_inj' hsplit rfl
      cases hlast
      exact Or.inl ⟨lockEnd, hlock, hlt⟩
    · rw [List.concat_eq_append] at hsplit hafter
      rw [← List.cons_append, ← List.append_assoc] at hsplit
      obtain ⟨rfl, hlast⟩ := List.append_inj' hsplit rfl
      cases hlast
      exact Or.inr ⟨⟨before, first, after, lockEnd, rfl, hlock, hlt,
        fun later hlater => hafter later (List.mem_append_left _ hlater)⟩, hafter e (by simp)⟩
  · rintro (⟨lockEnd, hlock, hlt⟩ | ⟨⟨before, first, after, lockEnd, rfl, hlock, hlt, hafter⟩, hclear⟩)
    · exact ⟨past, e, [], lockEnd, rfl, hlock, hlt, by simp⟩
    · refine ⟨before, first, after ++ [e], lockEnd, by simp, hlock, hlt, fun later hlater => ?_⟩
      rcases List.mem_append.mp hlater with hlater | hlater
      · exact hafter later hlater
      · rw [List.mem_singleton.mp hlater]
        exact hclear

theorem failuresSince_concat (past : List LockTaken) (e : LockTaken) (now : Int) :
    failuresSince (past ++ [e]) now =
      if LockTaken.restarts now e then 0 else failuresSince past now + if LockTaken.isFailure e then 1 else 0 := by
  unfold failuresSince
  rw [List.reverse_append, List.reverse_singleton, List.singleton_append, List.takeWhile_cons]
  cases LockTaken.restarts now e with
  | true => rfl
  | false =>
    simp only [Bool.not_false, if_true, List.countP_cons]
    rfl

def MadeBy (past : List LockTaken) (now : Int) : Prop := ∀ e ∈ past, ∀ t, LockTaken.time e = some t → t ≤ now

structure LockInv (env : AuthEnv) (past : List LockTaken) (user : Account) : Prop where
  free : user.lockedUntil = none → user.failedLoginCount < env.settings.loginLockoutThreshold ∧
    ∀ now, MadeBy past now → ¬ LockInForce past now ∧ (failuresSince past now : Int) = user.failedLoginCount
  held : ∀ lockEnd, user.lockedUntil = some lockEnd →
    env.settings.loginLockoutThreshold ≤ user.failedLoginCount ∧
    ∀ now, MadeBy past now → (LockInForce past now ↔ now < lockEnd) ∧ (lockEnd ≤ now → failuresSince past now = 0)

structure Unlocked (env : AuthEnv) (past : List LockTaken) (user : Account) (now : Int) : Prop where
  notInForce : ∀ t, now ≤ t → MadeBy past t → ¬ LockInForce past t
  failures : ∀ t, now ≤ t → MadeBy past t →
    (failuresSince past t : Int) = (clearExpiredLock user now).failedLoginCount
  below : (clearExpiredLock user now).failedLoginCount < env.settings.loginLockoutThreshold
  cleared : (clearExpiredLock user now).lockedUntil = none

theorem LockInv.unlocked (h : LockInv env past user) (hlocked : isLocked user now = false) :
    Unlocked env past user now := by
  have hleast := env.settings.threshold_ok.1
  cases huntil : user.lockedUntil with
  | none =>
    have hself : clearExpiredLock user now = user := by
      rw [clearExpiredLock, huntil]
      rfl
    obtain ⟨hbelow, hfree⟩ := h.free huntil
    refine ⟨fun t _ hmade => (hfree t hmade).1, fun t _ hmade => ?_, ?_, ?_⟩
    · rw [hself]
      exact (hfree t hmade).2
    · rw [hself]
      exact hbelow
    · rw [hself]
      exact huntil
  | some lockEnd =>
    have helapsed : lockEnd ≤ now := by
      rw [isLocked, huntil] at hlocked
      simpa using hlocked
    have hself : clearExpiredLock user now = { user with lockedUntil := none, failedLoginCount := 0 } := by
      rw [clearExpiredLock, huntil, Option.any_some, if_pos (decide_eq_true helapsed)]
    obtain ⟨_, hheld⟩ := h.held lockEnd huntil
    refine ⟨fun t hle hmade hin => ?_, fun t hle hmade => ?_, ?_, ?_⟩
    · exact absurd ((hheld t hmade).1.mp hin) (by omega)
    · rw [(hheld t hmade).2 (by omega), hself]
      rfl
    · rw [hself]
      dsimp only
      omega
    · rw [hself]

theorem LockInv.restarted {e} (hlock : LockTaken.lock e = none)
    (hevent : e.output.event = .success ∨ e.output.event = .cleared)
    (hforce : ∀ t, MadeBy (past ++ [e]) t → e.output.event = .success → ¬ LockInForce past t)
    (huntil : e.output.user.lockedUntil = none) (hcount : e.output.user.failedLoginCount = 0) :
    LockInv env (past ++ [e]) e.output.user := by
  have hleast := env.settings.threshold_ok.1
  refine ⟨fun _ => ⟨by omega, fun t hmade => ⟨fun hin => ?_, ?_⟩⟩, fun lockEnd h => ?_⟩
  · rcases lockInForce_concat.mp hin with ⟨lockEnd, h, _⟩ | ⟨hin, hclear⟩
    · cases hlock.symm.trans h
    · rcases hevent with hevent | hevent
      · exact hforce t hmade hevent hin
      · exact hclear hevent
  · have hrestarts : LockTaken.restarts t e = true := by
      rcases hevent with hevent | hevent <;> simp [LockTaken.restarts, hevent]
    rw [failuresSince_concat, hrestarts, if_pos rfl, hcount]
    rfl
  · cases huntil.symm.trans h

theorem LockInv.kept {e} (h : LockInv env past user) (hlock : LockTaken.lock e = none)
    (hfailure : LockTaken.isFailure e = false) (hsuccess : e.output.event ≠ .success)
    (hcleared : e.output.event ≠ .cleared) (huser : e.output.user = user) :
    LockInv env (past ++ [e]) e.output.user := by
  have hforce : ∀ t, LockInForce (past ++ [e]) t ↔ LockInForce past t := by
    intro t
    rw [lockInForce_concat, hlock]
    exact ⟨fun h => h.elim (fun ⟨_, h, _⟩ => by cases h) (fun h => h.1), fun h => Or.inr ⟨h, hcleared⟩⟩
  have hsince : ∀ t, failuresSince (past ++ [e]) t = failuresSince past t := by
    intro t
    rw [failuresSince_concat, LockTaken.restarts, hlock, hfailure]
    simp [hsuccess, hcleared]
  have hmade : ∀ t, MadeBy (past ++ [e]) t → MadeBy past t := fun t h first hfirst =>
    h first (List.mem_append_left _ hfirst)
  rw [huser]
  refine ⟨fun huntil => ⟨(h.free huntil).1, fun t ht => ?_⟩, fun lockEnd huntil => ⟨(h.held lockEnd huntil).1,
    fun t ht => ?_⟩⟩
  · rw [hforce, hsince]
    exact (h.free huntil).2 t (hmade t ht)
  · rw [hforce, hsince]
    exact (h.held lockEnd huntil).2 t (hmade t ht)

theorem MadeBy.of_concat {e : LockTaken} {t : Int} (h : MadeBy (past ++ [e]) t) : MadeBy past t :=
  fun first hfirst => h first (List.mem_append_left _ hfirst)

theorem MadeBy.last {e : LockTaken} {t : Int} (h : MadeBy (past ++ [e]) t) (hnow : LockTaken.time e = some now) :
    now ≤ t := h e (by simp) now hnow

theorem Unlocked.next (h : Unlocked env past user now) {e} (hnow : LockTaken.time e = some now)
    (hlock : LockTaken.lock e = none) (hsuccess : e.output.event ≠ .success) (hcleared : e.output.event ≠ .cleared)
    (huntil : e.output.user.lockedUntil = none) (hcount : e.output.user.failedLoginCount =
      (clearExpiredLock user now).failedLoginCount + if LockTaken.isFailure e then 1 else 0)
    (hbelow : e.output.user.failedLoginCount < env.settings.loginLockoutThreshold) :
    LockInv env (past ++ [e]) e.output.user := by
  refine ⟨fun _ => ⟨hbelow, fun t hmade => ⟨fun hin => ?_, ?_⟩⟩, fun lockEnd huntil' => ?_⟩
  · rcases lockInForce_concat.mp hin with ⟨lockEnd, hsome, _⟩ | ⟨hin, _⟩
    · cases hlock.symm.trans hsome
    · exact h.notInForce t (hmade.last hnow) hmade.of_concat hin
  · have hrestarts : LockTaken.restarts t e = false := by simp [LockTaken.restarts, hlock, hsuccess, hcleared]
    rw [failuresSince_concat, hrestarts, if_neg Bool.false_ne_true, hcount,
      ← h.failures t (hmade.last hnow) hmade.of_concat]
    cases LockTaken.isFailure e <;> simp
  · cases huntil.symm.trans huntil'

theorem Unlocked.locks (h : Unlocked env past user now) {e} (hnow : LockTaken.time e = some now) {lockEnd}
    (hlock : LockTaken.lock e = some lockEnd) (huntil : e.output.user.lockedUntil = some lockEnd)
    (hcount : env.settings.loginLockoutThreshold ≤ e.output.user.failedLoginCount) :
    LockInv env (past ++ [e]) e.output.user := by
  refine ⟨fun hnone => (by cases hnone.symm.trans huntil), fun lockEnd' huntil' => ?_⟩
  cases huntil.symm.trans huntil'
  refine ⟨hcount, fun t hmade => ⟨?_, fun helapsed => ?_⟩⟩
  · rw [lockInForce_concat, hlock]
    constructor
    · rintro (⟨_, ⟨rfl⟩, hlt⟩ | ⟨hin, _⟩)
      · exact hlt
      · exact absurd hin (h.notInForce t (hmade.last hnow) hmade.of_concat)
    · exact fun hlt => Or.inl ⟨lockEnd, rfl, hlt⟩
  · have hrestarts : LockTaken.restarts t e = true := by simp [LockTaken.restarts, hlock, helapsed]
    rw [failuresSince_concat, hrestarts, if_pos rfl]

inductive LoginLock (env : AuthEnv) (user : Account) (call : LoginCall) (output : LockOutput) : Prop
  | locked (hlocked : isLocked user call.now = true) (hevent : output.event = .refusedLocked)
      (huser : output.user = user)
  | counted (hlocked : isLocked user call.now = false)
      (hevent : output.event = .counted (startedLock env output.user))
      (huser : output.user = applyFailure (attempted user call) call.now env.settings.loginLockoutThreshold
        env.settings.loginLockoutMinutes)
  | disabled (hlocked : isLocked user call.now = false) (hevent : output.event = .refusedDisabled)
      (huser : output.user = clearExpiredLock user call.now)
  | success (hlocked : isLocked user call.now = false) (hevent : output.event = .success)
      (huntil : output.user.lockedUntil = none) (hcount : output.user.failedLoginCount = 0)

theorem lockStep_login {call output} (h : lockStep env user (.login call) = .ok output) :
    LoginLock env user call output := by
  unfold lockStep at h
  dsimp only at h
  split at h
  · rename_i houtcome
    cases h
    refine .locked ?_ rfl rfl
    unfold authenticate emptyPassword localSignIn countFailure at houtcome
    by_contra hfree
    simp only [hfree, if_false] at houtcome
    split_ifs at houtcome
  · rename_i after houtcome
    cases h
    obtain ⟨hlocked, huser⟩ := authenticate_counted houtcome
    exact .counted hlocked rfl huser
  · rename_i after houtcome
    cases h
    unfold authenticate emptyPassword localSignIn countFailure at houtcome
    split_ifs at houtcome with hempty hlocked hlocked'
    dsimp only at houtcome
    split_ifs at houtcome
    cases houtcome
    exact .disabled (Bool.eq_false_iff.mpr hlocked') rfl rfl
  · rename_i after session houtcome
    cases h
    unfold authenticate emptyPassword localSignIn countFailure at houtcome
    split_ifs at houtcome with hempty hlocked hlocked'
    dsimp only at houtcome
    split_ifs at houtcome
    cases houtcome
    exact .success (Bool.eq_false_iff.mpr hlocked') rfl rfl rfl

theorem applyFailure_lock (user : Account) (now threshold minutes : Int) :
    (applyFailure user now threshold minutes).failedLoginCount = user.failedLoginCount + 1 ∧
      (applyFailure user now threshold minutes).lockedUntil =
        if user.failedLoginCount + 1 ≥ threshold then some (now + seconds (minutes * 60)) else user.lockedUntil := by
  unfold applyFailure
  dsimp only
  split_ifs <;> exact ⟨rfl, rfl⟩

theorem LockInv.failure_reaches (h : LockInv env past user) {call} (hlocked : isLocked user call.now = false)
    (hmade : MadeBy past call.now) {output}
    (hempty : LockTaken.noEmptyAfterLock env ⟨user, .login call, output⟩ = true) :
    (env.settings.loginLockoutThreshold ≤ (attempted user call).failedLoginCount + 1 ↔
      (failuresSince past call.now : Int) + 1 = env.settings.loginLockoutThreshold) ∧
    (¬ env.settings.loginLockoutThreshold ≤ (attempted user call).failedLoginCount + 1 →
      attempted user call = clearExpiredLock user call.now) := by
  have hunlocked := h.unlocked hlocked
  have hfailures := hunlocked.failures call.now (le_refl _) hmade
  have hbelow := hunlocked.below
  by_cases hself : attempted user call = clearExpiredLock user call.now
  · rw [hself]
    exact ⟨by omega, fun _ => rfl⟩
  · -- an empty password on an elapsed lock, under a threshold of one
    have hpassword : call.password = "" := by
      by_contra hne
      exact hself (by rw [attempted, if_neg hne])
    have hstored : attempted user call = user := by rw [attempted, if_pos hpassword]
    cases huntil : user.lockedUntil with
    | none =>
      refine absurd ?_ hself
      rw [hstored, clearExpiredLock, huntil]
      rfl
    | some lockEnd =>
      have helapsed : ¬ call.now < lockEnd := by
        rw [isLocked, huntil] at hlocked
        simpa using hlocked
      have hone : env.settings.loginLockoutThreshold = 1 := by
        simpa [LockTaken.noEmptyAfterLock, huntil, helapsed, hpassword] using hempty
      have hcount := (h.held lockEnd huntil).1
      rw [hstored]
      refine ⟨by omega, fun hnot => ?_⟩
      omega

theorem lockInv_step (h : LockInv env past user) {input output}
    (hmade : ∀ call, input = .login call → MadeBy past call.now) (hstep : lockStep env user input = .ok output)
    (hempty : LockTaken.noEmptyAfterLock env ⟨user, input, output⟩ = true) :
    LockInv env (past ++ [⟨user, input, output⟩]) output.user ∧
      ∀ call, input = .login call → LockExact env past ⟨user, input, output⟩ call := by
  cases input with
  | unlock =>
    cases hstep
    exact ⟨LockInv.restarted rfl (Or.inr rfl) nofun rfl rfl, nofun⟩
  | reset call =>
    refine ⟨?_, nofun⟩
    unfold lockStep at hstep
    dsimp only at hstep
    split at hstep
    · cases hstep
      exact LockInv.restarted rfl (Or.inr rfl) nofun rfl rfl
    · cases hstep
      exact h.kept rfl rfl nofun nofun rfl
  | login call =>
    have hmade := hmade call rfl
    have hnow : LockTaken.time ⟨user, .login call, output⟩ = some call.now := rfl
    cases lockStep_login hstep with
    | locked hlocked hevent huser =>
      have hforce : LockInForce past call.now := by
        cases huntil : user.lockedUntil with
        | none => simp [isLocked, huntil] at hlocked
        | some lockEnd =>
          have hlt : call.now < lockEnd := by simpa [isLocked, huntil] using hlocked
          exact (((h.held lockEnd huntil).2 call.now hmade).1).mpr hlt
      refine ⟨h.kept (by simp [LockTaken.lock, hevent]) (by simp [LockTaken.isFailure, hevent])
        (by simp [hevent]) (by simp [hevent]) huser, fun _ hcall => ?_⟩
      cases hcall
      refine ⟨⟨fun _ => hforce, fun _ => hevent⟩, fun _ => huser, ?_, ?_⟩
      · simp [LockTaken.lock, LockTaken.isFailure, hevent]
      · simp [LockTaken.lock, hevent]
    | counted hlocked hevent huser =>
      have hunlocked := h.unlocked hlocked
      have hnot := hunlocked.notInForce call.now (le_refl _) hmade
      obtain ⟨hreaches, hself⟩ := h.failure_reaches hlocked hmade hempty
      obtain ⟨hcount, huntil⟩ := applyFailure_lock (attempted user call) call.now
        env.settings.loginLockoutThreshold env.settings.loginLockoutMinutes
      rw [← huser] at hcount huntil
      by_cases hlocks : env.settings.loginLockoutThreshold ≤ (attempted user call).failedLoginCount + 1
      · rw [if_pos hlocks] at huntil
        have hlock : LockTaken.lock ⟨user, .login call, output⟩ =
            some (call.now + seconds (env.settings.loginLockoutMinutes * 60)) := by
          simp only [LockTaken.lock, hevent, startedLock]
          rw [if_pos (by omega), huntil]
        refine ⟨hunlocked.locks hnow hlock huntil (by rw [hcount]; exact hlocks),
          fun _ hcall => ?_⟩
        cases hcall
        refine ⟨⟨by simp [hevent], fun hforce => absurd hforce hnot⟩, by simp [hevent], ?_, ?_⟩
        · rw [hlock]
          exact ⟨fun _ => ⟨by simp [LockTaken.isFailure, hevent], hreaches.mp hlocks⟩, fun _ => rfl⟩
        · rw [hlock]
          exact fun _ hsome => (Option.some.inj hsome).symm
      · rw [if_neg hlocks] at huntil
        have hself := hself hlocks
        have hlock : LockTaken.lock ⟨user, .login call, output⟩ = none := by
          simp only [LockTaken.lock, hevent, startedLock]
          rw [if_neg (by omega)]
        refine ⟨hunlocked.next hnow hlock (by simp [hevent]) (by simp [hevent])
          (by rw [huntil, hself, hunlocked.cleared]) ?_ (by rw [hcount]; omega), fun _ hcall => ?_⟩
        · rw [hcount, hself]
          simp [LockTaken.isFailure, hevent]
        · cases hcall
          refine ⟨⟨by simp [hevent], fun hforce => absurd hforce hnot⟩, by simp [hevent], ?_, by simp [hlock]⟩
          rw [hlock]
          exact ⟨nofun, fun hboth => absurd (hreaches.mpr hboth.2) hlocks⟩
    | disabled hlocked hevent huser =>
      have hunlocked := h.unlocked hlocked
      have hnot := hunlocked.notInForce call.now (le_refl _) hmade
      refine ⟨hunlocked.next hnow (by simp [LockTaken.lock, hevent]) (by simp [hevent]) (by simp [hevent])
        (by rw [huser]; exact hunlocked.cleared) (by simp [huser, LockTaken.isFailure, hevent])
        (by rw [huser]; exact hunlocked.below), fun _ hcall => ?_⟩
      cases hcall
      refine ⟨⟨by simp [hevent], fun hforce => absurd hforce hnot⟩, by simp [hevent], ?_, ?_⟩
      · simp [LockTaken.lock, LockTaken.isFailure, hevent]
      · simp [LockTaken.lock, hevent]
    | success hlocked hevent huntil hcount =>
      have hunlocked := h.unlocked hlocked
      have hnot := hunlocked.notInForce call.now (le_refl _) hmade
      refine ⟨LockInv.restarted (by simp [LockTaken.lock, hevent]) (Or.inl hevent)
        (fun t ht _ => hunlocked.notInForce t (ht.last hnow) ht.of_concat) huntil hcount, fun _ hcall => ?_⟩
      cases hcall
      refine ⟨⟨by simp [hevent], fun hforce => absurd hforce hnot⟩, by simp [hevent], ?_, ?_⟩
      · simp [LockTaken.lock, LockTaken.isFailure, hevent]
      · simp [LockTaken.lock, hevent]

theorem not_lockExact (h : LockInv env past user) {call output}
    (hmade : MadeBy past call.now) (hstep : lockStep env user (.login call) = .ok output)
    (hempty : LockTaken.noEmptyAfterLock env ⟨user, .login call, output⟩ = false) :
    ¬ LockExact env past ⟨user, .login call, output⟩ call := by
  intro hexact
  simp only [LockTaken.noEmptyAfterLock, Bool.or_eq_false_iff, decide_eq_false_iff_not, not_not] at hempty
  obtain ⟨⟨hthreshold, hpassword⟩, hstored⟩ := hempty
  cases huntil : user.lockedUntil with
  | none => simp [huntil] at hstored
  | some lockEnd =>
    have helapsed : lockEnd ≤ call.now := by simpa [huntil] using hstored
    have hlocked : isLocked user call.now = false := by simp [isLocked, huntil, helapsed]
    have hcount := (h.held lockEnd huntil).1
    have hsince := ((h.held lockEnd huntil).2 call.now hmade).2 helapsed
    have hcounted : authenticate env user call = .counted (applyFailure user call.now
        env.settings.loginLockoutThreshold env.settings.loginLockoutMinutes) := by
      rw [authenticate, if_pos hpassword, emptyPassword, hlocked]
      rfl
    unfold lockStep at hstep
    dsimp only at hstep
    rw [hcounted] at hstep
    cases hstep
    obtain ⟨hafter, huntil'⟩ := applyFailure_lock user call.now env.settings.loginLockoutThreshold
      env.settings.loginLockoutMinutes
    have hlock : startedLock env (applyFailure user call.now env.settings.loginLockoutThreshold
        env.settings.loginLockoutMinutes) = some (call.now + seconds (env.settings.loginLockoutMinutes * 60)) := by
      rw [startedLock, if_pos (by omega), huntil', if_pos (by omega)]
    have hone := (hexact.locks.mp (by simp only [LockTaken.lock, hlock, Option.isSome_some])).2
    rw [hsince] at hone
    exact hthreshold (by omega)

def RunExact (env : AuthEnv) (tr : List LockTaken) : Prop :=
  ∀ past e rest, tr = past ++ e :: rest → ∀ call, e.input = .login call → LockExact env past e call

theorem runExact_concat {tr e} : RunExact env (tr ++ [e]) ↔
    RunExact env tr ∧ ∀ call, e.input = .login call → LockExact env tr e call := by
  constructor
  · intro h
    refine ⟨fun past first rest hsplit => h past first (rest ++ [e]) (by rw [hsplit]; simp), h tr e [] rfl⟩
  · rintro ⟨hbefore, hlast⟩ past first rest hsplit
    rcases List.eq_nil_or_concat rest with rfl | ⟨rest, last, rfl⟩
    · obtain ⟨rfl, hfirst⟩ := List.append_inj' hsplit rfl
      cases hfirst
      exact hlast
    · rw [List.concat_eq_append, ← List.cons_append, ← List.append_assoc] at hsplit
      obtain ⟨hsplit, _⟩ := List.append_inj' hsplit rfl
      exact hbefore past first rest hsplit

def ClockKept (tr : List LockTaken) : Prop := (tr.filterMap LockTaken.time).Pairwise (· ≤ ·)

instance (tr : List LockTaken) : Decidable (ClockKept tr) := inferInstanceAs (Decidable (List.Pairwise _ _))

theorem ClockKept.madeBy {tr e} (h : ClockKept (tr ++ [e]))
    (hnow : LockTaken.time e = some now) : ClockKept tr ∧ MadeBy tr now := by
  rw [ClockKept, List.filterMap_append, List.pairwise_append] at h
  refine ⟨h.1, fun first hfirst t ht => h.2.2 t (List.mem_filterMap.mpr ⟨first, hfirst, ht⟩) now ?_⟩
  simp [hnow]

theorem lockRun_exact (hcount : user.failedLoginCount = 0) (hfree : user.lockedUntil = none) {tr : List LockTaken}
    {s : Account} (hrun : Run (lockStep env) (fun output => output.user) user tr s) (hclock : ClockKept tr) :
    (RunExact env tr ↔ ∀ e ∈ tr, LockTaken.noEmptyAfterLock env e = true) ∧
      ((∀ e ∈ tr, LockTaken.noEmptyAfterLock env e = true) → LockInv env tr s) := by
  revert hclock
  refine hrun.invariant' (fun tr s => ClockKept tr →
    (RunExact env tr ↔ ∀ e ∈ tr, LockTaken.noEmptyAfterLock env e = true) ∧
      ((∀ e ∈ tr, LockTaken.noEmptyAfterLock env e = true) → LockInv env tr s)) ?_ ?_
  · intro _
    have hleast := env.settings.threshold_ok.1
    refine ⟨⟨fun _ => by simp, fun _ past e rest hsplit => by simp at hsplit⟩, fun _ => ⟨fun _ => ⟨by omega,
      fun now _ => ⟨?_, by rw [hcount]; rfl⟩⟩, fun lockEnd huntil => by cases hfree.symm.trans huntil⟩⟩
    rintro ⟨before, e, after, _, hsplit, _⟩
    simp at hsplit
  · intro tr s input output hI hstep hclock
    have hbefore : ClockKept tr := by
      rw [ClockKept, List.filterMap_append, List.pairwise_append] at hclock
      exact hclock.1
    obtain ⟨hiff, hinv⟩ := hI hbefore
    have hmade : ∀ call, input = .login call → MadeBy tr call.now := by
      rintro call rfl
      exact (hclock.madeBy rfl).2
    rw [runExact_concat, hiff]
    constructor
    · constructor
      · rintro ⟨hempty, hlast⟩ e he
        rcases List.mem_append.mp he with he | he
        · exact hempty e he
        · rw [List.mem_singleton.mp he]
          by_contra hnot
          cases input with
          | login call =>
            exact not_lockExact (hinv hempty) (hmade call rfl) hstep (Bool.eq_false_iff.mpr hnot) (hlast call rfl)
          | unlock | reset call => exact hnot rfl
      · intro hempty
        have hpast : ∀ e ∈ tr, LockTaken.noEmptyAfterLock env e = true := fun e he =>
          hempty e (List.mem_append_left _ he)
        exact ⟨hpast, (lockInv_step (hinv hpast) hmade hstep (hempty _ (by simp))).2⟩
    · intro hempty
      have hpast : ∀ e ∈ tr, LockTaken.noEmptyAfterLock env e = true := fun e he =>
        hempty e (List.mem_append_left _ he)
      exact (lockInv_step (hinv hpast) hmade hstep (hempty _ (by simp))).1

end Lockout

end QRadarDashboard.Identity
