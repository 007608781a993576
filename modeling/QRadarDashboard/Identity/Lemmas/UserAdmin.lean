import QRadarDashboard.Identity.UserAdmin

/-!
# What an administration request commits
-/

namespace QRadarDashboard.Identity
open Lib Lib.ReadCommitted

variable {env : UserAdminEnv}

def HasAdmin (users : Users) : Prop := ∃ id user, users.get? id = some user ∧ actingAdmin user = true

def UserWrite.KeepsAdmin : UserWrite → Prop
  | .roles named => holdsAdmin named = true
  | .disable _ => False
  | _ => True

inductive Settled (id : String) (target : User) : AdminTx → Prop
  | refused (e : HttpError) : Settled id target (.refused e)
  | unguarded (write : UserWrite) (h : write.KeepsAdmin ∨ actingAdmin target = false) :
      Settled id target (.writing id target write none)
  | guarded (write : UserWrite) : Settled id target (.guarded id target write)

/-! ## Requests lock what they write -/

def AdminTx.owned : AdminTx → Set String
  | .locked id _ _ | .guarded id _ _ | .listed id _ _ _ | .writing id _ _ _ => {id}
  | _ => ∅

def AdminTx.Knows (tx : AdminTx) (id : String) (row : Option User) : Prop :=
  match tx with
  | .locked k _ account => k = id → ∃ roles, row = some { account with roles := roles }
  | .guarded k target _ | .listed k target _ _ => k = id → row = some target
  | .writing k target write others => k = id →
      row = some target ∧ (others = none → write.KeepsAdmin ∨ actingAdmin target = false)
  | _ => True

theorem settled_keepLastAdmin {id target write keeps}
    (h : keeps = true → write.KeepsAdmin) : Settled id target (keepLastAdmin id target write keeps) := by
  unfold keepLastAdmin
  split_ifs with hskip
  · refine .unguarded write ?_
    simp only [Bool.or_eq_true, Bool.not_eq_true'] at hskip
    rcases hskip with (hoff | hnot) | hkeeps
    · exact Or.inr (by simp [actingAdmin, hoff])
    · exact Or.inr (by simp [actingAdmin, hnot])
    · exact Or.inl (h hkeeps)
  · exact .guarded write

theorem settled_settleTarget (env : UserAdminEnv) (id : String) (target : User) (op : TargetOp) :
    Settled id target (settleTarget env id target op) := by
  cases op with
  | setRoles names =>
    rw [settleTarget]
    split
    · exact .refused _
    · exact settled_keepLastAdmin (fun h => h)
  | setDisabled disabled now =>
    cases disabled with
    | true => exact settled_keepLastAdmin nofun
    | false => exact .unguarded _ (Or.inl trivial)
  | unlock => exact .unguarded _ (Or.inl trivial)
  | resetPassword password =>
    rw [settleTarget]
    split
    · exact .refused _
    · split_ifs
      · exact .refused _
      · dsimp only
        split_ifs
        · exact .unguarded _ (Or.inl trivial)
        · exact .refused _

theorem Settled.owned {id target tx} (h : Settled id target tx) {k} (hk : k ∈ tx.owned) : k = id := by
  cases h with
  | refused e => cases hk
  | unguarded write _ => exact hk
  | guarded write => exact hk

theorem Settled.knows {id target tx} (h : Settled id target tx) : tx.Knows id (some target) := by
  cases h with
  | refused e => trivial
  | unguarded write hkeeps => exact fun _ => ⟨rfl, fun _ => hkeeps⟩
  | guarded write => exact fun _ => rfl

theorem get?_modify (users : Users) (id k : String) (write : UserWrite) :
    (modify users id write).get? k = if k = id then (users.get? id).map write.apply else users.get? k := by
  unfold modify
  cases hid : users.get? id with
  | none =>
    by_cases hk : k = id
    · simp [hk, hid]
    · simp [hk]
  | some user => simp [Dict.get?_set]

theorem get?_insertUser {users id k user row} (h : users.get? k = some row) :
    (insertUser users id user).get? k = some row := by
  unfold insertUser
  split_ifs with htaken
  · exact h
  · have hk : k ≠ id := by
      rintro rfl
      exact htaken (Or.inl (List.mem_map_of_mem (Dict.mem_of_get? h)))
    rw [Dict.get?_set, if_neg hk, h]

def adminDiscipline (env : UserAdminEnv) :
    Discipline (fun (users : Users) (id : String) => users.get? id) AdminRequest.enter (adminNext env) where
  owned := AdminTx.owned
  Knows := AdminTx.Knows
  enter := by
    intro request
    cases request <;> rfl
  read := by
    intro tx f hnext users k hk
    cases tx with
    | locked id op account =>
      cases hnext
      cases (settled_settleTarget env _ _ _).owned hk
      refine ⟨rfl, fun hknows => ?_⟩
      obtain ⟨roles, hrow⟩ := hknows rfl
      have hroles : rolesOf users k = roles := by simp [rolesOf, hrow]
      simp only [hroles, hrow]
      exact (settled_settleTarget env _ _ _).knows
    | guarded id target write =>
      cases hnext
      exact ⟨hk, fun hknows => hknows⟩
    | listed id target write accounts =>
      cases hnext
      simp only at hk ⊢
      split_ifs at hk ⊢
      · cases hk
      · exact ⟨hk, fun hknows hid => ⟨hknows hid, nofun⟩⟩
    | creating id args =>
      cases hnext
      simp only at hk
      split at hk <;> cases hk
    | naming id user =>
      cases hnext
      simp only at hk
      split_ifs at hk <;> cases hk
    | mailing id user =>
      cases hnext
      simp only at hk
      split_ifs at hk <;> cases hk
    | _ => cases hnext
  lock := by
    intro tx k f hnext users k' hk
    cases tx with
    | requested id op =>
      cases hnext
      cases hrow : users.get? k with
      | none =>
        simp only [hrow] at hk
        cases hk
      | some user =>
        simp only [hrow] at hk
        cases (hk : k' = k)
        refine Or.inr ⟨rfl, rfl, ?_⟩
        simp only [hrow]
        exact fun _ => ⟨user.roles, rfl⟩
    | _ => cases hnext
  commit := by
    intro tx f hnext users k hk hrow
    cases tx with
    | writing id target write others =>
      cases hnext
      have hne : k ≠ id := fun h => hk (h ▸ rfl)
      rw [get?_modify, if_neg hne]
    | inserting id user =>
      cases hnext
      obtain ⟨row, hget⟩ := Option.isSome_iff_exists.mp hrow
      rw [hget, get?_insertUser hget]
    | _ => cases hnext

/-! ## Writes -/

theorem actingAdmin_apply {write : UserWrite} (h : write.KeepsAdmin) {user} (huser : actingAdmin user = true) :
    actingAdmin (write.apply user) = true := by
  obtain ⟨hactionable, hadmin⟩ := Bool.and_eq_true_iff.mp huser
  refine Bool.and_eq_true_iff.mpr ?_
  cases write with
  | roles roles => exact ⟨hactionable, h⟩
  | disable now => cases h
  | enable =>
    refine ⟨?_, hadmin⟩
    unfold actionable at hactionable ⊢
    split_ifs at hactionable with hoff hname
    simp only [UserWrite.apply, hname]
    exact hactionable
  | unlock => exact ⟨hactionable, hadmin⟩
  | password hash =>
    refine ⟨?_, hadmin⟩
    unfold actionable at hactionable ⊢
    split_ifs at hactionable with hoff hname
    simp [UserWrite.apply, filled, hash.2]
    simpa [filled] using And.intro hoff hname

theorem hasAdmin_modify_of_other {users id k user write} (hk : k ≠ id) (hget : users.get? k = some user)
    (hadmin : actingAdmin user = true) : HasAdmin (modify users id write) :=
  ⟨k, user, by rw [get?_modify, if_neg hk, hget], hadmin⟩

/-! ## Guards that have looked -/

def UserWrite.takesAdmin (target : User) (write : UserWrite) : Bool :=
  (actionable target.toAccount && !actionable (write.apply target).toAccount) ||
    (holdsAdmin target.roles && !holdsAdmin (write.apply target).roles)

/-- The guard has listed the users, and its transaction has not ended. -/
def AdminTx.hasLooked : AdminTx → Bool
  | .listed _ _ _ _ | .writing _ _ _ (some _) => true
  | _ => false

/-- What the guard of a removal counts on. -/
def AdminTx.CountsOn (tx : AdminTx) (users : Users) : Prop :=
  match tx with
  | .listed _ _ _ accounts => ∀ item ∈ accounts, actionable item.2 = true →
      ∃ user, users.get? item.1 = some user ∧ actionable user.toAccount = true
  | .writing id _ _ (some _) => ∃ k user, k ≠ id ∧ users.get? k = some user ∧ actingAdmin user = true
  | _ => True

theorem Settled.countsOn {id target tx} (h : Settled id target tx) (users : Users) : tx.CountsOn users := by
  cases h with
  | _ => trivial

theorem countsOn_answers {users} (hkeys : users.keys.Nodup) {tx tx'}
    (h : (adminNext env tx).Answers users tx') (htx : tx.CountsOn users) : tx'.CountsOn users := by
  cases tx with
  | requested id op =>
    rcases h with ⟨f, hf, rfl⟩ | ⟨key, f, hf, rfl⟩ <;> cases hf
    dsimp only
    split <;> trivial
  | locked id op account =>
    rcases h with ⟨f, hf, rfl⟩ | ⟨key, f, hf, rfl⟩ <;> cases hf
    exact (settled_settleTarget env id _ op).countsOn users
  | guarded id target write =>
    rcases h with ⟨f, hf, rfl⟩ | ⟨key, f, hf, rfl⟩ <;> cases hf
    intro item hitem hactionable
    obtain ⟨row, hrow, rfl⟩ := List.mem_map.mp hitem
    exact ⟨row.2, (Dict.get?_eq_some_iff hkeys).mpr hrow, hactionable⟩
  | listed id target write accounts =>
    rcases h with ⟨f, hf, rfl⟩ | ⟨key, f, hf, rfl⟩ <;> cases hf
    dsimp only
    split_ifs with hnone
    · trivial
    · rw [List.isEmpty_iff] at hnone
      obtain ⟨item, hitem⟩ := List.exists_mem_of_ne_nil _ hnone
      obtain ⟨hitem, hcounted⟩ := List.mem_filter.mp hitem
      obtain ⟨listed, hlisted, rfl⟩ := List.mem_map.mp hitem
      simp only [Bool.and_eq_true, decide_eq_true_eq, actingAdmin] at hcounted
      obtain ⟨hne, hactionable, hadmin⟩ := hcounted
      -- the account is as it was listed, its roles are as they are now
      obtain ⟨user, hget, hstill⟩ := htx listed hlisted hactionable
      rw [rolesOf, hget] at hadmin
      exact ⟨listed.1, user, hne, hget, Bool.and_eq_true_iff.mpr ⟨hstill, hadmin⟩⟩
  | creating id args =>
    rcases h with ⟨f, hf, rfl⟩ | ⟨key, f, hf, rfl⟩ <;> cases hf
    dsimp only
    split <;> trivial
  | naming id user =>
    rcases h with ⟨f, hf, rfl⟩ | ⟨key, f, hf, rfl⟩ <;> cases hf
    dsimp only
    split_ifs <;> trivial
  | mailing id user =>
    rcases h with ⟨f, hf, rfl⟩ | ⟨key, f, hf, rfl⟩ <;> cases hf
    dsimp only
    split_ifs <;> trivial
  | _ => rcases h with ⟨f, hf, rfl⟩ | ⟨key, f, hf, rfl⟩ <;> cases hf

theorem apply_keeps {target} {write : UserWrite} (h : write.takesAdmin target = false) :
    (actionable target.toAccount = true → actionable (write.apply target).toAccount = true) ∧
      (actingAdmin target = true → actingAdmin (write.apply target) = true) := by
  simp only [UserWrite.takesAdmin, Bool.or_eq_false_iff, Bool.and_eq_false_imp, Bool.not_eq_false'] at h
  refine ⟨h.1, fun hacting => ?_⟩
  obtain ⟨hactionable, hadmin⟩ := Bool.and_eq_true_iff.mp hacting
  exact Bool.and_eq_true_iff.mpr ⟨h.1 hactionable, h.2 hadmin⟩

/-- Of every user a write leaves what `q` holds of, when it does so for its target. -/
theorem exists_modify {users id k target user write} {q : User → Bool} (hrow : users.get? id = some target)
    (hkeeps : q target = true → q (write.apply target) = true) (hget : users.get? k = some user) (hq : q user = true) :
    ∃ user, (modify users id write).get? k = some user ∧ q user = true := by
  by_cases hk : k = id
  · obtain rfl : target = user := Option.some.inj (hrow.symm.trans (hk ▸ hget))
    exact ⟨write.apply target, by rw [get?_modify, if_pos hk, hrow]; rfl, hkeeps hq⟩
  · exact ⟨user, by rw [get?_modify, if_neg hk, hget], hq⟩

theorem countsOn_modify {users id target} {write : UserWrite} {tx : AdminTx}
    (hrow : users.get? id = some target) (hapart : write.takesAdmin target = true → tx.hasLooked = false)
    (h : tx.CountsOn users) : tx.CountsOn (modify users id write) := by
  cases hlooked : tx.hasLooked with
  | false =>
    cases tx with
    | listed _ _ _ _ => cases hlooked
    | writing _ _ _ others =>
      cases others with
      | none => trivial
      | some others => cases hlooked
    | _ => trivial
  | true =>
    have hkeeps := apply_keeps (Bool.eq_false_iff.mpr
      (fun htakes : write.takesAdmin target = true => by simp [hapart htakes] at hlooked))
    cases tx with
    | listed id' target' write' accounts =>
      intro item hitem hactionable
      obtain ⟨user, hget, hstill⟩ := h item hitem hactionable
      exact exists_modify (q := fun user => actionable user.toAccount) hrow hkeeps.1 hget hstill
    | writing id' target' write' others =>
      cases others with
      | none => trivial
      | some others =>
        obtain ⟨k, user, hne, hget, hacting⟩ := h
        obtain ⟨user, hget, hacting⟩ := exists_modify hrow hkeeps.2 hget hacting
        exact ⟨k, user, hne, hget, hacting⟩
    | _ => trivial

theorem countsOn_insertUser {users} {tx : AdminTx} (h : tx.CountsOn users) (id : String) (user : User) :
    tx.CountsOn (insertUser users id user) := by
  cases tx with
  | listed id' target write accounts =>
    intro item hitem hactionable
    obtain ⟨row, hget, hstill⟩ := h item hitem hactionable
    exact ⟨row, get?_insertUser hget, hstill⟩
  | writing id' target write others =>
    cases others with
    | none => trivial
    | some others =>
      obtain ⟨k, row, hne, hget, hacting⟩ := h
      exact ⟨k, row, hne, get?_insertUser hget, hacting⟩
  | _ => trivial

theorem nodup_keys_modify {users} (h : users.keys.Nodup) (id : String) (write : UserWrite) :
    (modify users id write).keys.Nodup := by
  unfold modify
  split
  · exact h
  · exact Dict.nodup_keys_set h id _

theorem nodup_keys_insertUser {users} (h : users.keys.Nodup) (id : String) (user : User) :
    (insertUser users id user).keys.Nodup := by
  unfold insertUser
  split_ifs
  · exact h
  · exact Dict.nodup_keys_set h id user

/-! ## Interleavings -/

variable {τ : Type} {db : Db Users String τ AdminTx} {t : τ} {tx : AdminTx} {f : Users → Users}

/-- The next statement of `t` commits a write that takes an actionable account or `admin:*` away. -/
def removing (db : Db Users String τ AdminTx) (t : τ) : Bool :=
  match db.session t with
  | some (.writing _ target write _) => write.takesAdmin target
  | _ => false

/-- No other request is between its guard's list and its end while a removal commits. -/
def RemovesAlone (db : Db Users String τ AdminTx) (t : τ) : Prop :=
  removing db t = true → ∀ u, u ≠ t → (db.session u).any AdminTx.hasLooked = false

instance [Fintype τ] [DecidableEq τ] (db : Db Users String τ AdminTx) (t : τ) : Decidable (RemovesAlone db t) :=
  inferInstanceAs (Decidable (removing db t = true → ∀ u, u ≠ t → (db.session u).any AdminTx.hasLooked = false))

theorem HasAdmin.any {users} (h : HasAdmin users) : users.any (fun item => actingAdmin item.2) = true := by
  obtain ⟨id, user, hget, hadmin⟩ := h
  exact List.any_eq_true.mpr ⟨_, Dict.mem_of_get? hget, hadmin⟩

theorem countsOn_commit (hinv : (adminDiscipline env).Inv db) (hsession : db.session t = some tx)
    (hnext : adminNext env tx = .commit f) (halone : RemovesAlone db t) {u} {other : AdminTx} (hu : u ≠ t)
    (hother : db.session u = some other) (h : other.CountsOn db.committed) : other.CountsOn (f db.committed) := by
  cases tx with
  | writing id target write others =>
    cases hnext
    obtain ⟨_, _, hknows⟩ := hinv t _ hsession id rfl
    refine countsOn_modify (hknows rfl).1 (fun htakes => ?_) h
    have hlooked := halone (by rw [removing, hsession]; exact htakes) u hu
    simpa [hother] using hlooked
  | inserting id user =>
    cases hnext
    exact countsOn_insertUser h id user
  | _ => cases hnext

theorem hasAdmin_commit (hinv : (adminDiscipline env).Inv db) (hsession : db.session t = some tx)
    (hnext : adminNext env tx = .commit f) (hcounts : tx.CountsOn db.committed) (h : HasAdmin db.committed) :
    HasAdmin (f db.committed) := by
  obtain ⟨k, admin, hget, hadmin⟩ := h
  cases tx with
  | writing id target write others =>
    cases hnext
    cases others with
    | some others =>
      obtain ⟨k, user, hne, hget, hacting⟩ := hcounts
      exact hasAdmin_modify_of_other hne hget hacting
    | none =>
      -- the target is still as it was read under its lock
      obtain ⟨_, _, hknows⟩ := hinv t _ hsession id rfl
      obtain ⟨hrow, hunguarded⟩ := hknows rfl
      refine ⟨k, exists_modify hrow (fun htarget => ?_) hget hadmin⟩
      rcases hunguarded rfl with hkeeps | hnot
      · exact actingAdmin_apply hkeeps htarget
      · rw [hnot] at htarget
        cases htarget
  | inserting id user =>
    cases hnext
    exact ⟨k, admin, get?_insertUser hget, hadmin⟩
  | _ => cases hnext

structure AdminOk (env : UserAdminEnv) (db : Db Users String τ AdminTx) : Prop where
  locked : (adminDiscipline env).Inv db
  keys : db.committed.keys.Nodup
  counts : ∀ t tx, db.session t = some tx → db.committed.keys.Nodup → tx.CountsOn db.committed
  admin : HasAdmin db.committed

theorem AdminOk.step [DecidableEq τ] (h : AdminOk env db) {move db'}
    (halone : ∀ t, move = .advance t → RemovesAlone db t)
    (hstep : db.step (fun (users : Users) (id : String) => users.get? id) AdminRequest.enter (adminNext env) move =
      .ok db') : AdminOk env db' where
  locked := (adminDiscipline env).inv_step h.locked hstep
  keys := by
    rcases committed_step hstep with hsame | ⟨t, tx, f, rfl, hsession, hnext, hf⟩
    · exact hsame ▸ h.keys
    · rw [hf]
      cases tx with
      | writing id target write others => cases hnext; exact nodup_keys_modify h.keys id write
      | inserting id user => cases hnext; exact nodup_keys_insertUser h.keys id user
      | _ => cases hnext
  counts := by
    refine known_step (K := fun tx users => users.keys.Nodup → tx.CountsOn users) h.counts ?_ ?_ ?_ hstep
    · intro request users _
      cases request <;> trivial
    · exact fun hanswers htx hkeys => countsOn_answers hkeys hanswers (htx hkeys)
    · intro t tx f hmove hsession hnext u other hu hother hcounts _
      exact countsOn_commit h.locked hsession hnext (halone t hmove) hu hother (hcounts h.keys)
  admin := by
    rcases committed_step hstep with hsame | ⟨t, tx, f, rfl, hsession, hnext, hf⟩
    · exact hsame ▸ h.admin
    · rw [hf]
      exact hasAdmin_commit h.locked hsession hnext (h.counts t tx hsession h.keys) h.admin

/-! ## What a directory request commits -/

abbrev LdapDb (τ : Type) := Db (Option LdapConfig) Unit τ LdapTx

abbrev LdapTaken (τ : Type) := Taken (LdapDb τ) (Move τ LdapRequest) (LdapDb τ)

def storedVersion : Option LdapConfig → Int
  | none => 0
  | some row => row.version

def LdapTaken.accepted (e : LdapTaken τ) : Option LdapWrite :=
  match e.input with
  | .start _ _ => none
  | .advance t =>
    match e.before.session t with
    | some (.inserted write) => if e.before.committed.isSome then none else some write
    | some (.updated write _) => if e.before.committed.isSome then some write else none
    | _ => none

def LdapTaken.ReadsCurrent (e : LdapTaken τ) : Prop :=
  ∀ t write loaded, e.input = .advance t → e.before.session t = some (.updated write loaded) →
    e.before.committed = some loaded

@[simp] theorem LdapConfig.flush_loaded (loaded current : LdapConfig) : loaded.flush current loaded = current := by
  simp [LdapConfig.flush]

def LdapTx.Compared : LdapTx → Prop
  | .inserting write | .inserted write => write.version = 0
  | .updating write loaded | .updated write loaded => loaded.version = write.version
  | _ => True

theorem enter_compared (validateDirectory : ValidateDirectory) (request : LdapRequest) :
    (enterLdap validateDirectory request).Compared := by
  rw [enterLdap]
  split <;> trivial

theorem compared_compareVersion (write : LdapWrite) (stored : Option LdapConfig) :
    (compareVersion write stored).Compared := by
  cases stored with
  | none =>
    rw [compareVersion]
    split_ifs with hversion
    · trivial
    · exact not_not.mp hversion
  | some row =>
    rw [compareVersion]
    split_ifs with hversion
    · trivial
    · exact not_not.mp hversion

theorem compared_answers {tx tx' stored} (h : (ldapNext tx).Answers stored tx') (htx : tx.Compared) : tx'.Compared := by
  cases tx with
  | validated write =>
    rcases h with ⟨f, hf, rfl⟩ | ⟨key, f, hf, rfl⟩ <;> cases hf
    exact compared_compareVersion write stored
  | inserting write =>
    rcases h with ⟨f, hf, rfl⟩ | ⟨key, f, hf, rfl⟩ <;> cases hf
    dsimp only
    split_ifs
    · trivial
    · exact htx
  | updating write loaded =>
    rcases h with ⟨f, hf, rfl⟩ | ⟨key, f, hf, rfl⟩ <;> cases hf
    exact htx
  | _ => rcases h with ⟨f, hf, rfl⟩ | ⟨key, f, hf, rfl⟩ <;> cases hf

variable [DecidableEq τ] {validateDirectory : ValidateDirectory} {db db' : LdapDb τ} {move : Move τ LdapRequest}

abbrev ldapStep (validateDirectory : ValidateDirectory) (db : LdapDb τ) (move : Move τ LdapRequest) :
    Except Refused (LdapDb τ) :=
  db.step (fun stored _ => stored) (enterLdap validateDirectory) ldapNext move

theorem compared_step (h : ∀ t tx, db.session t = some tx → tx.Compared)
    (hstep : ldapStep validateDirectory db move = .ok db') : ∀ t tx, db'.session t = some tx → tx.Compared :=
  known_step (K := fun tx _ => tx.Compared) h (fun request _ => enter_compared validateDirectory request) compared_answers
    (fun _ _ _ _ _ _ _ htx => htx) hstep

theorem accepted_step (h : ∀ t tx, db.session t = some tx → tx.Compared)
    (hstep : ldapStep validateDirectory db move = .ok db') (hcurrent : LdapTaken.ReadsCurrent ⟨db, move, db'⟩) :
    (LdapTaken.accepted ⟨db, move, db'⟩ = none ∧ db'.committed = db.committed) ∨
      ∃ write, LdapTaken.accepted ⟨db, move, db'⟩ = some write ∧ storedVersion db.committed = write.version ∧
        ∃ row, db'.committed = some row ∧ row.toDirectorySpec = write.spec ∧ row.version = write.version + 1 := by
  cases move with
  | start t request => exact Or.inl ⟨rfl, by rw [step_start hstep]⟩
  | advance t =>
    obtain ⟨tx, hopen, hperform⟩ := step_advance hstep
    have hcompared := h t tx hopen
    cases tx with
    | inserted write =>
      cases hperform
      cases hstored : db.committed with
      | none =>
        refine Or.inr ⟨write, by simp [LdapTaken.accepted, hopen, hstored], hcompared.symm, write.create, ?_, rfl, ?_⟩
        · simp [LdapTx.settle]
        · rw [show write.version = 0 from hcompared]
          rfl
      | some row =>
        exact Or.inl ⟨by simp [LdapTaken.accepted, hopen, hstored], by simp [LdapTx.settle]⟩
    | updated write loaded =>
      cases hperform
      have hstored : db.committed = some loaded := hcurrent t write loaded rfl hopen
      refine Or.inr ⟨write, by simp [LdapTaken.accepted, hopen, hstored], ?_, write.edit loaded, ?_, rfl, ?_⟩
      · rw [hstored]
        exact hcompared
      · simp [LdapTx.settle, hstored]
      · rw [show write.version = loaded.version from hcompared.symm]
        rfl
    | _ =>
      refine Or.inl ⟨by simp [LdapTaken.accepted, hopen], ?_⟩
      rcases perform_committed hperform with hsame | ⟨f, hnext, _⟩
      · exact hsame
      · cases hnext

end QRadarDashboard.Identity
