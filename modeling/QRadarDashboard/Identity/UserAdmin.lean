import QRadarDashboard.Lib.ReadCommitted
import QRadarDashboard.Lib.UnitOfWork

/-!
# Account administration (`app/services/user_admin.py`)

A request locks the row of its target; the guard of the last administrator reads the other rows without a lock.
-/

namespace QRadarDashboard.Identity
open Lib Lib.ReadCommitted

/-! ## Users and roles (`app/models/identity.py`) -/

structure Role where
  name : String
  permissions : List String

structure Account where
  username : Option String
  authSource : String
  hashedPassword : Option String := none
  email : Option String := none
  displayName : Option String := none
  isActive : Bool := true
  mustChangePassword : Bool := false
  failedLoginCount : Int := 0
  lockedUntil : Option Int := none
  disabledAt : Option Int := none
  lastLoginAt : Option Int := none
deriving DecidableEq

structure User extends Account where
  roles : List Role := []

/-- A flush of the account loaded as `loaded` and changed to `current`. -/
def Account.flush (loaded current stored : Account) : Account where
  username := written loaded.username current.username stored.username
  authSource := written loaded.authSource current.authSource stored.authSource
  hashedPassword := written loaded.hashedPassword current.hashedPassword stored.hashedPassword
  email := written loaded.email current.email stored.email
  displayName := written loaded.displayName current.displayName stored.displayName
  isActive := written loaded.isActive current.isActive stored.isActive
  mustChangePassword := written loaded.mustChangePassword current.mustChangePassword stored.mustChangePassword
  failedLoginCount := written loaded.failedLoginCount current.failedLoginCount stored.failedLoginCount
  lockedUntil := written loaded.lockedUntil current.lockedUntil stored.lockedUntil
  disabledAt := written loaded.disabledAt current.disabledAt stored.disabledAt
  lastLoginAt := written loaded.lastLoginAt current.lastLoginAt stored.lastLoginAt

abbrev Users := Dict String User

/-- `bool(text)` -/
def filled : Option String → Bool
  | none => false
  | some text => text ≠ ""

def permAdmin : String := "admin:*"

/-! ## The rules of a write -/

inductive Detail where
  | text (s : String)
  | list (items : List String)

structure HttpError where
  status : Nat
  detail : Detail

def lastAdmin : HttpError :=
  ⟨409, .text "the last active user holding admin:* cannot be disabled or lose that role"⟩

def usernameShape : String := "username must be 1 to 255 characters without spaces or control characters"

def holdsAdmin (roles : List Role) : Bool := roles.any (fun role => role.permissions.contains permAdmin)

def actionable (user : Account) : Bool :=
  if user.disabledAt.isSome || !user.isActive then false
  else if !filled user.username then false
  else !(user.authSource = "LOCAL" && !filled user.hashedPassword)

def actingAdmin (user : User) : Bool := actionable user.toAccount && holdsAdmin user.roles

abbrev PasswordHash := {hash : String // hash ≠ ""}

/-- What the requests read besides the users: the role table, which does not change, and the checks on names,
addresses and passwords. -/
structure UserAdminEnv where
  catalog : List Role
  normalizeUsername : String → Option String
  email : Option String → Except HttpError (Option String)
  display : Option String → Option String
  passwordPolicyReasons : String → String → List String
  hashPassword : String → PasswordHash

variable (env : UserAdminEnv)

def rolesNamed (names : List String) : Except HttpError (List Role) :=
  let ordered := names.eraseDups
  let missing := ordered.filter (fun name => (env.catalog.find? (fun role => role.name = name)).isNone)
  if missing.isEmpty then .ok (ordered.filterMap (fun name => env.catalog.find? (fun role => role.name = name)))
  else .error ⟨422, .list (missing.map (fun name => s!"unknown role: {name}"))⟩

/-! ## Requests -/

structure CreateArgs where
  username : String
  authSource : String
  password : Option String
  email : Option String
  displayName : Option String
  roleNames : List String

/-- The user `create_user` adds, unless the request is refused first. -/
def newUser (args : CreateArgs) : Except HttpError User := do
  let name ← match env.normalizeUsername args.username with
    | none => throw ⟨422, .text usernameShape⟩
    | some name => pure name
  let address ← env.email args.email
  let roles ← rolesNamed env args.roleNames
  let user : User := {
    username := some name
    authSource := args.authSource
    email := address
    displayName := env.display args.displayName
    roles := roles }
  if args.authSource = "LDAP" then
    if filled args.password then throw ⟨422, .text "An LDAP user has no password here."⟩
    else return user
  else if args.authSource = "LOCAL" then
    match args.password with
    | none => throw ⟨422, .text "A local user needs an initial password."⟩
    | some password =>
      if password = "" then throw ⟨422, .text "A local user needs an initial password."⟩
      else
        let reasons := env.passwordPolicyReasons password name
        if reasons.isEmpty then
          return { user with
            hashedPassword := some (env.hashPassword password).1
            mustChangePassword := true }
        else throw ⟨422, .list reasons⟩
  else throw ⟨422, .text "auth_source must be LOCAL or LDAP"⟩

inductive TargetOp where
  | setRoles (names : List String)
  | setDisabled (disabled : Bool) (now : Int)
  | unlock
  | resetPassword (password : String)

inductive UserWrite where
  | roles (roles : List Role)
  | disable (now : Int)
  | enable
  | unlock
  | password (hash : PasswordHash)

def UserWrite.apply (user : User) : UserWrite → User
  | .roles named => { user with roles := named }
  | .disable now => { user with disabledAt := some now, isActive := false }
  | .enable => { user with disabledAt := none, isActive := true }
  | .unlock => { user with lockedUntil := none, failedLoginCount := 0 }
  | .password hash => { user with
      hashedPassword := some hash.1
      mustChangePassword := true
      failedLoginCount := 0
      lockedUntil := none }

inductive AdminTx where
  | requested (id : String) (op : TargetOp)
  /-- The row of the target is locked; its roles are not loaded yet. -/
  | locked (id : String) (op : TargetOp) (account : Account)
  /-- The guard is about to list the users. -/
  | guarded (id : String) (target : User) (write : UserWrite)
  /-- The guard listed the users; their roles are not loaded yet. -/
  | listed (id : String) (target : User) (write : UserWrite) (accounts : List (String × Account))
  /-- The write is flushed. `others` are the users the guard saw, if it had to look. -/
  | writing (id : String) (target : User) (write : UserWrite) (others : Option (List (String × User)))
  | creating (id : String) (args : CreateArgs)
  | naming (id : String) (user : User)
  | mailing (id : String) (user : User)
  | inserting (id : String) (user : User)
  | refused (e : HttpError)

/-- The first half of `_keep_last_admin`: only an acting administrator who would stop being one needs a check. -/
def keepLastAdmin (id : String) (target : User) (write : UserWrite) (targetKeepsAdmin : Bool) : AdminTx :=
  if !actionable target.toAccount || !holdsAdmin target.roles || targetKeepsAdmin then .writing id target write none
  else .guarded id target write

def settleTarget (id : String) (target : User) : TargetOp → AdminTx
  | .setRoles names =>
    match rolesNamed env names with
    | .error e => .refused e
    | .ok roles => keepLastAdmin id target (.roles roles) (holdsAdmin roles)
  | .setDisabled true now => keepLastAdmin id target (.disable now) false
  | .setDisabled false _ => .writing id target .enable none
  | .unlock => .writing id target .unlock none
  | .resetPassword password =>
    match target.username with
    | none => .refused ⟨422, .text "Only a local account can have its password reset here."⟩
    | some username =>
      if target.authSource ≠ "LOCAL" ∨ username = "" then
        .refused ⟨422, .text "Only a local account can have its password reset here."⟩
      else
        let reasons := env.passwordPolicyReasons password username
        if reasons.isEmpty then .writing id target (.password (env.hashPassword password)) none
        else .refused ⟨422, .list reasons⟩

def remaining (id : String) (others : List (String × User)) : List (String × User) :=
  others.filter (fun item => item.1 ≠ id && actingAdmin item.2)

/-! ## Statements -/

def rolesOf (users : Users) (id : String) : List Role :=
  match users.get? id with
  | none => []
  | some user => user.roles

def modify (users : Users) (id : String) (write : UserWrite) : Users :=
  match users.get? id with
  | none => users
  | some user => users.set id (write.apply user)

def usernameTaken (users : Users) (user : User) : Bool := users.any (fun item => item.2.username = user.username)

def emailTaken (users : Users) (user : User) : Bool :=
  user.email.isSome && users.any (fun item => item.2.email = user.email)

def insertUser (users : Users) (id : String) (user : User) : Users :=
  if id ∈ users.keys ∨ usernameTaken users user ∨ emailTaken users user then users else users.set id user

/-- The statements of `set_roles`, `set_disabled`, `unlock_user`, `reset_password` and `create_user`. -/
def adminNext : AdminTx → Statement Users String AdminTx
  | .requested id op => .lock id (fun users =>
    match users.get? id with
    | none => .refused ⟨404, .text "No user has that id."⟩
    | some user => .locked id op user.toAccount)
  | .locked id op account => .read (fun users => settleTarget env id { account with roles := rolesOf users id } op)
  | .guarded id target write => .read (fun users =>
    .listed id target write (users.map (fun item => (item.1, item.2.toAccount))))
  | .listed id target write accounts => .read (fun users =>
    let others := accounts.map (fun item => (item.1, { item.2 with roles := rolesOf users item.1 : User }))
    if (remaining id others).isEmpty then .refused lastAdmin else .writing id target write (some others))
  | .writing id _ write _ => .commit (fun users => modify users id write)
  | .creating id args => .read (fun _ =>
    match newUser env args with
    | .error e => .refused e
    | .ok user => .naming id user)
  | .naming id user => .read (fun users =>
    if usernameTaken users user then .refused ⟨409, .text "A user with that username already exists."⟩
    else .mailing id user)
  | .mailing id user => .read (fun users =>
    if emailTaken users user then .refused ⟨409, .text "A user with that email already exists."⟩
    else .inserting id user)
  | .inserting id user => .commit (fun users => insertUser users id user)
  | .refused _ => .rollback

inductive AdminRequest where
  | target (id : String) (op : TargetOp)
  /-- `id` is the key the new row gets. -/
  | create (id : String) (args : CreateArgs)

def AdminRequest.enter : AdminRequest → AdminTx
  | .target id op => .requested id op
  | .create id args => .creating id args

/-!
## The directory configuration (`write_ldap_config`)

One row. A request reads it without a lock, compares its version, and writes the columns that differ from what it has
read.
-/

structure DirectorySpec where
  enabled : Bool
  urls : List String
  startTls : Bool
  caPem : Option String
  bindTemplate : String
  timeoutSeconds : Int
  userSearchBase : Option String
deriving DecidableEq

structure LdapConfig extends DirectorySpec where
  version : Int
  updatedBy : Option String
  updatedAt : Int
deriving DecidableEq

/-- A flush of the row loaded as `loaded` and changed to `current`. -/
def LdapConfig.flush (loaded current stored : LdapConfig) : LdapConfig where
  enabled := written loaded.enabled current.enabled stored.enabled
  urls := written loaded.urls current.urls stored.urls
  startTls := written loaded.startTls current.startTls stored.startTls
  caPem := written loaded.caPem current.caPem stored.caPem
  bindTemplate := written loaded.bindTemplate current.bindTemplate stored.bindTemplate
  timeoutSeconds := written loaded.timeoutSeconds current.timeoutSeconds stored.timeoutSeconds
  userSearchBase := written loaded.userSearchBase current.userSearchBase stored.userSearchBase
  version := written loaded.version current.version stored.version
  updatedBy := written loaded.updatedBy current.updatedBy stored.updatedBy
  updatedAt := written loaded.updatedAt current.updatedAt stored.updatedAt

/-- `LdapConfigIn`: a draft, and the version it was made from. -/
structure LdapConfigIn extends DirectorySpec where
  version : Int

/-- A `PUT`, with its caller and its clock. -/
structure LdapRequest where
  body : LdapConfigIn
  username : Option String
  subject : String
  now : Int

/-- `validate_directory`: the normalised draft, or every reason it is refused. -/
abbrev ValidateDirectory := DirectorySpec → Except (List String) DirectorySpec

structure LdapWrite where
  spec : DirectorySpec
  version : Int
  updatedBy : String
  updatedAt : Int

/-- `(principal.username or principal.subject)[:255]` -/
def LdapRequest.updatedBy (request : LdapRequest) : String :=
  let name := match request.username with
    | none => request.subject
    | some username => if username = "" then request.subject else username
  String.ofList (name.toList.take 255)

def LdapWrite.create (write : LdapWrite) : LdapConfig :=
  { write.spec with version := 1, updatedBy := some write.updatedBy, updatedAt := write.updatedAt }

def LdapWrite.edit (write : LdapWrite) (loaded : LdapConfig) : LdapConfig :=
  { write.spec with
    version := loaded.version + 1, updatedBy := some write.updatedBy, updatedAt := write.updatedAt }

inductive LdapRefusal where
  | http (e : HttpError)
  /-- The INSERT of a row that is there. -/
  | integrity

def staleDirectory : HttpError := ⟨409, .text "The directory configuration is stale. Reload it and retry."⟩

inductive LdapTx where
  | validated (write : LdapWrite)
  | inserting (write : LdapWrite)
  | inserted (write : LdapWrite)
  | updating (write : LdapWrite) (loaded : LdapConfig)
  /-- The UPDATE is done; the commit is next. -/
  | updated (write : LdapWrite) (loaded : LdapConfig)
  | refused (e : LdapRefusal)

def enterLdap (validateDirectory : ValidateDirectory) (request : LdapRequest) : LdapTx :=
  match validateDirectory request.body.toDirectorySpec with
  | .error reasons => .refused (.http ⟨422, .list reasons⟩)
  | .ok spec => .validated ⟨spec, request.body.version, request.updatedBy, request.now⟩

/-- The rest of the request, on the row that `get_ldap_row` has read. -/
def compareVersion (write : LdapWrite) : Option LdapConfig → LdapTx
  | none => if write.version ≠ 0 then .refused (.http staleDirectory) else .inserting write
  | some row => if row.version ≠ write.version then .refused (.http staleDirectory) else .updating write row

def LdapTx.settle (stored : Option LdapConfig) : LdapTx → Option LdapConfig
  | .inserted write => if stored.isSome then none else some write.create
  | .updated write loaded => stored.map (loaded.flush (write.edit loaded))
  | _ => none

/-- The statements of `write_ldap_config`. The UPDATE is by primary key. -/
def ldapNext : LdapTx → Statement (Option LdapConfig) Unit LdapTx
  | .validated write => .read (compareVersion write)
  | .inserting write => .read (fun stored => if stored.isSome then .refused .integrity else .inserted write)
  | .updating write loaded => .lock () (fun _ => .updated write loaded)
  | .refused _ => .rollback
  | tx => .commit (fun stored => (tx.settle stored).or stored)

end QRadarDashboard.Identity
