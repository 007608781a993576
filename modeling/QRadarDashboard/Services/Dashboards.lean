import QRadarDashboard.Basic
import QRadarDashboard.Lib.Dict
import QRadarDashboard.Lib.PyText
import QRadarDashboard.Lib.ReadCommitted

/-!
# Saved dashboards (`app/services/dashboards.py`)

An insert waits for the advisory lock of its owner; an update and a delete select their row, wait for it, and select
it again.
-/

namespace QRadarDashboard.Services
open Lib Lib.ReadCommitted

structure Principal where
  subject : String
  permissions : List String := []

def Principal.has (principal : Principal) (permission : String) : Bool :=
  principal.permissions.contains permission ||
    principal.permissions.contains (String.ofList (permission.toList.takeWhile (fun c => c ≠ ':')) ++ ":*") ||
    principal.permissions.contains "admin:*"

def permAdmin : String := "admin:*"

def permDashboardShare : String := "admin:dashboards"

inductive DashboardVisibility where
  | PRIVATE | SHARED
deriving DecidableEq

def maxDashboardsPerOwner : Nat := 20

def maxNameLength : Nat := 80

structure Layout (β : Type) where
  v : Int
  body : β

def supportedLayoutVersions : List Int := [1]

abbrev DashboardLayout (β : Type) := {layout : Layout β // layout.v ∈ supportedLayoutVersions}

variable {β : Type}

def upgradeLayout (layout : Layout β) : Except Exc (Layout β) :=
  if layout.v ∈ supportedLayoutVersions then .ok layout
  else .error (.value s!"layout version {layout.v} is not supported by this server")

structure Dashboard (β : Type) where
  ownerSubject : String
  name : String
  description : Option String
  visibility : DashboardVisibility
  templateKey : Option String
  templateVersion : Option Int
  schemaVersion : Int
  layout : Layout β
  revision : Nat
  updatedBy : Option String

structure DashboardCreate (β : Type) where
  name : String
  description : Option String := none
  layout : DashboardLayout β
  templateKey : Option String := none
  templateVersion : Option Int := none

structure DashboardReplace (β : Type) where
  name : String
  description : Option String := none
  layout : DashboardLayout β
  expectedRevision : Nat

structure DashboardPatch where
  name : Option String := none
  description : Option (Option String) := none
  visibility : Option DashboardVisibility := none

inductive DashboardDetail where
  | text (s : String)
  | changed (message : String) (currentRevision : Nat)

structure DashboardError where
  statusCode : Nat
  detail : DashboardDetail

def notFound : DashboardError := ⟨404, .text "dashboard not found"⟩

def nameTaken (name : String) : DashboardError := ⟨409, .text s!"you already have a dashboard named '{name}'"⟩

inductive DashboardRefusal where
  | dashboard (e : DashboardError)
  | raised (e : Exc)

/-! ## The table -/

/-- The rows, within the primary key and `uq_dashboard_owner_subject_name`. The keys that `uuid4` draws are numbered. -/
structure DashboardTable (β : Type) where
  rows : Dict Nat (Dashboard β)
  nextId : Nat
  keys : rows.keys.Nodup
  fresh : ∀ item ∈ rows, item.1 < nextId
  names : ∀ x ∈ rows, ∀ y ∈ rows, x.2.ownerSubject = y.2.ownerSubject → x.2.name = y.2.name → x = y

namespace DashboardTable

variable (t : DashboardTable β)

def get? (id : Nat) : Option (Dashboard β) := t.rows.get? id

def ownedNames (subject : String) : List String :=
  (t.rows.filter (fun item => item.2.ownerSubject = subject)).map (fun item => item.2.name)

def nameConflict (id : Nat) (row : Dashboard β) : Bool :=
  t.rows.any (fun item => item.1 ≠ id && (item.2.ownerSubject = row.ownerSubject && item.2.name = row.name))

variable {t}

-- the fields of `insert` and `change` are built with these
theorem names_of_not_conflict {id row} (h : ¬ t.nameConflict id row) :
    ∀ x ∈ t.rows, x.1 ≠ id → x.2.ownerSubject = row.ownerSubject → x.2.name ≠ row.name := by
  intro x hx hid howner hname
  exact h (List.any_eq_true.mpr ⟨x, hx, by simp [hid, howner, hname]⟩)

theorem mem_set_names {id row} (h : ¬ t.nameConflict id row) :
    ∀ x ∈ t.rows.set id row, ∀ y ∈ t.rows.set id row,
      x.2.ownerSubject = y.2.ownerSubject → x.2.name = y.2.name → x = y := by
  have hnodup : (t.rows.set id row).keys.Nodup := Dict.nodup_keys_set t.keys id row
  have hold : ∀ x ∈ t.rows.set id row, x.1 ≠ id → x ∈ t.rows := by
    intro x hx hid
    rcases Dict.mem_set hx with hx | rfl
    · exact hx
    · exact absurd rfl hid
  have hnew : ∀ x ∈ t.rows.set id row, x.1 = id → x.2 = row := by
    intro x hx hid
    have hget := (Dict.get?_eq_some_iff hnodup).mpr (show (id, x.2) ∈ t.rows.set id row from hid ▸ hx)
    rw [Dict.get?_set, if_pos rfl] at hget
    exact (Option.some.inj hget).symm
  intro x hx y hy howner hname
  by_cases hxid : x.1 = id <;> by_cases hyid : y.1 = id
  · exact Prod.ext (hxid.trans hyid.symm) ((hnew x hx hxid).trans (hnew y hy hyid).symm)
  · rw [hnew x hx hxid] at howner hname
    exact absurd hname.symm (names_of_not_conflict h y (hold y hy hyid) hyid howner.symm)
  · rw [hnew y hy hyid] at howner hname
    exact absurd hname (names_of_not_conflict h x (hold x hx hxid) hxid howner)
  · exact t.names x (hold x hx hxid) y (hold y hy hyid) howner hname

theorem mem_set_fresh {id row n} (hid : id < n) (hn : t.nextId ≤ n) : ∀ item ∈ t.rows.set id row, item.1 < n := by
  intro item hitem
  rcases Dict.mem_set hitem with hitem | rfl
  · have hlt := t.fresh item hitem
    omega
  · exact hid

variable (t)

def insert (row : Dashboard β) : Option (DashboardTable β) :=
  if h : t.nameConflict t.nextId row then none
  else some {
    rows := t.rows.set t.nextId row
    nextId := t.nextId + 1
    keys := Dict.nodup_keys_set t.keys _ _
    fresh := mem_set_fresh (by omega) (by omega)
    names := mem_set_names h }

def change (id : Nat) (row : Dashboard β) : Option (DashboardTable β) :=
  if h : id < t.nextId ∧ ¬ t.nameConflict id row then
    some {
      rows := t.rows.set id row
      nextId := t.nextId
      keys := Dict.nodup_keys_set t.keys _ _
      fresh := mem_set_fresh h.1 le_rfl
      names := mem_set_names h.2 }
  else none

def delete (id : Nat) : DashboardTable β where
  rows := t.rows.pop id
  nextId := t.nextId
  keys := Dict.nodup_keys_filter t.keys _
  fresh := fun item hitem => t.fresh item (List.mem_of_mem_filter hitem)
  names := fun x hx y hy => t.names x (List.mem_of_mem_filter hx) y (List.mem_of_mem_filter hy)

end DashboardTable

/-! ## Requests -/

/-- What the requests read besides the table: the Unicode tables of `rstrip`, and the hash of an owner's lock. -/
structure DashboardEnv where
  tables : UnicodeTables
  hashtext : String → Int

inductive DashboardOp (β : Type) where
  | create (body : DashboardCreate β)
  | duplicate (id : Nat)
  | replace (id : Nat) (body : DashboardReplace β)
  | patch (id : Nat) (body : DashboardPatch)
  | delete (id : Nat)

def visibleRow (t : DashboardTable β) (id : Nat) (subject : String) : Except DashboardError (Dashboard β) :=
  match t.get? id with
  | none => .error notFound
  | some row => if row.ownerSubject = subject ∨ row.visibility = .SHARED then .ok row else .error notFound

def requireOwnerOrAdmin (row : Dashboard β) (principal : Principal) : Except DashboardError Unit :=
  if row.ownerSubject ≠ principal.subject ∧ principal.has permAdmin = false then
    .error ⟨403, .text "only the owner or an administrator can change this dashboard"⟩
  else .ok ()

def changeableRow (t : DashboardTable β) (id : Nat) (principal : Principal) : Except DashboardError (Dashboard β) := do
  let row ← visibleRow t id principal.subject
  requireOwnerOrAdmin row principal
  return row

/-- `values` of `patch_dashboard`: the fields that differ from the row it has read. -/
def patchValues (principal : Principal) (row : Dashboard β) (body : DashboardPatch) :
    Except DashboardError DashboardPatch :=
  let values : DashboardPatch := {
    name := body.name.filter (fun name => name ≠ row.name)
    description := body.description.filter (fun description => description ≠ row.description)
    visibility := body.visibility.filter (fun visibility => visibility ≠ row.visibility) }
  if values.visibility.isSome && !principal.has permDashboardShare then
    .error ⟨403, .text s!"changing visibility needs the {permDashboardShare} permission"⟩
  else .ok values

inductive Change (β : Type) where
  | replace (body : DashboardReplace β)
  | patch (values : DashboardPatch)

def Change.selects (row : Dashboard β) : Change β → Bool
  | .replace body => row.revision = body.expectedRevision
  | .patch _ => true

def Change.apply (principal : Principal) (row : Dashboard β) : Change β → Dashboard β
  | .replace body => { row with
      name := body.name
      description := body.description
      schemaVersion := body.layout.1.v
      layout := body.layout.1
      revision := row.revision + 1
      updatedBy := some principal.subject }
  | .patch values => { row with
      name := values.name.getD row.name
      description := values.description.getD row.description
      visibility := values.visibility.getD row.visibility
      revision := row.revision + 1
      updatedBy := some principal.subject }

/-- The candidates of `copy_name`: the whole name fits in 80 characters. -/
def copyCandidate (u : UnicodeTables) (sourceName : String) (number : Nat) : String :=
  let tail := if number = 1 then "" else s!" ({number})"
  String.ofList (u.rstrip (("Copy of " ++ sourceName).toList.take (maxNameLength - tail.length))) ++ tail

/-- `copy_name`. As many names as are taken, and two more, are tried: one of them is free. -/
def copyName (u : UnicodeTables) (sourceName : String) (taken : List String) : String :=
  let candidates := (List.range (taken.length + 2)).map (fun n => copyCandidate u sourceName (n + 1))
  match candidates.find? (fun name => name ∉ taken) with
  | none => ""
  | some name => name

/-- The loop of `copy_name`, for `fuel` turns from `number` on. -/
def copyNameFrom (u : UnicodeTables) (sourceName : String) (taken : List String) : Nat → Nat → Option String
  | 0, _ => none
  | fuel + 1, number =>
    let candidate := copyCandidate u sourceName number
    if candidate ∉ taken then some candidate else copyNameFrom u sourceName taken fuel (number + 1)

inductive Seed (β : Type) where
  | create (body : DashboardCreate β)
  | duplicate (source : Dashboard β)

/-- The new row of `create_dashboard` or `duplicate_dashboard`, under a name that none of `names` is. -/
def Seed.row (env : DashboardEnv) (principal : Principal) (names : List String) :
    Seed β → Except DashboardRefusal (Dashboard β)
  | .create body =>
    if body.name ∈ names then .error (.dashboard (nameTaken body.name))
    else .ok {
      ownerSubject := principal.subject
      name := body.name
      description := body.description
      visibility := .PRIVATE
      templateKey := body.templateKey
      templateVersion := body.templateVersion
      schemaVersion := body.layout.1.v
      layout := body.layout.1
      revision := 1
      updatedBy := some principal.subject }
  | .duplicate source =>
    match upgradeLayout source.layout with
    | .error e => .error (.raised e)
    | .ok layout => .ok {
        ownerSubject := principal.subject
        name := copyName env.tables source.name names
        description := source.description
        visibility := .PRIVATE
        templateKey := source.templateKey
        templateVersion := source.templateVersion
        schemaVersion := source.schemaVersion
        layout := layout
        revision := 1
        updatedBy := some principal.subject }

def guardOwnerLimit (env : DashboardEnv) (principal : Principal) (seed : Seed β) (names : List String) :
    Except DashboardRefusal (Dashboard β) :=
  if maxDashboardsPerOwner ≤ names.dedup.length then
    .error (.dashboard ⟨409, .text s!"the limit is {maxDashboardsPerOwner} dashboards per owner"⟩)
  else seed.row env principal names.dedup

/-! ## Transactions -/

inductive DashboardTx (β : Type) where
  | requested (principal : Principal) (op : DashboardOp β)
  /-- The advisory lock of the owner is next. -/
  | limiting (principal : Principal) (seed : Seed β)
  /-- The lock is held; the names are next. -/
  | limited (principal : Principal) (seed : Seed β)
  | inserting (row : Dashboard β)
  /-- The INSERT is done; the commit is next. -/
  | inserted (row : Dashboard β)
  | updating (principal : Principal) (id : Nat) (change : Change β)
  /-- The UPDATE has found its row, and waits for it. -/
  | waiting (principal : Principal) (id : Nat) (change : Change β)
  | updated (principal : Principal) (id : Nat) (change : Change β) (row : Dashboard β)
  /-- The UPDATE found no row. -/
  | missed (id : Nat) (change : Change β)
  | deleting (principal : Principal) (id : Nat)
  | deletingRow (principal : Principal) (id : Nat)
  | deleted (principal : Principal) (id : Nat)
  /-- There was no row to delete. -/
  | gone
  | refused (e : DashboardRefusal)

inductive DashboardKey where
  | row (id : Nat)
  | owner (hash : Int)
deriving DecidableEq

def DashboardTable.row (t : DashboardTable β) : DashboardKey → Option (Option (Dashboard β))
  | .row id => (t.get? id).map some
  | .owner _ => some none

/-- What the commit of an accepted request leaves; `none` where the unique constraint refuses it. -/
def DashboardTx.settle (t : DashboardTable β) : DashboardTx β → Option (DashboardTable β)
  | .inserted row => t.insert row
  | .updated principal id change row => t.change id (change.apply principal row)
  | .deleted _ id => some (t.delete id)
  | .gone => some t
  | _ => none

variable (env : DashboardEnv)

def orRefused {α : Type} (next : α → DashboardTx β) : Except DashboardRefusal α → DashboardTx β
  | .error e => .refused e
  | .ok a => next a

/-- The statements of a request. An update with a layout of an unknown version raises after it, and a write that would
break the unique constraint is refused. -/
def dashboardNext : DashboardTx β → Statement (DashboardTable β) DashboardKey (DashboardTx β)
  | .requested principal (.create body) =>
    .lock (.owner (env.hashtext principal.subject)) (fun _ => .limited principal (.create body))
  | .requested principal (.duplicate id) => .read (fun t =>
    orRefused (fun source => .limiting principal (.duplicate source))
      ((visibleRow t id principal.subject).mapError .dashboard))
  | .requested principal (.replace id body) => .read (fun t =>
    orRefused (fun _ => .updating principal id (.replace body)) ((changeableRow t id principal).mapError .dashboard))
  | .requested principal (.patch id body) => .read (fun t =>
    orRefused (fun values => .updating principal id (.patch values))
      (((changeableRow t id principal).bind (fun row => patchValues principal row body)).mapError .dashboard))
  | .requested principal (.delete id) => .read (fun t =>
    orRefused (fun _ => .deleting principal id) ((changeableRow t id principal).mapError .dashboard))
  | .limiting principal seed => .lock (.owner (env.hashtext principal.subject)) (fun _ => .limited principal seed)
  | .limited principal seed => .read (fun t =>
    orRefused .inserting (guardOwnerLimit env principal seed (t.ownedNames principal.subject)))
  | .inserting row => .read (fun t =>
    if t.nameConflict t.nextId row then .refused (.dashboard (nameTaken row.name)) else .inserted row)
  | .updating principal id change => .read (fun t =>
    match (t.get? id).filter change.selects with
    | none => .missed id change
    | some _ => .waiting principal id change)
  | .waiting principal id change => .lock (.row id) (fun t =>
    match (t.get? id).filter change.selects with
    | none => .missed id change
    | some row =>
      if t.nameConflict id (change.apply principal row) then
        .refused (.dashboard (nameTaken (change.apply principal row).name))
      else
        orRefused (fun _ => .updated principal id change row)
          ((upgradeLayout (change.apply principal row).layout).mapError .raised))
  | .missed id change => .read (fun t =>
    match change, t.get? id with
    | .replace _, some row =>
      .refused (.dashboard ⟨409, .changed "this dashboard changed since you opened it" row.revision⟩)
    | _, _ => .refused (.dashboard notFound))
  | .deleting principal id => .read (fun t =>
    match t.get? id with
    | none => .gone
    | some _ => .deletingRow principal id)
  | .deletingRow principal id => .lock (.row id) (fun t =>
    match t.get? id with
    | none => .gone
    | some _ => .deleted principal id)
  | .refused _ => .rollback
  | tx => .commit (fun t => (tx.settle t).getD t)

end QRadarDashboard.Services
