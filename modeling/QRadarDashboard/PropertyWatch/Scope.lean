import QRadarDashboard.Lib.Walk
import QRadarDashboard.PropertyWatch.Query
import Mathlib.Data.List.MinMax

/-!
# The scope of a property watch (`app/property_watch/scope.py`)

A tick flags the buckets that come shortly after a change of the resolved ids.
-/

namespace QRadarDashboard.PropertyWatch
open Lib Detectors

/-- A row of `log_source_group`, its time in microseconds. -/
structure GroupRow where
  qradarId : Int
  parentQradarId : Option Int
  syncedAt : Int

structure SourceRow where
  id : String
  qradarId : Int
  typeId : Option Int
  groupIds : List Int := []
  maintenanceMode : Bool := false
  maintenanceUntil : Option Int := none

structure ResolvedScope where
  scopeKind : PwScopeKind
  status : Option PwWatchStatus := none
  reason : Option String := none
  chunks : List (List Int) := []
  memberCount : Option Nat := none
  fingerprint : Option String := none
  groupsWalked : List Int := []
  source : Option SourceRow := none
  members : List SourceRow := []

def fingerprintInput (qradarIds : List Int) : String :=
  ",".intercalate ((sortOn (fun i => i) qradarIds.dedup).map Int.repr)

def scopeFingerprint (sha256 : String → String) (qradarIds : List Int) : String := sha256 (fingerprintInput qradarIds)

/-! ## The groups -/

/-- `sorted(children.get(current, ()))` -/
def childrenOf (groups : Dict Int GroupRow) (current : Int) : List Int :=
  sortOn (fun i => i)
    ((groups.filter (fun item => item.2.parentQradarId = some current)).map (fun item => item.2.qradarId))

def childLinks (groups : Dict Int GroupRow) : Links Int where
  next := childrenOf groups
  nodes := (groups.map (fun item => item.2.qradarId)).toFinset
  next_mem := by
    intro current child h
    obtain ⟨item, hitem, rfl⟩ := List.mem_map.mp (mem_sortOn.mp h)
    exact List.mem_toFinset.mpr (List.mem_map_of_mem (List.mem_of_mem_filter hitem))

def groupAndDescendants (groupId : Int) (groups : Dict Int GroupRow) : List Int := (childLinks groups).walk groupId

/-! ## The chunks -/

/-- Runs of one more than `n` ids; the last one may be shorter. -/
def runsOf (n : Nat) (ids : List Int) : List (List Int) :=
  match ids with
  | [] => []
  | i :: rest => (i :: rest.take n) :: runsOf n (rest.drop n)
termination_by ids.length
decreasing_by
  simp only [List.length_drop, List.length_cons]
  omega

def chunkIds (ids : List Int) (size : Int) : Except Exc (List (List Int)) :=
  if size < 1 then .error (.value "a chunk holds at least one id") else .ok (runsOf (size.toNat - 1) ids)

/-! ## The scope -/

def isoformatOf (time : Int) : String :=
  String.ofList ((DateTime.ofWall (time + DateTime.epochWall)).elim [] DateTime.isoformat)

/-- `str` of a timedelta of so many microseconds. -/
def timedeltaText (length : Int) : String :=
  let days := length / dayMicros
  let rest := (length % dayMicros).toNat
  let clock := Nat.repr (rest / 3600000000) ++ ":" ++ String.ofList (fixed 2 (rest / 60000000 % 60)) ++ ":" ++
    String.ofList (fixed 2 (rest / 1000000 % 60))
  (if days = 0 then "" else days.repr ++ " day" ++ (if days.natAbs = 1 then "" else "s") ++ ", ") ++ clock ++
    (if rest % 1000000 = 0 then "" else "." ++ String.ofList (fixed 6 (rest % 1000000)))

def unresolved (kind : PwScopeKind) (status : PwWatchStatus) (reason : String) : ResolvedScope :=
  { scopeKind := kind, status := some status, reason := some reason }

structure ScopeArgs where
  logSourceId : Option String := none
  typeId : Option Int := none
  groupId : Option Int := none
  groups : Dict Int GroupRow
  sources : List SourceRow
  now : Int
  staleAfter : Int
  maxSources : Int
  maxChunks : Int

def memberRows (walked : List Int) (sources : List SourceRow) : List SourceRow :=
  sortOn SourceRow.qradarId (sources.filter (fun s => s.groupIds.any (fun g => g ∈ walked)))

def memberIds (members : List SourceRow) : List Int := sortOn (fun i => i) (members.map SourceRow.qradarId).dedup

/-- The group's part of `resolve_scope`, from its row. -/
def resolveGroup (sha256 : String → String) (args : ScopeArgs) (groupId : Int) (own : GroupRow) :
    Except Exc ResolvedScope := do
  let walked := groupAndDescendants groupId args.groups
  let members := memberRows walked args.sources
  let ids := memberIds members
  let walkedIds := sortOn (fun i => i) walked
  let oldest := (((walked.filterMap args.groups.get?).map GroupRow.syncedAt).min?).getD own.syncedAt
  if args.now - oldest > args.staleAfter then
    return { unresolved .logSourceGroup .scopeStale
        ("the group inventory was last synced at " ++ isoformatOf oldest ++ ", older than " ++
          timedeltaText args.staleAfter) with
      memberCount := some ids.length, groupsWalked := walkedIds, members }
  if ids = [] then
    return { unresolved .logSourceGroup .scopeEmpty "the group and its descendants hold no synced log source" with
      memberCount := some 0, groupsWalked := walkedIds, members }
  let chunks ← chunkIds ids args.maxSources
  if (chunks.length : Int) > args.maxChunks then
    return { unresolved .logSourceGroup .scopeTooLarge
        (Nat.repr ids.length ++ " sources need " ++ Nat.repr chunks.length ++ " searches; the limit is " ++
          args.maxChunks.repr) with
      memberCount := some ids.length, groupsWalked := walkedIds, members }
  return {
    scopeKind := .logSourceGroup
    chunks
    memberCount := some ids.length
    fingerprint := some (scopeFingerprint sha256 ids)
    groupsWalked := walkedIds
    members }

def resolveScope (sha256 : String → String) (scopeKind : PwScopeKind) (args : ScopeArgs) : Except Exc ResolvedScope :=
  if args.maxSources < 1 ∨ args.maxChunks < 1 then
    .error (.value "a search holds at least one source and a watch at least one search")
  else
    match scopeKind with
    | .logSource =>
      match args.sources.find? (fun s => some s.id = args.logSourceId) with
      | none => .ok (unresolved .logSource .scopeEmpty "the log source is not in the inventory")
      | some source => .ok {
          scopeKind := .logSource
          chunks := [[source.qradarId]]
          memberCount := some 1
          source := some source
          members := [source] }
    | .logSourceType =>
      match args.typeId with
      | none => .ok (unresolved .logSourceType .scopeEmpty "the watch names no log source type")
      | some typeId =>
        let typedMembers := args.sources.countP (fun s => s.typeId = some typeId)
        if typedMembers = 0 then
          .ok { unresolved .logSourceType .scopeEmpty "no synced log source has this type" with memberCount := some 0 }
        else .ok { scopeKind := .logSourceType, chunks := [[typeId]], memberCount := some typedMembers }
    | .logSourceGroup =>
      match args.groupId with
      | none => .ok (unresolved .logSourceGroup .scopeEmpty "the watch names no log source group")
      | some groupId =>
        match args.groups.get? groupId with
        | none => .ok (unresolved .logSourceGroup .scopeEmpty "the log source group is not in the inventory")
        | some own => resolveGroup sha256 args groupId own

/-! ## Changes of the scope -/

structure ScopeRecord where
  fingerprint : Option String
  scopeChanged : Bool
deriving DecidableEq

def flagLoop (fingerprint : Option String) (grace : Nat) : Nat → Option String → Nat → List Bool
  | 0, _, _ => []
  | buckets + 1, current, run =>
    if fingerprint ≠ current then true :: flagLoop fingerprint grace buckets fingerprint 1
    else if 0 < run ∧ run < grace + 1 then true :: flagLoop fingerprint grace buckets current (run + 1)
    else false :: flagLoop fingerprint grace buckets current 0

def scopeChangedFlags (history : List ScopeRecord) (fingerprint : Option String) (buckets grace : Int) :
    Except Exc (List Bool) :=
  if buckets < 0 ∨ grace < 0 then .error (.value "bucket and grace counts are not negative")
  else
    match history with
    | [] => .ok (List.replicate buckets.toNat false)
    | newest :: _ =>
      let current := newest.fingerprint
      let run := (history.takeWhile (fun record => record.scopeChanged && record.fingerprint = current)).length
      .ok (flagLoop fingerprint grace.toNat buckets.toNat current run)

structure ScopeTick where
  fingerprint : Option String
  buckets : Nat

def flagTick (grace : Nat) (stored : List ScopeRecord) (tick : ScopeTick) : Except Exc (List ScopeRecord) := do
  let flags ← scopeChangedFlags (stored.take (grace + 1)) tick.fingerprint tick.buckets grace
  return (flags.map (fun flag => ⟨tick.fingerprint, flag⟩)).reverse ++ stored

def ChangedAt (fingerprints : List (Option String)) (j : Nat) : Prop :=
  ∃ before after, 0 < j ∧ fingerprints[j - 1]? = some before ∧ fingerprints[j]? = some after ∧ after ≠ before

end QRadarDashboard.PropertyWatch
