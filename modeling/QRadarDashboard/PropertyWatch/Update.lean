import QRadarDashboard.Lib.ReadCommitted
import QRadarDashboard.PropertyWatch.Bootstrap
import QRadarDashboard.PropertyWatch.Engine

/-!
# Editing a property watch (`app/api/routes/property_watches.py`, `app/services/property_watches.py`)

A patch locks its watch, compares the token, and takes the advisory lock of the enabled watches where it may cost
more.
-/

namespace QRadarDashboard.PropertyWatch
open Lib Lib.ReadCommitted History

variable {φ : Type} [PyFloat φ]

structure AuthoringSettings (φ : Type) [PyFloat φ] extends PwSettings φ where
  pwNewValueHistoryDays : Int := 7
  pwBootstrapDays : Int := 28

/-! ## The inventory -/

/-- What a request reads of the synced inventory: the instance of a log source, and the sources that a type or a group
holds. -/
structure Inventory where
  source : String → Option String
  type : String → Int → Option Nat
  group : String → Int → Option Nat

/-- `member_count or 0` of the resolved scope. -/
def Inventory.memberCount (inventory : Inventory) (watch : PropertyWatchRow) : Nat :=
  match watch.scopeKind with
  | .logSource => if watch.logSourceId.bind inventory.source = some watch.instanceId then 1 else 0
  | .logSourceType => (watch.scopeTypeId.bind (inventory.type watch.instanceId)).getD 0
  | .logSourceGroup => (watch.scopeGroupId.bind (inventory.group watch.instanceId)).getD 0

/-! ## The patch -/

structure PropertyWatchUpdate where
  expectedUpdatedAt : Int
  name : Option (Option String) := none
  description : Option (Option String) := none
  scopeKind : Option (Option PwScopeKind) := none
  logSourceId : Option (Option String) := none
  scopeTypeId : Option (Option Int) := none
  scopeGroupId : Option (Option Int) := none
  properties : Option (Option (List PwFieldReference)) := none
  pinnedValues : Option (Option (List (List String))) := none
  detectors : Option (Option (List PwAnomalyType)) := none
  severity : Option (Option Severity) := none
  enabled : Option (Option Bool) := none
  historyDays : Option (Option Int) := none

def nullReasons (payload : PropertyWatchUpdate) : List String :=
  ([("detectors", payload.detectors.any Option.isNone), ("enabled", payload.enabled.any Option.isNone),
    ("history_days", payload.historyDays.any Option.isNone), ("name", payload.name.any Option.isNone),
    ("pinned_values", payload.pinnedValues.any Option.isNone), ("properties", payload.properties.any Option.isNone),
    ("scope_kind", payload.scopeKind.any Option.isNone), ("severity", payload.severity.any Option.isNone)].filter
      (fun field => field.2)).map (fun field => s!"{field.1} must not be null")

structure Merged where
  name : String
  description : Option String
  scopeKind : PwScopeKind
  logSourceId : Option String
  scopeTypeId : Option Int
  scopeGroupId : Option Int
  properties : List PwFieldReference
  pinnedValues : List (List String)
  detectors : List String
  severity : Severity
  enabled : Bool
  historyDays : Option Int

/-- `present & _SCOPE_FIELDS` -/
def PropertyWatchUpdate.touchesScope (payload : PropertyWatchUpdate) : Bool :=
  payload.scopeKind.isSome || payload.logSourceId.isSome || payload.scopeTypeId.isSome || payload.scopeGroupId.isSome

def merge (watch : PropertyWatchRow) (payload : PropertyWatchUpdate) : Merged where
  name := payload.name.join.getD watch.name
  description := payload.description.getD watch.description
  scopeKind := payload.scopeKind.join.getD watch.scopeKind
  logSourceId := if payload.touchesScope then payload.logSourceId.join else watch.logSourceId
  scopeTypeId := if payload.touchesScope then payload.scopeTypeId.join else watch.scopeTypeId
  scopeGroupId := if payload.touchesScope then payload.scopeGroupId.join else watch.scopeGroupId
  properties := payload.properties.join.getD watch.properties
  pinnedValues := payload.pinnedValues.join.getD watch.pinnedValues
  detectors := (payload.detectors.join.map (fun ds => fromKeys (ds.map PwAnomalyType.value))).getD watch.detectors
  severity := payload.severity.join.getD watch.severity
  enabled := payload.enabled.join.getD watch.enabled
  historyDays := payload.historyDays.join.or watch.historyDays

/-! ## Validation -/

def PwScopeKind.value : PwScopeKind → String
  | .logSource => "LOG_SOURCE"
  | .logSourceType => "LOG_SOURCE_TYPE"
  | .logSourceGroup => "LOG_SOURCE_GROUP"

def PwScopeKind.column : PwScopeKind → String
  | .logSource => "log_source_id"
  | .logSourceType => "scope_type_id"
  | .logSourceGroup => "scope_group_id"

def scopeReasons (draft : Merged) : List String :=
  [("log_source_id", draft.logSourceId.isSome), ("scope_type_id", draft.scopeTypeId.isSome),
    ("scope_group_id", draft.scopeGroupId.isSome)].filterMap (fun (column, there) =>
      if column = draft.scopeKind.column ∧ there = false then
        some s!"{column} is required for a {draft.scopeKind.value} scope"
      else if column ≠ draft.scopeKind.column ∧ there = true then
        some s!"{column} must be empty for a {draft.scopeKind.value} scope"
      else none) ++
  [("scope_type_id", draft.scopeTypeId), ("scope_group_id", draft.scopeGroupId)].filterMap (fun (column, value) =>
      if value.any (fun id => id < 0) then some s!"{column} must not be negative" else none)

/-- `str(exc)` of a `PwReferenceError`. -/
def referenceMessage? {α : Type} : Except Exc α → Option String
  | .error (.pwReference msg) => some msg
  | _ => none

def propertyReasons (properties : List PwFieldReference) : List String :=
  let references := properties.filter (fun item => (referenceMessage? item.check).isNone)
  (if 1 ≤ properties.length ∧ properties.length ≤ maxProperties then []
    else [s!"a watch names one or two properties, not {properties.length}"]) ++
  (properties.zipIdx 1).filterMap (fun (item, index) =>
    (referenceMessage? item.check).map (fun msg => s!"property {index}: {msg}")) ++
  (if references.Nodup then [] else ["a watch cannot name the same property twice"])

def pinReasons (u : UnicodeTables) (pins : List (List String)) (propertyCount maxPinned : Nat) : List String :=
  (if maxPinned < pins.length then [s!"a watch pins at most {maxPinned} values, not {pins.length}"] else []) ++
  (pins.zipIdx 1).flatMap (fun (entry, index) =>
    (if 1 ≤ propertyCount ∧ propertyCount ≤ maxProperties ∧ entry.length ≠ propertyCount then
      [s!"pinned value {index}: needs {propertyCount} string(s), one per property"] else []) ++
    (entry.zipIdx 1).filterMap (fun (component, part) =>
      (referenceMessage? (validatePinnedValue u component)).map
        (fun msg => s!"pinned value {index}, part {part}: {msg}")) ++
    (if entry ∈ pins.take (index - 1) then [s!"pinned value {index}: pinned twice"] else []))

def validateDraft (u : UnicodeTables) (maxPinned : Nat) (draft : Merged) : List String :=
  scopeReasons draft ++ propertyReasons draft.properties ++
  pinReasons u draft.pinnedValues draft.properties.length maxPinned ++
  (if draft.detectors = [] then ["a watch evaluates at least one detector"] else []) ++
  (if PwAnomalyType.newCombination.value ∈ draft.detectors ∧ draft.properties.length ≠ maxProperties then
    ["PW_NEW_COMBINATION needs a watch with two properties"] else [])

def historyDaysReasons (days : Int) (s : AuthoringSettings φ) : List String :=
  if days = 0 ∨ (s.pwNewValueHistoryDays ≤ days ∧ days ≤ s.pwBootstrapDays) then []
  else [s!"history_days must be 0 (no history) or between {s.pwNewValueHistoryDays} and {s.pwBootstrapDays}, " ++
    s!"not {days}"]

def scopeExistenceReasons (inventory : Inventory) (draft : Merged) (instanceId : String) : List String :=
  match draft.scopeKind, draft.logSourceId, draft.scopeTypeId, draft.scopeGroupId with
  | .logSource, some id, _, _ =>
    if inventory.source id = some instanceId then [] else [s!"log source {id} does not exist"]
  | .logSourceType, _, some id, _ =>
    if (inventory.type instanceId id).isSome then []
    else [s!"log source type {id} is not in the synced inventory"]
  | .logSourceGroup, _, _, some id =>
    if (inventory.group instanceId id).isSome then []
    else [s!"log source group {id} is not in the synced inventory"]
  | _, _, _, _ => []

def resolveInstance (inventory : Inventory) (draft : Merged) (instanceId : String) : String × List String :=
  match draft.scopeKind, draft.logSourceId with
  | .logSource, some id =>
    match inventory.source id with
    | none => (instanceId, [s!"log source {id} does not exist"])
    | some owner => (owner, [])
  | _, _ => (instanceId, scopeExistenceReasons inventory draft instanceId)

def PwHistoryState.value : PwHistoryState → String
  | .notRequested => "NOT_REQUESTED"
  | .reading => "READING"
  | .complete => "COMPLETE"
  | .partialHistory => "PARTIAL"
  | .unavailable => "UNAVAILABLE"

/-- `history_change_reasons`. `stored` is the number of buckets of the watch's current version. -/
def historyChangeReasons (watch : PropertyWatchRow) (stored : Nat) : List String :=
  let advice := "create a new watch to read history"
  let marks := (if watch.collectedThrough.isSome then ["collected_through"] else []) ++
    (if watch.evaluatedThrough.isSome then ["evaluated_through"] else [])
  if watch.historyState ≠ .notRequested then
    [s!"history is {watch.historyState.value} on this watch and cannot be requested again; {advice}"]
  else if marks ≠ [] then
    let collected := " and ".intercalate marks
    [s!"this watch has already collected ({collected} set); {advice}"]
  else if stored ≠ 0 then [s!"this watch holds {stored} stored bucket(s) of its current version; {advice}"]
  else []

/-- `pinned_rows`: none where the draft does not validate. -/
def pinnedRows (u : UnicodeTables) (s : PwSettings φ) (draft : Merged) : Option Nat :=
  if draft.pinnedValues = [] then some 0
  else
    match validateQueryInputs u {
      search := .pinned
      scopeKind := draft.scopeKind
      scopeIds := [0]
      properties := draft.properties.map (fun r => (r.kind.value, r.name))
      pinned := draft.pinnedValues } s.pwMaxSourcesPerSearch with
    | .error _ => none
    | .ok spec => some (pinnedRowsPerBucket spec)

def pinnedRowsReasons (u : UnicodeTables) (s : PwSettings φ) (draft : Merged) (cadenceSeconds : Int) :
    Except Exc (List String) :=
  match pinnedRows u s draft with
  | none => .ok []
  | some rows => do
      let target := (← pwPlannerSettings s cadenceSeconds).rowTargetRows
      return if rows ≤ target then []
        else [s!"the pinned values can return up to {rows} rows per bucket, above the {target} rows " ++
          "one history search may carry; unpin values or request no history"]

/-! ## What a patch changes -/

/-- `KIND:id` -/
inductive ScopeLabel where
  | logSource (id : Option String)
  | logSourceType (id : Option Int)
  | logSourceGroup (id : Option Int)
deriving DecidableEq

def scopeLabel (kind : PwScopeKind) (source : Option String) (typeId groupId : Option Int) : ScopeLabel :=
  match kind with
  | .logSource => .logSource source
  | .logSourceType => .logSourceType typeId
  | .logSourceGroup => .logSourceGroup groupId

/-- The keys that differ between `_editable` and the merged patch. -/
structure ChangedFields where
  name : Bool
  description : Bool
  scope : Bool
  properties : Bool
  pinnedValues : Bool
  detectors : Bool
  severity : Bool
  enabled : Bool
  historyDays : Bool

def ChangedFields.any (changed : ChangedFields) : Bool :=
  changed.name || changed.description || changed.scope || changed.properties || changed.pinnedValues ||
    changed.detectors || changed.severity || changed.enabled || changed.historyDays

def changedFields (watch : PropertyWatchRow) (merged : Merged) : ChangedFields where
  name := merged.name ≠ watch.name
  description := merged.description ≠ watch.description
  scope := scopeLabel merged.scopeKind merged.logSourceId merged.scopeTypeId merged.scopeGroupId ≠
    scopeLabel watch.scopeKind watch.logSourceId watch.scopeTypeId watch.scopeGroupId
  properties := merged.properties ≠ watch.properties
  pinnedValues := merged.pinnedValues ≠ watch.pinnedValues
  detectors := merged.detectors ≠ watch.detectors
  severity := merged.severity ≠ watch.severity
  enabled := merged.enabled ≠ watch.enabled
  historyDays := merged.historyDays ≠ watch.historyDays

structure DependentRule where
  id : String
  name : String

def removedPinKeys (current wanted : List (List String)) : Except Exc (List String) :=
  (current.filter (fun pin => decide (pin ∉ wanted))).mapM joinTupleKey

/-- A `PATCH`. `now` is the clock when the new token is drawn, and `writtenAt` when the row is written again. -/
structure PatchRequest where
  watchId : String
  payload : PropertyWatchUpdate
  subject : String
  now : Int
  writtenAt : Int
  inventory : Inventory
  storedBuckets : Nat := 0
  cadenceSeconds : Int := 300
  dependentRules : Option (List String) → List DependentRule := fun _ => []

inductive PatchRefusal where
  | notFound
  | version (current : Int) (updatedBy : Option String)
  | rejected (reasons : List String)
  | conflict (detail : String)
  | rules (action : String) (rules : List DependentRule)
  | capacity (reasons : List CapacityReason)
  | raised (e : Exc)

def reject (reasons : List String) : Except PatchRefusal Unit :=
  if reasons = [] then .ok () else .error (.rejected reasons)

structure PatchWrite where
  request : PatchRequest
  loaded : PropertyWatchRow
  merged : Merged
  instanceId : String

namespace PatchWrite

variable (w : PatchWrite)

def changed : ChangedFields := changedFields w.loaded w.merged

def needsCapacity : Bool :=
  w.merged.enabled && (!w.loaded.enabled ||
    (w.changed.scope || w.changed.properties || w.changed.pinnedValues || w.changed.historyDays))

end PatchWrite

def bumped (previous now : Int) : Int := if now ≤ previous then previous + 1 else now

def PatchWrite.edited (w : PatchWrite) : PropertyWatchRow :=
  { w.loaded with
    name := w.merged.name
    description := w.merged.description
    scopeKind := w.merged.scopeKind
    instanceId := w.instanceId
    logSourceId := w.merged.logSourceId
    scopeTypeId := w.merged.scopeTypeId
    scopeGroupId := w.merged.scopeGroupId
    properties := w.merged.properties
    pinnedValues := w.merged.pinnedValues
    detectors := w.merged.detectors
    severity := w.merged.severity
    enabled := w.merged.enabled
    historyDays := w.merged.historyDays
    watchVersion := if w.changed.scope || w.changed.properties then w.loaded.watchVersion + 1 else w.loaded.watchVersion
    updatedBy := some w.request.subject
    updatedAt := bumped w.loaded.updatedAt w.request.now }

def PatchWrite.switched (w : PatchWrite) : PropertyWatchRow :=
  if w.merged.enabled ∧ w.loaded.enabled = false then
    { w.edited with
      evaluatedThrough := w.edited.collectedThrough
      collectedThrough := none
      lastStatus := none
      lastStatusReason := none }
  else if w.loaded.enabled ∧ w.merged.enabled = false then
    { w.edited with
      lastStatus := some .disabled
      lastStatusReason := some s!"disabled by {w.request.subject}" }
  else w.edited

/-- A second UPDATE writes what has changed since the first. It does not set `updated_at`, so `onupdate` does. -/
def PatchWrite.settled (w : PatchWrite) : PropertyWatchRow :=
  if w.switched = w.edited then w.edited else { w.switched with updatedAt := w.request.writtenAt }

/-! ## The transaction -/

abbrev WatchTable := Dict String PropertyWatchRow

/-- What a transaction locks: a row, the slots of the enabled watches, and an entry of the unique index on names. -/
inductive WatchLock where
  | watch (id : String)
  | enabledCap
  | name (name : String)
deriving DecidableEq

def lockable (table : WatchTable) : WatchLock → Option (Option PropertyWatchRow)
  | .watch id => (table.get? id).map some
  | _ => some none

inductive PatchTx where
  | locking (request : PatchRequest)
  | naming (w : PatchWrite)
  | slotting (w : PatchWrite)
  | flushing (w : PatchWrite)
  /-- The row is written; the enabled watches are weighed next. -/
  | weighing (w : PatchWrite)
  | ready (w : PatchWrite)
  | unchanged
  | refused (e : PatchRefusal)

def checkHistory (u : UnicodeTables) (s : AuthoringSettings φ) (request : PatchRequest) (watch : PropertyWatchRow)
    (merged : Merged) : Except PatchRefusal Unit := do
  let changed := changedFields watch merged
  if changed.historyDays then
    let blockers := historyChangeReasons watch request.storedBuckets
    require (blockers = []) (.conflict ("; ".intercalate blockers))
  if watchReadsHistory { watch with historyDays := merged.historyDays } &&
      (changed.historyDays || changed.pinnedValues || changed.properties) then
    match pinnedRowsReasons u s.toPwSettings merged request.cadenceSeconds with
    | .error e => throw (.raised e)
    | .ok reasons => reject reasons

def mergedScope (inventory : Inventory) (watch : PropertyWatchRow) (merged : Merged) : String × List String :=
  if (changedFields watch merged).scope then resolveInstance inventory merged watch.instanceId
  else (watch.instanceId, [])

def checkPatch (u : UnicodeTables) (s : AuthoringSettings φ) (request : PatchRequest) (watch : PropertyWatchRow) :
    Except PatchRefusal (Option PatchWrite) := do
  require (request.payload.expectedUpdatedAt = watch.updatedAt) (.version watch.updatedAt watch.updatedBy)
  reject (nullReasons request.payload)
  let merged := merge watch request.payload
  let changed := changedFields watch merged
  let days := if changed.historyDays then merged.historyDays.elim [] (fun days => historyDaysReasons days s) else []
  let scope := mergedScope request.inventory watch merged
  reject (validateDraft u s.pwMaxPinnedValues merged ++ days ++ scope.2)
  if changed.any then
    checkHistory u s request watch merged
    return some ⟨request, watch, merged, scope.1⟩
  else return none

/-- `_refuse_if_pinned_by_rules`, for a new version of the watch and for the pins that go. -/
def PatchWrite.refusedByRules (w : PatchWrite) : Except PatchRefusal Unit := do
  if w.changed.scope || w.changed.properties then
    let rules := w.request.dependentRules none
    if rules ≠ [] then
      throw (.rules "change the scope or properties (the watch version would change)" rules)
  if w.changed.pinnedValues then
    match removedPinKeys w.loaded.pinnedValues w.merged.pinnedValues with
    | .error e => throw (.raised e)
    | .ok keys =>
      let rules := if keys = [] then [] else w.request.dependentRules (some keys)
      if rules ≠ [] then throw (.rules "unpin a value" rules)

def guardRules (w : PatchWrite) : PatchTx :=
  match w.refusedByRules with
  | .error e => .refused e
  | .ok () => .flushing w

def claimSlot (w : PatchWrite) : PatchTx := if w.needsCapacity then .slotting w else guardRules w

def enterPatch (request : PatchRequest) : PatchTx := .locking request

def startPatch (u : UnicodeTables) (s : AuthoringSettings φ) (request : PatchRequest) (table : WatchTable) : PatchTx :=
  match table.get? request.watchId with
  | none => .refused .notFound
  | some watch =>
    match checkPatch u s request watch with
    | .error e => .refused e
    | .ok none => .unchanged
    | .ok (some w) => if w.changed.name then .naming w else claimSlot w

def nameTaken (table : WatchTable) (w : PatchWrite) : Bool :=
  table.any (fun item => item.2.name = w.merged.name && item.1 ≠ w.request.watchId)

def nameConflict (w : PatchWrite) : PatchRefusal := .conflict s!"a property watch named '{w.merged.name}' already exists"

def afterFlush (w : PatchWrite) : PatchTx := if w.needsCapacity then .weighing w else .ready w

def enabledWatches (table : WatchTable) : List PropertyWatchRow :=
  (table.filter (fun item => item.2.enabled)).map (fun item => item.2)

/-- `enabled_cost_total`: the enabled watches, and their summed static cost. -/
def enabledCostTotal (s : PwSettings φ) (inventory : Inventory) (table : WatchTable) : Nat × Nat :=
  ((enabledWatches table).length, ((enabledWatches table).map (staticCost s inventory.memberCount)).sum)

/-- The other enabled watches that `enable_reasons` reads. -/
def othersEnabled (table : WatchTable) (id : String) : List PropertyWatchRow :=
  (table.filter (fun item => item.2.enabled && item.1 ≠ id)).map (fun item => item.2)

def weigh (s : AuthoringSettings φ) (w : PatchWrite) (table : WatchTable) : PatchTx :=
  let capacity := enableReasons s.toPwSettings w.request.inventory.memberCount
    (othersEnabled table w.request.watchId) w.edited
  if capacity = [] then .ready w else .refused (.capacity capacity)

/-- The statements of `update_watch`. -/
def patchNext (u : UnicodeTables) (s : AuthoringSettings φ) : PatchTx → Statement WatchTable WatchLock PatchTx
  | .locking request => .lock (.watch request.watchId) (startPatch u s request)
  | .naming w => .read (fun table => if nameTaken table w then .refused (nameConflict w) else claimSlot w)
  | .slotting w => .lock .enabledCap (fun _ => guardRules w)
  | .flushing w =>
    if w.changed.name then
      .lock (.name w.merged.name) (fun table => if nameTaken table w then .refused (nameConflict w) else afterFlush w)
    else .read (fun _ => afterFlush w)
  | .weighing w => .read (weigh s w)
  | .ready w => .commit (fun table => table.set w.request.watchId w.settled)
  | .unchanged => .commit id
  | .refused _ => .rollback

end QRadarDashboard.PropertyWatch
