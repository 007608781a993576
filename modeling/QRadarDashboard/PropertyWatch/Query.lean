import QRadarDashboard.Detectors.PropertyWatch
import Mathlib.Data.List.Dedup

/-!
# What a property-watch search may name (`app/property_watch/reference.py`, `app/property_watch/aql.py`)

References and pins are refused, never escaped. `buildQuery` writes them between quotes.
-/

namespace QRadarDashboard.PropertyWatch
open Lib

inductive PwSearchKind where
  | grouped | totals | pinned
deriving DecidableEq

def PwSearchKind.value : PwSearchKind → String
  | .grouped => "GROUPED"
  | .totals => "TOTALS"
  | .pinned => "PINNED"

inductive PwScopeKind where
  | logSource | logSourceType | logSourceGroup
deriving DecidableEq

inductive PwReferenceKind where
  | normalized | customProperty
deriving DecidableEq

def PwReferenceKind.value : PwReferenceKind → String
  | .normalized => "NORMALIZED"
  | .customProperty => "CUSTOM_PROPERTY"

def PwReferenceKind.ofValue? : String → Option PwReferenceKind
  | "NORMALIZED" => some .normalized
  | "CUSTOM_PROPERTY" => some .customProperty
  | _ => none

def normalizedFieldAllowlist : List String := ["username"]

def maxProperties : Nat := 2

def pinnedValueMaxLength : Nat := 255

/-- A character of `PROPERTY_NAME_PATTERN`'s first class. -/
def nameStart (c : Char) : Bool := c.isAlphanum || c = '_'

/-- `PROPERTY_NAME_PATTERN`: `[A-Za-z0-9_][A-Za-z0-9_ -]{0,63}` -/
def propertyName (name : String) : Bool :=
  match name.toList with
  | [] => false
  | c :: rest => nameStart c && decide (rest.length ≤ 63) && rest.all (fun c => nameStart c || c = ' ' || c = '-')

structure PwFieldReference where
  kind : PwReferenceKind
  name : String
deriving DecidableEq

/-- `PwFieldReference.__post_init__` -/
def PwFieldReference.check (ref : PwFieldReference) : Except Exc PwFieldReference :=
  match ref.kind with
  | .normalized =>
    if ref.name ∈ normalizedFieldAllowlist then .ok ref
    else .error (.pwReference "normalized field is not in the property-watch allowlist")
  | .customProperty =>
    if propertyName ref.name then .ok ref
    else .error (.pwReference ("invalid QRadar property name: letters, digits, underscore, space and " ++
      "hyphen only, at most 64 characters"))

/-- `PwFieldReference.from_dict` of a `(kind, name)` pair. -/
def PwFieldReference.fromPair (pair : String × String) : Except Exc PwFieldReference :=
  match PwReferenceKind.ofValue? pair.1 with
  | none => .error (.pwReference "unknown property reference kind")
  | some kind => PwFieldReference.check ⟨kind, pair.2⟩

/-- A character `PW_PINNED_VALUE_PATTERN` admits. -/
def pinnedChar (c : Char) : Bool :=
  !(decide (c.toNat ≤ 0x1f) || (decide (0x7f ≤ c.toNat) && decide (c.toNat ≤ 0x9f)) || c = '\'' || c = '"' ||
    c = '\\')

def validatePinnedValue (u : UnicodeTables) (value : String) : Except Exc String :=
  let cs := value.toList
  if cs = [] then .error (.pwReference "a pinned value cannot be empty")
  else if pinnedValueMaxLength < cs.length then
    .error (.pwReference s!"a pinned value is at most {pinnedValueMaxLength} characters")
  else if cs.all pinnedChar && !(cs.head?.any u.isspace) && !(cs.getLast?.any u.isspace) &&
      cs.all u.isprintable then .ok value
  else .error (.pwReference ("a pinned value cannot hold a quote, a backslash, a control character or " ++
    "leading or trailing whitespace"))

def validateProperties (raw : List PwFieldReference) : Except Exc (List PwFieldReference) := do
  if raw = [] ∨ maxProperties < raw.length then
    throw (.pwReference s!"a watch names one or two properties, not {raw.length}")
  let references ← raw.mapM PwFieldReference.check
  if ¬ references.Nodup then throw (.pwReference "a watch cannot name the same property twice")
  return references

def validatePinnedValues (u : UnicodeTables) (raw : List (List String)) (propertyCount maxPinned : Nat) :
    Except Exc (List (List String)) := do
  if maxPinned < raw.length then
    throw (.pwReference s!"a watch pins at most {maxPinned} values, not {raw.length}")
  let pins ← raw.mapM (fun entry => do
    if entry.length ≠ propertyCount then
      throw (.pwReference s!"each pinned value needs {propertyCount} string(s), one per property")
    entry.mapM (validatePinnedValue u))
  if ¬ pins.Nodup then throw (.pwReference "a value is pinned twice")
  return pins

structure PwQuerySpec where
  search : PwSearchKind
  scopeKind : PwScopeKind
  scopeIds : List Int
  properties : List PwFieldReference
  pinned : List (List String)
deriving DecidableEq

def validateScopeIds (kind : PwScopeKind) (ids : List Int) (maxSources : Nat) : Except Exc (List Int) :=
  if ids.any (fun i => i < 0) then
    .error (.value "property-watch scope ids must be non-negative integers")
  else
    let unique := sortOn (fun i => i) ids.dedup
    if unique = [] then .error (.value "a property-watch search needs at least one scope id")
    else if kind = .logSourceGroup then
      if maxSources < unique.length then
        .error (.value s!"a property-watch search covers at most {maxSources} log sources")
      else .ok unique
    else if unique.length ≠ 1 then .error (.value "a source or type scope names exactly one id")
    else .ok unique

/-- `tuple(dict.fromkeys(items))`: without repetitions, in order of first appearance. -/
def fromKeys {α : Type} [DecidableEq α] (items : List α) : List α :=
  (items.reverse.dedup).reverse

structure PwSearchPlan where
  search : PwSearchKind
  scopeKind : PwScopeKind
  scopeIds : List Int
  properties : List (String × String) := []
  pinned : List (List String) := []

def validateQueryInputs (u : UnicodeTables) (plan : PwSearchPlan) (maxSources : Nat) :
    Except Exc PwQuerySpec := do
  let ids ← validateScopeIds plan.scopeKind plan.scopeIds maxSources
  if maxProperties < plan.properties.length then
    throw (.pwReference "a watch names one or two properties")
  let references ← plan.properties.mapM PwFieldReference.fromPair
  if ¬ references.Nodup then throw (.pwReference "a watch cannot name the same property twice")
  if plan.search ≠ .totals ∧ references = [] then
    throw (.pwReference "a grouped or pinned search needs a property")
  let tuples ← plan.pinned.mapM (fun entry => do
    if entry.length ≠ references.length then
      throw (.pwReference "each pinned value needs one string per property")
    entry.mapM (validatePinnedValue u))
  if plan.search = .pinned ∧ tuples = [] then
    throw (.pwReference "a pinned search needs at least one pinned value")
  if plan.search ≠ .pinned ∧ tuples ≠ [] then
    throw (.pwReference "only a pinned search takes pinned values")
  return {
    search := plan.search
    scopeKind := plan.scopeKind
    scopeIds := ids
    properties := references
    pinned := fromKeys tuples }

def pinnedComponents (spec : PwQuerySpec) : List (List String) :=
  (List.range spec.properties.length).map (fun position =>
    sortOn (fun s => s) (spec.pinned.filterMap (fun entry => entry[position]?)).dedup)

def pinnedRowsPerBucket (spec : PwQuerySpec) : Nat :=
  ((pinnedComponents spec).map List.length).prod

/-! ## The text of a search -/

def scopeCondition (kind : PwScopeKind) (ids : List Int) : String :=
  let values := ", ".intercalate (ids.map Int.repr)
  if kind = .logSourceType then "devicetype = " ++ values else "logsourceid IN (" ++ values ++ ")"

/-- The lists of the `IN` conditions on the properties, in their order. -/
def inLists (spec : PwQuerySpec) : List (List String) :=
  if spec.search = .pinned then pinnedComponents spec else []

def buildQuery (spec : PwQuerySpec) (startMs endMs bucketMs limit : Int) : Except Exc String :=
  if startMs ≤ 0 ∨ endMs ≤ 0 ∨ bucketMs ≤ 0 ∨ limit ≤ 0 then
    .error (.value "a property-watch query takes positive integer bounds")
  else
    let key := "starttime / " ++ bucketMs.repr
    let where_ := "WHERE " ++ scopeCondition spec.scopeKind spec.scopeIds ++ " AND starttime >= " ++ startMs.repr ++
      " AND starttime < " ++ endMs.repr
    if spec.search = .totals then
      .ok ("SELECT " ++ key ++ " AS \"k\", SUM(eventcount) AS \"events\" FROM events " ++ where_ ++
        " GROUP BY " ++ key ++ " ORDER BY SUM(eventcount) DESC LIMIT " ++ limit.repr)
    else
      let expressions := spec.properties.map (fun reference => "\"" ++ reference.name ++ "\"")
      let select := expressions.zipIdx.map (fun item => item.1 ++ " AS \"p" ++ item.2.repr ++ "\"")
      let present := String.join (expressions.map (fun expression => " AND " ++ expression ++ " IS NOT NULL"))
      let pins := String.join ((expressions.zip (inLists spec)).map (fun item =>
        " AND " ++ item.1 ++ " IN (" ++ ",".intercalate (item.2.map (fun component => "'" ++ component ++ "'")) ++ ")"))
      let columns := select ++ [key ++ " AS \"k\"", "SUM(eventcount) AS \"events\""]
      let groupBy := ", ".intercalate (expressions ++ [key])
      .ok ("SELECT " ++ ", ".intercalate columns ++ " FROM events " ++ where_ ++ present ++ pins ++
        " GROUP BY " ++ groupBy ++ " ORDER BY SUM(eventcount) DESC LIMIT " ++ limit.repr)

/-- The tuples, one value per property, of which each value is in the list of its property's condition. -/
def satisfying (spec : PwQuerySpec) : Set (List String) :=
  {tuple | tuple.length = spec.properties.length ∧ ∀ item ∈ (inLists spec).zip tuple, item.2 ∈ item.1}

/-!
## Property watches and their values (`app/models/property_watch.py`)

Ids are the canonical texts of UUIDs. Of a history request only its length and its state are kept.
-/

inductive PwHistoryState where
  | notRequested | reading | complete | partialHistory | unavailable
deriving DecidableEq

structure PropertyWatchRow where
  id : String
  instanceId : String
  name : String
  description : Option String := none
  scopeKind : PwScopeKind
  logSourceId : Option String := none
  scopeTypeId : Option Int := none
  scopeGroupId : Option Int := none
  properties : List PwFieldReference
  pinnedValues : List (List String) := []
  detectors : List String
  severity : Severity := .medium
  watchVersion : Int := 1
  enabled : Bool := false
  collectedThrough : Option Int := none
  evaluatedThrough : Option Int := none
  lastStatus : Option Detectors.PwWatchStatus := none
  lastStatusReason : Option String := none
  historyDays : Option Int := none
  historyState : PwHistoryState := .notRequested
  updatedBy : Option String := none
  updatedAt : Int
deriving DecidableEq

structure PwValue where
  id : String
  watchId : String
  watchVersion : Int
  valueKey : String
  active : Bool := true
  valueKey_ne : valueKey ≠ ""

end QRadarDashboard.PropertyWatch
