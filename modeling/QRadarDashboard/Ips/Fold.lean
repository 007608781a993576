import QRadarDashboard.Ips.KeyedSearch
import Mathlib.Data.String.Basic

/-!
# From keyed rows to IPS facts (`app/ips/fold.py`)

A cell without a measurement folds to none, never to a zero.
-/

namespace QRadarDashboard.Ips
open Lib

structure IpsText where
  tables : UnicodeTables
  casefold : String → String
  /-- `str(ipaddress.ip_address(text))`, none where it raises. -/
  ipAddress : String → Option String

inductive IpsMeasurement where
  | exact | lowerBound
deriving DecidableEq

def contributorLimit : Nat := 10

def signatureValueMax : Nat := 128

def protocolNames : Dict Int String := [(1, "icmp"), (6, "tcp"), (17, "udp"), (58, "ipv6-icmp"), (132, "sctp")]

def genericNamePrefix : String := "Unknown "

structure IpsTotalsFact where
  events : Nat
  records : Nat
  measurement : IpsMeasurement

structure IpsEntityFact where
  valueKey : String
  events : Nat
  displayName : Option String
  genericName : Bool

/-- A port, destination or signature cell. `entityCount` counts the entities before the cut, `dimensionEvents`
every row. -/
structure IpsEntityBucketFact where
  dimension : IpsDimension
  measurement : IpsMeasurement
  entities : List IpsEntityFact
  entityCount : Nat
  dimensionEvents : Nat
  unattributedEvents : Nat

structure IpsSourceIpFact where
  measurement : IpsMeasurement
  sourceEvents : Nat
  distinctSources : Nat
  top1Events : Nat
  top5Events : Nat
  unattributedEvents : Nat
  contributors : List (String × Nat)

structure IpsFanoutFact where
  measurement : IpsMeasurement
  maxDistinctPorts : Int
  contributors : List (String × Int)

structure IpsActionFact where
  measurement : IpsMeasurement
  blockedEvents : Nat
  allowedEvents : Nat
  unmappedEvents : Nat

inductive IpsFact where
  | totals (fact : IpsTotalsFact)
  | entities (fact : IpsEntityBucketFact)
  | sourceIps (fact : IpsSourceIpFact)
  | fanout (fact : IpsFanoutFact)
  | actions (fact : IpsActionFact)

structure IpsFieldMapping where
  hasAction : Bool
  blockedActions : List String
  allowedActions : List String

/-- `tcp`, `udp`, ...; the number for any other 1-254; `unknown` for 0, 255 and absent. -/
def protocolName : Option Int → String
  | none => "unknown"
  | some id =>
    if id ≤ 0 ∨ 255 ≤ id then "unknown" else (protocolNames.get? id).getD (toString id)

variable (text : IpsText)

def canonicalIp (value : Option String) : Option String :=
  value.bind (fun value => text.ipAddress (String.ofList (text.tables.strip value.toList)))

def measurementOf (outcome : IpsCellOutcome) : Option IpsMeasurement :=
  match outcome.state with
  | .complete => some .exact
  | .lowerBound => some .lowerBound
  | .failed => none
  | .rejected => none
  | .notCollected => none

def expect (outcome : IpsCellOutcome) (dimension : IpsDimension) : Except Exc Unit :=
  require (outcome.dimension = dimension)
    (.ipsFold s!"expected a {dimension.value} outcome, got {outcome.dimension.value}")

def foldTotals (outcome : IpsCellOutcome) : Except Exc (Option IpsTotalsFact) := do
  expect outcome .totals
  return (measurementOf outcome).map (fun measurement =>
    { events := (outcome.rows.map (fun row => row.events)).sum
      records := (outcome.rows.map (fun row => row.records)).sum
      measurement := measurement })

/-! ## Entities -/

def signatureKey (row : IpsKeyedRow) : Option (String × Option String) :=
  match row.qid with
  | some qid => if 0 < qid then some (s!"qid:{qid}", row.name) else none
  | none =>
    let value := text.tables.strip ((text.tables.strip (row.signature.getD "").toList).take signatureValueMax)
    if value = [] then none else some ("sig:" ++ String.ofList value, none)

/-- `_entity_key`: the value key and the display name of a row, or none when it forms no entity. -/
def entityKey (dimension : IpsDimension) (row : IpsKeyedRow) : Except Exc (Option (String × Option String)) :=
  match dimension with
  | .destinationPort =>
    match row.destinationPort with
    | none => .ok none
    | some port =>
      if port = 0 then .error (.ipsFold "port 0 reached the fold; the search excludes it")
      else if ¬ (0 < port ∧ port ≤ 65535) then .ok none
      else .ok (some (s!"{port}/{protocolName row.protocolId}", none))
  | .destinationIp => .ok ((canonicalIp text row.destinationIp).map (fun address => (address, none)))
  | .totals => .ok (signatureKey text row)
  | .signature => .ok (signatureKey text row)
  | .sourceIp => .ok (signatureKey text row)
  | .portFanout => .ok (signatureKey text row)
  | .action => .ok (signatureKey text row)

structure EntitySums where
  events : Dict String Nat
  names : Dict String (Option String)
  unattributed : Nat
  total : Nat

def addEntityRow (dimension : IpsDimension) (acc : EntitySums) (row : IpsKeyedRow) : Except Exc EntitySums := do
  let keyed ← entityKey text dimension row
  match keyed with
  | none => return { acc with unattributed := acc.unattributed + row.events, total := acc.total + row.events }
  | some (valueKey, name) =>
    return {
      events := acc.events.set valueKey ((acc.events.get? valueKey).getD 0 + row.events)
      names := if (acc.names.get? valueKey).join = none then acc.names.set valueKey name else acc.names
      unattributed := acc.unattributed
      total := acc.total + row.events }

def ranked (items : Dict String Nat) : Dict String Nat :=
  sortOn (fun item : String × Nat => (toLex (-(item.2 : ℤ), item.1) : ℤ ×ₗ String)) items

def entityFact (names : Dict String (Option String)) (item : String × Nat) : IpsEntityFact where
  valueKey := item.1
  events := item.2
  displayName := (names.get? item.1).join
  genericName := genericNamePrefix.toList.isPrefixOf (((names.get? item.1).join).getD "").toList

def isEntityDimension : IpsDimension → Bool
  | .destinationPort => true
  | .destinationIp => true
  | .signature => true
  | .totals => false
  | .sourceIp => false
  | .portFanout => false
  | .action => false

def foldEntityDimension (outcome : IpsCellOutcome) (maxEntities : Int) :
    Except Exc (Option IpsEntityBucketFact) := do
  require (isEntityDimension outcome.dimension = true)
    (.ipsFold s!"{outcome.dimension.value} is not an entity dimension")
  match measurementOf outcome with
  | none => return none
  | some measurement =>
    require (1 ≤ maxEntities) (.ipsFold "max_entities must be positive")
    let sums ← outcome.rows.foldlM (addEntityRow text outcome.dimension) ⟨[], [], 0, 0⟩
    return some {
      dimension := outcome.dimension
      measurement := measurement
      entities := ((ranked sums.events).take maxEntities.toNat).map (entityFact sums.names)
      entityCount := (ranked sums.events).length
      dimensionEvents := sums.total
      unattributedEvents := sums.unattributed }

/-! ## The other dimensions -/

def addSourceRow (acc : Dict String Nat × Nat) (row : IpsKeyedRow) : Dict String Nat × Nat :=
  match canonicalIp text row.sourceIp with
  | none => (acc.1, acc.2 + row.events)
  | some address => (acc.1.set address ((acc.1.get? address).getD 0 + row.events), acc.2)

def foldSourceIps (outcome : IpsCellOutcome) : Except Exc (Option IpsSourceIpFact) := do
  expect outcome .sourceIp
  return (measurementOf outcome).map (fun measurement =>
    let sums := outcome.rows.foldl (addSourceRow text) ([], 0)
    let top := ranked sums.1
    { measurement := measurement
      sourceEvents := (outcome.rows.map (fun row => row.events)).sum
      distinctSources := top.length
      top1Events := ((top.take 1).map (fun item => item.2)).sum
      top5Events := ((top.take 5).map (fun item => item.2)).sum
      unattributedEvents := sums.2
      contributors := top.take contributorLimit })

def addFanoutRow (acc : Dict String Int) (row : IpsKeyedRow) : Dict String Int :=
  match canonicalIp text row.sourceIp, row.distinctPorts with
  | some address, some ports => acc.set address (max ((acc.get? address).getD 0) ports)
  | _, _ => acc

def foldPortFanout (outcome : IpsCellOutcome) : Except Exc (Option IpsFanoutFact) := do
  expect outcome .portFanout
  return (measurementOf outcome).map (fun measurement =>
    let sums := outcome.rows.foldl (addFanoutRow text) []
    let top := sortOn (fun item : String × Int => (toLex (-item.2, item.1) : ℤ ×ₗ String)) sums
    { measurement := measurement
      maxDistinctPorts := (top.head?.map (fun item => item.2)).getD 0
      contributors := top.take contributorLimit })

def actionKey (value : String) : String := text.casefold (String.ofList (text.tables.strip value.toList))

def addActionRow (mapping : IpsFieldMapping) (acc : Nat × Nat × Nat) (row : IpsKeyedRow) : Nat × Nat × Nat :=
  let key := row.action.map (actionKey text)
  if key.any (fun key => key ∈ mapping.blockedActions.map (actionKey text)) then
    (acc.1 + row.events, acc.2.1, acc.2.2)
  else if key.any (fun key => key ∈ mapping.allowedActions.map (actionKey text)) then
    (acc.1, acc.2.1 + row.events, acc.2.2)
  else (acc.1, acc.2.1, acc.2.2 + row.events)

def foldActions (outcome : IpsCellOutcome) (mapping : IpsFieldMapping) : Except Exc (Option IpsActionFact) := do
  expect outcome .action
  match measurementOf outcome with
  | none => return none
  | some measurement =>
    require (mapping.hasAction = true) (.ipsFold "an ACTION cell needs a profile with an ACTION field")
    let counts := outcome.rows.foldl (addActionRow text mapping) (0, 0, 0)
    return some ⟨measurement, counts.1, counts.2.1, counts.2.2⟩

def foldOutcome (mapping : IpsFieldMapping) (maxEntities : Int) (outcome : IpsCellOutcome) :
    Except Exc (Option IpsFact) :=
  match outcome.dimension with
  | .totals => (foldTotals outcome).map (fun fact => fact.map IpsFact.totals)
  | .sourceIp => (foldSourceIps text outcome).map (fun fact => fact.map IpsFact.sourceIps)
  | .portFanout => (foldPortFanout text outcome).map (fun fact => fact.map IpsFact.fanout)
  | .action => (foldActions text outcome mapping).map (fun fact => fact.map IpsFact.actions)
  | .destinationPort => (foldEntityDimension text outcome maxEntities).map (fun fact => fact.map IpsFact.entities)
  | .destinationIp => (foldEntityDimension text outcome maxEntities).map (fun fact => fact.map IpsFact.entities)
  | .signature => (foldEntityDimension text outcome maxEntities).map (fun fact => fact.map IpsFact.entities)

/-! ## Coverage -/

def IpsFact.covered : IpsFact → Option (Nat × IpsMeasurement)
  | .totals _ => none
  | .entities fact => some (fact.dimensionEvents, fact.measurement)
  | .sourceIps fact => some (fact.sourceEvents, fact.measurement)
  | .fanout _ => none
  | .actions fact => some (fact.blockedEvents + fact.allowedEvents + fact.unmappedEvents, fact.measurement)

def coverage {φ : Type} [PyFloat φ] (fact : Option IpsFact) (totals : IpsTotalsFact) : Option (φ × Bool) :=
  match fact.bind IpsFact.covered with
  | none => none
  | some (covered, measurement) =>
    if totals.events = 0 then none
    else if totals.measurement ≠ .exact then none
    else some (PyFloat.divInt covered totals.events, decide (measurement = .lowerBound))

end QRadarDashboard.Ips
