import QRadarDashboard.Lib.Dict
import QRadarDashboard.Lib.PyText
import QRadarDashboard.Lib.Sort
import Mathlib.Data.Finset.Card
import Mathlib.Data.Finset.Union
import Mathlib.Data.Prod.Lex
import Mathlib.Data.String.Basic

/-!
# Classification and outage policy of log sources (`app/fleet/classification.py`, `app/fleet/outage_policy.py`)
-/

namespace QRadarDashboard.Fleet
open Lib

/-!
## The classification of log sources (`app/fleet/classification.py`)

An override wins, then an internal source, then the rules: those on groups, those on types, those on names. A level whose
best rules disagree decides nothing and is reported.
-/

inductive SourceClass where
  | WAF | IPS | FIREWALL | PROXY | VPN | LINUX | WINDOWS | NETWORK | DNS | DATABASE | EMAIL | ENDPOINT | CLOUD
  | IDENTITY | APPLICATION | QRADAR_INTERNAL | OTHER | UNCLASSIFIED
deriving DecidableEq

def SourceClass.value : SourceClass → String
  | .WAF => "WAF"
  | .IPS => "IPS"
  | .FIREWALL => "FIREWALL"
  | .PROXY => "PROXY"
  | .VPN => "VPN"
  | .LINUX => "LINUX"
  | .WINDOWS => "WINDOWS"
  | .NETWORK => "NETWORK"
  | .DNS => "DNS"
  | .DATABASE => "DATABASE"
  | .EMAIL => "EMAIL"
  | .ENDPOINT => "ENDPOINT"
  | .CLOUD => "CLOUD"
  | .IDENTITY => "IDENTITY"
  | .APPLICATION => "APPLICATION"
  | .QRADAR_INTERNAL => "QRADAR_INTERNAL"
  | .OTHER => "OTHER"
  | .UNCLASSIFIED => "UNCLASSIFIED"

def SourceClass.members : List SourceClass :=
  [.WAF, .IPS, .FIREWALL, .PROXY, .VPN, .LINUX, .WINDOWS, .NETWORK, .DNS, .DATABASE, .EMAIL, .ENDPOINT, .CLOUD,
    .IDENTITY, .APPLICATION, .QRADAR_INTERNAL, .OTHER, .UNCLASSIFIED]

theorem SourceClass.mem_members (c : SourceClass) : c ∈ members := by cases c <;> decide

theorem SourceClass.value_injective : Function.Injective value := by
  have hnodup : (members.map value).Nodup := by decide
  exact fun a b h => List.inj_on_of_nodup_map hnodup a.mem_members b.mem_members h

inductive ClassificationRuleKind where
  | GROUP | TYPE | TYPE_NAME_REGEX | NAME_REGEX | IDENTIFIER_REGEX
deriving DecidableEq

def ClassificationRuleKind.value : ClassificationRuleKind → String
  | .GROUP => "GROUP"
  | .TYPE => "TYPE"
  | .TYPE_NAME_REGEX => "TYPE_NAME_REGEX"
  | .NAME_REGEX => "NAME_REGEX"
  | .IDENTIFIER_REGEX => "IDENTIFIER_REGEX"

structure SourceFacts where
  name : String
  typeId : Option Int := none
  identifier : Option String := none
  groupIds : List Int := []
  overrideClass : Option SourceClass := none

structure TypeFacts where
  typeId : Int
  name : String
  internal : Bool := false

structure GroupFacts where
  qradarId : Int
  parentQradarId : Option Int := none

structure RuleFacts where
  id : String
  kind : ClassificationRuleKind
  pattern : String
  targetClass : SourceClass
  priority : Int := 0
  enabled : Bool := true

structure Conflict where
  basis : String
  ruleId : String
  sourceClass : SourceClass
deriving DecidableEq

structure ClassificationResult where
  sourceClass : SourceClass
  basis : String
  ruleId : Option String
  conflicts : List Conflict

/-- Python's character tables, and `re.search` of a pattern in a text: none where the pattern does not compile. -/
structure ClassifierEnv where
  unicode : UnicodeTables
  digits : DigitTables
  search : String → String → Option Bool

def levels : List (List ClassificationRuleKind) :=
  [[.GROUP], [.TYPE, .TYPE_NAME_REGEX], [.NAME_REGEX, .IDENTIFIER_REGEX]]

/-! ## The groups of a source -/

/-- `{item.qradar_id: item for item in groups}` -/
def groupsById (groups : List GroupFacts) : Dict Int GroupFacts :=
  groups.foldl (fun d item => d.set item.qradarId item) []

def parentLink (groups : Dict Int GroupFacts) (current : Int) : Option Int :=
  ((groups.get? current).bind GroupFacts.parentQradarId).filter
    (fun parent => ¬ (parent = current ∨ (parent = 0 ∧ current ≠ 0)))

def parents (groups : Dict Int GroupFacts) : Finset Int :=
  (groups.filterMap (fun item => item.2.parentQradarId)).toFinset

theorem mem_parents {groups current parent} (h : parentLink groups current = some parent) :
    parent ∈ parents groups := by
  obtain ⟨hbind, -⟩ := Option.filter_eq_some_iff.mp h
  obtain ⟨group, hgroup, hparent⟩ := Option.bind_eq_some_iff.mp hbind
  exact List.mem_toFinset.mpr (List.mem_filterMap.mpr ⟨_, Dict.mem_of_get? hgroup, hparent⟩)

/-- The `while` of `_ancestors`, on one branch. -/
def climb (groups : Dict Int GroupFacts) (current : Int) (branch : Finset Int) : Finset Int :=
  if current ∈ branch then branch
  else
    match _hlink : parentLink groups current with
    | none => insert current branch
    | some parent => climb groups parent (insert current branch)
termination_by (insert current (parents groups) \ branch).card
decreasing_by
  rename_i hfresh
  refine Finset.card_lt_card (Finset.ssubset_iff_of_subset ?_ |>.mpr ⟨current, ?_, ?_⟩)
  · intro x hx
    rw [Finset.mem_sdiff, Finset.mem_insert, Finset.mem_insert, not_or] at hx
    have hx₁ : x ∈ parents groups := hx.1.elim (fun heq => heq ▸ mem_parents _hlink) id
    exact Finset.mem_sdiff.mpr ⟨Finset.mem_insert_of_mem hx₁, hx.2.2⟩
  · exact Finset.mem_sdiff.mpr ⟨Finset.mem_insert_self _ _, hfresh⟩
  · simp

def ancestors (groupIds : List Int) (groups : Dict Int GroupFacts) : Finset Int :=
  groupIds.foldl (fun found start => found ∪ climb groups start ∅) ∅

/-! ## The rules -/

section Rules

variable (env : ClassifierEnv)

def regexMatches (pattern : String) (value : Option String) : Bool :=
  match value with
  | none => false
  | some value => (env.search pattern value).getD false

def RuleFacts.matchesSource (rule : RuleFacts) (source : SourceFacts) (typeFact : Option TypeFacts)
    (groupIds : Finset Int) : Bool :=
  match rule.kind with
  | .GROUP =>
    match env.digits.readSigned env.unicode rule.pattern.toList with
    | .ok id => id ∈ groupIds
    | .error _ => false
  | .TYPE => source.typeId.any (fun typeId => env.unicode.strip rule.pattern.toList = typeId.repr.toList)
  | .TYPE_NAME_REGEX => regexMatches env rule.pattern (typeFact.map TypeFacts.name)
  | .NAME_REGEX => regexMatches env rule.pattern (some source.name)
  | .IDENTIFIER_REGEX => regexMatches env rule.pattern source.identifier

def RuleFacts.conflict (rule : RuleFacts) : Conflict := ⟨rule.kind.value, rule.id, rule.targetClass⟩

def RuleFacts.sortKey (rule : RuleFacts) : Int ×ₗ String ×ₗ String ×ₗ String :=
  toLex (-rule.priority, toLex (rule.kind.value, toLex (rule.pattern, rule.id)))

def ofLevel (kinds : List ClassificationRuleKind) (candidates : List RuleFacts) : List RuleFacts :=
  candidates.filter (fun rule => rule.kind ∈ kinds)

def settleLevels (candidates : List RuleFacts) :
    Nat → List (List ClassificationRuleKind) → List Conflict → Option (RuleFacts × Nat) × List Conflict
  | _, [], conflicts => (none, conflicts)
  | index, kinds :: rest, conflicts =>
    let level := ofLevel kinds candidates
    match (level.map RuleFacts.priority).max? with
    | none => settleLevels candidates (index + 1) rest conflicts
    | some topPriority =>
      let top := level.filter (fun rule => rule.priority = topPriority)
      if 1 < (top.map RuleFacts.targetClass).dedup.length then
        settleLevels candidates (index + 1) rest (conflicts ++ top.map RuleFacts.conflict)
      else (top.head?.map (fun chosen => (chosen, index)), conflicts)

def lowerConflicts (candidates : List RuleFacts) (winnerLevel : Int) (winnerClass : SourceClass) : List Conflict :=
  levels.zipIdx.flatMap (fun item =>
    if (item.2 : Int) ≤ winnerLevel then []
    else (candidates.filter (fun rule => rule.kind ∈ item.1 ∧ rule.targetClass ≠ winnerClass)).map RuleFacts.conflict)

def Conflict.key (conflict : Conflict) : String ×ₗ String ×ₗ String :=
  toLex (conflict.basis, toLex (conflict.ruleId, conflict.sourceClass.value))

def orderConflicts (conflicts : List Conflict) : List Conflict :=
  let unique : Dict (String ×ₗ String ×ₗ String) Conflict := conflicts.foldl (fun d item => d.set item.key item) []
  (sortOn (fun key => key) unique.keys).filterMap unique.get?

def verdict (source : SourceFacts) (typeFact : Option TypeFacts) (candidates : List RuleFacts) : ClassificationResult :=
  let finish (winnerClass : SourceClass) (basis : String) (ruleId : Option String) (winnerLevel : Int)
      (conflicts : List Conflict) : ClassificationResult :=
    ⟨winnerClass, basis, ruleId, orderConflicts (conflicts ++ lowerConflicts candidates winnerLevel winnerClass)⟩
  match source.overrideClass with
  | some override => finish override "OVERRIDE" none (-1) []
  | none =>
    if typeFact.any TypeFacts.internal ∨ source.identifier = some "127.0.0.1" then
      finish .QRADAR_INTERNAL "INTERNAL" none (-1) []
    else
      match settleLevels candidates 0 levels [] with
      | (some (chosen, level), conflicts) =>
        finish chosen.targetClass chosen.kind.value (some chosen.id) level conflicts
      | (none, conflicts) => finish .UNCLASSIFIED SourceClass.UNCLASSIFIED.value none levels.length conflicts

def typeFactOf (source : SourceFacts) (types : List TypeFacts) : Option TypeFacts :=
  types.find? (fun item => some item.typeId = source.typeId)

def matchingRules (source : SourceFacts) (rules : List RuleFacts) (typeFact : Option TypeFacts) (groupIds : Finset Int) :
    List RuleFacts :=
  rules.filter (fun rule => rule.enabled && rule.matchesSource env source typeFact groupIds)

def classify (source : SourceFacts) (rules : List RuleFacts) (types : List TypeFacts) (groups : List GroupFacts) :
    ClassificationResult :=
  let typeFact := typeFactOf source types
  let groupIds := ancestors source.groupIds (groupsById groups)
  verdict source typeFact (sortOn RuleFacts.sortKey (matchingRules env source rules typeFact groupIds))

end Rules

/-!
## Outage alert policy (`app/fleet/outage_policy.py`)

A row for the source wins over a row for its class, and that over the default. Within one scope a row for the
source's instance wins over a global one.
-/

inductive OutagePolicyMode where
  | alert | recordOnly
deriving DecidableEq

inductive OutagePolicyScope where
  | «class» | source
deriving DecidableEq

structure OutagePolicyRow where
  instanceId : Option String
  scopeKind : OutagePolicyScope
  scopeValue : String
  mode : OutagePolicyMode
  silenceGraceBuckets : Option Int

structure ResolvedOutage where
  mode : OutagePolicyMode
  silenceGraceBuckets : Option Int
  basis : String

def pick (rows : List OutagePolicyRow) (scope : OutagePolicyScope) (value : String) (instanceId : Option String) :
    Option OutagePolicyRow :=
  let candidates := rows.filter (fun row => row.scopeKind = scope ∧ row.scopeValue = value)
  let own := instanceId.bind (fun id => candidates.find? (fun row => row.instanceId = some id))
  own.or (candidates.find? (fun row => row.instanceId = none))

def resolve (rows : List OutagePolicyRow) (logSourceId sourceClass instanceId : Option String)
    (default : OutagePolicyMode) : ResolvedOutage :=
  match logSourceId.bind (fun id => pick rows .source id instanceId) with
  | some row => ⟨row.mode, row.silenceGraceBuckets, "SOURCE"⟩
  | none =>
    match sourceClass.bind (fun value => pick rows .«class» value instanceId) with
    | some row => ⟨row.mode, row.silenceGraceBuckets, "CLASS"⟩
    | none => ⟨default, none, "DEFAULT"⟩

end QRadarDashboard.Fleet
