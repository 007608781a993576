import QRadarDashboard.Fleet.Classification
import Mathlib.Order.Bounds.Basic

/-!
# The precedence of a classification
-/

namespace QRadarDashboard.Fleet
open Lib

/-! ## The groups -/

section Groups

variable {groups : Dict Int GroupFacts}

theorem climb_of_mem {current branch} (h : current ∈ branch) : climb groups current branch = branch := by
  rw [climb, if_pos h]

theorem climb_of_none {current branch} (h : current ∉ branch)
    (hlink : parentLink groups current = none) : climb groups current branch = insert current branch := by
  rw [climb, if_neg h]
  split
  · rfl
  · simp_all

theorem climb_of_some {current parent branch} (h : current ∉ branch) (hlink : parentLink groups current = some parent) :
    climb groups current branch = climb groups parent (insert current branch) := by
  rw [climb, if_neg h]
  split
  · simp_all
  · rename_i found hfound
    rw [Option.some.inj (hlink.symm.trans hfound)]

theorem subset_climb (current : Int) (branch : Finset Int) : insert current branch ⊆ climb groups current branch := by
  induction current, branch using climb.induct groups with
  | case1 current branch hmem => rw [climb_of_mem hmem, Finset.insert_eq_of_mem hmem]
  | case2 current branch hmem hlink => rw [climb_of_none hmem hlink]
  | case3 current branch hmem parent hlink ih =>
    rw [climb_of_some hmem hlink]
    exact (Finset.subset_insert _ _).trans ih

theorem climb_closed (current : Int) (branch : Finset Int)
    (h : ∀ g ∈ branch, ∀ p, parentLink groups g = some p → p ∈ insert current branch) :
    ∀ g ∈ climb groups current branch, ∀ p, parentLink groups g = some p → p ∈ climb groups current branch := by
  induction current, branch using climb.induct groups with
  | case1 current branch hmem =>
    rw [climb_of_mem hmem]
    rwa [Finset.insert_eq_of_mem hmem] at h
  | case2 current branch hmem hlink =>
    rw [climb_of_none hmem hlink]
    intro g hg p hp
    rcases Finset.mem_insert.mp hg with rfl | hg
    · rw [hlink] at hp
      cases hp
    · exact h g hg p hp
  | case3 current branch hmem parent hlink ih =>
    rw [climb_of_some hmem hlink]
    refine ih (fun g hg p hp => ?_)
    rcases Finset.mem_insert.mp hg with rfl | hg
    · cases hlink.symm.trans hp
      exact Finset.mem_insert_self _ _
    · exact Finset.mem_insert_of_mem (h g hg p hp)

theorem climb_least {S : Set Int} (hS : ∀ g ∈ S, ∀ p, parentLink groups g = some p → p ∈ S) (current : Int)
    (branch : Finset Int) (hcurrent : current ∈ S) (hbranch : ∀ g ∈ branch, g ∈ S) :
    ∀ g ∈ climb groups current branch, g ∈ S := by
  have hinsert : ∀ {current : Int} {branch : Finset Int}, current ∈ S → (∀ g ∈ branch, g ∈ S) →
      ∀ g ∈ insert current branch, g ∈ S := by
    intro current branch hcurrent hbranch g hg
    rcases Finset.mem_insert.mp hg with rfl | hg
    · exact hcurrent
    · exact hbranch g hg
  induction current, branch using climb.induct groups with
  | case1 current branch hmem =>
    rw [climb_of_mem hmem]
    exact hbranch
  | case2 current branch hmem hlink =>
    rw [climb_of_none hmem hlink]
    exact hinsert hcurrent hbranch
  | case3 current branch hmem parent hlink ih =>
    rw [climb_of_some hmem hlink]
    exact ih (hS current hcurrent parent hlink) (hinsert hcurrent hbranch)

theorem mem_ancestors {groupIds g} : g ∈ ancestors groupIds groups ↔ ∃ start ∈ groupIds, g ∈ climb groups start ∅ := by
  have hfold : ∀ found : Finset Int, g ∈ groupIds.foldl (fun found start => found ∪ climb groups start ∅) found ↔
      g ∈ found ∨ ∃ start ∈ groupIds, g ∈ climb groups start ∅ := by
    induction groupIds with
    | nil => simp
    | cons start rest ih =>
      intro found
      rw [List.foldl_cons, ih, Finset.mem_union, or_assoc, List.exists_mem_cons_iff]
  rw [ancestors, hfold]
  simp

end Groups

def ParentLink (groups : List GroupFacts) (g p : Int) : Prop :=
  ∃ group ∈ groups, group.qradarId = g ∧ group.parentQradarId = some p ∧ ¬ (p = 0 ∧ g ≠ 0)

/-- The sets that hold the groups of a source and are closed under the parent links. -/
def GroupClosed (groups : List GroupFacts) (groupIds : List Int) : Set (Set Int) :=
  {S | (∀ g ∈ groupIds, g ∈ S) ∧ ∀ g ∈ S, ∀ p, ParentLink groups g p → p ∈ S}

section Inventory

variable {groups : List GroupFacts}

theorem get?_groupsById (h : (groups.map GroupFacts.qradarId).Nodup) {g group} :
    (groupsById groups).get? g = some group ↔ group ∈ groups ∧ group.qradarId = g := by
  have hbuilt : groupsById groups = groups.map (fun item => (item.qradarId, item)) :=
    Dict.foldl_set_of_nodup GroupFacts.qradarId (fun item => item) (by simpa [Dict.keys] using h)
  have hkeys : (groupsById groups).keys.Nodup :=
    Dict.nodup_keys_foldl_set GroupFacts.qradarId (fun item => item) groups Dict.nodup_keys_nil
  rw [Dict.get?_eq_some_iff hkeys, hbuilt, List.mem_map]
  constructor
  · rintro ⟨item, hitem, heq⟩
    cases heq
    exact ⟨hitem, rfl⟩
  · rintro ⟨hitem, rfl⟩
    exact ⟨group, hitem, rfl⟩

theorem parentLink_groupsById (h : (groups.map GroupFacts.qradarId).Nodup) {g p} :
    parentLink (groupsById groups) g = some p ↔ ParentLink groups g p ∧ p ≠ g := by
  simp only [parentLink, Option.filter_eq_some_iff, Option.bind_eq_some_iff, get?_groupsById h, decide_eq_true_eq,
    not_or, ParentLink]
  constructor
  · rintro ⟨⟨group, ⟨hgroup, rfl⟩, hparent⟩, hne, hroot⟩
    exact ⟨⟨group, hgroup, rfl, hparent, hroot⟩, hne⟩
  · rintro ⟨⟨group, hgroup, rfl, hparent, hroot⟩, hne⟩
    exact ⟨⟨group, ⟨hgroup, rfl⟩, hparent⟩, hne, hroot⟩

theorem isLeast_ancestors (h : (groups.map GroupFacts.qradarId).Nodup) (groupIds : List Int) :
    IsLeast (GroupClosed groups groupIds) (ancestors groupIds (groupsById groups)) := by
  refine ⟨⟨fun g hg => ?_, fun g hg p hp => ?_⟩, fun S hS g hg => ?_⟩
  · exact mem_ancestors.mpr ⟨g, hg, subset_climb g ∅ (Finset.mem_insert_self _ _)⟩
  · by_cases hne : p = g
    · rwa [hne]
    · obtain ⟨start, hstart, hclimb⟩ := mem_ancestors.mp hg
      exact mem_ancestors.mpr ⟨start, hstart,
        climb_closed start ∅ (by simp) g hclimb p ((parentLink_groupsById h).mpr ⟨hp, hne⟩)⟩
  · obtain ⟨start, hstart, hclimb⟩ := mem_ancestors.mp hg
    refine climb_least (fun g hg p hp => ?_) start ∅ (hS.1 start hstart) (by simp) g hclimb
    exact hS.2 g hg p ((parentLink_groupsById h).mp hp).1

/-- The groups of a source do not depend on the order of its groups, nor on that of the inventory. -/
theorem ancestors_perm {groups' groupIds groupIds'}
    (h : (groups.map GroupFacts.qradarId).Nodup) (hgroups : groups'.Perm groups) (hids : groupIds'.Perm groupIds) :
    ancestors groupIds' (groupsById groups') = ancestors groupIds (groupsById groups) := by
  have hleast' := isLeast_ancestors ((hgroups.map _).nodup_iff.mpr h) groupIds'
  have hclosed : GroupClosed groups' groupIds' = GroupClosed groups groupIds := by
    ext S
    simp only [GroupClosed, ParentLink, Set.mem_ofPred_eq, hids.mem_iff, hgroups.mem_iff]
  rw [hclosed] at hleast'
  exact Finset.coe_injective (hleast'.unique (isLeast_ancestors h groupIds))

end Inventory

/-! ## The order of the rows -/

theorem typeFactOf_perm {types types'} (h : (types.map TypeFacts.typeId).Nodup)
    (hperm : types'.Perm types) (source : SourceFacts) : typeFactOf source types' = typeFactOf source types := by
  have hone : ∀ {types : List TypeFacts} {item : TypeFacts}, (types.map TypeFacts.typeId).Nodup →
      (typeFactOf source types = some item ↔ item ∈ types ∧ some item.typeId = source.typeId) := by
    intro types item hnodup
    constructor
    · intro hfind
      exact ⟨List.mem_of_find?_eq_some hfind, by simpa using List.find?_some hfind⟩
    · rintro ⟨hitem, htype⟩
      cases hfind : typeFactOf source types with
      | none => exact absurd htype (by simpa using List.find?_eq_none.mp hfind item hitem)
      | some found =>
        have hfound : some found.typeId = source.typeId := by simpa using List.find?_some hfind
        have hsame : found.typeId = item.typeId := Option.some.inj (hfound.trans htype.symm)
        rw [List.inj_on_of_nodup_map hnodup (List.mem_of_find?_eq_some hfind) hitem hsame]
  refine Option.ext (fun item => ?_)
  rw [hone h, hone ((hperm.map _).nodup_iff.mpr h), hperm.mem_iff]

theorem sortOn_sortKey_perm {rules rules'} (h : (rules.map RuleFacts.id).Nodup)
    (hperm : rules'.Perm rules) : sortOn RuleFacts.sortKey rules' = sortOn RuleFacts.sortKey rules := by
  refine (sortOn_eq_of_perm hperm.symm (fun a ha b hb hkey => ?_)).symm
  simp only [RuleFacts.sortKey, EmbeddingLike.apply_eq_iff_eq, Prod.mk.injEq] at hkey
  exact List.inj_on_of_nodup_map h ha hb hkey.2.2.2

/-! ## The levels -/

section Levels

structure Best (rules : List RuleFacts) (kinds : List ClassificationRuleKind) (rule : RuleFacts) : Prop where
  matches_ : rule ∈ rules
  kind : rule.kind ∈ kinds
  top : ∀ other ∈ rules, other.kind ∈ kinds → other.priority ≤ rule.priority

def Names (rules : List RuleFacts) (kinds : List ClassificationRuleKind) (c : SourceClass) : Prop :=
  (∃ rule, Best rules kinds rule) ∧ ∀ rule, Best rules kinds rule → rule.targetClass = c

def Tied (rules : List RuleFacts) (kinds : List ClassificationRuleKind) : Prop :=
  ∃ rule rule', Best rules kinds rule ∧ Best rules kinds rule' ∧ rule.targetClass ≠ rule'.targetClass

variable {rules : List RuleFacts} {kinds : List ClassificationRuleKind}

theorem Tied.not_names (h : Tied rules kinds) (c : SourceClass) : ¬ Names rules kinds c := by
  rintro ⟨-, hall⟩
  obtain ⟨rule, rule', hrule, hrule', hne⟩ := h
  exact hne ((hall rule hrule).trans (hall rule' hrule').symm)

theorem mem_ofLevel {rule} : rule ∈ ofLevel kinds rules ↔ rule ∈ rules ∧ rule.kind ∈ kinds := by
  simp [ofLevel]

theorem best_iff {topPriority} (htop : ((ofLevel kinds rules).map RuleFacts.priority).max? = some topPriority)
    {rule} : rule ∈ (ofLevel kinds rules).filter (fun rule => rule.priority = topPriority) ↔
      Best rules kinds rule := by
  obtain ⟨hmem, hle⟩ := List.max?_eq_some_iff.mp htop
  obtain ⟨best, hbest, rfl⟩ := List.mem_map.mp hmem
  rw [List.mem_filter, mem_ofLevel, decide_eq_true_eq]
  constructor
  · rintro ⟨⟨hrule, hkind⟩, hpriority⟩
    refine ⟨hrule, hkind, fun other hother hkind' => hpriority ▸ hle _ ?_⟩
    exact List.mem_map_of_mem (mem_ofLevel.mpr ⟨hother, hkind'⟩)
  · rintro ⟨hrule, hkind, hall⟩
    obtain ⟨hbest, hbestKind⟩ := mem_ofLevel.mp hbest
    refine ⟨⟨hrule, hkind⟩, le_antisymm (hle _ ?_) (hall best hbest hbestKind)⟩
    exact List.mem_map_of_mem (mem_ofLevel.mpr ⟨hrule, hkind⟩)

theorem one_lt_dedup_iff {α : Type} [DecidableEq α] {l : List α} : 1 < l.dedup.length ↔ ∃ a ∈ l, ∃ b ∈ l, a ≠ b := by
  rw [← List.card_toFinset, Finset.one_lt_card]
  simp

inductive Settled (rules : List RuleFacts) (first : Nat) (conflicts : List Conflict)
    (levels : List (List ClassificationRuleKind)) : Option (RuleFacts × Nat) × List Conflict → Prop
  | decided {before after kinds chosen out} : levels = before ++ kinds :: after → Best rules kinds chosen →
      Names rules kinds chosen.targetClass → (∀ kinds ∈ before, ∀ c, ¬ Names rules kinds c) →
      (∀ x, x ∈ out ↔ x ∈ conflicts ∨ ∃ kinds ∈ before, Tied rules kinds ∧ ∃ rule, Best rules kinds rule ∧ x = rule.conflict) →
      Settled rules first conflicts levels (some (chosen, first + before.length), out)
  | undecided {out} : (∀ kinds ∈ levels, ∀ c, ¬ Names rules kinds c) →
      (∀ x, x ∈ out ↔ x ∈ conflicts ∨ ∃ kinds ∈ levels, Tied rules kinds ∧ ∃ rule, Best rules kinds rule ∧ x = rule.conflict) →
      Settled rules first conflicts levels (none, out)

theorem Settled.skip {first conflicts added rest r} (hnames : ∀ c, ¬ Names rules kinds c)
    (hadded : ∀ x, x ∈ added ↔ Tied rules kinds ∧ ∃ rule, Best rules kinds rule ∧ x = rule.conflict)
    (h : Settled rules (first + 1) (conflicts ++ added) rest r) : Settled rules first conflicts (kinds :: rest) r := by
  cases h with
  | @decided before after level chosen out hsplit hbest hchosen hbefore hout =>
    have hplace : first + 1 + before.length = first + (kinds :: before).length := by
      rw [List.length_cons]
      omega
    rw [hplace]
    refine .decided (by rw [hsplit, List.cons_append]) hbest hchosen ?_ (fun x => ?_)
    · exact List.forall_mem_cons.mpr ⟨hnames, hbefore⟩
    · rw [hout, List.mem_append, hadded, or_assoc, List.exists_mem_cons_iff]
  | undecided hnone hout =>
    refine .undecided (List.forall_mem_cons.mpr ⟨hnames, hnone⟩) (fun x => ?_)
    rw [hout, List.mem_append, hadded, or_assoc, List.exists_mem_cons_iff]

theorem settleLevels_settled (rules : List RuleFacts) (levels : List (List ClassificationRuleKind)) (first : Nat)
    (conflicts : List Conflict) : Settled rules first conflicts levels (settleLevels rules first levels conflicts) := by
  induction levels generalizing first conflicts with
  | nil => exact .undecided (by simp) (by simp)
  | cons kinds rest ih =>
    rw [settleLevels]
    cases htop : ((ofLevel kinds rules).map RuleFacts.priority).max? with
    | none =>
      have hempty : ∀ rule, ¬ Best rules kinds rule := by
        intro rule hbest
        rw [List.max?_eq_none_iff, List.map_eq_nil_iff] at htop
        have hmem := mem_ofLevel.mpr ⟨hbest.matches_, hbest.kind⟩
        rw [htop] at hmem
        cases hmem
      have hnames : ∀ c, ¬ Names rules kinds c := by
        rintro c ⟨⟨rule, hbest⟩, -⟩
        exact hempty rule hbest
      have hadded : ∀ x, x ∈ ([] : List Conflict) ↔
          Tied rules kinds ∧ ∃ rule, Best rules kinds rule ∧ x = rule.conflict := by
        intro x
        simp [hempty]
      exact Settled.skip hnames hadded (by simpa using ih (first + 1) conflicts)
    | some topPriority =>
      simp only
      set top := (ofLevel kinds rules).filter (fun rule => rule.priority = topPriority) with htopList
      have hbest : ∀ rule, rule ∈ top ↔ Best rules kinds rule := fun rule => best_iff htop
      split
      · rename_i hmany
        have htied : Tied rules kinds := by
          obtain ⟨a, ha, b, hb, hne⟩ := one_lt_dedup_iff.mp hmany
          obtain ⟨rule, hrule, rfl⟩ := List.mem_map.mp ha
          obtain ⟨rule', hrule', rfl⟩ := List.mem_map.mp hb
          exact ⟨rule, rule', (hbest rule).mp hrule, (hbest rule').mp hrule', hne⟩
        refine Settled.skip htied.not_names (fun x => ?_) (ih (first + 1) _)
        simp only [List.mem_map, hbest, htied, true_and]
        exact exists_congr (fun rule => and_congr_right (fun _ => eq_comm))
      · rename_i hone
        obtain ⟨best, hmem, -⟩ := List.mem_map.mp (List.max?_eq_some_iff.mp htop).1
        have hsome : ∃ chosen, top.head? = some chosen := by
          cases hcase : top with
          | nil =>
            obtain ⟨hm, -⟩ := List.max?_eq_some_iff.mp htop
            obtain ⟨rule, hrule, hpriority⟩ := List.mem_map.mp hm
            have : rule ∈ top := List.mem_filter.mpr ⟨hrule, by simpa using hpriority⟩
            rw [hcase] at this
            cases this
          | cons chosen _ => exact ⟨chosen, rfl⟩
        obtain ⟨chosen, hchosen⟩ := hsome
        have hchosenBest := (hbest chosen).mp (List.mem_of_mem_head? hchosen)
        have hall : Names rules kinds chosen.targetClass := by
          refine ⟨⟨chosen, hchosenBest⟩, fun rule hrule => ?_⟩
          by_contra hne
          refine hone (one_lt_dedup_iff.mpr ⟨_, List.mem_map_of_mem ((hbest rule).mpr hrule), _,
            List.mem_map_of_mem ((hbest chosen).mpr hchosenBest), hne⟩)
        rw [hchosen]
        exact @Settled.decided _ _ _ _ [] rest kinds chosen conflicts rfl hchosenBest hall (by simp) (by simp)

end Levels

/-! ## The conflicts -/

theorem Conflict.key_injective : Function.Injective Conflict.key := by
  rintro ⟨basis, ruleId, c⟩ ⟨basis', ruleId', c'⟩ h
  simp only [Conflict.key, EmbeddingLike.apply_eq_iff_eq, Prod.mk.injEq] at h
  rw [h.1, h.2.1, SourceClass.value_injective h.2.2]

theorem mem_orderConflicts {conflicts x} : x ∈ orderConflicts conflicts ↔ x ∈ conflicts := by
  simp only [orderConflicts, List.mem_filterMap, mem_sortOn]
  set unique : Dict (String ×ₗ String ×ₗ String) Conflict :=
    conflicts.foldl (fun d item => d.set item.key item) []
  have hget := fun key => Dict.get?_foldl_set Conflict.key (fun item => item) conflicts [] key
  constructor
  · rintro ⟨key, -, hx⟩
    have h := hget key
    rw [hx] at h
    rcases h with ⟨item, hitem, -, rfl⟩ | h
    · exact hitem
    · cases h
  · intro hx
    refine ⟨x.key, ?_, ?_⟩
    all_goals
      have h := hget x.key
      cases hfound : unique.get? x.key with
      | none =>
        rw [hfound] at h
        exact absurd rfl (h.2 x hx)
      | some y =>
        rw [hfound] at h
        rcases h with ⟨item, -, hkey, rfl⟩ | h
        · first
            | exact Dict.mem_keys_of_get? hfound
            | rw [Conflict.key_injective hkey]
        · cases h

theorem mem_lowerConflicts {rules winnerLevel winnerClass x} :
    x ∈ lowerConflicts rules winnerLevel winnerClass ↔
      ∃ kinds, ∃ index : Nat, levels[index]? = some kinds ∧ winnerLevel < index ∧
      ∃ rule ∈ rules, rule.kind ∈ kinds ∧ rule.targetClass ≠ winnerClass ∧ x = rule.conflict := by
  simp only [lowerConflicts, List.mem_flatMap, Prod.exists, List.mem_zipIdx_iff_getElem?]
  refine exists_congr (fun kinds => exists_congr (fun index => and_congr_right (fun _ => ?_)))
  split
  · rename_i hle
    simp [not_lt.mpr hle]
  · rename_i hlt
    simp only [not_le.mp hlt, true_and, List.mem_map, List.mem_filter, decide_eq_true_eq, and_assoc]
    exact exists_congr (fun rule => and_congr_right (fun _ => and_congr_right (fun _ => and_congr_right (fun _ => eq_comm))))

/-! ## The decision -/

/-- The class of a source with the levels above the one that decided, and those below it. -/
inductive Decision (source : SourceFacts) (typeFact : Option TypeFacts) (rules : List RuleFacts) :
    SourceClass → List (List ClassificationRuleKind) → List (List ClassificationRuleKind) → Prop
  | override {c} : source.overrideClass = some c → Decision source typeFact rules c [] levels
  | internal : source.overrideClass = none →
      typeFact.any TypeFacts.internal ∨ source.identifier = some "127.0.0.1" →
      Decision source typeFact rules .QRADAR_INTERNAL [] levels
  | level {above kinds below c} : source.overrideClass = none →
      ¬ (typeFact.any TypeFacts.internal ∨ source.identifier = some "127.0.0.1") → levels = above ++ kinds :: below →
      (∀ kinds ∈ above, ∀ c, ¬ Names rules kinds c) → Names rules kinds c → Decision source typeFact rules c above below
  | unclassified : source.overrideClass = none →
      ¬ (typeFact.any TypeFacts.internal ∨ source.identifier = some "127.0.0.1") →
      (∀ kinds ∈ levels, ∀ c, ¬ Names rules kinds c) → Decision source typeFact rules .UNCLASSIFIED levels []

/-- The conflicts of a decision: the best rules of the tied levels above it, and the rules below it that name another
class. -/
def Conflicting (rules : List RuleFacts) (c : SourceClass) (above below : List (List ClassificationRuleKind))
    (x : Conflict) : Prop :=
  (∃ kinds ∈ above, Tied rules kinds ∧ ∃ rule, Best rules kinds rule ∧ x = rule.conflict) ∨
    ∃ kinds ∈ below, ∃ rule ∈ rules, rule.kind ∈ kinds ∧ rule.targetClass ≠ c ∧ x = rule.conflict

theorem lowerConflicts_all {rules c x} :
    x ∈ lowerConflicts rules (-1) c ↔
      ∃ kinds ∈ levels, ∃ rule ∈ rules, rule.kind ∈ kinds ∧ rule.targetClass ≠ c ∧ x = rule.conflict := by
  rw [mem_lowerConflicts]
  refine exists_congr (fun kinds => ?_)
  rw [List.mem_iff_getElem?]
  constructor
  · rintro ⟨index, hindex, -, hrule⟩
    exact ⟨⟨index, hindex⟩, hrule⟩
  · rintro ⟨⟨index, hindex⟩, hrule⟩
    exact ⟨index, hindex, by omega, hrule⟩

theorem lowerConflicts_below {rules c x above below kinds}
    (hsplit : levels = above ++ kinds :: below) : x ∈ lowerConflicts rules (0 + above.length : Nat) c ↔
      ∃ kinds ∈ below, ∃ rule ∈ rules, rule.kind ∈ kinds ∧ rule.targetClass ≠ c ∧ x = rule.conflict := by
  rw [mem_lowerConflicts, hsplit]
  refine exists_congr (fun level => ?_)
  rw [List.mem_iff_getElem?]
  constructor
  · rintro ⟨index, hindex, hlt, hrule⟩
    have hlt : above.length < index := by omega
    obtain ⟨i, rfl⟩ := Nat.exists_eq_add_of_lt hlt
    rw [List.getElem?_append_right (by omega), show above.length + i + 1 - above.length = i + 1 by omega,
      List.getElem?_cons_succ] at hindex
    exact ⟨⟨i, hindex⟩, hrule⟩
  · rintro ⟨⟨i, hi⟩, hrule⟩
    refine ⟨above.length + (i + 1), ?_, by omega, hrule⟩
    rw [List.getElem?_append_right (by omega), Nat.add_sub_cancel_left, List.getElem?_cons_succ, hi]

theorem lowerConflicts_none {rules c x} : x ∉ lowerConflicts rules levels.length c := by
  rw [mem_lowerConflicts]
  rintro ⟨kinds, index, hindex, hlt, -⟩
  have := (List.getElem?_eq_some_iff.mp hindex).1
  omega

theorem best_congr {rules rules'} (h : ∀ rule, rule ∈ rules ↔ rule ∈ rules')
    {kinds rule} : Best rules kinds rule ↔ Best rules' kinds rule := by
  constructor
  · rintro ⟨hrule, hkind, htop⟩
    exact ⟨(h rule).mp hrule, hkind, fun other hother => htop other ((h other).mpr hother)⟩
  · rintro ⟨hrule, hkind, htop⟩
    exact ⟨(h rule).mpr hrule, hkind, fun other hother => htop other ((h other).mp hother)⟩

theorem names_congr {rules rules'} (h : ∀ rule, rule ∈ rules ↔ rule ∈ rules')
    {kinds c} : Names rules kinds c ↔ Names rules' kinds c := by
  simp only [Names, best_congr h]

theorem conflicting_congr {rules rules'} (h : ∀ rule, rule ∈ rules ↔ rule ∈ rules') {c above below x} :
    Conflicting rules c above below x ↔ Conflicting rules' c above below x := by
  simp only [Conflicting, Tied, best_congr h, h]

theorem Decision.of_mem_iff {source typeFact rules rules'} (h : ∀ rule, rule ∈ rules ↔ rule ∈ rules') {c above below}
    (hd : Decision source typeFact rules c above below) : Decision source typeFact rules' c above below := by
  cases hd with
  | override hoverride => exact .override hoverride
  | internal hoverride hinternal => exact .internal hoverride hinternal
  | level hoverride hinternal hsplit habove hnames =>
    refine .level hoverride hinternal hsplit (fun kinds hkinds c => ?_) ((names_congr h).mp hnames)
    exact fun hc => habove kinds hkinds c ((names_congr h).mpr hc)
  | unclassified hoverride hinternal hnone =>
    exact .unclassified hoverride hinternal (fun kinds hkinds c hc => hnone kinds hkinds c ((names_congr h).mpr hc))

theorem verdict_decision (source : SourceFacts) (typeFact : Option TypeFacts) (rules : List RuleFacts) :
    ∃ above below, Decision source typeFact rules (verdict source typeFact rules).sourceClass above below ∧
      ∀ x, x ∈ (verdict source typeFact rules).conflicts ↔
        Conflicting rules (verdict source typeFact rules).sourceClass above below x := by
  unfold verdict
  simp only [Conflicting]
  cases hoverride : source.overrideClass with
  | some c =>
    refine ⟨[], levels, .override hoverride, fun x => ?_⟩
    simp [mem_orderConflicts, lowerConflicts_all]
  | none =>
    simp only
    split
    · rename_i hinternal
      refine ⟨[], levels, .internal hoverride hinternal, fun x => ?_⟩
      simp [mem_orderConflicts, lowerConflicts_all]
    · rename_i hinternal
      have hsettled := settleLevels_settled rules levels 0 []
      generalize settleLevels rules 0 levels [] = r at hsettled
      cases hsettled with
      | @decided before after kinds chosen out hsplit hbest hnames hbefore hout =>
        refine ⟨before, after, .level hoverride hinternal hsplit hbefore hnames, fun x => ?_⟩
        simp only [mem_orderConflicts, List.mem_append, hout, List.not_mem_nil, false_or, lowerConflicts_below hsplit]
      | undecided hnone hout =>
        refine ⟨levels, [], .unclassified hoverride hinternal hnone, fun x => ?_⟩
        simp [mem_orderConflicts, hout, lowerConflicts_none]

end QRadarDashboard.Fleet
