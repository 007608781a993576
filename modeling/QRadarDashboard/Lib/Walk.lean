import Mathlib.Data.Finset.Card

/-!
# Breadth-first walks

A walk keeps the nodes it has met and those whose links it has still to follow.
-/

namespace QRadarDashboard.Lib

variable {α : Type} [DecidableEq α]

structure Links (α : Type) where
  next : α → List α
  nodes : Finset α
  next_mem : ∀ a, ∀ b ∈ next a, b ∈ nodes

def unmet (met : List α) : List α → List α
  | [] => []
  | a :: rest => if a ∈ met then unmet met rest else a :: unmet (met ++ [a]) rest

section Unmet

variable {met : List α}

theorem mem_unmet {l a} : a ∈ unmet met l ↔ a ∈ l ∧ a ∉ met := by
  induction l generalizing met with
  | nil => simp [unmet]
  | cons b rest ih =>
    rw [unmet]
    split
    · rename_i hb
      rw [ih, List.mem_cons]
      exact ⟨fun h => ⟨Or.inr h.1, h.2⟩, fun h => ⟨h.1.resolve_left (fun hab => h.2 (hab ▸ hb)), h.2⟩⟩
    · rename_i hb
      rw [List.mem_cons, List.mem_cons, ih, List.mem_append, List.mem_singleton, not_or]
      constructor
      · rintro (rfl | ⟨hrest, hmet, -⟩)
        · exact ⟨Or.inl rfl, hb⟩
        · exact ⟨Or.inr hrest, hmet⟩
      · rintro ⟨rfl | hrest, hmet⟩
        · exact Or.inl rfl
        · by_cases hab : a = b
          · exact Or.inl hab
          · exact Or.inr ⟨hrest, hmet, hab⟩

theorem nodup_append_unmet {l} (h : met.Nodup) : (met ++ unmet met l).Nodup := by
  induction l generalizing met with
  | nil => simpa [unmet] using h
  | cons a rest ih =>
    rw [unmet]
    split
    · exact ih h
    · rename_i ha
      have hnext : (met ++ [a]).Nodup := by
        rw [List.nodup_append_comm, List.singleton_append, List.nodup_cons]
        exact ⟨ha, h⟩
      simpa using ih hnext

end Unmet

namespace Links

variable (links : Links α)

def weight (met frontier : List α) : Nat := 2 * (links.nodes \ met.toFinset).card + frontier.length

variable {links}

theorem weight_unmet {met rest current} (hmet : met.Nodup) :
    links.weight (met ++ unmet met (links.next current)) (rest ++ unmet met (links.next current)) <
      links.weight met (current :: rest) := by
  set fresh := unmet met (links.next current) with hfresh
  have hsub : fresh.toFinset ⊆ links.nodes \ met.toFinset := by
    intro a ha
    obtain ⟨hnext, hnew⟩ := mem_unmet.mp (List.mem_toFinset.mp ha)
    exact Finset.mem_sdiff.mpr ⟨links.next_mem _ _ hnext, fun h => hnew (List.mem_toFinset.mp h)⟩
  have hcard : fresh.toFinset.card = fresh.length :=
    List.toFinset_card_of_nodup (List.Nodup.of_append_right (nodup_append_unmet hmet))
  have hrest : links.nodes \ (met ++ fresh).toFinset = (links.nodes \ met.toFinset) \ fresh.toFinset := by
    rw [List.toFinset_append, Finset.sdiff_union_distrib, Finset.sdiff_sdiff_left']
  have hle := Finset.card_le_card hsub
  rw [weight, weight, hrest, Finset.card_sdiff_of_subset hsub, hcard, List.length_append, List.length_cons]
  omega

variable (links)

def explore (met frontier : List α) (hmet : met.Nodup) : List α :=
  match frontier with
  | [] => met
  | current :: rest =>
    let fresh := unmet met (links.next current)
    explore (met ++ fresh) (rest ++ fresh) (nodup_append_unmet hmet)
termination_by links.weight met frontier
decreasing_by exact weight_unmet hmet

def Link (a b : α) : Prop := b ∈ links.next a

variable {links}

theorem explore_spec {start met frontier hmet} (hstart : start ∈ met)
    (hreach : ∀ a ∈ met, Relation.ReflTransGen links.Link start a)
    (hdone : ∀ a ∈ met, a ∉ frontier → ∀ b ∈ links.next a, b ∈ met) (hfrontier : ∀ a ∈ frontier, a ∈ met) :
    (links.explore met frontier hmet).Nodup ∧
      ∀ a, a ∈ links.explore met frontier hmet ↔ Relation.ReflTransGen links.Link start a := by
  induction met, frontier, hmet using Links.explore.induct links with
  | case1 met hmet =>
    rw [explore]
    refine ⟨hmet, fun a => ⟨hreach a, fun h => ?_⟩⟩
    induction h with
    | refl => exact hstart
    | tail _ hlink ih => exact hdone _ ih List.not_mem_nil _ hlink
  | case2 met hmet current rest fresh ih =>
    rw [explore]
    refine ih (List.mem_append_left _ hstart) ?_ ?_ ?_
    · intro a ha
      rcases List.mem_append.mp ha with ha | ha
      · exact hreach a ha
      · exact (hreach current (hfrontier _ List.mem_cons_self)).tail (mem_unmet.mp ha).1
    · intro a ha hout b hb
      rw [List.mem_append, not_or] at hout
      have hold : a ∈ met := (List.mem_append.mp ha).resolve_right hout.2
      by_cases hcurrent : a = current
      · by_cases hbmet : b ∈ met
        · exact List.mem_append_left _ hbmet
        · exact List.mem_append_right _ (mem_unmet.mpr ⟨hcurrent ▸ hb, hbmet⟩)
      · exact List.mem_append_left _ (hdone a hold (fun h => hout.1 ((List.mem_cons.mp h).resolve_left hcurrent)) b hb)
    · intro a ha
      rcases List.mem_append.mp ha with ha | ha
      · exact List.mem_append_left _ (hfrontier a (List.mem_cons_of_mem _ ha))
      · exact List.mem_append_right _ ha

variable (links)

def walk (start : α) : List α := links.explore [start] [start] (List.nodup_singleton start)

variable {links}

theorem walk_spec (start : α) :
    (links.walk start).Nodup ∧ ∀ a, a ∈ links.walk start ↔ Relation.ReflTransGen links.Link start a :=
  explore_spec List.mem_cons_self (fun _ ha => List.mem_singleton.mp ha ▸ .refl) (fun _ ha hout => absurd ha hout)
    (fun _ ha => ha)

end Links

end QRadarDashboard.Lib
