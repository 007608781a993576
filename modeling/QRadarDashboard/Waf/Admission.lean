import QRadarDashboard.Lib.Sort
import Mathlib.Data.Prod.Lex
import Mathlib.Data.String.Basic

/-!
# Measurements and admission (`app/waf/measurement.py`, `app/waf/admission.py`)
-/

namespace QRadarDashboard.Waf
open Lib

/-!
## Admission of new entities (`app/waf/admission.py`)

Below the threshold an entity is not admitted; of the rest the largest are, within the quota.
-/

structure AdmissionCandidate where
  virtualHost : Option String
  endpoint : String
  method : String
  requestCount : Int

structure AdmissionPolicy where
  maxNewPerBucket : Int
  maxActive : Int
  minRequests : Int

structure AdmissionDecision (α : Type) where
  admitted : List α
  belowThreshold : List α
  overQuota : List α
  quota : Int

def admissionOrderKey (c : AdmissionCandidate) : ℤ ×ₗ String ×ₗ String ×ₗ String :=
  toLex (-c.requestCount, toLex (c.virtualHost.getD "", toLex (c.endpoint, c.method)))

def decideAdmission {α : Type} (candidate : α → AdmissionCandidate) (unseen : List α) (activeCount : Int)
    (policy : AdmissionPolicy) : AdmissionDecision α :=
  let order := fun c => admissionOrderKey (candidate c)
  let below := unseen.filter (fun c => (candidate c).requestCount < policy.minRequests)
  let eligible := sortOn order (unseen.filter (fun c => policy.minRequests ≤ (candidate c).requestCount))
  let quota := max 0 (min policy.maxNewPerBucket (policy.maxActive - activeCount))
  { admitted := eligible.take quota.toNat
    belowThreshold := sortOn order below
    overQuota := eligible.drop quota.toNat
    quota := quota }

namespace AdmissionDecision

variable {α : Type}

def truncated (d : AdmissionDecision α) : Bool := !d.overQuota.isEmpty

def untracked (d : AdmissionDecision α) : List α := d.belowThreshold ++ d.overQuota

end AdmissionDecision

theorem decideAdmission_cases {α : Type} (candidate : α → AdmissionCandidate) {unseen}
    (activeCount : Int) (policy : AdmissionPolicy) {c} (h : c ∈ unseen) :
    c ∈ (decideAdmission candidate unseen activeCount policy).admitted ∨
      (candidate c).requestCount < policy.minRequests ∨
      c ∈ (decideAdmission candidate unseen activeCount policy).overQuota := by
  by_cases hmin : (candidate c).requestCount < policy.minRequests
  · exact Or.inr (Or.inl hmin)
  · have hmem : c ∈ sortOn (fun c => admissionOrderKey (candidate c))
        (unseen.filter (fun c => policy.minRequests ≤ (candidate c).requestCount)) := by
      rw [mem_sortOn, List.mem_filter]
      exact ⟨h, decide_eq_true (Int.not_lt.mp hmin)⟩
    rw [← List.take_append_drop
      (max 0 (min policy.maxNewPerBucket (policy.maxActive - activeCount))).toNat (sortOn _ _)] at hmem
    rcases List.mem_append.mp hmem with hmem | hmem
    · exact Or.inl hmem
    · exact Or.inr (Or.inr hmem)

theorem mem_unseen_of_admitted {α : Type} {candidate : α → AdmissionCandidate} {unseen activeCount policy c}
    (h : c ∈ (decideAdmission candidate unseen activeCount policy).admitted) : c ∈ unseen :=
  List.mem_of_mem_filter (mem_sortOn.mp (List.mem_of_mem_take h))

theorem nodup_map_admitted {α κ : Type} {candidate : α → AdmissionCandidate} {unseen activeCount policy} {key : α → κ}
    (h : (unseen.map key).Nodup) : ((decideAdmission candidate unseen activeCount policy).admitted.map key).Nodup := by
  set eligible := unseen.filter (fun c => decide (policy.minRequests ≤ (candidate c).requestCount))
  have hnodup : (eligible.map key).Nodup := h.sublist (List.filter_sublist.map key)
  have hperm : (sortOn (fun c => admissionOrderKey (candidate c)) eligible).Perm eligible := sortOn_perm _
  have hsorted := (hperm.map key).nodup_iff.mpr hnodup
  exact hsorted.sublist ((List.take_sublist _ _).map key)

section Decision

variable {α : Type} {candidate : α → AdmissionCandidate} {unseen unseen' : List α} {activeCount : Int}
  {policy : AdmissionPolicy}

theorem decideAdmission_perm (h : unseen.Perm unseen') (hinj : ∀ a ∈ unseen, ∀ b ∈ unseen,
      admissionOrderKey (candidate a) = admissionOrderKey (candidate b) → a = b) :
    decideAdmission candidate unseen activeCount policy = decideAdmission candidate unseen' activeCount policy := by
  have hsort : ∀ p : α → Bool, sortOn (fun c => admissionOrderKey (candidate c)) (unseen.filter p) =
      sortOn (fun c => admissionOrderKey (candidate c)) (unseen'.filter p) := by
    intro p
    refine sortOn_eq_of_perm (h.filter p) (fun a ha b hb => ?_)
    exact hinj a (List.mem_of_mem_filter ha) b (List.mem_of_mem_filter hb)
  simp only [decideAdmission, hsort]

theorem decideAdmission_map {β : Type} (g : β → α) (unseen : List β) :
    decideAdmission candidate (unseen.map g) activeCount policy =
      ⟨(decideAdmission (fun c => candidate (g c)) unseen activeCount policy).admitted.map g,
        (decideAdmission (fun c => candidate (g c)) unseen activeCount policy).belowThreshold.map g,
        (decideAdmission (fun c => candidate (g c)) unseen activeCount policy).overQuota.map g,
        (decideAdmission (fun c => candidate (g c)) unseen activeCount policy).quota⟩ := by
  simp only [decideAdmission, List.filter_map, sortOn_map, List.map_take, List.map_drop, Function.comp_def]

theorem decideAdmission_partition : ((decideAdmission candidate unseen activeCount policy).admitted ++
    (decideAdmission candidate unseen activeCount policy).untracked).Perm unseen := by
  set quota := (max 0 (min policy.maxNewPerBucket (policy.maxActive - activeCount))).toNat
  set below := unseen.filter (fun c => decide ((candidate c).requestCount < policy.minRequests))
  set eligible := unseen.filter (fun c => decide (policy.minRequests ≤ (candidate c).requestCount))
  set order := fun c => admissionOrderKey (candidate c)
  have hsplit : (below ++ eligible).Perm unseen := by
    have hnot : eligible = unseen.filter (fun c => !decide ((candidate c).requestCount < policy.minRequests)) := by
      refine List.filter_congr (fun c _ => ?_)
      rw [← decide_not, decide_eq_decide, not_lt]
    rw [hnot]
    exact List.filter_append_perm _ unseen
  have heligible : ((sortOn order eligible).take quota ++ (sortOn order eligible).drop quota).Perm eligible := by
    rw [List.take_append_drop]
    exact sortOn_perm _
  have hrotate : ((sortOn order eligible).take quota ++ (sortOn order below ++ (sortOn order eligible).drop quota)).Perm
      (sortOn order below ++ ((sortOn order eligible).take quota ++ (sortOn order eligible).drop quota)) := by
    rw [← List.append_assoc, ← List.append_assoc]
    exact List.perm_append_comm.append_right _
  exact hrotate.trans (((sortOn_perm below).append heligible).trans hsplit)

theorem active_add_admitted_le :
    activeCount + (decideAdmission candidate unseen activeCount policy).admitted.length ≤
      max policy.maxActive activeCount := by
  have hlength : (decideAdmission candidate unseen activeCount policy).admitted.length ≤
      (max 0 (min policy.maxNewPerBucket (policy.maxActive - activeCount))).toNat := List.length_take_le _ _
  omega

end Decision

/-! ## What a count can support (`app/waf/measurement.py`) -/

inductive WafMeasurement where
  | exact | lowerBound
deriving DecidableEq

def WafMeasurement.value : WafMeasurement → String
  | .exact => "EXACT"
  | .lowerBound => "LOWER_BOUND"

inductive WafMeasurementRequirement where
  | exact | lowerBoundProvesIncrease

inductive WafVerdictScope where
  | full | increaseOnly | none
deriving DecidableEq

structure ScopeDecision where
  scope : WafVerdictScope
  reason : Option String := none

def verdictScope (requirement : WafMeasurementRequirement) : Option WafMeasurement → ScopeDecision
  | some .exact => { scope := .full }
  | none =>
    { scope := .none
      reason := some "the bucket does not state whether its counts are exact or lower bounds" }
  | some .lowerBound =>
    match requirement with
    | .lowerBoundProvesIncrease =>
      { scope := .increaseOnly
        reason := some
          "the count is a lower bound: an increase can be proven, normal behaviour cannot" }
    | .exact =>
      { scope := .none
        reason := some "the detector needs exact counts and this count is a lower bound" }

def WafVerdictScope.narrowness : WafVerdictScope → Nat
  | .full => 0
  | .increaseOnly => 1
  | .none => 2

def narrowest : List ScopeDecision → ScopeDecision
  | [] => { scope := .full }
  | decision :: decisions =>
    decisions.foldl (fun best d => if best.scope.narrowness < d.scope.narrowness then d else best) decision

end QRadarDashboard.Waf
