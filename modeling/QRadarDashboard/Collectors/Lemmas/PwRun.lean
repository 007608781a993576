import QRadarDashboard.Collectors.Lemmas.PwHistory
import QRadarDashboard.Collectors.Lemmas.PwSearch
import QRadarDashboard.Collectors.Lemmas.WafScan
import QRadarDashboard.History.Lemmas.Calm

/-!
# Runs of history steps under a whole provider
-/

namespace QRadarDashboard.PropertyWatch
open Lib History Collectors

variable {φ : Type} [PyFloat φ] {st : PlannerSettings φ} {p : ScopeProgress Int φ}

/-! ## Plans -/

structure ReadPlanned (plan : PwStepPlan) : Prop where
  action : plan.step.action = .read
  searches : plan.searches = (if plan.reusesScanTotals then 0 else 1) +
    (if plan.pinnedSpan.isSome then 1 else 0) + plan.groupedChunks.length
  grouped : plan.groupedChunks ≠ []

theorem planPwRead_ok {step start rows reused plan}
    (h : planPwRead st step start rows reused = .ok plan) (hstep : step.action = .read) : ReadPlanned plan := by
  unfold planPwRead at h
  obtain ⟨counts, _, h⟩ := bind_ok h
  dsimp only at h
  obtain ⟨chunks, _, h⟩ := bind_ok h
  split at h
  · rename_i first last hfirst _
    obtain ⟨buckets, _, h⟩ := bind_ok h
    cases h
    refine ⟨hstep, ?_, fun hnil => ?_⟩
    · dsimp only
      split <;> split <;> simp_all
    · dsimp only at hnil
      rw [hnil] at hfirst
      cases hfirst
  · cases h

inductive PwPlanCase (st : PlannerSettings φ) (p : ScopeProgress Int φ) (stop searches : Int) (plan : PwStepPlan) : Prop
  | finish (action : plan.step.action = .finish)
      (ends : Survives plan.step.trigger ∨
        p.floor = none ∧ plan.step.trigger = some .nothingToRead ∧ ∃ c, p.scanCursor = some c ∧ stop ≤ c)
  | wait (action : plan.step.action = .wait)
  | scan (action : plan.step.action = .scan) (floor : p.floor = none)
      (cursor : ∀ span, plan.totalsSpan = some span → p.scanCursor = some span.start) (paid : 1 ≤ searches)
  | read (h : ReadPlanned plan) (floor : p.floor ≠ none) (paid : plan.searches ≤ searches)

theorem planScan_none {stop scan} (h : planScan p stop st = .ok scan) (hspan : scan.span = none) :
    ∃ c, p.scanCursor = some c ∧ stop ≤ c := by
  obtain ⟨_, _, h⟩ := bind_ok h
  cases hcursor : p.scanCursor with
  | none => simp [hcursor] at h
  | some c =>
    simp only [hcursor] at h
    split at h
    · rename_i hge
      exact ⟨c, rfl, hge⟩
    · cases h
      cases hspan

theorem planStep_cases_any {now stop budget enabled plan}
    (h : planStep p now stop budget st enabled = .ok plan) : PlanCase st p stop plan := by
  cases enabled with
  | true => exact planStep_cases h
  | false =>
    rw [planStep] at h
    obtain ⟨_, _, h⟩ := bind_ok h
    simp only [Bool.not_false, if_true] at h
    cases h
    exact .finish rfl ⟨(fun h => by cases h), (fun h => by cases h)⟩

theorem planPwStep_cases {now stop rows budget enabled scan plan}
    (h : planPwStep st p now stop budget rows enabled scan = .ok plan) : PwPlanCase st p stop budget.searches plan := by
  unfold planPwStep at h
  obtain ⟨_, _, h⟩ := bind_ok h
  obtain ⟨step, hstep, h⟩ := bind_ok h
  cases planStep_cases_any hstep with
  | finish haction survives =>
    simp only [haction] at h
    obtain ⟨_, hplan, h⟩ := bind_ok h
    obtain ⟨_, _, h⟩ := bind_ok h
    cases hplan
    cases h
    exact .finish haction (.inl survives)
  | wait haction =>
    simp only [haction] at h
    obtain ⟨_, hplan, h⟩ := bind_ok h
    obtain ⟨_, _, h⟩ := bind_ok h
    cases hplan
    cases h
    exact .wait haction
  | empty haction htrigger hfloor scan hscan hspan =>
    simp only [haction] at h
    obtain ⟨_, hplan, h⟩ := bind_ok h
    obtain ⟨_, _, h⟩ := bind_ok h
    cases hplan
    cases h
    exact .finish haction (.inr ⟨hfloor, htrigger, planScan_none hscan hspan⟩)
  | scan haction hfloor scan hscan hspan =>
    simp only [haction] at h
    obtain ⟨_, hplan, h⟩ := bind_ok h
    obtain ⟨_, hpaid, h⟩ := bind_ok h
    cases hplan
    cases h
    exact .scan haction hfloor (fun span hsome => (planScan_span hscan (hspan.trans hsome)).1) (require_eq_ok.mp hpaid)
  | read haction hfloor =>
    cases hstart : nextStart p st with
    | none => simp only [haction, hstart] at h; cases h
    | some start =>
      simp only [haction, hstart] at h
      obtain ⟨_, hplan, h⟩ := bind_ok h
      obtain ⟨_, hpaid, h⟩ := bind_ok h
      cases h
      exact .read (planPwRead_ok hplan haction) hfloor (require_eq_ok.mp hpaid)

/-! ## Settling -/

theorem downgrade_none_or_notRun {wide} (hwide : ∀ s ∈ wide, s = .complete ∨ s = .notRun) :
    downgrade wide = none ∨ downgrade wide = some .notRun := by
  have hany : wide.any (fun s => s = .failed || s = .truncated) = false := by
    rw [List.any_eq_false]
    intro s hs
    rcases hwide s hs with rfl | rfl <;> simp
  unfold downgrade
  rw [hany]
  simp only [Bool.false_eq_true, if_false]
  split
  · exact Or.inr rfl
  · exact Or.inl rfl

theorem settlePwStep_calm {totals pinned grouped reused stop o}
    (h : settlePwStep st p totals pinned grouped reused stop = .ok o)
    (hwide : ∀ s ∈ totals :: pinned.toList, s = .complete ∨ s = .notRun) (hnone : ∀ r ∈ grouped, r.status ≠ .failed)
    (hp : Calm p) : Calm o.progress ∧ o.newGap = none ∧ o.progress.floor = p.floor ∧ KeepsScan p o.progress ∧
      Survives o.trigger := by
  unfold settlePwStep at h
  obtain ⟨settlement, hsettle, h⟩ := bind_ok h
  cases h
  have hresults : ∃ results, settleStep p results stop st = .ok settlement ∧ ∀ r ∈ results, r.status ≠ .failed := by
    rcases downgrade_none_or_notRun hwide with hdown | hdown
    · rw [hdown] at hsettle
      exact ⟨grouped, hsettle, hnone⟩
    · rw [hdown] at hsettle
      refine ⟨_, hsettle, fun r hr => ?_⟩
      obtain ⟨r', _, rfl⟩ := List.mem_map.mp hr
      exact fun h => by cases h
  obtain ⟨results, hsettle, hresults⟩ := hresults
  obtain ⟨hcalm, hgap, hfloor, hkeeps⟩ := settleStep_calm hsettle hresults hp
  have hsurvives := settleStep_survives hsettle
  exact ⟨⟨hcalm.gaps, hcalm.failures, hcalm.scanFailures, hcalm.chunkCeiling⟩, hgap, hfloor,
    ⟨hkeeps.targetStart, hkeeps.scanCursor, hkeeps.scanFailures⟩, hsurvives⟩

end QRadarDashboard.PropertyWatch

namespace QRadarDashboard.Collectors
open Lib History PropertyWatch

variable {φ : Type} [PyFloat φ]

namespace PwStepArgs

variable (a : PwStepArgs φ)

/-! ## Rounds -/

inductive Reached (x : PwStepState φ) : PwStepState φ → Prop
  | first : Reached x x
  | next {y z : PwStepState φ} {plan : PwStepPlan} : Reached x y → a.plan y = .ok plan → plan.step.action = .scan →
      a.scanRound y plan = .ok (.inr z) → Reached x z

structure UncutRound (y : PwStepState φ) (plan : PwStepPlan) : Prop where
  scan : plan.step.action = .scan → Uncut a.tick.expired a.scope.chunks.length y.budget.used
  totals : plan.step.action = .read → plan.reusesScanTotals = false →
    Uncut a.tick.expired a.scope.chunks.length y.budget.used
  pinned : plan.step.action = .read → a.inputs.pinned ≠ [] → plan.reusesScanTotals = true →
    Uncut a.tick.expired a.scope.chunks.length y.budget.used
  pinnedAfter : plan.step.action = .read → a.inputs.pinned ≠ [] → plan.reusesScanTotals = false →
    a.tick.expired y.budget.used = false →
    Uncut a.tick.expired a.scope.chunks.length (y.budget.used + a.scope.chunks.length)

def WideUncut (x : PwStepState φ) : Prop := ∀ y plan, a.Reached x y → a.plan y = .ok plan → a.UncutRound y plan

theorem wideUncut_of_all {a : PwStepArgs φ} {x} (h : ∀ k, Uncut a.tick.expired a.scope.chunks.length k) : a.WideUncut x :=
  fun _ _ _ _ => ⟨fun _ => h _, fun _ _ => h _, fun _ _ _ => h _, fun _ _ _ _ => h _⟩

def Scanned (x : PwStepState φ) (r : ScanSpanResult) : Prop :=
  ∃ y plan found, a.Reached x y ∧ a.plan y = .ok plan ∧ plan.totalsSpan = some r.span ∧
    a.kind .totals r.span y.budget = .ok found ∧ r.status = wideStatus found.1 (found.2.used - y.budget.used) ∧
    r.totals = PwStepArgs.scanTotals found.1

variable {a} {x y : PwStepState φ} {plan : PwStepPlan}

theorem plan_ok (h : a.plan y = .ok plan) : PwPlanCase a.planner y.progress a.tick.boundary
    ((y.budget.remaining / a.chunksPerSearch : Nat) : Int) plan := planPwStep_cases h

theorem room_of_paid {n : Nat} (hpaid : (n : Int) ≤ ((y.budget.remaining / a.chunksPerSearch : Nat) : Int)) (hn : 0 < n)
    (hchunks : a.scope.chunks ≠ []) : y.budget.used + n * a.scope.chunks.length ≤ y.budget.maxSearches := by
  have hlength : a.chunksPerSearch = a.scope.chunks.length := max_eq_right (List.length_pos_of_ne_nil hchunks)
  have hpos := List.length_pos_of_ne_nil hchunks
  have hmul := (Nat.le_div_iff_mul_le (hlength ▸ hpos : 0 < a.chunksPerSearch)).mp (Int.ofNat_le.mp hpaid)
  rw [hlength, PwStepBudget.remaining] at hmul
  have : 0 < n * a.scope.chunks.length := Nat.mul_pos hn hpos
  omega

theorem kind_ran (hwhole : a.tick.provider.Whole) {kind span budget found} (h : a.kind kind span budget = .ok found) :
    KindRan a.tick.expired a.scope budget found.1 found.2 := runKind_ran hwhole h

/-! ## A reading round -/

theorem readChunks_status (hwhole : a.tick.provider.Whole) {blocked chunks budget found}
    (h : a.readChunks blocked chunks budget = .ok found) : ∀ chunk ∈ found.1, chunk.1.status ≠ .failed := by
  induction chunks generalizing blocked budget found with
  | nil =>
    cases h
    simp
  | cons chunk chunks ih =>
    rw [readChunks] at h
    cases blocked with
    | true =>
      simp only [if_true] at h
      obtain ⟨rest, hrest, h⟩ := bind_ok h
      cases h
      intro result hresult
      rcases List.mem_cons.mp hresult with rfl | hresult
      · exact fun h => by cases h
      · exact ih hrest result hresult
    | false =>
      simp only [Bool.false_eq_true, if_false] at h
      obtain ⟨ran, hran, h⟩ := bind_ok h
      obtain ⟨rest, hrest, h⟩ := bind_ok h
      cases h
      intro result hresult
      rcases List.mem_cons.mp hresult with rfl | hresult
      · exact (kind_ran hwhole hran).chunkResult _
      · exact ih hrest result hresult

theorem readTotals_wide (hwhole : a.tick.provider.Whole) {span}
    {totals : List PwBucketOutcome × SearchStatus × PwStepBudget} (h : a.readTotals y plan span = .ok totals)
    (hbacked : y.budget.Backed) (hplan : ReadPlanned plan)
    (hpaid : plan.searches ≤ ((y.budget.remaining / a.chunksPerSearch : Nat) : Int))
    (huncut : plan.reusesScanTotals = false → Uncut a.tick.expired a.scope.chunks.length y.budget.used) :
    Spent y.budget totals.2.2 ∧ (totals.2.1 = .notRun ∨ totals.2.1 = .complete ∧
      (plan.reusesScanTotals = true ∧ totals.2.2 = y.budget ∨ plan.reusesScanTotals = false ∧
        a.tick.expired y.budget.used = false ∧ totals.2.2.used = y.budget.used + a.scope.chunks.length)) := by
  unfold readTotals at h
  split at h
  · rename_i hreuses
    cases h
    exact ⟨.refl _, .inr ⟨rfl, .inl ⟨hreuses, rfl⟩⟩⟩
  · rename_i hreuses
    have hreuses : plan.reusesScanTotals = false := Bool.not_eq_true _ ▸ hreuses
    split at h
    · cases h
    · obtain ⟨found, hfound, h⟩ := bind_ok h
      cases h
      have hran := kind_ran hwhole hfound
      have hsearches := hplan.searches
      rw [hreuses] at hsearches
      have hroom := room_of_paid (a := a) (y := y) (n := 1) (by
        have hpins : (0 : Int) ≤ if plan.pinnedSpan.isSome then 1 else 0 := by split <;> omega
        simp only [Bool.false_eq_true, if_false] at hsearches
        push_cast
        omega) one_pos hran.chunks
      rw [Nat.one_mul] at hroom
      refine ⟨hran.spent, ?_⟩
      rcases hran.wideStatus (huncut hreuses) hbacked hroom with ⟨hstatus, htime, hused⟩ | ⟨hstatus, _⟩
      · exact .inr ⟨hstatus, .inr ⟨hreuses, htime, hused⟩⟩
      · exact .inl hstatus

theorem readPinned_wide (hwhole : a.tick.provider.Whole) {totals budget pinned}
    (h : a.readPinned plan totals budget = .ok pinned) (hbacked : budget.Backed)
    (hroom : plan.pinnedSpan.isSome → totals = .complete → a.scope.chunks ≠ [] →
      budget.used + a.scope.chunks.length ≤ budget.maxSearches) (huncut : a.inputs.pinned ≠ [] → totals = .complete →
      Uncut a.tick.expired a.scope.chunks.length budget.used) : ∀ s ∈ pinned.2.1, s = .complete ∨ s = .notRun := by
  unfold readPinned at h
  split at h
  · cases h
    simp
  · rename_i hpins
    split at h
    · rename_i htotals
      split at h
      · cases h
      · rename_i pinnedSpan hspan
        obtain ⟨found, hfound, h⟩ := bind_ok h
        cases h
        have hran := kind_ran hwhole hfound
        intro s hs
        cases hs
        rcases hran.wideStatus (huncut hpins htotals) hbacked (hroom (by simp [hspan]) htotals hran.chunks) with
          ⟨hstatus, _⟩ | ⟨hstatus, _⟩
        · exact .inl hstatus
        · exact .inr hstatus
    · cases h
      intro s hs
      cases hs
      exact .inr rfl

structure CalmEnd (targetStart : Int) (e : PwStepEnd φ) : Prop where
  calm : Calm e.progress
  target : e.progress.targetStart = targetStart
  noGap : ∀ settlement ∈ e.settlement, settlement.newGap = none

theorem readSpan_calm (hwhole : a.tick.provider.Whole) {ended : PwStepEnd φ} (h : a.readSpan y plan = .ok ended)
    (hplan : ReadPlanned plan) (hpaid : plan.searches ≤ ((y.budget.remaining / a.chunksPerSearch : Nat) : Int))
    (hbacked : y.budget.Backed) (huncut : a.UncutRound y plan) (hcalm : Calm y.progress) :
    CalmEnd y.progress.targetStart ended ∧ ended.progress.floor = y.progress.floor ∧ Survives ended.trigger := by
  unfold readSpan at h
  split at h
  · obtain ⟨totals, htotals, h⟩ := bind_ok h
    obtain ⟨pinned, hpinned, h⟩ := bind_ok h
    dsimp only at h
    obtain ⟨grouped, hgrouped, h⟩ := bind_ok h
    obtain ⟨settlement, hsettle, h⟩ := bind_ok h
    obtain ⟨staged, _, h⟩ := bind_ok h
    cases h
    obtain ⟨hspent, hwide⟩ := readTotals_wide hwhole htotals hbacked hplan hpaid (huncut.totals hplan.action)
    have hsearches := hplan.searches
    have hpin := readPinned_wide hwhole hpinned (hspent.backed hbacked)
      (fun hspan hcomplete hchunks => by
        rw [hspan] at hsearches
        rcases hwide with hnot | ⟨_, ⟨hreuses, hbudget⟩ | ⟨hreuses, _, hused⟩⟩
        · exact absurd (hnot.symm.trans hcomplete) (by decide)
        · rw [hbudget]
          simpa using room_of_paid (a := a) (y := y) (n := 1) (by rw [hreuses] at hsearches; push_cast; simp at hsearches; omega)
            one_pos hchunks
        · rw [hused, hspent.most]
          have := room_of_paid (a := a) (y := y) (n := 2) (by rw [hreuses] at hsearches; push_cast; simp at hsearches; omega)
            two_pos hchunks
          omega)
      (fun hpins hcomplete => by
        rcases hwide with hnot | ⟨_, ⟨hreuses, hbudget⟩ | ⟨hreuses, htime, hused⟩⟩
        · exact absurd (hnot.symm.trans hcomplete) (by decide)
        · rw [hbudget]
          exact huncut.pinned hplan.action hpins hreuses
        · rw [hused]
          exact huncut.pinnedAfter hplan.action hpins hreuses htime)
    have hstatuses : ∀ s ∈ totals.2.1 :: pinned.2.1.toList, s = .complete ∨ s = .notRun := by
      intro s hs
      rcases List.mem_cons.mp hs with rfl | hs
      · rcases hwide with hnot | ⟨hcomplete, _⟩
        · exact .inr hnot
        · exact .inl hcomplete
      · exact hpin s (Option.mem_toList.mp hs)
    have hnone : ∀ r ∈ grouped.1.map (fun chunk => chunk.1), r.status ≠ .failed := by
      intro r hr
      obtain ⟨chunk, hchunk, rfl⟩ := List.mem_map.mp hr
      exact readChunks_status hwhole hgrouped chunk hchunk
    obtain ⟨hcalm', hgap, hfloor, hkeeps, hsurvives⟩ :=
      settlePwStep_calm (raisingStep_ok hsettle) hstatuses hnone hcalm
    refine ⟨⟨⟨hcalm'.gaps, hcalm'.failures, hcalm'.scanFailures, hcalm'.chunkCeiling⟩, hkeeps.targetStart, ?_⟩, hfloor,
      hsurvives⟩
    intro s hs
    cases hs
    exact hgap
  · cases h

/-! ## A scan round -/

variable (a) in
/-- The reading can end for want of history: no event in the window, or a floor at its end. -/
def Exhausted (x : PwStepState φ) (silent : Int → Prop) (c₀ targetStart : Int) : Prop :=
  (∀ t, c₀ ≤ t → t < a.tick.boundary → silent t) ∨ ∃ r b0 floor, a.Scanned x r ∧ FirstEvent a.planner r b0 ∧
    IsFloor a.planner targetStart b0 floor ∧ a.tick.boundary ≤ floor

variable (a) in
structure WholeEnd (x : PwStepState φ) (silent : Int → Prop) (c₀ targetStart : Int) (e : PwStepEnd φ) : Prop
    extends CalmEnd targetStart e where
  looks : Looks silent c₀ e.progress
  ends : Survives e.trigger ∨ a.Exhausted x silent c₀ targetStart

structure WholeRound (silent : Int → Prop) (c₀ targetStart : Int) (y : PwStepState φ) : Prop where
  calm : Calm y.progress
  backed : y.budget.Backed
  target : y.progress.targetStart = targetStart
  looks : Looks silent c₀ y.progress

variable {silent : Int → Prop} {c₀ targetStart : Int}

theorem scanRound_calm (hwhole : a.tick.provider.Whole) (hround : WholeRound silent c₀ targetStart y)
    (hsilent : ∀ r t, a.Scanned x r → SilentIn [r] t → silent t) (hreached : a.Reached x y)
    (hplan : a.plan y = .ok plan) (hfloor : y.progress.floor = none)
    (hcursor : ∀ span, plan.totalsSpan = some span → y.progress.scanCursor = some span.start)
    (hpaid : 1 ≤ ((y.budget.remaining / a.chunksPerSearch : Nat) : Int))
    (huncut : Uncut a.tick.expired a.scope.chunks.length y.budget.used) {r} (h : a.scanRound y plan = .ok r) :
    (∀ e, r = .inl e → a.WholeEnd x silent c₀ targetStart e) ∧
      ∀ z, r = .inr z → WholeRound silent c₀ targetStart z := by
  obtain ⟨hcalm, hbacked, rfl, hlooks⟩ := hround
  unfold scanRound at h
  split at h
  · cases h
  · rename_i span hspan
    split at h
    · rename_i hle
      obtain ⟨found, hfound, h⟩ := bind_ok h
      have hran := kind_ran hwhole hfound
      have hroom := room_of_paid (a := a) (n := 1) (by exact_mod_cast hpaid) one_pos hran.chunks
      rw [Nat.one_mul] at hroom
      have hbacked' := hran.spent.backed hbacked
      rcases hran.wideStatus huncut hbacked hroom with ⟨hstatus, _⟩ | ⟨hstatus, _⟩
      · simp only [hstatus, reduceCtorEq, if_false] at h
        obtain ⟨decision, hdecision, h⟩ := bind_ok h
        generalize hresult : (⟨span, .complete, PwStepArgs.scanTotals found.1, hle⟩ : ScanSpanResult) = result
          at hdecision h
        have hcomplete : result.status = .complete := by rw [← hresult]
        have hresult_span : result.span = span := by rw [← hresult]
        have hscanned : a.Scanned x result := ⟨y, plan, found, hreached, hplan, hresult_span ▸ hspan,
          hresult_span ▸ hfound, hcomplete.trans hstatus.symm, by rw [← hresult]⟩
        have hscan := interpretScan_whole hcomplete (raisingStep_ok hdecision)
        obtain ⟨hcalm', htarget'⟩ := hscan.calm hcalm
        obtain ⟨hlooks', hexhausted⟩ := hscan.looks hcomplete hfloor (hresult_span ▸ hcursor span hspan) hlooks
          (fun t => hsilent result t hscanned)
        rcases hscan.outcome with houtcome | houtcome | houtcome
        · simp only [houtcome] at h
          cases h
          refine ⟨fun e he => (by cases he), fun z hz => ?_⟩
          cases hz
          exact ⟨⟨hcalm'.gaps, hcalm'.failures, hcalm'.scanFailures, hcalm'.chunkCeiling⟩, hbacked',
            htarget', hlooks'⟩
        · simp only [houtcome] at h
          cases h
          refine ⟨fun e he => (by cases he), fun z hz => ?_⟩
          cases hz
          exact ⟨⟨hcalm'.gaps, hcalm'.failures, hcalm'.scanFailures, hcalm'.chunkCeiling⟩, hbacked',
            htarget', hlooks'⟩
        · simp only [houtcome] at h
          cases h
          refine ⟨fun e he => ?_, fun z hz => (by cases hz)⟩
          cases he
          refine ⟨⟨⟨hcalm'.gaps, hcalm'.failures, hcalm'.scanFailures, hcalm'.chunkCeiling⟩, htarget', by simp⟩,
            hlooks', .inr ?_⟩
          rcases hexhausted houtcome with hwindow | ⟨b0, floor, hfirst, hisFloor, hlate⟩
          · exact .inl hwindow
          · exact .inr ⟨result, b0, floor, hscanned, hfirst, hisFloor, hlate⟩
      · simp only [hstatus, if_true] at h
        cases h
        refine ⟨fun e he => ?_, fun z hz => (by cases hz)⟩
        cases he
        exact ⟨⟨hcalm, rfl, by simp⟩, hlooks, .inl survives_none⟩
    · cases h

/-! ## The step -/

variable (hwhole : a.tick.provider.Whole) (huncut : a.WideUncut x)
  (hsilent : ∀ r t, a.Scanned x r → SilentIn [r] t → silent t)
include hwhole huncut hsilent

theorem rounds_calm {fuel ended} (hround : WholeRound silent c₀ targetStart y)
    (hreached : a.Reached x y) (h : a.rounds fuel y = .ok ended) : a.WholeEnd x silent c₀ targetStart ended := by
  induction fuel generalizing y with
  | zero => cases h
  | succ fuel ih =>
    rw [rounds] at h
    obtain ⟨plan, hplan, h⟩ := bind_ok h
    have hplan := raisingStep_ok hplan
    have huncutRound := huncut y plan hreached hplan
    cases plan_ok hplan with
    | finish haction hends =>
      simp only [haction] at h
      cases h
      refine ⟨⟨hround.calm, hround.target, by simp⟩, hround.looks, ?_⟩
      rcases hends with hsurvives | ⟨hfloor, _, c, hc, hstop⟩
      · exact .inl hsurvives
      · obtain ⟨c', hc', hbefore⟩ := hround.looks hfloor
        obtain rfl : c = c' := Option.some.inj (hc.symm.trans hc')
        exact .inr (.inl (fun t hlo hhi => hbefore t hlo (by omega)))
    | wait haction =>
      simp only [haction] at h
      cases h
      exact ⟨⟨hround.calm, hround.target, by simp⟩, hround.looks, .inl survives_none⟩
    | scan haction hfloor hcursor hpaid =>
      simp only [haction] at h
      obtain ⟨next, hnext, h⟩ := bind_ok h
      obtain ⟨hended, hgoes⟩ := scanRound_calm hwhole hround hsilent hreached hplan hfloor hcursor hpaid
        (huncutRound.scan haction) hnext
      cases next with
      | inl e =>
        cases h
        exact hended ended rfl
      | inr z => exact ih (hgoes z rfl) (.next hreached hplan haction hnext) h
    | read hread hfloor hpaid =>
      simp only [hread.action] at h
      obtain ⟨hcalm, hkeeps, hsurvives⟩ := readSpan_calm hwhole h hread hpaid hround.backed huncutRound hround.calm
      rw [hround.target] at hcalm
      exact ⟨hcalm, fun hnone => absurd (hkeeps.symm.trans hnone) hfloor, .inl hsurvives⟩

end PwStepArgs

/-! ## Runs of ticks -/

abbrev PwTickInput (φ : Type) [PyFloat φ] := PwStepArgs φ × PwSearchBudget

def PwTickInput.first (i : PwTickInput φ) (scope : PwScope φ) : PwStepState φ := i.1.first scope.progress i.2

abbrev PwHistoryRun (p : ScopeProgress Int φ) :=
  Run (fun scope (i : PwTickInput φ) => pwHistoryTick i.1 scope i.2) (fun o => o.1) ⟨.reading, p⟩

abbrev PwTaken (φ : Type) [PyFloat φ] := Taken (PwScope φ) (PwTickInput φ) (PwScope φ × PwStepEnd φ)

def SilentRun (tr : List (PwTaken φ)) (t : Int) : Prop :=
  ∃ e ∈ tr, ∃ r, e.input.1.Scanned (e.input.first e.before) r ∧ SilentIn [r] t

structure CalmTick (silent : Int → Prop) (c₀ targetStart : Int) (e : PwTaken φ) : Prop where
  calm : Calm e.output.1.progress
  target : e.output.1.progress.targetStart = targetStart
  looks : Looks silent c₀ e.output.1.progress
  noGap : ∀ settlement ∈ e.output.2.settlement, settlement.newGap = none
  unavailable : e.output.1.state = .unavailable →
    e.input.1.Exhausted (e.input.first e.before) silent c₀ targetStart

theorem historyStep_calm {i : PwTickInput φ} {scope} {silent : Int → Prop} {c₀ targetStart ended}
    (hwhole : i.1.tick.provider.Whole) (huncut : i.1.WideUncut (i.first scope))
    (hsilent : ∀ r t, i.1.Scanned (i.first scope) r → SilentIn [r] t → silent t) (hcalm : Calm scope.progress)
    (htarget : scope.progress.targetStart = targetStart) (hlooks : Looks silent c₀ scope.progress)
    (h : historyStep i.1 scope.progress i.2 = .ok ended) :
    i.1.WholeEnd (i.first scope) silent c₀ targetStart ended := by
  unfold historyStep at h
  dsimp only at h
  split at h
  · cases h
    exact ⟨⟨hcalm, htarget, by simp⟩, hlooks, .inl survives_none⟩
  · exact PwStepArgs.rounds_calm hwhole huncut hsilent
      ⟨hcalm, stepBudget_backed _ _ _, htarget, hlooks⟩ .first h

theorem pwHistoryTick_calm {i : PwTickInput φ} {scope o} {silent : Int → Prop}
    {c₀ targetStart} (hwhole : i.1.tick.provider.Whole) (huncut : i.1.WideUncut (i.first scope))
    (hsilent : ∀ r t, i.1.Scanned (i.first scope) r → SilentIn [r] t → silent t) (hcalm : Calm scope.progress)
    (htarget : scope.progress.targetStart = targetStart) (hlooks : Looks silent c₀ scope.progress)
    (h : pwHistoryTick i.1 scope i.2 = .ok o) : CalmTick silent c₀ targetStart ⟨scope, i, o⟩ := by
  unfold pwHistoryTick at h
  obtain ⟨_, _, h⟩ := bind_ok h
  obtain ⟨ended, hended, h⟩ := bind_ok h
  have hend := historyStep_calm hwhole huncut hsilent hcalm htarget hlooks hended
  cases htrigger : ended.trigger with
  | none =>
    simp only [htrigger] at h
    cases h
    exact ⟨hend.calm, hend.target, hend.looks, hend.noGap, fun h => (by cases h)⟩
  | some trigger =>
    simp only [htrigger] at h
    obtain ⟨change, hchange, h⟩ := bind_ok h
    cases h
    refine ⟨hend.calm, hend.target, hend.looks, hend.noGap, fun hstate => ?_⟩
    rcases hend.ends with hsurvives | hexhausted
    · obtain ⟨next, hnext, hchange⟩ := bind_ok (raisingStep_ok hchange)
      obtain ⟨state, hfrom, hchange⟩ := bind_ok hchange
      cases hchange
      have hnot := nextState_survives (htrigger ▸ hsurvives) hnext
      obtain rfl : state = .unavailable := hstate
      cases hkind : next.state with
      | unavailable => exact absurd hkind hnot
      | _ => rw [hkind] at hfrom; cases hfrom
    · exact hexhausted

theorem CalmTick.mono {silent silent' : Int → Prop} {c₀ targetStart} {e : PwTaken φ}
    (h : CalmTick silent c₀ targetStart e) (hsub : ∀ t, silent t → silent' t) : CalmTick silent' c₀ targetStart e where
  calm := h.calm
  target := h.target
  looks := h.looks.mono hsub
  noGap := h.noGap
  unavailable := fun hstate => by
    rcases h.unavailable hstate with hwindow | hlate
    · exact .inl (fun t hlo hhi => hsub t (hwindow t hlo hhi))
    · exact .inr hlate

theorem pwHistoryRun_calm {p₀ : ScopeProgress Int φ} {c₀ : Int} (hcalm : Calm p₀) (hcursor : p₀.scanCursor = some c₀)
    {tr : List (PwTaken φ)} {scope : PwScope φ} (h : PwHistoryRun p₀ tr scope)
    (hwhole : ∀ e ∈ tr, e.input.1.tick.provider.Whole)
    (huncut : ∀ e ∈ tr, e.input.1.WideUncut (e.input.first e.before)) :
    (∀ e ∈ tr, CalmTick (SilentRun tr) c₀ p₀.targetStart e) ∧ Calm scope.progress := by
  have hrun := h.invariant (fun tr scope => (∀ e ∈ tr, CalmTick (SilentRun tr) c₀ p₀.targetStart e) ∧
      Calm scope.progress ∧ scope.progress.targetStart = p₀.targetStart ∧ Looks (SilentRun tr) c₀ scope.progress)
    (fun e => e.input.1.tick.provider.Whole ∧ e.input.1.WideUncut (e.input.first e.before))
    ⟨by simp, hcalm, rfl, fun _ => ⟨c₀, hcursor, fun t hlo hhi => absurd hlo (by omega)⟩⟩ ?_
    (fun e he => ⟨hwhole e he, huncut e he⟩)
  · exact ⟨hrun.1, hrun.2.1⟩
  · rintro tr scope i o ⟨hticks, hcalm, htarget, hlooks⟩ ⟨hwhole, huncut⟩ hs
    have hsub : ∀ t, SilentRun tr t → SilentRun (tr ++ [⟨scope, i, o⟩]) t := by
      rintro t ⟨e, he, hscan⟩
      exact ⟨e, List.mem_append_left _ he, hscan⟩
    have hlast := pwHistoryTick_calm hwhole huncut
      (fun r t hscanned hquiet => ⟨⟨scope, i, o⟩, by simp, r, hscanned, hquiet⟩) hcalm htarget (hlooks.mono hsub) hs
    refine ⟨fun e he => ?_, hlast.calm, hlast.target, hlast.looks⟩
    rcases List.mem_append.mp he with he | he
    · exact (hticks e he).mono hsub
    · rw [List.mem_singleton.mp he]
      exact hlast

theorem startProgress_calm {st days boundary now} {p : ScopeProgress Int φ}
    (h : startProgress st days boundary now = .ok p) : Calm p ∧
      p.scanCursor = some (boundary - seconds (days * 86400) - st.margin) := by
  unfold startProgress at h
  obtain ⟨_, _, h⟩ := bind_ok h
  refine ⟨newProgress_calm h, ?_⟩
  obtain ⟨_, _, h⟩ := bind_ok h
  cases h
  rfl

end QRadarDashboard.Collectors
