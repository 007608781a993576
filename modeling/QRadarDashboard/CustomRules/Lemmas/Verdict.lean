import QRadarDashboard.CustomRules.Fold

/-!
# What a reading proves
-/

namespace QRadarDashboard.CustomRules
open Lib Waf

variable {φ : Type} [PyFloat φ] {rt : Runtime} {spec : FoldInput φ} {fold : Fold φ} {r : InterpretedReading φ}

def Consistent (value : φ) : WafMeasurement → φ → Prop
  | .exact, v => v = value
  | .lowerBound, v => PyFloat.le value v = true

/-- The reading is measured, and every true value it leaves possible gives `answer` against the threshold. -/
def Proves (spec : FoldInput φ) (r : InterpretedReading φ) (answer : Bool) : Prop :=
  r.inMaintenance = false ∧ ∃ value label m, r.value = some value ∧ r.measurement = some label ∧
    wafMeasurement label = some m ∧
    ∀ v, Consistent value m v → breaches spec.operator v spec.thresholdValue = some answer

def Pauses (spec : FoldInput φ) (r : InterpretedReading φ) : Prop :=
  r.inMaintenance = true ∨ r.value = none ∨ (∃ v ∈ r.value, PyFloat.isfinite v = false) ∨
    (∀ label ∈ r.measurement, wafMeasurement label = none) ∨ PyFloat.isfinite spec.thresholdValue = false ∨
    spec.operator ∉ ["GT", "GE", "LT", "LE", "EQ"]

theorem breaches_unknown {operator} (h : operator ∉ ["GT", "GE", "LT", "LE", "EQ"]) (value threshold : φ) :
    breaches operator value threshold = none := by
  simp only [List.mem_cons, List.not_mem_nil, or_false, not_or] at h
  simp [breaches, h]

theorem breaches_mono [OrderedFloat φ] {operator} {value v threshold : φ}
    (hincrease : increaseOperator operator = true) (h : breaches operator value threshold = some true)
    (hv : PyFloat.le value v = true) : breaches operator v threshold = some true := by
  simp only [increaseOperator, decide_eq_true_eq] at hincrease
  rcases hincrease with rfl | rfl
  · simp only [breaches, if_true, Option.some.injEq] at h ⊢
    exact OrderedFloat.lt_of_lt_of_le h hv
  · simp only [breaches, String.reduceEq, if_false, if_true, Option.some.injEq] at h ⊢
    exact OrderedFloat.le_trans h hv

/-! ## The verdict -/

theorem verdict_scoped (h : verdict rt spec r = .breach ∨ verdict rt spec r = .under) :
    r.inMaintenance = false ∧ ∃ value label direction, r.value = some value ∧ r.measurement = some label ∧
      PyFloat.isfinite value = true ∧ PyFloat.isfinite spec.thresholdValue = true ∧
      breaches spec.operator value spec.thresholdValue = some direction ∧ verdict rt spec r =
        scopedVerdict spec (verdictScope (catalogEntry spec.metric).measurement.requirement (wafMeasurement label))
          direction := by
  cases hmaintenance : r.inMaintenance with
  | true => simp [verdict, hmaintenance] at h
  | false =>
    cases hvalue : r.value with
    | none => simp [verdict, hmaintenance, hvalue] at h
    | some value =>
      cases hlabel : r.measurement with
      | none => simp [verdict, hmaintenance, hvalue, hlabel] at h
      | some label =>
        by_cases hfinite : PyFloat.isfinite value = true
        · by_cases hthreshold : PyFloat.isfinite spec.thresholdValue = true
          · cases hdirection : breaches spec.operator value spec.thresholdValue with
            | none => simp [verdict, hmaintenance, hvalue, hlabel, hfinite, hthreshold, hdirection] at h
            | some direction =>
              refine ⟨rfl, value, label, direction, rfl, rfl, hfinite, hthreshold, hdirection, ?_⟩
              simp [verdict, hmaintenance, hvalue, hlabel, hfinite, hthreshold, hdirection]
          · simp [verdict, hmaintenance, hvalue, hlabel, hfinite, hthreshold] at h
        · simp [verdict, hmaintenance, hvalue, hlabel, hfinite] at h

theorem scopedVerdict_proves {requirement : WafMeasurementRequirement} {measured : Option WafMeasurement}
    {direction answer : Bool} {value : φ} [OrderedFloat φ]
    (hdirection : breaches spec.operator value spec.thresholdValue = some direction)
    (h : scopedVerdict spec (verdictScope requirement measured) direction = if answer then .breach else .under) :
    ∃ m, measured = some m ∧ ∀ v, Consistent value m v → breaches spec.operator v spec.thresholdValue = some answer := by
  cases measured with
  | none => cases answer <;> simp [scopedVerdict, verdictScope] at h
  | some m =>
    refine ⟨m, rfl, fun v hv => ?_⟩
    cases m with
    | exact =>
      have hsame : direction = answer := by
        cases direction <;> cases answer <;> first | rfl | simp [scopedVerdict, verdictScope] at h
      rw [← hsame, ← hdirection]
      exact congrArg (fun v => breaches spec.operator v spec.thresholdValue) hv
    | lowerBound =>
      cases requirement with
      | exact => cases answer <;> simp [scopedVerdict, verdictScope] at h
      | lowerBoundProvesIncrease =>
        have habove : increaseOperator spec.operator = true ∧ direction = true ∧ answer = true := by
          cases hincrease : increaseOperator spec.operator <;> cases direction <;> cases answer <;>
            first | exact ⟨rfl, rfl, rfl⟩ | simp [scopedVerdict, verdictScope, hincrease] at h
        obtain ⟨hincrease, rfl, rfl⟩ := habove
        exact breaches_mono hincrease hdirection hv

theorem verdict_proves [OrderedFloat φ] {answer : Bool} (h : verdict rt spec r = if answer then .breach else .under) :
    Proves spec r answer := by
  have hjudged : verdict rt spec r = .breach ∨ verdict rt spec r = .under := by
    cases answer
    · exact .inr h
    · exact .inl h
  obtain ⟨hmaintenance, value, label, direction, hvalue, hlabel, _, _, hdirection, hscoped⟩ := verdict_scoped hjudged
  obtain ⟨m, hm, hproves⟩ := scopedVerdict_proves hdirection (hscoped.symm.trans h)
  exact ⟨hmaintenance, value, label, m, hvalue, hlabel, hm, hproves⟩

theorem Pauses.verdict (rt : Runtime) (h : Pauses spec r) :
    CustomRules.verdict rt spec r ≠ .breach ∧ CustomRules.verdict rt spec r ≠ .under := by
  refine not_or.mp (fun hjudged => ?_)
  obtain ⟨hmaintenance, value, label, direction, hvalue, hlabel, hfinite, hthreshold, hdirection, hscoped⟩ :=
    verdict_scoped hjudged
  rcases h with h | h | ⟨v, hv, h⟩ | h | h | h
  · rw [hmaintenance] at h
    cases h
  · rw [hvalue] at h
    cases h
  · cases hvalue.symm.trans hv
    rw [hfinite] at h
    cases h
  · rw [hscoped, h label hlabel] at hjudged
    simp [scopedVerdict, verdictScope] at hjudged
  · rw [hthreshold] at h
    cases h
  · rw [breaches_unknown h] at hdirection
    cases hdirection

/-! ## One reading in the fold -/

def BreachState.shown (b : BreachState φ) :
    AnomalyState × Option φ × Option String × Option φ × Option String × Int :=
  (b.state, b.worstValue, b.worstMeasurement, b.lastValue, b.lastMeasurement, b.lastBucketStart)

/-- Neither counter moves, no event is sent, and a live breach shows what it showed. -/
structure Paused (before after : Fold φ) : Prop where
  breaching : after.breaching = before.breaching
  under : after.under = before.under
  events : after.events = before.events
  resolved : after.resolved = before.resolved
  breach : after.breach.map BreachState.shown = before.breach.map BreachState.shown

/-- A reading is passed over, pauses the rule, or is judged by the handler of the verdict it proves. -/
inductive Consumed (rt : Runtime) (spec : FoldInput φ) (before : Fold φ) (r : InterpretedReading φ) (after : Fold φ) :
    Prop
  | paused (h : Paused before after)
  | breach (noted : Fold φ) (h : Proves spec r true) (hnoted : Paused before noted)
      (hbreach : noted.breach = before.breach) (hafter : after = onBreach rt spec noted r)
  | under (noted : Fold φ) (h : Proves spec r false) (hnoted : Paused before noted)
      (hbreach : noted.breach = before.breach) (hafter : after = onUnder spec noted r)

theorem consume_consumed [OrderedFloat φ] (rt : Runtime) (spec : FoldInput φ) (fold : Fold φ)
    (r : InterpretedReading φ) : Consumed rt spec fold r (consume rt spec fold r) := by
  unfold consume
  split
  · exact .paused ⟨rfl, rfl, rfl, rfl, rfl⟩
  · dsimp only
    cases hverdict : verdict rt spec r with
    | maintenance reason => exact .paused ⟨rfl, rfl, rfl, rfl, rfl⟩
    | unmeasured reason =>
      refine .paused ⟨rfl, rfl, rfl, rfl, ?_⟩
      simp only [onUnmeasured, Option.map_map]
      rfl
    | breach =>
      exact .breach { fold with lastEvaluated := some r.bucketStart, judged := fold.judged + 1 }
        (verdict_proves hverdict) ⟨rfl, rfl, rfl, rfl, rfl⟩ rfl rfl
    | under =>
      exact .under { fold with lastEvaluated := some r.bucketStart, judged := fold.judged + 1 }
        (verdict_proves hverdict) ⟨rfl, rfl, rfl, rfl, rfl⟩ rfl rfl

theorem Pauses.consume (h : Pauses spec r) (fold : Fold φ) : Paused fold (CustomRules.consume rt spec fold r) := by
  unfold CustomRules.consume
  split
  · exact ⟨rfl, rfl, rfl, rfl, rfl⟩
  · dsimp only
    obtain ⟨hbreach, hunder⟩ := h.verdict rt
    cases hverdict : CustomRules.verdict rt spec r with
    | maintenance reason => exact ⟨rfl, rfl, rfl, rfl, rfl⟩
    | unmeasured reason =>
      refine ⟨rfl, rfl, rfl, rfl, ?_⟩
      simp only [onUnmeasured, Option.map_map]
      rfl
    | breach => exact absurd hverdict hbreach
    | under => exact absurd hverdict hunder

/-! ## What a handler changes -/

theorem onBreach_effect (rt : Runtime) (spec : FoldInput φ) (fold : Fold φ) (r : InterpretedReading φ) :
    (onBreach rt spec fold r).breaching = fold.breaching + 1 ∧ (onBreach rt spec fold r).under = 0 ∧
      (onBreach rt spec fold r).resolved = fold.resolved ∧
      (∀ b ∈ (onBreach rt spec fold r).breach, b.state = .opened ∨ fold.breach = some b) ∧
      ∃ sent, (onBreach rt spec fold r).events = fold.events ++ sent ∧ ∀ e ∈ sent, e.action ≠ .resolve := by
  unfold onBreach
  dsimp only
  cases hb : fold.breach with
  | none =>
    dsimp only
    split
    · refine ⟨rfl, rfl, rfl, fun b hmem => ?_, _, rfl, fun e he => ?_⟩
      · cases hmem
        exact .inl rfl
      · rw [List.mem_singleton.mp he]
        simp [event]
    · refine ⟨rfl, rfl, rfl, fun b hmem => ?_, [], (List.append_nil _).symm, fun e he => by cases he⟩
      cases hmem
  | some live =>
    refine ⟨rfl, rfl, rfl, fun b hmem => ?_, _, rfl, fun e he => ?_⟩
    · cases hmem
      left
      unfold noteWorst
      dsimp only
      split <;> rfl
    · rw [List.mem_singleton.mp he]
      simp [event]

omit [PyFloat φ] in
theorem onUnder_effect (spec : FoldInput φ) (fold : Fold φ) (r : InterpretedReading φ) :
    (onUnder spec fold r).breaching = 0 ∧
      (fold.breach = none → (onUnder spec fold r).breach = none) ∧
      ∃ sent, (onUnder spec fold r).events = fold.events ++ sent ∧ ∀ e ∈ sent, e.action = .resolve := by
  unfold onUnder
  dsimp only
  cases hb : fold.breach with
  | none => exact ⟨rfl, fun _ => rfl, [], (List.append_nil _).symm, fun e he => by cases he⟩
  | some live =>
    dsimp only
    split
    · refine ⟨rfl, (fun hnone => by cases hnone), _, rfl, fun e he => ?_⟩
      rw [List.mem_singleton.mp he]
      rfl
    · exact ⟨rfl, (fun hnone => by cases hnone), [], (List.append_nil _).symm, fun e he => by cases he⟩

end QRadarDashboard.CustomRules
