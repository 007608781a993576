import QRadarDashboard.CustomRules.Lemmas.Ledger
import QRadarDashboard.CustomRules.Lemmas.Resume
import QRadarDashboard.Lib.Except

/-!
# The stored tick
-/

namespace QRadarDashboard.CustomRules
open Lib Waf

/-!
## Labels of readings

The breach columns hold `EXACT` and `LOWER_BOUND` only, and `interpret` gives no other label.
-/

section Labels

variable {φ : Type} {r : InterpretedReading φ} (facts : BucketFacts φ)

def Labelled (r : InterpretedReading φ) : Prop :=
  r.measurement = none ∨ r.measurement = some "EXACT" ∨ r.measurement = some "LOWER_BOUND"

theorem Labelled.label (hr : Labelled r) {label} (h : r.measurement = some label) :
    label = "EXACT" ∨ label = "LOWER_BOUND" := by
  rcases hr with hr | hr | hr
  · simp [hr] at h
  · exact Or.inl (by simpa [hr] using h.symm)
  · exact Or.inr (by simpa [hr] using h.symm)

theorem noReading_labelled (reason : String) : Labelled (noReading facts reason) := Or.inl rfl

variable [PyFloat φ]

theorem measured_labelled (value : φ) (lower : Bool) : Labelled (measured facts value lower) := by
  simp only [measured]
  split_ifs
  · exact noReading_labelled facts _
  · exact Or.inr (Or.inr rfl)
  · exact Or.inr (Or.inl rfl)

theorem phaseA_labelled (value : Option φ) : Labelled (phaseA facts value) := by
  simp only [phaseA, absent]
  cases value with
  | none => split_ifs <;> exact noReading_labelled facts _
  | some value => split_ifs <;> first | exact noReading_labelled facts _ | exact measured_labelled facts _ _

theorem labelledCount_labelled (count : Option Int) (measurement : Option String) (unknown : String) :
    Labelled (labelledCount facts count measurement unknown) := by
  simp only [labelledCount, absent]
  split_ifs
  · exact noReading_labelled facts _
  · split <;> first | exact measured_labelled facts _ _ | exact noReading_labelled facts _

theorem ratio_labelled (numerator denominator : Option Int) (measurement : Option String) (remainder : Option Int)
    (collectedReason lowerReason zeroReason : String) :
    Labelled (ratio facts numerator denominator measurement remainder collectedReason lowerReason zeroReason) := by
  simp only [ratio, absent]
  cases numerator <;> cases denominator <;> cases remainder <;> dsimp only <;> split_ifs <;>
    first | exact noReading_labelled facts _ | exact measured_labelled facts _ _

theorem interpreter_labelled (metric : CustomRuleMetric) : Labelled (interpreter metric facts) := by
  cases metric with
  | eventCount => exact phaseA_labelled facts _
  | averageEps => exact phaseA_labelled facts _
  | eps =>
    simp only [interpreter, fleet, absent]
    split_ifs <;> first | exact noReading_labelled facts _ | exact measured_labelled facts _ _
  | requestCount => exact labelledCount_labelled facts _ _ _
  | blockRatio => exact ratio_labelled facts _ _ _ _ _ _ _
  | serverErrorRatio => exact ratio_labelled facts _ _ _ _ _ _ _
  | clientErrorRatio => exact ratio_labelled facts _ _ _ _ _ _ _
  | events => exact labelledCount_labelled facts _ _ _
  | totalEvents =>
    simp only [interpreter, totalEventsReading, absent]
    split
    · exact measured_labelled facts _ _
    · exact noReading_labelled facts _
  | blockedShare =>
    simp only [interpreter, blockedShareReading, absent]
    split_ifs
    · exact noReading_labelled facts _
    · exact noReading_labelled facts _
    · exact noReading_labelled facts _
    · exact noReading_labelled facts _
    · split
      · split_ifs <;> first | exact noReading_labelled facts _ | exact measured_labelled facts _ _
      · exact noReading_labelled facts _
  | pwValueEvents => exact labelledCount_labelled facts _ _ _

theorem readings_labelled (metric : CustomRuleMetric) (grid : List (GridPoint φ)) :
    ∀ r ∈ readings metric grid, Labelled r := by
  intro r hr
  obtain ⟨point, -, rfl⟩ := List.mem_map.mp hr
  have hlabel : Labelled (interpret metric point.facts) := by
    simp only [interpret]
    split_ifs
    · exact interpreter_labelled point.facts metric
    · exact interpreter_labelled point.facts metric
  dsimp only
  split_ifs
  · exact hlabel
  · exact hlabel

end Labels

variable {φ : Type}

/-! ## The fold refines the ledger -/

@[simp] theorem noteLast_id (b : BreachState φ) (r : InterpretedReading φ) : (noteLast b r).id = b.id := rfl

@[simp] theorem openBreach_id (spec : FoldInput φ) (id : String) (r : InterpretedReading φ) :
    (openBreach spec id r).id = id := rfl

section Refines

variable {rt : Runtime} {spec : FoldInput φ} {fold : Fold φ} {r : InterpretedReading φ}

theorem onUnder_ledger (ids : Nat → String) :
    (onUnder spec fold r).ledger = fold.ledger.step ids spec.sustainBuckets spec.recoveryBuckets false := by
  cases hb : fold.breach with
  | none => simp [onUnder, Fold.ledger, Ledger.step, hb]
  | some b =>
    by_cases hrec : spec.recoveryBuckets ≤ fold.under + 1
    · simp [onUnder, Fold.ledger, Ledger.step, Ledger.resolving, hb, hrec, eventIds, event]
    · simp [onUnder, Fold.ledger, Ledger.step, hb, hrec]

theorem onUnmeasured_ledger (reason : String) : (onUnmeasured fold reason).ledger = fold.ledger := by
  cases hb : fold.breach <;> simp [onUnmeasured, Fold.ledger, hb]

variable [PyFloat φ]

@[simp] theorem noteWorst_id (operator : String) (b : BreachState φ) : (noteWorst operator b r).id = b.id := by
  simp only [noteWorst]
  split_ifs <;> rfl

theorem onBreach_ledger :
    (onBreach rt spec fold r).ledger = fold.ledger.step rt.uuid4 spec.sustainBuckets spec.recoveryBuckets true := by
  cases hb : fold.breach with
  | none =>
    by_cases hsus : spec.sustainBuckets ≤ fold.breaching + 1
    · simp [onBreach, Fold.ledger, Ledger.step, Ledger.opening, hb, hsus, eventIds, event]
    · simp [onBreach, Fold.ledger, Ledger.step, hb, hsus]
  | some b => simp [onBreach, Fold.ledger, Ledger.step, hb, eventIds, event]

theorem consume_ledger (h : ¬ alreadyJudged fold.lastEvaluated r) :
    (consume rt spec fold r).ledger = (verdict rt spec r).counted.toList.foldl
      (Ledger.step rt.uuid4 spec.sustainBuckets spec.recoveryBuckets) fold.ledger := by
  simp only [consume, h]
  cases verdict rt spec r with
  | maintenance reason => rfl
  | unmeasured reason => exact onUnmeasured_ledger reason
  | breach => exact onBreach_ledger
  | under => exact onUnder_ledger rt.uuid4

theorem foldl_consume_ledger (rs : List (InterpretedReading φ)) (fold : Fold φ) :
    (rs.foldl (consume rt spec) fold).ledger = (judgements rt spec fold.lastEvaluated rs).foldl
      (Ledger.step rt.uuid4 spec.sustainBuckets spec.recoveryBuckets) fold.ledger := by
  induction rs generalizing fold with
  | nil => rfl
  | cons r rs ih =>
    by_cases hj : alreadyJudged fold.lastEvaluated r
    · simp only [List.foldl_cons, judgements, hj, if_true, consume_of_alreadyJudged hj]
      exact ih fold
    · rw [List.foldl_cons, ih, consume_ledger hj, consume_lastEvaluated hj]
      simp [judgements, hj]

theorem exists_fold (rt : Runtime) (spec : FoldInput φ) :
    ∃ fold : Fold φ, (∃ status reason preserve, foldRule rt spec = fold.output status reason preserve) ∧
      fold.ledger = (tickJudgements rt spec).foldl
        (Ledger.step rt.uuid4 spec.sustainBuckets spec.recoveryBuckets) (Fold.start spec).ledger ∧
      (fold = Fold.start spec ∨ fold = foldReadings rt spec) := by
  cases hh : halt spec with
  | some p =>
    refine ⟨Fold.start spec, ⟨_, _, _, by rw [foldRule, hh]⟩, ?_, Or.inl rfl⟩
    simp [tickJudgements, hh]
  | none =>
    refine ⟨foldReadings rt spec, ?_, ?_, Or.inr rfl⟩
    · have heq : foldRule rt spec = finish spec (foldReadings rt spec) := by simp [foldRule, hh]
      obtain ⟨status, reason, preserve, hfin⟩ := finish_eq_output spec (foldReadings rt spec)
      exact ⟨status, reason, preserve, heq.trans hfin⟩
    · simp only [foldReadings, foldl_consume_ledger, tickJudgements, hh, Option.isSome_none,
        Bool.false_eq_true, if_false]
      rfl

end Refines

/-! ## States and labels along the fold -/

def BreachState.Labelled (b : BreachState φ) : Prop :=
  ∀ label, b.worstMeasurement = some label ∨ b.lastMeasurement = some label →
    label = "EXACT" ∨ label = "LOWER_BOUND"

/-- The live breach is open, the resolved one is resolved, and both can be stored. -/
structure Storable (fold : Fold φ) : Prop where
  live : ∀ b, fold.breach = some b → (b.state = .opened ∨ b.state = .recovering) ∧ b.Labelled
  resolved : ∀ b, fold.resolved = some b → b.state = .resolved ∧ b.Labelled

section Storable

variable {rt : Runtime} {spec : FoldInput φ} {fold : Fold φ} {r : InterpretedReading φ} {b : BreachState φ}

theorem Labelled.noteLast (hr : Labelled r) (hb : b.Labelled) : (noteLast b r).Labelled := by
  rintro label (h | h)
  · exact hb label (Or.inl h)
  · exact hr.label h

theorem Labelled.openBreach (hr : Labelled r) (id : String) : (openBreach spec id r).Labelled := by
  rintro label (h | h)
  · exact hr.label h
  · exact hr.label h

theorem Storable.onUnmeasured (h : Storable fold) (reason : String) : Storable (onUnmeasured fold reason) := by
  refine ⟨?_, h.resolved⟩
  intro b hb
  cases hf : fold.breach with
  | none => simp [CustomRules.onUnmeasured, hf] at hb
  | some b' =>
    simp only [CustomRules.onUnmeasured, hf, Option.map_some, Option.some.injEq] at hb
    subst hb
    exact h.live b' hf

theorem Storable.onUnder (h : Storable fold) (hr : Labelled r) : Storable (onUnder spec fold r) := by
  cases hf : fold.breach with
  | none =>
    simp only [CustomRules.onUnder, hf]
    exact ⟨fun b hb => by simp at hb, h.resolved⟩
  | some b =>
    have hnote := hr.noteLast (h.live b hf).2
    simp only [CustomRules.onUnder, hf]
    split_ifs
    · refine ⟨fun b hb => by simp at hb, fun b hb => ?_⟩
      cases hb
      exact ⟨rfl, hnote⟩
    · refine ⟨fun b hb => ?_, h.resolved⟩
      cases hb
      exact ⟨Or.inr rfl, hnote⟩

variable [PyFloat φ]

theorem Labelled.noteWorst (hr : Labelled r) (hb : b.Labelled) (operator : String) :
    (noteWorst operator b r).Labelled := by
  simp only [CustomRules.noteWorst]
  split_ifs
  · rintro label (h | h)
    · exact hr.label h
    · exact hr.label h
  · exact hr.noteLast hb

theorem noteWorst_state (operator : String) : (noteWorst operator b r).state = b.state := by
  simp only [noteWorst]
  split_ifs <;> rfl

theorem Storable.onBreach (h : Storable fold) (hr : Labelled r) : Storable (onBreach rt spec fold r) := by
  cases hf : fold.breach with
  | none =>
    simp only [CustomRules.onBreach, hf]
    split_ifs
    · refine ⟨fun b hb => ?_, h.resolved⟩
      cases hb
      exact ⟨Or.inl rfl, hr.openBreach _⟩
    · exact ⟨fun b hb => by simp at hb, h.resolved⟩
  | some b =>
    simp only [CustomRules.onBreach, hf]
    refine ⟨fun b' hb => ?_, h.resolved⟩
    cases hb
    have hb : ({ b with state := .opened, recoveringAt := none } : BreachState φ).Labelled := (h.live b hf).2
    exact ⟨Or.inl (noteWorst_state _), hr.noteWorst hb _⟩

theorem Storable.consume (h : Storable fold) (hr : Labelled r) : Storable (consume rt spec fold r) := by
  simp only [CustomRules.consume]
  split_ifs with hj
  · exact h
  · have hmove : Storable { fold with lastEvaluated := some r.bucketStart, judged := fold.judged + 1 } :=
      ⟨h.live, h.resolved⟩
    cases verdict rt spec r with
    | maintenance reason => exact ⟨h.live, h.resolved⟩
    | unmeasured reason => exact hmove.onUnmeasured reason
    | breach => exact hmove.onBreach hr
    | under => exact hmove.onUnder hr

theorem Storable.foldReadings (h : Storable (Fold.start spec)) (hr : ∀ r ∈ spec.readings, Labelled r) :
    Storable (foldReadings rt spec) := by
  simp only [CustomRules.foldReadings]
  have hsorted : ∀ r ∈ sortOn InterpretedReading.bucketStart spec.readings, Labelled r :=
    fun r hmem => hr r (mem_sortOn.mp hmem)
  generalize sortOn InterpretedReading.bucketStart spec.readings = rs at hsorted
  generalize Fold.start spec = fold at h
  induction rs generalizing fold with
  | nil => exact h
  | cons r rs ih =>
    exact ih (fun r' hr' => hsorted r' (List.mem_cons_of_mem r hr')) _
      (h.consume (hsorted r List.mem_cons_self))

end Storable

/-! ## Saving one record -/

section Persist

variable {rule : CustomRule φ} {rows : List (CustomRuleBreach φ)} {record : BreachState φ}

theorem storedMeasurement_ok (rt : Runtime) {label} (h : ∀ l, label = some l → l = "EXACT" ∨ l = "LOWER_BOUND") :
    ∃ m, storedMeasurement rt label = .ok m ∧ m.map WafMeasurement.value = label := by
  cases label with
  | none => exact ⟨none, rfl, rfl⟩
  | some l =>
    rcases h l rfl with rfl | rfl
    · exact ⟨some .exact, rfl, rfl⟩
    · exact ⟨some .lowerBound, rfl, rfl⟩

theorem breachColumns_ok (rt : Runtime) (rule : CustomRule φ) (h : record.Labelled) :
    ∃ row, breachColumns rt rule record = .ok row ∧ row.ruleId = rule.id ∧
      breachState row = { record with isNew := false } := by
  obtain ⟨m, hm, hworst⟩ := storedMeasurement_ok rt (fun l hl => h l (Or.inl hl))
  obtain ⟨m', hm', hlast⟩ := storedMeasurement_ok rt (fun l hl => h l (Or.inr hl))
  simp only [breachColumns, hm, hm']
  exact ⟨_, rfl, rfl, by simp [breachState, hworst, hlast]⟩

theorem breachRow_mem {row} (h : breachRow rule rows = some row) : row ∈ rows ∧ rule.activeBreachId = some row.id := by
  cases hid : rule.activeBreachId with
  | none => simp [breachRow, hid] at h
  | some id =>
    simp only [breachRow, hid] at h
    have hrow := List.find?_some h
    exact ⟨List.mem_of_find?_eq_some h, by simpa using (of_decide_eq_true hrow).symm⟩

theorem activeTaken_iff {written} : activeTaken written rows ↔
    written.state ≠ .resolved ∧
      ∃ row ∈ rows, row.id ≠ written.id ∧ row.ruleId = written.ruleId ∧ row.state ≠ .resolved := by
  simp [activeTaken, and_assoc]

/-- What the flush of a record leaves: its row holds it, the other rows are as they were, and a live record has no live
row of the rule beside it. -/
structure Saved (rule : CustomRule φ) (record : Option (BreachState φ)) (rows rows' : List (CustomRuleBreach φ)) :
    Prop where
  stored : ∀ b, record = some b → ∃ row ∈ rows', row.id = b.id
  written : ∀ b, record = some b → ∀ row ∈ rows', row.id = b.id →
    row.ruleId = rule.id ∧ breachState row = { b with isNew := false }
  kept : ∀ row ∈ rows', (∀ b, record = some b → row.id ≠ b.id) → row ∈ rows
  nodup : (rows'.map (fun row => row.id)).Nodup
  alone : ∀ b, record = some b → b.state ≠ .resolved →
    ∀ row ∈ rows, row.ruleId = rule.id → row.state ≠ .resolved → row.id = b.id

/-- A live record of the rule has another live row beside it. -/
def Taken (rule : CustomRule φ) (record : BreachState φ) (rows : List (CustomRuleBreach φ)) : Prop :=
  record.state ≠ .resolved ∧ ∃ row ∈ rows, row.id ≠ record.id ∧ row.ruleId = rule.id ∧ row.state ≠ .resolved

theorem saveBreach_cases (rt : Runtime) (hst : Stored rule rows) (h : record.Labelled)
    (hknown : (breachRow rule rows).map (fun row => row.id) = some record.id ∨ ∀ row ∈ rows, row.id ≠ record.id) :
    (Taken rule record rows ∧
        saveBreach rt rule record (breachRow rule rows) rows = .error (.integrity "uq_custom_rule_breach_active")) ∨
      ∃ rows', saveBreach rt rule record (breachRow rule rows) rows = .ok rows' ∧
        Saved rule (some record) rows rows' := by
  obtain ⟨columns, hcolumns, hrule, hstate⟩ := breachColumns_ok rt rule h
  have hid : columns.id = record.id := congrArg BreachState.id hstate
  have hlive : columns.state = record.state := congrArg BreachState.state hstate
  have htaken : activeTaken columns rows ↔ Taken rule record rows := by
    rw [activeTaken_iff, Taken, hid, hlive, hrule]
  have halone : ¬ Taken rule record rows → ∀ b, some record = some b → b.state ≠ .resolved →
      ∀ row ∈ rows, row.ruleId = rule.id → row.state ≠ .resolved → row.id = b.id := by
    rintro hnot _ ⟨⟩ hopen row hrow hown hrowlive
    by_contra hne
    exact hnot ⟨hopen, row, hrow, hne, hown, hrowlive⟩
  rcases hknown with hsome | hfresh
  · -- the row that is there is updated
    obtain ⟨old, hold, hoid⟩ := Option.map_eq_some_iff.mp hsome
    have hown : ({ columns with ruleId := old.ruleId } : CustomRuleBreach φ) = columns := by
      rw [(hst.live old hold).1, ← hrule]
    have hsave : saveBreach rt rule record (breachRow rule rows) rows =
        if activeTaken columns rows then .error (.integrity "uq_custom_rule_breach_active")
        else .ok (rows.map (fun r => if r.id = old.id then columns else r)) := by
      rw [saveBreach, hcolumns, hold, Option.filter_some, if_pos (decide_eq_true hoid), ← hown]
      rfl
    by_cases ht : Taken rule record rows
    · exact Or.inl ⟨ht, hsave.trans (if_pos (htaken.mpr ht))⟩
    · refine Or.inr ⟨_, hsave.trans (if_neg (mt htaken.mp ht)), ?_⟩
      have hids : (rows.map (fun r => if r.id = old.id then columns else r)).map (fun row => row.id) =
          rows.map (fun row => row.id) := by
        rw [List.map_map]
        refine List.map_congr_left (fun r _ => ?_)
        by_cases hr : r.id = old.id
        · simp [hr, hid, hoid]
        · simp [hr]
      refine ⟨?_, ?_, fun row hrow hne => ?_, hids ▸ hst.ids_nodup, halone ht⟩
      · rintro _ ⟨⟩
        exact ⟨columns, List.mem_map.mpr ⟨old, (breachRow_mem hold).1, by simp⟩, hid⟩
      · rintro _ ⟨⟩ row hrow hrid
        obtain ⟨r, -, rfl⟩ := List.mem_map.mp hrow
        by_cases hr : r.id = old.id
        · simp only [hr, if_true]
          exact ⟨hrule, hstate⟩
        · rw [if_neg hr] at hrid
          exact absurd (hrid.trans hoid.symm) hr
      · obtain ⟨r, hr, rfl⟩ := List.mem_map.mp hrow
        by_cases hro : r.id = old.id
        · simp only [hro, if_true] at hne
          exact absurd hid (hne record rfl)
        · simpa [hro] using hr
  · -- a row is added
    have hnone : (breachRow rule rows).filter (fun row => decide (row.id = record.id)) = none := by
      refine Option.filter_eq_none_iff.mpr (fun row hrow => ?_)
      simpa using hfresh row (breachRow_mem hrow).1
    have hsave : saveBreach rt rule record (breachRow rule rows) rows =
        if activeTaken columns rows then .error (.integrity "uq_custom_rule_breach_active")
        else .ok (rows ++ [columns]) := by
      rw [saveBreach, hcolumns, hnone]
      rfl
    by_cases ht : Taken rule record rows
    · exact Or.inl ⟨ht, hsave.trans (if_pos (htaken.mpr ht))⟩
    · refine Or.inr ⟨_, hsave.trans (if_neg (mt htaken.mp ht)), ?_⟩
      refine ⟨?_, ?_, fun row hrow hne => ?_, ?_, halone ht⟩
      · rintro _ ⟨⟩
        exact ⟨columns, by simp, hid⟩
      · rintro _ ⟨⟩ row hrow hrid
        rcases List.mem_append.mp hrow with hrow | hrow
        · exact absurd hrid (hfresh row hrow)
        · exact List.mem_singleton.mp hrow ▸ ⟨hrule, hstate⟩
      · rcases List.mem_append.mp hrow with hrow | hrow
        · exact hrow
        · exact absurd (List.mem_singleton.mp hrow ▸ hid) (hne record rfl)
      · rw [List.map_append, List.nodup_append]
        refine ⟨hst.ids_nodup, by simp, fun id hmem id' hmem' => ?_⟩
        obtain ⟨row, hrow, rfl⟩ := List.mem_map.mp hmem
        obtain rfl : id' = record.id := by simpa [hid] using hmem'
        exact hfresh row hrow

end Persist

/-! ## Phases and rows -/

section Phases

variable {rule rule' : CustomRule φ} {rows rows' : List (CustomRuleBreach φ)} {fold : Fold φ}
variable {ids : Nat → String} {start : Option String} {reopens : Prop}

theorem mem_eventIds {action} {events : List (CustomRuleAlertEvent φ)} {id} :
    id ∈ eventIds action events ↔ ∃ e ∈ events, e.action = action ∧ e.breachId = id := by
  simp [eventIds, and_assoc]

def Fold.record (fold : Fold φ) : Option (BreachState φ) :=
  match fold.resolved with
  | some resolved => some resolved
  | none => fold.breach

theorem Fold.record_id (fold : Fold φ) : fold.record.map (fun b => b.id) = fold.ledger.record := by
  cases h : fold.resolved <;> simp [Fold.record, Ledger.record, Fold.ledger, h]

/-- A tick that the flush accepted. -/
structure TickOf (rule : CustomRule φ) (rows : List (CustomRuleBreach φ)) (fold : Fold φ)
    (rule' : CustomRule φ) (rows' : List (CustomRuleBreach φ)) : Prop where
  storable : Storable fold
  saved : Saved rule fold.record rows rows'
  ruleId : rule'.id = rule.id
  active : rule'.activeBreachId = fold.ledger.live

theorem TickOf.resolved_row (h : TickOf rule rows fold rule' rows') {id} (hid : fold.ledger.resolved = some id) :
    ∃ row ∈ rows', row.id = id ∧ row.state = .resolved := by
  obtain ⟨b, hb, rfl⟩ := Option.map_eq_some_iff.mp hid
  have hrecord : fold.record = some b := by rw [Fold.record, hb]
  obtain ⟨row, hrow, hrid⟩ := h.saved.stored b hrecord
  have hstate := congrArg BreachState.state (h.saved.written b hrecord row hrow hrid).2
  exact ⟨row, hrow, hrid, hstate.trans (h.storable.resolved b hb).1⟩

theorem TickOf.kept_row (h : TickOf rule rows fold rule' rows') {id} (hid : fold.ledger.resolved = some id)
    {row} (hrow : row ∈ rows') (hne : row.id ≠ id) : row ∈ rows := by
  obtain ⟨b, hb, rfl⟩ := Option.map_eq_some_iff.mp hid
  refine h.saved.kept row hrow (fun b' hb' => ?_)
  rw [Fold.record, hb] at hb'
  cases hb'
  exact hne

/-- What the next tick reads of the live breach: what the fold left, unless the tick saved a resolved one. -/
theorem TickOf.reload (h : TickOf rule rows fold rule' rows') (hids : FreshIds ids rows)
    (hends : Ledger.Ends ids start reopens fold.ledger) :
    (breachRow rule' rows').map breachState =
      if fold.resolved.isSome then none else fold.breach.map (fun b => { b with isNew := false }) := by
  have hactive : rule'.activeBreachId = fold.breach.map (fun b => b.id) := h.active
  cases hb : fold.breach with
  | none =>
    rw [hb] at hactive
    simp [breachRow, hactive]
  | some b =>
    rw [hb, Option.map_some] at hactive
    have hread : breachRow rule' rows' = rows'.find? (fun row => row.id = b.id) := by rw [breachRow, hactive]
    cases hres : fold.resolved with
    | none =>
      have hrecord : fold.record = some b := by rw [Fold.record, hres, hb]
      obtain ⟨row, hrow, hrid⟩ := h.saved.stored b hrecord
      cases hfound : rows'.find? (fun row => row.id = b.id) with
      | none => exact absurd (decide_eq_true hrid) (List.find?_eq_none.mp hfound row hrow)
      | some found =>
        have hid : found.id = b.id := by simpa using List.find?_some hfound
        rw [hread, hfound]
        simpa using (h.saved.written b hrecord found (List.mem_of_find?_eq_some hfound) hid).2
    | some r =>
      -- the live breach has no row
      have hlive : fold.ledger.live = some b.id := by rw [Fold.ledger, hb]; rfl
      have hresolved : fold.ledger.resolved = some r.id := by rw [Fold.ledger, hres]; rfl
      have hnot : ∀ row ∈ rows', row.id ≠ b.id := by
        rcases hends with ⟨-, first, last, hre⟩ | ⟨-, hun | ⟨id, hr, -⟩⟩
        · rcases hre.live with ⟨hnone, -⟩ | ⟨id, hid, hlast, -, n, -, hn⟩
          · rw [hlive] at hnone
            cases hnone
          · obtain rfl := Option.some.inj (hlive.symm.trans hid)
            obtain rfl := Option.some.inj (hresolved.symm.trans hre.last_resolved)
            intro row hrow hrid
            exact hids.not_stored n row (h.kept_row hresolved hrow (hrid ▸ hlast)) (hrid.trans hn)
        · rw [hun.resolved] at hresolved
          cases hresolved
        · rw [hr.live] at hlive
          cases hlive
      have hfound : rows'.find? (fun row => row.id = b.id) = none :=
        List.find?_eq_none.mpr (fun row hrow => by simpa using hnot row hrow)
      simp [hread, hfound]

theorem TickOf.stored (h : TickOf rule rows fold rule' rows') (hst : Stored rule rows) (hids : FreshIds ids rows)
    (hends : Ledger.Ends ids start reopens fold.ledger) : Stored rule' rows' := by
  refine ⟨h.saved.nodup, fun row hrow row' hrow' hown hown' hlive hlive' => ?_, fun row hrow => ?_⟩
  · rw [h.ruleId] at hown hown'
    -- two live rows of the rule have one id: both are the record's, or both were there
    refine List.inj_on_of_nodup_map h.saved.nodup hrow hrow' ?_
    have hother : ∀ row ∈ rows', ∀ row' ∈ rows', row'.ruleId = rule.id → row.state ≠ .resolved → row'.state ≠ .resolved →
        ∀ b, fold.record = some b → row.id = b.id → row'.id = b.id := by
      intro row hrow row' hrow' hown' hlive hlive' b hb hrid
      by_contra hne
      have hstate : row.state = b.state :=
        congrArg BreachState.state (h.saved.written b hb row hrow hrid).2
      refine hne (h.saved.alone b hb (hstate ▸ hlive) row' (h.saved.kept row' hrow' ?_) hown' hlive')
      rintro b' hb'
      obtain rfl := Option.some.inj (hb.symm.trans hb')
      exact hne
    by_cases hrec : ∃ b, fold.record = some b ∧ row.id = b.id
    · obtain ⟨b, hb, hrid⟩ := hrec
      rw [hrid, hother row hrow row' hrow' hown' hlive hlive' b hb hrid]
    · have hold : ∀ b, fold.record = some b → row.id ≠ b.id := fun b hb hrid => hrec ⟨b, hb, hrid⟩
      have hold' : ∀ b, fold.record = some b → row'.id ≠ b.id :=
        fun b hb hrid => hold b hb (hother row' hrow' row hrow hown hlive' hlive b hb hrid)
      rw [hst.one_live row (h.saved.kept row hrow hold) row' (h.saved.kept row' hrow' hold') hown hown' hlive hlive']
  · have hreload := h.reload hids hends
    rw [hrow, Option.map_some] at hreload
    split_ifs at hreload with hres
    obtain ⟨b, hb, hstate⟩ := Option.map_eq_some_iff.mp hreload.symm
    have hrecord : fold.record = some b := by
      rw [Fold.record, Option.not_isSome_iff_eq_none.mp hres, hb]
    have hid : row.id = b.id := (congrArg BreachState.id hstate).symm
    have hopen : row.state = b.state := (congrArg BreachState.state hstate).symm
    exact ⟨(h.saved.written b hrecord row (breachRow_mem hrow).1 hid).1.trans h.ruleId.symm,
      hopen ▸ (h.storable.live b hb).1⟩

theorem TickOf.freshIds (h : TickOf rule rows fold rule' rows') {ids' : Nat → String} (hids' : FreshIds ids' rows)
    (hdisjoint : ∀ m n, ids m ≠ ids' n) (hstart : start = (breachRow rule rows).map (fun row => row.id))
    (hends : Ledger.Ends ids start reopens fold.ledger) : FreshIds ids' rows' := by
  refine ⟨hids'.injective, fun n row hrow hid => ?_⟩
  by_cases hrec : ∃ b, fold.record = some b ∧ row.id = b.id
  · obtain ⟨b, hb, hrid⟩ := hrec
    have hrecord : fold.ledger.record = some row.id := by rw [← Fold.record_id, hb, hrid]; rfl
    rcases hends.record_known hrecord with hold | ⟨m, hm⟩
    · obtain ⟨old, hold, hoid⟩ := Option.map_eq_some_iff.mp (hstart.symm.trans hold)
      exact hids'.not_stored n old (breachRow_mem hold).1 (hoid.trans hid)
    · exact hdisjoint m n (hm.symm.trans hid)
  · exact hids'.not_stored n row (h.saved.kept row hrow (fun b hb hrid => hrec ⟨b, hb, hrid⟩)) hid

theorem storageAgrees_of_unresolved (h : TickOf rule rows fold rule' rows')
    (hun : fold.ledger.Unresolved ids start) : StorageAgrees rule' rows' fold.events := by
  have hresolved : fold.resolved = none := by simpa [Fold.ledger] using hun.resolved
  -- the live breach, if any, is the record
  have hlive : ∀ id, fold.ledger.live = some id →
      ∃ row ∈ rows', row.id = id ∧ row.ruleId = rule.id ∧ (row.state = .opened ∨ row.state = .recovering) := by
    intro id hid
    obtain ⟨b, hb, rfl⟩ := Option.map_eq_some_iff.mp hid
    have hrecord : fold.record = some b := by rw [Fold.record, hresolved, hb]
    obtain ⟨row, hrow, hrid⟩ := h.saved.stored b hrecord
    obtain ⟨hown, hstate⟩ := h.saved.written b hrecord row hrow hrid
    have hopen : row.state = b.state := congrArg BreachState.state hstate
    exact ⟨row, hrow, hrid, hown, hopen ▸ (h.storable.live b hb).1⟩
  refine ⟨?_, ?_, ?_⟩
  · intro id hid
    rw [h.ruleId]
    exact hlive id (h.active ▸ hid)
  · intro e he haction
    have hmem : e.breachId ∈ fold.ledger.opens := mem_eventIds.mpr ⟨e, he, haction, rfl⟩
    rcases hun.live with ⟨-, hopens⟩ | ⟨-, n, hid, hopens⟩
    · simp [hopens] at hmem
    · rw [hopens, List.mem_singleton] at hmem
      obtain ⟨row, hrow, hrid, -⟩ := hlive _ hid
      exact ⟨row, hrow, by rw [hrid, hmem]⟩
  · intro e he haction
    have hmem : e.breachId ∈ fold.ledger.resolves := mem_eventIds.mpr ⟨e, he, haction, rfl⟩
    simp [hun.resolves] at hmem

theorem storageAgrees_of_resolved (h : TickOf rule rows fold rule' rows') {id : String}
    (hres : fold.ledger.Resolved id) : StorageAgrees rule' rows' fold.events := by
  obtain ⟨row, hrow, hrid, hstate⟩ := h.resolved_row hres.resolved
  refine ⟨?_, ?_, ?_⟩
  · intro id' hid'
    rw [h.active, hres.live] at hid'
    cases hid'
  · intro e he haction
    have hmem : e.breachId ∈ fold.ledger.opens := mem_eventIds.mpr ⟨e, he, haction, rfl⟩
    rcases hres.opens with hopens | hopens
    · simp [hopens] at hmem
    · rw [hopens, List.mem_singleton] at hmem
      exact ⟨row, hrow, by rw [hrid, hmem]⟩
  · intro e he haction
    have hmem : e.breachId ∈ fold.ledger.resolves := mem_eventIds.mpr ⟨e, he, haction, rfl⟩
    rw [hres.resolves, List.mem_singleton] at hmem
    exact ⟨row, hrow, by rw [hrid, hmem], hstate⟩

/-- A breach opened after a resolution has no row, or the breach resolved first is not resolved in its
row. -/
theorem not_storageAgrees_of_reopened (h : TickOf rule rows fold rule' rows') (hst : Stored rule rows)
    (hids : FreshIds ids rows) (hstart : start = (breachRow rule rows).map (fun row => row.id)) {first last : String}
    (hre : fold.ledger.Reopened ids start first last) : ¬ StorageAgrees rule' rows' fold.events := by
  intro hagrees
  rcases hre.live with ⟨-, hne⟩ | ⟨id, hlive, hlast, -, n, -, hid⟩
  · -- `first` was resolved by the fold and not written
    obtain ⟨e, he, haction, heid⟩ := mem_eventIds.mp hre.first_resolved
    obtain ⟨row, hrow, hrid, hstate⟩ := hagrees.resolved e he haction
    have hrow' : row ∈ rows := h.kept_row hre.last_resolved hrow (by rw [hrid, heid]; exact hne.symm)
    rcases hre.first_known with hfirst | ⟨n, -, hn⟩
    · rw [hstart, Option.map_eq_some_iff] at hfirst
      obtain ⟨old, hold, holdid⟩ := hfirst
      have hsame : row = old := by
        refine List.inj_on_of_nodup_map hst.ids_nodup hrow' (breachRow_mem hold).1 ?_
        rw [hrid, heid, holdid]
      rcases (hst.live old hold).2 with hopen | hopen
      · rw [← hsame, hstate] at hopen
        cases hopen
      · rw [← hsame, hstate] at hopen
        cases hopen
    · exact hids.not_stored n row hrow' (by rw [hrid, heid, hn])
  · -- the live breach has no row
    obtain ⟨row, hrow, hrid, -⟩ := hagrees.active id (h.active.trans hlive)
    exact hids.not_stored n row (h.kept_row hre.last_resolved hrow (by rw [hrid]; exact hlast)) (hrid.trans hid)

end Phases

/-! ## The tick -/

section Tick

variable {rule : CustomRule φ} {rows : List (CustomRuleBreach φ)} {tick : RuleTick φ}

theorem breachState_labelled (row : CustomRuleBreach φ) : (breachState row).Labelled := by
  intro label h
  have hvalue : ∀ m : Option WafMeasurement, m.map WafMeasurement.value = some label →
      label = "EXACT" ∨ label = "LOWER_BOUND" := by
    intro m hm
    obtain ⟨m, -, rfl⟩ := Option.map_eq_some_iff.mp hm
    cases m with
    | exact => exact Or.inl rfl
    | lowerBound => exact Or.inr rfl
  rcases h with h | h
  · exact hvalue _ h
  · exact hvalue _ h

variable [PyFloat φ]

theorem storable_start (hst : Stored rule rows) :
    Storable (Fold.start (foldInput rule (breachRow rule rows) tick)) := by
  refine ⟨?_, by simp [Fold.start]⟩
  intro b hb
  simp only [Fold.start, foldInput, Option.map_eq_some_iff] at hb
  obtain ⟨row, hrow, rfl⟩ := hb
  exact ⟨(hst.live row hrow).2, breachState_labelled row⟩

/-- The fold of a stored rule's tick. -/
structure FoldOf (rt : Runtime) (rule : CustomRule φ) (rows : List (CustomRuleBreach φ)) (tick : RuleTick φ)
    (fold : Fold φ) : Prop where
  output : ∃ status reason preserve,
    foldRule rt (foldInput rule (breachRow rule rows) tick) = fold.output status reason preserve
  storable : Storable fold
  ledger : fold.ledger = (tickJudgements rt (foldInput rule (breachRow rule rows) tick)).foldl
    (Ledger.step rt.uuid4 rule.sustainBuckets rule.recoveryBuckets)
    { live := (breachRow rule rows).map (fun row => row.id)
      breaching := rule.consecutiveBreaching
      under := rule.consecutiveUnder }

theorem exists_foldOf (rt : Runtime) (hst : Stored rule rows) (tick : RuleTick φ) :
    ∃ fold, FoldOf rt rule rows tick fold := by
  obtain ⟨fold, hout, hledger, hfold⟩ := exists_fold rt (foldInput rule (breachRow rule rows) tick)
  refine ⟨fold, hout, ?_, ?_⟩
  · rcases hfold with rfl | rfl
    · exact storable_start hst
    · exact (storable_start hst).foldReadings (readings_labelled rule.metric tick.grid)
  · rw [hledger]
    simp [Fold.start, Fold.ledger, foldInput, eventIds, Function.comp_def, breachState]

variable {rt : Runtime} {fold : Fold φ}

theorem FoldOf.ends (h : FoldOf rt rule rows tick fold) (hids : FreshIds rt.uuid4 rows) :
    Ledger.Ends rt.uuid4 ((breachRow rule rows).map (fun row => row.id)) (TickReopens rt rule rows tick) fold.ledger := by
  have hfresh : ∀ n, (breachRow rule rows).map (fun row => row.id) ≠ some (rt.uuid4 n) := by
    intro n h
    obtain ⟨row, hrow, hid⟩ := Option.map_eq_some_iff.mp h
    exact hids.not_stored n row (breachRow_mem hrow).1 hid
  have hends := Ledger.ends_start (J := tickJudgements rt (foldInput rule (breachRow rule rows) tick)) hids.injective
    hfresh rule.sustainBuckets_ok rule.recoveryBuckets_ok rule.consecutiveBreaching rule.consecutiveUnder
  rw [Option.isSome_map] at hends
  rw [h.ledger]
  exact hends

theorem FoldOf.endsReopened_iff (h : FoldOf rt rule rows tick fold) :
    (fold.resolved.isSome ∧ fold.breach.isSome) ↔ TickEndsReopened rt rule rows tick := by
  have hsome : (breachRow rule rows).isSome = ((breachRow rule rows).map (fun row => row.id)).isSome :=
    Option.isSome_map.symm
  have hends : (fold.ledger.resolved.isSome ∧ fold.ledger.live.isSome) ↔ TickEndsReopened rt rule rows tick := by
    rw [h.ledger, TickEndsReopened, TickResolvesThen, hsome]
    exact Ledger.ends_reopened_iff rule.sustainBuckets_ok rule.recoveryBuckets_ok rfl rfl
  simpa [Fold.ledger] using hends

/-- The flush refuses a tick exactly when the live breach that it would add is not the rule's only live row. -/
theorem FoldOf.taken_iff (h : FoldOf rt rule rows tick fold) (hst : Stored rule rows) (hids : FreshIds rt.uuid4 rows) :
    (∃ b, fold.record = some b ∧ Taken rule b rows) ↔ TickConflicts rt rule rows tick := by
  have hopened : breachRow rule rows = none →
      ((fold.resolved = none ∧ fold.breach.isSome) ↔ StaysOpen rule.consecutiveBreaching rule.sustainBuckets
        rule.recoveryBuckets (tickJudgements rt (foldInput rule (breachRow rule rows) tick))) := by
    intro hnone
    have hends : (fold.ledger.resolved = none ∧ fold.ledger.live.isSome) ↔ StaysOpen rule.consecutiveBreaching
        rule.sustainBuckets rule.recoveryBuckets (tickJudgements rt (foldInput rule (breachRow rule rows) tick)) := by
      rw [h.ledger]
      exact Ledger.ends_opened_iff rule.sustainBuckets_ok rule.recoveryBuckets_ok (by rw [hnone]; rfl) rfl
    simpa [Fold.ledger] using hends
  constructor
  · rintro ⟨b, hb, hopen, row, hrow, hne, hown, hlive⟩
    have hresolved : fold.resolved = none := by
      cases hr : fold.resolved with
      | none => rfl
      | some r =>
        rw [Fold.record, hr] at hb
        exact absurd (h.storable.resolved b (hr.trans hb)).1 hopen
    have hbreach : fold.breach = some b := by rwa [Fold.record, hresolved] at hb
    cases hstart : breachRow rule rows with
    | none => exact ⟨hstart, ⟨row, hrow, hown, hlive⟩, (hopened hstart).mp ⟨hresolved, by rw [hbreach]; rfl⟩⟩
    | some old =>
      -- the live breach of the tick is the one it started with, and its row is the rule's only live one
      obtain ⟨hoown, hostate⟩ := hst.live old hstart
      have holive : old.state ≠ .resolved := by rcases hostate with h | h <;> simp [h]
      have hbid : old.id = b.id := by
        have hrecord : fold.ledger.record = some b.id := by rw [← Fold.record_id, hb]; rfl
        have hunresolved : fold.ledger.resolved = none := by rw [Fold.ledger, hresolved]; rfl
        have hends := h.ends hids
        rw [hstart] at hends
        rcases hends with ⟨-, first, last, hre⟩ | ⟨-, hun | ⟨id, hres, -⟩⟩
        · rw [hre.last_resolved] at hunresolved
          cases hunresolved
        · rw [Ledger.record, hunresolved] at hrecord
          rcases hun.live with ⟨hlive', -⟩ | ⟨hnone, -⟩
          · exact Option.some.inj (hlive'.symm.trans hrecord)
          · cases hnone
        · rw [hres.resolved] at hunresolved
          cases hunresolved
      have hsame := hst.one_live row hrow old (breachRow_mem hstart).1 hown hoown hlive holive
      exact absurd (hsame ▸ hbid) hne
  · rintro ⟨hnone, ⟨row, hrow, hown, hlive⟩, hstays⟩
    obtain ⟨hresolved, hsome⟩ := (hopened hnone).mpr hstays
    obtain ⟨b, hb⟩ := Option.isSome_iff_exists.mp hsome
    have hrecord : fold.record = some b := by rw [Fold.record, hresolved, hb]
    refine ⟨b, hrecord, ?_, row, hrow, ?_, hown, hlive⟩
    · rcases (h.storable.live b hb).1 with hopen | hopen <;> simp [hopen]
    · have hid : fold.ledger.record = some b.id := by rw [← Fold.record_id, hrecord]; rfl
      rcases (h.ends hids).record_known hid with hold | ⟨n, hn⟩
      · rw [hnone] at hold
        cases hold
      · exact fun heq => hids.not_stored n row hrow (heq.trans hn)

theorem tickRule_eq (rt : Runtime) (rule : CustomRule φ) (rows : List (CustomRuleBreach φ)) (tick : RuleTick φ)
    {output} (hout : foldRule rt (foldInput rule (breachRow rule rows) tick) = output) :
    tickRule rt rule rows tick =
      match output.record with
      | none => .ok (output, storeRule rule output tick.now, rows)
      | some record =>
        (saveBreach rt rule record (breachRow rule rows) rows).map
          (fun rows' => (output, storeRule rule output tick.now, rows')) := by
  simp only [tickRule, persist, hout]
  cases output.record with
  | none => rfl
  | some record =>
    have hsame : saveBreach rt (storeRule rule output tick.now) record (breachRow rule rows) rows =
        saveBreach rt rule record (breachRow rule rows) rows := rfl
    simp only [hsame]
    cases saveBreach rt rule record (breachRow rule rows) rows <;> rfl

/-- The flush refuses the tick, or the tick is stored. -/
theorem tickRule_cases (hst : Stored rule rows) (hids : FreshIds rt.uuid4 rows) (h : FoldOf rt rule rows tick fold) :
    (TickConflicts rt rule rows tick ∧
        tickRule rt rule rows tick = .error (.integrity "uq_custom_rule_breach_active")) ∨
      (¬ TickConflicts rt rule rows tick ∧
        ∃ rows', tickRule rt rule rows tick =
          .ok (foldRule rt (foldInput rule (breachRow rule rows) tick),
            storeRule rule (foldRule rt (foldInput rule (breachRow rule rows) tick)) tick.now, rows') ∧
          TickOf rule rows fold
            (storeRule rule (foldRule rt (foldInput rule (breachRow rule rows) tick)) tick.now) rows') := by
  have htaken := h.taken_iff hst hids
  obtain ⟨status, reason, preserve, hout⟩ := h.output
  have heq := tickRule_eq rt rule rows tick hout
  have hrecord : (fold.output status reason preserve).record = fold.record := rfl
  have hof : ∀ rows', Saved rule fold.record rows rows' →
      TickOf rule rows fold (storeRule rule (fold.output status reason preserve) tick.now) rows' :=
    fun rows' hsaved => ⟨h.storable, hsaved, rfl, rfl⟩
  rw [hrecord] at heq
  rw [hout]
  cases hb : fold.record with
  | none =>
    rw [hb] at hof htaken
    simp only [hb] at heq
    have hsaved : Saved rule none rows rows := ⟨by simp, by simp, fun row hrow _ => hrow, hst.ids_nodup, by simp⟩
    exact Or.inr ⟨fun hconflict => by simpa using htaken.mpr hconflict, rows, heq, hof rows hsaved⟩
  | some b =>
    rw [hb] at hof htaken
    simp only [hb] at heq
    have hlabelled : b.Labelled := by
      cases hres : fold.resolved with
      | some r =>
        rw [Fold.record, hres] at hb
        exact (h.storable.resolved b (hres.trans hb)).2
      | none =>
        rw [Fold.record, hres] at hb
        exact (h.storable.live b hb).2
    have hknown : (breachRow rule rows).map (fun row => row.id) = some b.id ∨ ∀ row ∈ rows, row.id ≠ b.id := by
      have hid : fold.ledger.record = some b.id := by rw [← Fold.record_id, hb]; rfl
      refine ((h.ends hids).record_known hid).imp_right (fun ⟨n, hn⟩ row hrow heq => ?_)
      exact hids.not_stored n row hrow (heq.trans hn)
    rcases saveBreach_cases rt hst hlabelled hknown with ⟨ht, hsave⟩ | ⟨rows', hsave, hsaved⟩
    · simp only [hsave] at heq
      exact Or.inl ⟨htaken.mp ⟨b, rfl, ht⟩, heq⟩
    · simp only [hsave] at heq
      refine Or.inr ⟨fun hconflict => ?_, rows', heq, hof rows' hsaved⟩
      obtain ⟨b', hb', hopen, row, hrow, hne, hown, hlive⟩ := htaken.mpr hconflict
      obtain rfl := Option.some.inj hb'
      exact hne (hsaved.alone b rfl hopen row hrow hown hlive)

theorem tickEndsReopened_iff (rt : Runtime) (hst : Stored rule rows) (tick : RuleTick φ) :
    TickEndsReopened rt rule rows tick ↔
      (foldRule rt (foldInput rule (breachRow rule rows) tick)).resolved.isSome ∧
        (foldRule rt (foldInput rule (breachRow rule rows) tick)).breach.isSome := by
  obtain ⟨fold, hfold⟩ := exists_foldOf rt hst tick
  obtain ⟨status, reason, preserve, hout⟩ := hfold.output
  rw [hout]
  exact hfold.endsReopened_iff.symm

/-- A tick that does not lose its live breach is stored, and the breach is read back. -/
theorem tickRule_kept (hst : Stored rule rows) (hids : FreshIds rt.uuid4 rows) (h : ¬ TickLosesBreach rt rule rows tick)
    {out} (hout : foldRule rt (foldInput rule (breachRow rule rows) tick) = out) :
    ∃ fold rows', FoldOf rt rule rows tick fold ∧
      tickRule rt rule rows tick = .ok (out, storeRule rule out tick.now, rows') ∧
      TickOf rule rows fold (storeRule rule out tick.now) rows' ∧
      (breachRow (storeRule rule out tick.now) rows').map breachState =
        out.breach.map (fun b => { b with isNew := false }) := by
  obtain ⟨fold, hfold⟩ := exists_foldOf rt hst tick
  obtain ⟨status, reason, preserve, hfout⟩ := hfold.output
  rcases tickRule_cases hst hids hfold with ⟨hconflict, -⟩ | ⟨-, rows', hok, hof⟩
  · exact absurd (Or.inl hconflict) h
  rw [hout] at hok hof hfout
  refine ⟨fold, rows', hfold, hok, hof, (hof.reload hids (hfold.ends hids)).trans ?_⟩
  have hbreach : out.breach = fold.breach := by rw [hfout]; rfl
  rw [hbreach]
  split_ifs with hres
  · cases hb : fold.breach with
    | none => rfl
    | some b => exact absurd (Or.inr (hfold.endsReopened_iff.mp ⟨hres, by rw [hb]; rfl⟩)) h
  · rfl

variable (rows) in
/-- What the next tick folds: the stored rule continues the output, if the live breach is read back. -/
theorem foldInput_stored {output rows' now} (hreload : (breachRow (storeRule rule output now) rows').map breachState =
      output.breach.map (fun b => { b with isNew := false })) (tick next : RuleTick φ)
    (hnext : { tick with grid := next.grid, now := next.now } = next) :
    foldInput (storeRule rule output now) (breachRow (storeRule rule output now) rows') next =
      (foldInput rule (breachRow rule rows) tick).resume output (readings rule.metric next.grid) next.now := by
  rw [← hnext]
  simp only [foldInput, FoldInput.resume, hreload]
  rfl

end Tick

/-! ## Openings and resolutions -/

theorem countP_action_blur (v : Blur) (action : AlertAction) (events : List (CustomRuleAlertEvent φ)) :
    (events.map (·.blur v)).countP (fun e => e.action = action) = events.countP (fun e => e.action = action) := by
  rw [List.countP_map]
  rfl

theorem foldRule_balance [PyFloat φ] (rt : Runtime) (spec : FoldInput φ) :
    (foldRule rt spec).breach.isSome.toNat + (foldRule rt spec).events.countP (fun e => e.action = .resolve) =
      spec.breach.isSome.toNat + (foldRule rt spec).events.countP (fun e => e.action = .opens) := by
  obtain ⟨fold, ⟨status, reason, preserve, hout⟩, hledger, -⟩ := exists_fold rt spec
  have hbalance := Ledger.foldl_balance rt.uuid4 spec.sustainBuckets spec.recoveryBuckets (Fold.start spec).ledger
    (tickJudgements rt spec)
  rw [← hledger] at hbalance
  rw [hout]
  simpa [Fold.ledger, Fold.output, Fold.start, eventIds, List.countP_eq_length_filter] using hbalance

end QRadarDashboard.CustomRules
