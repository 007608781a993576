import QRadarDashboard.CustomRules.Fold

/-!
# A fold cut in two

What may differ are the ids handed out and the clock, so breaches and events are compared through a `Blur` of ids and
times.
-/

namespace QRadarDashboard.CustomRules
open Lib

variable {φ : Type}

/-! ## The rule that may judge -/

structure MayJudge (spec : FoldInput φ) : Prop where
  platformEnabled : spec.platformEnabled = true
  enabled : spec.enabled = true
  notRetired : spec.retired = false
  familyCollected : spec.familyCollected = true
  notStale : spec.collectionStaleReason = none

theorem MayJudge.halt_eq {spec : FoldInput φ} (h : MayJudge spec) : halt spec = none := by
  simp [halt, h.platformEnabled, h.enabled, h.notRetired, h.familyCollected, h.notStale]

theorem MayJudge.foldRule_eq [PyFloat φ] {spec : FoldInput φ} (h : MayJudge spec) (rt : Runtime) :
    foldRule rt spec = finish spec (foldReadings rt spec) := by
  simp [foldRule, h.halt_eq]

def FoldInput.offer (spec : FoldInput φ) (readings : List (InterpretedReading φ)) (now : Int) :
    FoldInput φ :=
  { spec with readings, now }

theorem MayJudge.offer {spec} (h : MayJudge spec) (readings : List (InterpretedReading φ))
    (now : Int) : MayJudge (spec.offer readings now) :=
  ⟨h.platformEnabled, h.enabled, h.notRetired, h.familyCollected, h.notStale⟩

/-- A fold that goes on, in memory, from the output of the one before. A tick starts from the stored rows, see
`tickRule`. -/
def FoldInput.resume (spec : FoldInput φ) (out : FoldOutput φ) (readings : List (InterpretedReading φ))
    (now : Int) : FoldInput φ :=
  { spec with
    consecutiveBreaching := out.consecutiveBreaching
    consecutiveUnder := out.consecutiveUnder
    lastEvaluatedBucketStart := out.lastEvaluatedBucketStart
    previousStatus := if out.preserveStatus then spec.previousStatus else out.status
    previousReason := if out.preserveStatus then spec.previousReason else out.statusReason
    breach := out.breach.map (fun b => { b with isNew := false })
    readings
    now }

theorem MayJudge.resume {spec} (h : MayJudge spec) (out : FoldOutput φ)
    (readings : List (InterpretedReading φ)) (now : Int) : MayJudge (spec.resume out readings now) :=
  ⟨h.platformEnabled, h.enabled, h.notRetired, h.familyCollected, h.notStale⟩

/-! ## What `finish` keeps of the fold -/

section Finish

variable (spec : FoldInput φ) (fold : Fold φ)

theorem finish_eq_output : ∃ status reason preserve, finish spec fold = fold.output status reason preserve := by
  simp only [finish]
  split_ifs
  · exact ⟨_, _, _, rfl⟩
  · cases fold.breach <;> exact ⟨_, _, _, rfl⟩
  · cases fold.breach <;> exact ⟨_, _, _, rfl⟩

@[simp] theorem finish_consecutiveBreaching : (finish spec fold).consecutiveBreaching = fold.breaching := by
  obtain ⟨_, _, _, h⟩ := finish_eq_output spec fold
  rw [h]
  rfl

@[simp] theorem finish_consecutiveUnder : (finish spec fold).consecutiveUnder = fold.under := by
  obtain ⟨_, _, _, h⟩ := finish_eq_output spec fold
  rw [h]
  rfl

@[simp] theorem finish_lastEvaluated : (finish spec fold).lastEvaluatedBucketStart = fold.lastEvaluated := by
  obtain ⟨_, _, _, h⟩ := finish_eq_output spec fold
  rw [h]
  rfl

@[simp] theorem finish_breach : (finish spec fold).breach = fold.breach := by
  obtain ⟨_, _, _, h⟩ := finish_eq_output spec fold
  rw [h]
  rfl

@[simp] theorem finish_events : (finish spec fold).events = fold.events := by
  obtain ⟨_, _, _, h⟩ := finish_eq_output spec fold
  rw [h]
  rfl

end Finish

/-! ## Blurred ids and times -/

structure Blur where
  id : String → String
  time : Int → Int

def BreachState.blur (v : Blur) (b : BreachState φ) : BreachState φ :=
  { b with
    id := v.id b.id
    openedAt := v.time b.openedAt
    recoveringAt := b.recoveringAt.map v.time
    resolvedAt := b.resolvedAt.map v.time
    isNew := false }

def CustomRuleAlertEvent.blur (v : Blur) (e : CustomRuleAlertEvent φ) : CustomRuleAlertEvent φ :=
  { e with breachId := v.id e.breachId }

/-- Looks at neither: `unstamped` values are equal up to the breach id, `is_new` and the `now` stamps. -/
def Blur.blind : Blur := ⟨fun _ => "", fun _ => 0⟩

structure SameRule (spec spec' : FoldInput φ) : Prop where
  ruleId : spec'.ruleId = spec.ruleId
  ruleName : spec'.ruleName = spec.ruleName
  severity : spec'.severity = spec.severity
  metric : spec'.metric = spec.metric
  operator : spec'.operator = spec.operator
  thresholdValue : spec'.thresholdValue = spec.thresholdValue
  sustainBuckets : spec'.sustainBuckets = spec.sustainBuckets
  recoveryBuckets : spec'.recoveryBuckets = spec.recoveryBuckets
  subjectKind : spec'.subjectKind = spec.subjectKind
  subjectLabel : spec'.subjectLabel = spec.subjectLabel

/-- `fold'` is `fold` without the events `pre` and without the ids taken before it. -/
structure Agrees (v : Blur) (pre : List (CustomRuleAlertEvent φ)) (taken : Nat) (fold fold' : Fold φ) :
    Prop where
  breaching : fold'.breaching = fold.breaching
  under : fold'.under = fold.under
  lastEvaluated : fold'.lastEvaluated = fold.lastEvaluated
  breach : fold'.breach.map (·.blur v) = fold.breach.map (·.blur v)
  events : fold.events.map (·.blur v) = pre.map (·.blur v) ++ fold'.events.map (·.blur v)
  issued : fold.issued = taken + fold'.issued

section Step

variable {v : Blur} {pre : List (CustomRuleAlertEvent φ)} {taken : Nat} {fold fold' : Fold φ}
variable {spec spec' : FoldInput φ}

theorem event_blur (action : AlertAction) (b : BreachState φ) (r : InterpretedReading φ)
    (reason : Option String) :
    (event spec action b r reason).blur v = event spec action (b.blur v) r reason := rfl

theorem event_sameRule (h : SameRule spec spec') (action : AlertAction) (b : BreachState φ) (r : InterpretedReading φ)
    (reason : Option String) : event spec' action b r reason = event spec action b r reason := by
  simp [event, h.ruleId, h.ruleName, h.severity, h.metric, h.operator, h.thresholdValue, h.subjectKind]

theorem openBreach_blur (h : SameRule spec spec') (hnow : v.time spec'.now = v.time spec.now)
    {id id'} (hid : v.id id' = v.id id) (r : InterpretedReading φ) :
    (openBreach spec' id' r).blur v = (openBreach spec id r).blur v := by
  simp [openBreach, BreachState.blur, h.metric, h.operator, h.thresholdValue, h.subjectKind,
    h.subjectLabel, hnow, hid]

theorem noteLast_blur (b : BreachState φ) (r : InterpretedReading φ) :
    (noteLast b r).blur v = noteLast (b.blur v) r := rfl

theorem noteWorst_blur [PyFloat φ] (operator : String) (b : BreachState φ) (r : InterpretedReading φ) :
    (noteWorst operator b r).blur v = noteWorst operator (b.blur v) r := by
  by_cases h : worse operator r.value b.worstValue = true
  · have h' : worse operator r.value (b.blur v).worstValue = true := h
    simp only [noteWorst, if_pos h, if_pos h']
    rfl
  · have h' : ¬ worse operator r.value (b.blur v).worstValue = true := h
    simp only [noteWorst, if_neg h, if_neg h']
    rfl

theorem verdict_sameRule [PyFloat φ] (h : SameRule spec spec') (repr : String → String) (ids ids' : Nat → String)
    (r : InterpretedReading φ) : verdict ⟨ids', repr⟩ spec' r = verdict ⟨ids, repr⟩ spec r := by
  simp only [verdict, scopedVerdict, h.metric, h.operator, h.thresholdValue]

theorem Agrees.breach_cases (h : Agrees v pre taken fold fold') :
    (fold.breach = none ∧ fold'.breach = none) ∨
      ∃ b b', fold.breach = some b ∧ fold'.breach = some b' ∧ b'.blur v = b.blur v := by
  have hb := h.breach
  cases hf : fold.breach with
  | none =>
    cases hf' : fold'.breach with
    | none => exact Or.inl ⟨rfl, rfl⟩
    | some b' => simp [hf, hf'] at hb
  | some b =>
    cases hf' : fold'.breach with
    | none => simp [hf, hf'] at hb
    | some b' =>
      simp only [hf, hf', Option.map_some, Option.some.injEq] at hb
      exact Or.inr ⟨b, b', rfl, rfl, hb⟩

theorem Agrees.onUnmeasured (h : Agrees v pre taken fold fold') (reason : String) :
    Agrees v pre taken (onUnmeasured fold reason) (onUnmeasured fold' reason) := by
  refine ⟨h.breaching, h.under, h.lastEvaluated, ?_, h.events, h.issued⟩
  rcases h.breach_cases with ⟨hf, hf'⟩ | ⟨b, b', hf, hf', hb⟩
  · simp [CustomRules.onUnmeasured, hf, hf']
  · simp only [BreachState.blur, BreachState.mk.injEq] at hb
    simp [CustomRules.onUnmeasured, hf, hf', BreachState.blur, hb]

theorem time_getD {o o' : Option Int} (h : o'.map v.time = o.map v.time) {n n'}
    (hn : v.time n' = v.time n) : v.time (o'.getD n') = v.time (o.getD n) := by
  calc
    v.time (o'.getD n') = (o'.map v.time).getD (v.time n') := (Option.getD_map ..).symm
    _ = (o.map v.time).getD (v.time n) := by rw [h, hn]
    _ = v.time (o.getD n) := Option.getD_map ..

theorem Agrees.onUnder (h : Agrees v pre taken fold fold') (hs : SameRule spec spec')
    (hnow : v.time spec'.now = v.time spec.now) (r : InterpretedReading φ) :
    Agrees v pre taken (onUnder spec fold r) (onUnder spec' fold' r) := by
  rcases h.breach_cases with ⟨hf, hf'⟩ | ⟨b, b', hf, hf', hb⟩
  · simp only [CustomRules.onUnder, hf, hf', h.under]
    exact ⟨rfl, rfl, h.lastEvaluated, rfl, h.events, h.issued⟩
  · have hlast : (noteLast b' r).blur v = (noteLast b r).blur v := by
      rw [noteLast_blur, noteLast_blur, hb]
    simp only [CustomRules.onUnder, hf, hf', h.under, hs.recoveryBuckets]
    split_ifs with hrec
    · refine ⟨rfl, rfl, h.lastEvaluated, rfl, ?_, h.issued⟩
      simp only [BreachState.blur, BreachState.mk.injEq] at hlast
      simp [h.events, event_sameRule hs, event_blur, BreachState.blur, hlast, hnow]
    · refine ⟨rfl, rfl, h.lastEvaluated, ?_, h.events, h.issued⟩
      simp only [BreachState.blur, BreachState.mk.injEq] at hlast
      have htime := time_getD (v := v) hlast.2.2.2.2.2.1 hnow
      simp [BreachState.blur, hlast, htime]

theorem Agrees.onBreach [PyFloat φ] (h : Agrees v pre taken fold fold') (hs : SameRule spec spec')
    (hnow : v.time spec'.now = v.time spec.now) {ids ids' : Nat → String}
    (hids : ∀ n, v.id (ids' n) = v.id (ids (taken + n))) (repr : String → String) (r : InterpretedReading φ) :
    Agrees v pre taken (onBreach ⟨ids, repr⟩ spec fold r) (onBreach ⟨ids', repr⟩ spec' fold' r) := by
  rcases h.breach_cases with ⟨hf, hf'⟩ | ⟨b, b', hf, hf', hb⟩
  · simp only [CustomRules.onBreach, hf, hf', h.breaching, hs.sustainBuckets]
    split_ifs with hsus
    · have hopen : (openBreach spec' (ids' fold'.issued) r).blur v =
          (openBreach spec (ids fold.issued) r).blur v :=
        openBreach_blur hs hnow (by rw [h.issued]; exact hids _) r
      refine ⟨rfl, rfl, h.lastEvaluated, by simp [hopen], ?_, by simp [h.issued, Nat.add_assoc]⟩
      simp [h.events, event_sameRule hs, event_blur, hopen]
    · exact ⟨rfl, rfl, h.lastEvaluated, rfl, h.events, h.issued⟩
  · have hworst : (noteWorst spec.operator { b' with state := .opened, recoveringAt := none } r).blur v =
        (noteWorst spec.operator { b with state := .opened, recoveringAt := none } r).blur v := by
      rw [noteWorst_blur, noteWorst_blur]
      simp only [BreachState.blur, BreachState.mk.injEq] at hb
      simp [BreachState.blur, hb]
    simp only [CustomRules.onBreach, hf, hf', h.breaching, hs.operator]
    refine ⟨rfl, rfl, h.lastEvaluated, by simp [hworst], ?_, h.issued⟩
    simp [h.events, event_sameRule hs, event_blur, hworst]

theorem Agrees.consume [PyFloat φ] (h : Agrees v pre taken fold fold') (hs : SameRule spec spec')
    (hnow : v.time spec'.now = v.time spec.now) {ids ids' : Nat → String}
    (hids : ∀ n, v.id (ids' n) = v.id (ids (taken + n))) (repr : String → String) (r : InterpretedReading φ) :
    Agrees v pre taken (consume ⟨ids, repr⟩ spec fold r) (consume ⟨ids', repr⟩ spec' fold' r) := by
  simp only [CustomRules.consume, h.lastEvaluated, verdict_sameRule hs repr ids ids']
  split_ifs with hj
  · exact h
  · -- the watermark moves alike, then both folds take the same handler
    have hmove : Agrees v pre taken
        { fold with lastEvaluated := some r.bucketStart, judged := fold.judged + 1 }
        { fold' with lastEvaluated := some r.bucketStart, judged := fold'.judged + 1 } :=
      ⟨h.breaching, h.under, rfl, h.breach, h.events, h.issued⟩
    cases verdict ⟨ids, repr⟩ spec r with
    | maintenance reason => exact ⟨h.breaching, h.under, rfl, h.breach, h.events, h.issued⟩
    | unmeasured reason => exact hmove.onUnmeasured reason
    | breach => exact hmove.onBreach hs hnow hids repr r
    | under => exact hmove.onUnder hs hnow r

theorem Agrees.foldl [PyFloat φ] (hs : SameRule spec spec') (hnow : v.time spec'.now = v.time spec.now)
    {ids ids' : Nat → String} (hids : ∀ n, v.id (ids' n) = v.id (ids (taken + n))) (repr : String → String)
    (rs : List (InterpretedReading φ)) {fold fold'} (h : Agrees v pre taken fold fold') :
    Agrees v pre taken (rs.foldl (CustomRules.consume ⟨ids, repr⟩ spec) fold)
      (rs.foldl (CustomRules.consume ⟨ids', repr⟩ spec') fold') := by
  induction rs generalizing fold fold' with
  | nil => exact h
  | cons r rs ih => exact ih (h.consume hs hnow hids repr r)

end Step

/-! ## Buckets judged before -/

section Judged

variable {rt : Runtime} {spec : FoldInput φ} {fold : Fold φ}

theorem onUnder_lastEvaluated (r : InterpretedReading φ) :
    (onUnder spec fold r).lastEvaluated = fold.lastEvaluated := by
  simp only [onUnder]
  split
  · rfl
  · split_ifs <;> rfl

variable [PyFloat φ]

theorem consume_of_alreadyJudged {r} (h : alreadyJudged fold.lastEvaluated r) : consume rt spec fold r = fold := by
  simp [consume, h]

theorem onBreach_lastEvaluated (r : InterpretedReading φ) :
    (onBreach rt spec fold r).lastEvaluated = fold.lastEvaluated := by
  simp only [onBreach]
  split
  · split_ifs <;> rfl
  · rfl

theorem consume_lastEvaluated {r} (h : ¬ alreadyJudged fold.lastEvaluated r) :
    (consume rt spec fold r).lastEvaluated = some r.bucketStart := by
  simp only [consume, h]
  cases verdict rt spec r with
  | maintenance reason => rfl
  | unmeasured reason => rfl
  | breach => exact onBreach_lastEvaluated r
  | under => exact onUnder_lastEvaluated r

theorem foldl_filter_judged (w : Int) (rs : List (InterpretedReading φ)) {fold}
    (hw : ∃ w', fold.lastEvaluated = some w' ∧ w ≤ w') :
    rs.foldl (consume rt spec) fold = (rs.filter (fun r => w < r.bucketStart)).foldl (consume rt spec) fold := by
  induction rs generalizing fold with
  | nil => rfl
  | cons r rs ih =>
    obtain ⟨w', hlast, hle⟩ := hw
    by_cases hj : alreadyJudged fold.lastEvaluated r
    · have hkeep : consume rt spec fold r = fold := consume_of_alreadyJudged hj
      have ih := ih ⟨w', hlast, hle⟩
      by_cases hr : w < r.bucketStart
      · simpa [hr, hkeep] using ih
      · simpa [hr, hkeep] using ih
    · have hr : w' < r.bucketStart := by simpa [alreadyJudged, hlast] using hj
      have hr' : w < r.bucketStart := by omega
      have hnew : (consume rt spec fold r).lastEvaluated = some r.bucketStart := consume_lastEvaluated hj
      have ih := ih ⟨_, hnew, by omega⟩
      simpa [hr'] using ih

end Judged

/-! ## Two ticks for one -/

section Split

variable [PyFloat φ] {spec : FoldInput φ} {r₁ r₂ : List (InterpretedReading φ)}

theorem foldReadings_append (hsplit : spec.readings = r₁ ++ r₂)
    (h : ∀ a ∈ r₁, ∀ b ∈ r₂, a.bucketStart < b.bucketStart) (rt : Runtime) :
    foldReadings rt spec =
      (sortOn InterpretedReading.bucketStart r₂).foldl (consume rt spec)
        ((sortOn InterpretedReading.bucketStart r₁).foldl (consume rt spec) (Fold.start spec)) := by
  have hsort := sortOn_append (fun a ha b hb => (h a ha b hb).le)
  rw [foldReadings, hsplit, hsort, List.foldl_append]

/-- The first tick and the resumed one against the single tick, for any ids and clocks that the blur
cannot tell apart. -/
theorem MayJudge.agrees_split (hjudge : MayJudge spec) (hsplit : spec.readings = r₁ ++ r₂)
    (h : ∀ a ∈ r₁, ∀ b ∈ r₂, a.bucketStart < b.bucketStart) (v : Blur)
    (repr : String → String) {ids ids₁ ids₂ : Nat → String} {now₁ now₂ : Int} {fold₁}
    (hfold₁ : foldReadings ⟨ids₁, repr⟩ (spec.offer r₁ now₁) = fold₁)
    (hnow₁ : v.time now₁ = v.time spec.now) (hnow₂ : v.time now₂ = v.time spec.now)
    (hids₁ : ∀ n, v.id (ids₁ n) = v.id (ids n)) (hids₂ : ∀ n, v.id (ids₂ n) = v.id (ids (fold₁.issued + n))) :
    Agrees v (foldRule ⟨ids₁, repr⟩ (spec.offer r₁ now₁)).events fold₁.issued
      (foldReadings ⟨ids, repr⟩ spec)
      (foldReadings ⟨ids₂, repr⟩ (spec.resume (foldRule ⟨ids₁, repr⟩ (spec.offer r₁ now₁)) r₂ now₂)) := by
  rw [foldReadings_append hsplit h, (hjudge.offer r₁ now₁).foldRule_eq, hfold₁]
  have hsame : SameRule spec (spec.offer r₁ now₁) := ⟨rfl, rfl, rfl, rfl, rfl, rfl, rfl, rfl, rfl, rfl⟩
  have hfirst : Agrees v [] 0 ((sortOn InterpretedReading.bucketStart r₁).foldl
      (consume ⟨ids, repr⟩ spec) (Fold.start spec)) fold₁ := by
    rw [← hfold₁]
    exact Agrees.foldl hsame hnow₁ (by simpa using hids₁) repr _ ⟨rfl, rfl, rfl, rfl, rfl, rfl⟩
  have hsame : SameRule spec (spec.resume (finish (spec.offer r₁ now₁) fold₁) r₂ now₂) :=
    ⟨rfl, rfl, rfl, rfl, rfl, rfl, rfl, rfl, rfl, rfl⟩
  refine Agrees.foldl hsame hnow₂ hids₂ repr _ ?_
  -- the resumed tick starts where the single one stands, with an empty event list
  refine ⟨by simpa [FoldInput.resume, Fold.start] using hfirst.breaching,
    by simpa [FoldInput.resume, Fold.start] using hfirst.under,
    by simpa [FoldInput.resume, Fold.start] using hfirst.lastEvaluated, ?_,
    by simpa [FoldInput.resume, Fold.start] using hfirst.events, by simpa [Fold.start] using hfirst.issued⟩
  have hblur : ∀ b : BreachState φ, ({ b with isNew := false } : BreachState φ).blur v = b.blur v := fun _ => rfl
  simpa [FoldInput.resume, Fold.start, Option.map_map, Function.comp_def, hblur] using hfirst.breach

theorem foldReadings_offered {w} (hw : spec.lastEvaluatedBucketStart = some w)
    {offered}
    (h : offered.filter (fun r => w < r.bucketStart) = spec.readings.filter (fun r => w < r.bucketStart))
    (rt : Runtime) : foldReadings rt (spec.offer offered spec.now) = foldReadings rt spec := by
  have hlarger : ∀ a b : InterpretedReading φ, decide (w < a.bucketStart) = true →
      a.bucketStart ≤ b.bucketStart → decide (w < b.bucketStart) = true := by
    intro a b ha hab
    have ha := of_decide_eq_true ha
    exact decide_eq_true (by omega)
  have hstart : ∃ w', (Fold.start spec).lastEvaluated = some w' ∧ w ≤ w' := ⟨w, hw, le_refl w⟩
  have hconsume : consume rt (spec.offer offered spec.now) = consume rt spec := rfl
  simp only [foldReadings, hconsume]
  calc
    (sortOn InterpretedReading.bucketStart offered).foldl (consume rt spec) (Fold.start spec)
      = ((sortOn InterpretedReading.bucketStart offered).filter (fun r => w < r.bucketStart)).foldl
          (consume rt spec) (Fold.start spec) := foldl_filter_judged w _ hstart
    _ = ((sortOn InterpretedReading.bucketStart spec.readings).filter (fun r => w < r.bucketStart)).foldl
          (consume rt spec) (Fold.start spec) := by
        rw [filter_sortOn hlarger, filter_sortOn hlarger, h]
    _ = (sortOn InterpretedReading.bucketStart spec.readings).foldl (consume rt spec) (Fold.start spec) :=
        (foldl_filter_judged w _ hstart).symm

end Split

end QRadarDashboard.CustomRules
