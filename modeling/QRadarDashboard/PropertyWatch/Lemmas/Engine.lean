import QRadarDashboard.Alerts.Lemmas.Bulk
import QRadarDashboard.Anomaly.Lemmas.Coupling
import QRadarDashboard.PropertyWatch.Engine

/-!
# One detector state, its incident and its alert

`Outcome` lists what a bucket can do to a detector state and its incidents; `Tracks` couples the state with its
incident, `Pages` with the alert.
-/

namespace QRadarDashboard.PropertyWatch
open Lib Alerts Anomaly

variable {φ : Type} {engine : PwAnomalyEngine} {qradar : QRadarInstance} {run run' : PwRun φ} {state : PwState}
  {id id' : String}

/-! ## Writes of a run -/

theorem modify_of_get? {i} (h : run.incidents.get? id = some i) (f : PwAnomaly φ → PwAnomaly φ) :
    run.modify id f = { run with incidents := run.incidents.set id ⟨f i.row, true⟩ } := by
  simp only [PwRun.modify, h]

@[simp] theorem modify_alerts (f : PwAnomaly φ → PwAnomaly φ) : (run.modify id f).alerts = run.alerts := by
  unfold PwRun.modify
  cases run.incidents.get? id <;> rfl

@[simp] theorem modify_issued (f : PwAnomaly φ → PwAnomaly φ) : (run.modify id f).issued = run.issued := by
  unfold PwRun.modify
  cases run.incidents.get? id <;> rfl

theorem get?_modify (f : PwAnomaly φ → PwAnomaly φ) : (run.modify id f).incidents.get? id' =
    if id' = id then (run.incidents.get? id).map (fun i => ⟨f i.row, true⟩) else run.incidents.get? id' := by
  cases hget : run.incidents.get? id with
  | none =>
    simp only [PwRun.modify, hget, Option.map_none]
    split_ifs with h
    · rw [h, hget]
    · rfl
  | some i => simp only [modify_of_get? hget, Dict.get?_set, Option.map_some]

@[simp] theorem transition_incidents (previous target : AnomalyState) (bucketStart : Option Int) (reason : String)
    (evidence : Option (PwEvidence φ)) :
    (run.transition engine id previous target bucketStart reason evidence).incidents = run.incidents := rfl

@[simp] theorem transition_alerts (previous target : AnomalyState) (bucketStart : Option Int) (reason : String)
    (evidence : Option (PwEvidence φ)) :
    (run.transition engine id previous target bucketStart reason evidence).alerts = run.alerts := rfl

@[simp] theorem transition_issued (previous target : AnomalyState) (bucketStart : Option Int) (reason : String)
    (evidence : Option (PwEvidence φ)) :
    (run.transition engine id previous target bucketStart reason evidence).issued = run.issued + 1 := rfl

@[simp] theorem tick_alerts : run.tick.alerts = run.alerts := rfl

@[simp] theorem countOpened_alerts : run.countOpened.alerts = run.alerts := rfl

@[simp] theorem countResolved_alerts : run.countResolved.alerts = run.alerts := rfl

@[simp] theorem alert_incidents (b : Bool) (action : PwAlertAction φ) :
    (run.alert b action).incidents = run.incidents := by
  unfold PwRun.alert
  split <;> rfl

@[simp] theorem alert_issued (b : Bool) (action : PwAlertAction φ) : (run.alert b action).issued = run.issued := by
  unfold PwRun.alert
  split <;> rfl

theorem alert_alerts (b : Bool) (action : PwAlertAction φ) :
    (run.alert b action).alerts = run.alerts ++ if b then [action] else [] := by
  unfold PwRun.alert
  split <;> simp

theorem tracked_eq_some : run.tracked state = some id ↔
    state.activeAnomalyId = some id ∧ (run.incidents.get? id).isSome := by
  simp [PwRun.tracked, Option.filter_eq_some_iff]

structure Edits (run run' : PwRun φ) (id : String) (row : PwAnomaly φ) : Prop where
  at_ : (run'.incidents.get? id).map PwIncident.row = some row
  others : ∀ id', id' ≠ id → run'.incidents.get? id' = run.incidents.get? id'
  issued : run.issued ≤ run'.issued

theorem Edits.get? {row} (h : Edits run run' id row) :
    ∃ i, run'.incidents.get? id = some i ∧ i.row = row := Option.map_eq_some_iff.mp h.at_

theorem edits_modify {i} (h : run.incidents.get? id = some i) (f : PwAnomaly φ → PwAnomaly φ) :
    Edits run (run.modify id f) id (f i.row) := by
  refine ⟨?_, fun id' hne => ?_, by rw [modify_issued]⟩
  · rw [get?_modify, if_pos rfl, h]
    rfl
  · rw [get?_modify, if_neg hne]

theorem Edits.modify {row} (h : Edits run run' id row) (f : PwAnomaly φ → PwAnomaly φ) :
    Edits run (run'.modify id f) id (f row) := by
  obtain ⟨i, hget, rfl⟩ := h.get?
  have hmod := edits_modify hget f
  exact ⟨hmod.at_, fun id' hne => (hmod.others id' hne).trans (h.others id' hne), h.issued.trans hmod.issued⟩

theorem Edits.keep {row} (h : Edits run run' id row) {run''} (hincidents : run''.incidents = run'.incidents)
    (hissued : run'.issued ≤ run''.issued) : Edits run run'' id row :=
  ⟨by rw [hincidents]; exact h.at_, fun id' hne => by rw [hincidents]; exact h.others id' hne,
    h.issued.trans hissued⟩

theorem Edits.tick {row} (h : Edits run run' id row) : Edits run run'.tick id row :=
  h.keep rfl (Nat.le_refl _)

theorem Edits.countOpened {row} (h : Edits run run' id row) : Edits run run'.countOpened id row :=
  h.keep rfl (Nat.le_refl _)

theorem Edits.countResolved {row} (h : Edits run run' id row) : Edits run run'.countResolved id row :=
  h.keep rfl (Nat.le_refl _)

theorem Edits.alert {row} (h : Edits run run' id row) (b : Bool) (action : PwAlertAction φ) :
    Edits run (run'.alert b action) id row :=
  h.keep (alert_incidents b action) (by rw [alert_issued])

/-! ## What a bucket does -/

def Owned (value : PwValue) (detector : PwAnomalyType) (row : PwAnomaly φ) : Prop :=
  row.pwValueId = some value.id ∧ row.detectorType = detector ∧ row.valueKey = value.valueKey

theorem Owned.ofPair {value detector} {row : PwAnomaly φ}
    (h : Owned value detector row) : OfPair value detector row := ⟨h.1, h.2.1⟩

theorem touch_spec (state : PwState) (bucket : PwEngineBucket) (evidence : PwEvidence φ) (row : PwAnomaly φ) :
    (touch state bucket evidence row).state = row.state ∧
      (touch state bucket evidence row).pwValueId = row.pwValueId ∧
      (touch state bucket evidence row).detectorType = row.detectorType ∧
      (touch state bucket evidence row).valueKey = row.valueKey := by
  unfold touch
  split <;> exact ⟨rfl, rfl, rfl, rfl⟩

def Names (engine : PwAnomalyEngine) (run run' : PwRun φ) (state : PwState) (id : String) : Prop :=
  state.activeAnomalyId = some id ∨
    (state.activeAnomalyId = none ∧ id = engine.uuid4 run.issued ∧ run.issued < run'.issued)

inductive Outcome (engine : PwAnomalyEngine) (j : PwJudgement φ) (state : PwState) (run : PwRun φ) :
    PwState → PwRun φ → Prop
  | skipped : processed state j.bucket = true → Outcome engine j state run state run
  | kept {state' run'} : processed state j.bucket = false → state'.state = state.state →
      state'.activeAnomalyId = state.activeAnomalyId → run'.incidents = run.incidents → run.issued ≤ run'.issued →
      run'.alerts = run.alerts → ¬ (state.state = .opened ∧ j.evidence.isAnomalous = true) →
      Outcome engine j state run state' run'
  | refreshed {state' run' id row} : processed state j.bucket = false → state.state = .opened →
      state'.state = .opened → state.activeAnomalyId = some id → state'.activeAnomalyId = some id →
      Edits run run' id row → row.state = .opened → Owned j.value j.evidence.anomalyType row →
      run'.alerts = run.alerts ++ (if j.alerting engine then
        [openAction j.watch j.value j.evidence j.bucket id] else []) → Outcome engine j state run state' run'
  | candidate {state' run' id row} : processed state j.bucket = false → state.activeAnomalyId = none →
      Names engine run run' state id → state'.state = .candidate → state'.activeAnomalyId = some id →
      Edits run run' id row → row.state = .candidate → Owned j.value j.evidence.anomalyType row →
      run'.alerts = run.alerts → state.state.active = false → Outcome engine j state run state' run'
  | opened {state' run' id row} : processed state j.bucket = false → Names engine run run' state id →
      state'.state = .opened → state'.activeAnomalyId = some id → Edits run run' id row → row.state = .opened →
      Owned j.value j.evidence.anomalyType row →
      run'.alerts = run.alerts ++ (if j.alerting engine then
        [openAction j.watch j.value j.evidence j.bucket id] else []) → Outcome engine j state run state' run'
  | recovering {state' run' id row} : processed state j.bucket = false → state.state = .opened →
      state.activeAnomalyId = some id → state'.state = .recovering → state'.activeAnomalyId = some id →
      Edits run run' id row → row.state = .recovering → Owned j.value j.evidence.anomalyType row →
      run'.alerts = run.alerts → Outcome engine j state run state' run'
  | resolved {state' run' id row} : processed state j.bucket = false → j.bucket.inMaintenance = false →
      state.state = .opened ∨ state.state = .recovering → state.activeAnomalyId = some id →
      state'.state = .resolved → state'.activeAnomalyId = none → Edits run run' id row → row.state = .resolved →
      Owned j.value j.evidence.anomalyType row →
      run'.alerts = run.alerts ++ (if engine.alerting then
        [.resolve j.watch.id j.value.valueKey j.evidence.anomalyType.value reasonRecovered] else []) →
      Outcome engine j state run state' run'
  | dropped {state' run' id row} : processed state j.bucket = false → state.state = .candidate →
      state.activeAnomalyId = some id → state'.state = .normal → state'.activeAnomalyId = none →
      Edits run run' id row → row.state = .normal → Owned j.value j.evidence.anomalyType row →
      run'.alerts = run.alerts → Outcome engine j state run state' run'
  | idle {state' run'} : processed state j.bucket = false → state.state.active = false →
      state'.state.active = false → state'.activeAnomalyId = none → run'.incidents = run.incidents →
      run.issued ≤ run'.issued → run'.alerts = run.alerts → Outcome engine j state run state' run'

structure Tracks (value : PwValue) (detector : PwAnomalyType) (state : PwState) (run : PwRun φ) : Prop where
  idle : state.state.active = false → state.activeAnomalyId = none
  live : state.state.active = true → ∃ id i, state.activeAnomalyId = some id ∧ run.incidents.get? id = some i ∧
    Owned value detector i.row ∧ i.row.state = state.state

section Advance

variable {j : PwJudgement φ}

theorem Tracks.tracked (h : Tracks j.value j.evidence.anomalyType state run) (hlive : state.state.active = true) :
    ∃ id i, state.activeAnomalyId = some id ∧ run.incidents.get? id = some i ∧
      Owned j.value j.evidence.anomalyType i.row ∧ i.row.state = state.state ∧
      ∀ state' : PwState, state'.activeAnomalyId = state.activeAnomalyId → run.tracked state' = some id := by
  obtain ⟨id, i, hid, hget, hpair, hstate⟩ := h.live hlive
  refine ⟨id, i, hid, hget, hpair, hstate, fun state' hs => tracked_eq_some.mpr ⟨hs.trans hid, ?_⟩⟩
  rw [hget]
  rfl

theorem Tracks.untracked (h : Tracks j.value j.evidence.anomalyType state run) (hidle : state.state.active = false)
    (state' : PwState) (hs : state'.activeAnomalyId = state.activeAnomalyId) : run.tracked state' = none := by
  simp [PwRun.tracked, hs, h.idle hidle]

theorem edits_recordMove (engine : PwAnomalyEngine) (j : PwJudgement φ) {i} (hget : run.incidents.get? id = some i)
    (previous : AnomalyState) (target : LifecycleDecision) :
    Edits run (recordMove engine j (some id) previous target run) id { i.row with state := target.state } :=
  (edits_modify hget (fun row => { row with state := target.state })).keep rfl (by simp [recordMove])

@[simp] theorem recordMove_alerts (incident : Option String) (previous : AnomalyState) (target : LifecycleDecision) :
    (recordMove engine j incident previous target run).alerts = run.alerts := by
  cases incident <;> simp [recordMove]

theorem ensureIncident_spec (engine : PwAnomalyEngine) (qradar : QRadarInstance)
    (h : Tracks j.value j.evidence.anomalyType state run) (state' : PwState)
    (hs : state'.activeAnomalyId = state.activeAnomalyId) :
    ∃ id run' i, ensureIncident engine qradar j state' run = (id, { state' with activeAnomalyId := some id }, run') ∧
      Names engine run run' state id ∧ run'.incidents.get? id = some i ∧
      (∀ id', id' ≠ id → run'.incidents.get? id' = run.incidents.get? id') ∧ run.issued ≤ run'.issued ∧
      Owned j.value j.evidence.anomalyType i.row ∧ run'.alerts = run.alerts := by
  by_cases hlive : state.state.active = true
  · obtain ⟨id, i, hid, hget, hpair, -, htracked⟩ := h.tracked hlive
    have heq : ensureIncident engine qradar j state' run = (id, { state' with activeAnomalyId := some id }, run) := by
      simp only [ensureIncident, htracked state' hs]
      rw [← hs.trans hid]
    exact ⟨id, run, i, heq, Or.inl hid, hget, fun _ _ => rfl, Nat.le_refl _, hpair, rfl⟩
  · have hidle : state.state.active = false := by simpa using hlive
    have hnone := h.untracked hidle state' hs
    let created : PwIncident φ := ⟨newIncident engine qradar j.watch j.value j.bucket j.evidence, true⟩
    refine ⟨engine.uuid4 run.issued, { run with
        incidents := run.incidents.set (engine.uuid4 run.issued) created
        issued := run.issued + 1 }, created, by simp only [ensureIncident, hnone, created],
      Or.inr ⟨h.idle hidle, rfl, Nat.lt_succ_self _⟩, by rw [Dict.get?_set, if_pos rfl], ?_, Nat.le_succ _,
      ⟨rfl, rfl, rfl⟩, rfl⟩
    intro id' hne
    rw [Dict.get?_set, if_neg hne]

theorem edits_ensured {run₁} (hothers : ∀ id', id' ≠ id → run₁.incidents.get? id' = run.incidents.get? id')
    (hissued : run.issued ≤ run₁.issued) {row} (h : Edits run₁ run' id row) : Edits run run' id row :=
  ⟨h.at_, fun id' hne => (h.others id' hne).trans (hothers id' hne), hissued.trans h.issued⟩

/-! ### The outcome of each move -/

variable {target : LifecycleDecision}

theorem outcome_hold (h : Tracks j.value j.evidence.anomalyType state run) (hp : processed state j.bucket = false) :
    Outcome engine j state run (counted j.bucket j.evidence state)
      (hold engine j (counted j.bucket j.evidence state) run) := by
  by_cases hopen : state.state = .opened ∧ j.evidence.isAnomalous = true
  · obtain ⟨id, i, hid, hget, hpair, hstate, htracked⟩ := h.tracked (by rw [hopen.1]; rfl)
    have heq : hold engine j (counted j.bucket j.evidence state) run =
        (run.modify id (touch (counted j.bucket j.evidence state) j.bucket j.evidence)).alert (j.alerting engine)
          (openAction j.watch j.value j.evidence j.bucket id) := by
      simp only [hold, htracked (counted j.bucket j.evidence state) rfl]
      exact if_pos hopen
    rw [heq]
    obtain ⟨hs, hv, hd, hk⟩ := touch_spec (counted j.bucket j.evidence state) j.bucket j.evidence i.row
    refine .refreshed hp hopen.1 hopen.1 hid hid ((edits_modify hget _).alert _ _) (hs.trans (hstate.trans hopen.1))
      ⟨hv.trans hpair.1, hd.trans hpair.2.1, hk.trans hpair.2.2⟩ ?_
    rw [alert_alerts, modify_alerts]
  · have heq : hold engine j (counted j.bucket j.evidence state) run = run := by
      unfold hold
      cases run.tracked (counted j.bucket j.evidence state) with
      | none => rfl
      | some id => exact if_neg hopen
    rw [heq]
    exact .kept hp rfl rfl rfl (Nat.le_refl _) rfl hopen

theorem outcome_candidate (h : Tracks j.value j.evidence.anomalyType state run)
    (hp : processed state j.bucket = false) (hidle : state.state.active = false) {reason}
    (previous : AnomalyState) :
    let moved := move engine qradar j previous ⟨.candidate, reason⟩ (counted j.bucket j.evidence state) run
    Outcome engine j state run moved.1 moved.2 := by
  obtain ⟨id, run₁, i, heq, hnames, hget, hothers, hissued, hpair, halerts⟩ := ensureIncident_spec engine qradar h
    { counted j.bucket j.evidence state with state := .candidate } rfl
  have hedit := edits_recordMove engine j hget previous ⟨.candidate, reason⟩
  simp only [move, heq]
  refine .candidate hp (h.idle hidle) ?_ rfl rfl (edits_ensured hothers hissued hedit) rfl hpair ?_ hidle
  · exact hnames.imp_right (fun hnew => ⟨hnew.1, hnew.2.1, Nat.lt_of_lt_of_le hnew.2.2 hedit.issued⟩)
  · rw [recordMove_alerts, halerts]

theorem outcome_opened (h : Tracks j.value j.evidence.anomalyType state run)
    (hp : processed state j.bucket = false) {reason} (previous : AnomalyState) :
    let moved := move engine qradar j previous ⟨.opened, reason⟩ (counted j.bucket j.evidence state) run
    Outcome engine j state run moved.1 moved.2 := by
  obtain ⟨id, run₁, i, heq, hnames, hget, hothers, hissued, hpair, halerts⟩ := ensureIncident_spec engine qradar h
    { counted j.bucket j.evidence state with state := .opened } rfl
  simp only [move, heq]
  generalize hrun₂ : recordMove engine j (some id) previous ⟨.opened, reason⟩ run₁ = run₂
  generalize hstate' : ({ counted j.bucket j.evidence state with
    state := .opened, activeAnomalyId := some id, openAnomalyId := some id } : PwState) = state'
  have hmoved := edits_recordMove engine j hget previous ⟨.opened, reason⟩
  rw [hrun₂] at hmoved
  have hedit := ((hmoved.tick.modify (openedRow j (engine.clock run₂.reads))).modify
    (touch state' j.bucket j.evidence)).countOpened
  obtain ⟨hs, hv, hd, hk⟩ := touch_spec state' j.bucket j.evidence
    (openedRow j (engine.clock run₂.reads) { i.row with state := .opened })
  refine .opened hp ?_ (by rw [← hstate']) (by rw [← hstate'])
    ((edits_ensured hothers hissued hedit).alert (j.alerting engine) _) hs
    ⟨hv.trans hpair.1, hd.trans hpair.2.1, hk.trans hpair.2.2⟩ ?_
  · refine hnames.imp_right (fun hnew => ⟨hnew.1, hnew.2.1, Nat.lt_of_lt_of_le hnew.2.2 ?_⟩)
    rw [alert_issued]
    exact hedit.issued
  · rw [alert_alerts, countOpened_alerts, modify_alerts, modify_alerts, tick_alerts, ← hrun₂, recordMove_alerts,
      halerts]

theorem outcome_recovering (h : Tracks j.value j.evidence.anomalyType state run)
    (hp : processed state j.bucket = false) (hopen : state.state = .opened) {reason}
    (previous : AnomalyState) :
    let moved := move engine qradar j previous ⟨.recovering, reason⟩ (counted j.bucket j.evidence state) run
    Outcome engine j state run moved.1 moved.2 := by
  obtain ⟨id, i, hid, hget, hpair, -, htracked⟩ := h.tracked (by rw [hopen]; rfl)
  have hmoved := edits_recordMove engine j hget previous ⟨.recovering, reason⟩
  simp only [move, htracked { counted j.bucket j.evidence state with state := .recovering } rfl]
  refine .recovering hp hopen hid rfl hid (hmoved.modify (endedRow j)) rfl hpair ?_
  rw [modify_alerts, recordMove_alerts]

theorem outcome_resolved (h : Tracks j.value j.evidence.anomalyType state run)
    (hp : processed state j.bucket = false) (hmaint : j.bucket.inMaintenance = false)
    (hopen : state.state = .opened ∨ state.state = .recovering) {reason} (previous : AnomalyState) :
    let moved := move engine qradar j previous ⟨.resolved, reason⟩ (counted j.bucket j.evidence state) run
    Outcome engine j state run moved.1 moved.2 := by
  obtain ⟨id, i, hid, hget, hpair, -, htracked⟩ := h.tracked (by rcases hopen with hs | hs <;> rw [hs] <;> rfl)
  have hmoved := edits_recordMove engine j hget previous ⟨.resolved, reason⟩
  simp only [move, htracked { counted j.bucket j.evidence state with state := .resolved } rfl]
  generalize hrun₂ : recordMove engine j (some id) previous ⟨.resolved, reason⟩ run = run₂
  rw [hrun₂] at hmoved
  have hedit := hmoved.tick.modify (fun row => { row with resolvedAt := some (engine.clock run₂.reads) })
  refine .resolved hp hmaint hopen hid rfl rfl (hedit.countResolved.alert engine.alerting _) rfl hpair ?_
  rw [alert_alerts, countResolved_alerts, modify_alerts, tick_alerts, ← hrun₂, recordMove_alerts]

theorem outcome_dropped (h : Tracks j.value j.evidence.anomalyType state run)
    (hp : processed state j.bucket = false) (hcandidate : state.state = .candidate) {reason}
    (previous : AnomalyState) :
    let moved := move engine qradar j previous ⟨.normal, reason⟩ (counted j.bucket j.evidence state) run
    Outcome engine j state run moved.1 moved.2 := by
  obtain ⟨id, i, hid, hget, hpair, -, htracked⟩ := h.tracked (by rw [hcandidate]; rfl)
  have hmoved := edits_recordMove engine j hget previous ⟨.normal, reason⟩
  simp only [move, htracked { counted j.bucket j.evidence state with state := .normal } rfl]
  refine .dropped hp hcandidate hid rfl rfl (hmoved.modify (endedRow j)) rfl hpair ?_
  rw [modify_alerts, recordMove_alerts]

theorem outcome_idle (h : Tracks j.value j.evidence.anomalyType state run)
    (hp : processed state j.bucket = false) (hidle : state.state.active = false) (previous : AnomalyState)
    (htarget : target.state = .suppressed ∨ target.state = .normal ∨ target.state = .insufficientData) :
    let moved := move engine qradar j previous target (counted j.bucket j.evidence state) run
    Outcome engine j state run moved.1 moved.2 := by
  have hnone := fun s => h.untracked hidle { counted j.bucket j.evidence state with state := s } rfl
  rcases htarget with ht | ht | ht
  · simp only [move, ht, hnone, recordMove]
    exact .idle hp hidle rfl (h.idle hidle) rfl (Nat.le_refl _) rfl
  · simp only [move, ht, hnone, recordMove]
    exact .idle hp hidle rfl rfl rfl (Nat.le_refl _) rfl
  · simp only [move, ht, hnone, recordMove]
    exact .idle hp hidle rfl (h.idle hidle) rfl (Nat.le_refl _) rfl

theorem decision_opened (engine : PwAnomalyEngine) (hs : state.state = .opened)
    (hanomalous : j.evidence.isAnomalous = true) :
    (decision engine j.evidence (counted j.bucket j.evidence state)).state = .opened := by
  have hsignal : j.evidence.signal = .anomalous := by simpa [PwEvidence.isAnomalous] using hanomalous
  simp only [decision, nextState, counted, hsignal, hs]
  split_ifs <;> simp_all [onAnomalous]

theorem advance_outcome (h : Tracks j.value j.evidence.anomalyType state run) :
    Outcome engine j state run (advance engine qradar j state run).1 (advance engine qradar j state run).2 := by
  cases hp : processed state j.bucket with
  | true =>
    simp only [advance, hp, if_true]
    exact .skipped hp
  | false =>
    simp only [advance, hp, Bool.false_eq_true, if_false]
    generalize htarget : decision engine j.evidence (counted j.bucket j.evidence state) = target
    split_ifs with hmaint hheld
    · -- A resolution held back by maintenance: the target is not OPEN, so nothing was anomalous in OPEN.
      refine .kept hp rfl rfl rfl (Nat.le_refl _) rfl ?_
      rintro ⟨hopen, hanomalous⟩
      have hstate := hmaint.2
      rw [← htarget, decision_opened engine hopen hanomalous] at hstate
      cases hstate
    · exact outcome_hold h hp
    · have hmove : Move state.state target.state := by
        rw [← htarget] at hheld ⊢
        exact nextState_move (fun hsup => by cases hsup) hheld
      obtain ⟨tstate, reason⟩ := target
      generalize hs : state.state = s at hmove
      cases hmove with
      | candidate hidle => exact outcome_candidate h hp (hs ▸ hidle) _
      | opened => exact outcome_opened h hp _
      | recovering => exact outcome_recovering h hp hs _
      | resolved hopen =>
        have hno : j.bucket.inMaintenance = false := by simpa using hmaint
        exact outcome_resolved h hp hno (hs ▸ hopen) _
      | dropped => exact outcome_dropped h hp hs _
      | idle hidle hclosing => exact outcome_idle h hp (hs ▸ hidle) _ hclosing

end Advance

/-! ## The incidents of a pair -/

variable {value : PwValue} {detector : PwAnomalyType} {state' : PwState} {row : PwAnomaly φ}

structure PairCoupled (engine : PwAnomalyEngine) (value : PwValue) (detector : PwAnomalyType) (state : PwState)
    (run : PwRun φ) : Prop extends Tracks value detector state run where
  fresh : ∀ n, run.issued ≤ n → run.incidents.get? (engine.uuid4 n) = none
  only : ∀ id i, run.incidents.get? id = some i → OfPair value detector i.row → i.row.state.active = true →
    state.activeAnomalyId = some id

def Frozen (value : PwValue) (detector : PwAnomalyType) (run run' : PwRun φ) : Prop :=
  ∀ id i, run.incidents.get? id = some i → OfPair value detector i.row →
    i.row.state = .resolved ∨ i.row.state = .normal → run'.incidents.get? id = some i

structure Follows (state state' : PwState) (run run' : PwRun φ) : Prop where
  stay : ∀ id, run'.incidents.get? id = none → run.incidents.get? id = none
  names : ∀ id, state'.activeAnomalyId = some id →
    state.activeAnomalyId = some id ∨ run.incidents.get? id = none

theorem inactive_of_closed {s : AnomalyState} (h : s = .resolved ∨ s = .normal) : s.active = false := by
  rcases h with h | h <;> rw [h] <;> rfl

theorem PairCoupled.keep (h : PairCoupled engine value detector state run) (hincidents : run'.incidents = run.incidents)
    (hissued : run.issued ≤ run'.issued)
    (hstate : (state'.state = state.state ∧ state'.activeAnomalyId = state.activeAnomalyId) ∨
      (state.state.active = false ∧ state'.state.active = false ∧ state'.activeAnomalyId = none)) :
    PairCoupled engine value detector state' run' ∧ Frozen value detector run run' ∧ Follows state state' run run' := by
  refine ⟨⟨⟨fun hidle => ?_, fun hlive => ?_⟩, fun n hn => ?_, fun id i hget hpair hactive => ?_⟩,
    fun id i hget _ _ => hincidents ▸ hget, ⟨fun id hget => hincidents ▸ hget, fun id hid => ?_⟩⟩
  · rcases hstate with ⟨hs, hid⟩ | ⟨_, _, hid⟩
    · exact hid.trans (h.idle (hs ▸ hidle))
    · exact hid
  · rcases hstate with ⟨hs, hid⟩ | ⟨_, hidle, _⟩
    · obtain ⟨id, i, hold, hget, howned, hrow⟩ := h.live (hs ▸ hlive)
      exact ⟨id, i, hid.trans hold, hincidents ▸ hget, howned, hrow.trans hs.symm⟩
    · rw [hidle] at hlive
      cases hlive
  · rw [hincidents]
    exact h.fresh n (hissued.trans hn)
  · rw [hincidents] at hget
    have hold := h.only id i hget hpair hactive
    rcases hstate with ⟨_, hid⟩ | ⟨hidle, _, _⟩
    · exact hid.trans hold
    · rw [h.idle hidle] at hold
      cases hold
  · rcases hstate with ⟨_, hsame⟩ | ⟨_, _, hnone⟩
    · exact Or.inl (hsame.symm.trans hid)
    · rw [hnone] at hid
      cases hid

theorem PairCoupled.named (hinj : Function.Injective engine.uuid4) (h : PairCoupled engine value detector state run)
    (hnames : Names engine run run' state id) :
    (state.activeAnomalyId = some id ∧ ∃ i, run.incidents.get? id = some i ∧ i.row.state.active = true) ∨
      (state.activeAnomalyId = none ∧ run.incidents.get? id = none ∧
        ∀ n, run'.issued ≤ n → engine.uuid4 n ≠ id) := by
  rcases hnames with htracked | ⟨hnone, rfl, hlt⟩
  · refine Or.inl ⟨htracked, ?_⟩
    by_cases hlive : state.state.active = true
    · obtain ⟨id', i, hid', hget, _, hrow⟩ := h.live hlive
      cases htracked.symm.trans hid'
      exact ⟨i, hget, by rw [hrow]; exact hlive⟩
    · rw [h.idle (by simpa using hlive)] at htracked
      cases htracked
  · refine Or.inr ⟨hnone, h.fresh _ (Nat.le_refl _), fun n hn heq => ?_⟩
    have := hinj heq
    omega

theorem PairCoupled.edits (hinj : Function.Injective engine.uuid4) (h : PairCoupled engine value detector state run)
    (hedit : Edits run run' id row) (hnames : Names engine run run' state id) (howned : Owned value detector row)
    (hmatch : (state'.state.active = true ∧ state'.activeAnomalyId = some id ∧ row.state = state'.state) ∨
      (state'.state.active = false ∧ state'.activeAnomalyId = none ∧ row.state.active = false)) :
    PairCoupled engine value detector state' run' ∧ Frozen value detector run run' ∧ Follows state state' run run' := by
  obtain ⟨i, hget, rfl⟩ := hedit.get?
  have hnamed := h.named hinj hnames
  refine ⟨⟨⟨fun hidle => ?_, fun hlive => ?_⟩, fun n hn => ?_, fun id' i' hget' hpair hactive => ?_⟩,
    fun id' i' hget' hpair hclosed => ?_, ⟨fun id' hnone => ?_, fun id' hid' => ?_⟩⟩
  · rcases hmatch with ⟨hlive, _⟩ | ⟨_, hnone, _⟩
    · rw [hidle] at hlive
      cases hlive
    · exact hnone
  · rcases hmatch with ⟨_, hid, hrow⟩ | ⟨hidle, _⟩
    · exact ⟨id, i, hid, hget, howned, hrow⟩
    · rw [hidle] at hlive
      cases hlive
  · have hold := h.fresh n (hedit.issued.trans hn)
    have hne : engine.uuid4 n ≠ id := by
      rcases hnamed with ⟨_, i', hget', _⟩ | ⟨_, _, hnew⟩
      · rintro rfl
        cases hold.symm.trans hget'
      · exact hnew n hn
    exact (hedit.others _ hne).trans hold
  · by_cases hne : id' = id
    · subst hne
      cases hget.symm.trans hget'
      rcases hmatch with ⟨_, hid, _⟩ | ⟨_, _, hdead⟩
      · exact hid
      · rw [hdead] at hactive
        cases hactive
    · -- Any other live incident would have been the tracked one before.
      have hold := h.only id' i' ((hedit.others id' hne).symm.trans hget') hpair hactive
      rcases hnamed with ⟨htracked, _⟩ | ⟨hnone, _⟩
      · exact absurd (Option.some.inj (hold.symm.trans htracked)) hne
      · rw [hnone] at hold
        cases hold
  · refine (hedit.others id' ?_).trans hget'
    rintro rfl
    rcases hnamed with ⟨_, i'', hlive, hactive⟩ | ⟨_, hnew, _⟩
    · cases hlive.symm.trans hget'
      rw [inactive_of_closed hclosed] at hactive
      cases hactive
    · cases hnew.symm.trans hget'
  · by_cases hne : id' = id
    · rw [hne, hget] at hnone
      cases hnone
    · exact (hedit.others id' hne).symm.trans hnone
  · rcases hmatch with ⟨_, hid, _⟩ | ⟨_, hnone, _⟩
    · cases hid.symm.trans hid'
      rcases hnamed with ⟨htracked, _⟩ | ⟨_, hnew, _⟩
      · exact Or.inl htracked
      · exact Or.inr hnew
    · rw [hnone] at hid'
      cases hid'

theorem PairCoupled.outcome {j} (hinj : Function.Injective engine.uuid4)
    (h : PairCoupled engine j.value j.evidence.anomalyType state run) (ho : Outcome engine j state run state' run') :
    PairCoupled engine j.value j.evidence.anomalyType state' run' ∧
      Frozen j.value j.evidence.anomalyType run run' ∧ Follows state state' run run' := by
  cases ho with
  | skipped hp => exact h.keep rfl (Nat.le_refl _) (Or.inl ⟨rfl, rfl⟩)
  | kept hp hs hid hincidents hissued halerts hquiet => exact h.keep hincidents hissued (Or.inl ⟨hs, hid⟩)
  | refreshed hp hs hs' hid hid' hedit hrow howned halerts =>
    exact h.edits hinj hedit (Or.inl hid) howned (Or.inl ⟨by rw [hs']; rfl, hid', hrow.trans hs'.symm⟩)
  | candidate hp hnone hnames hs' hid' hedit hrow howned halerts hidle =>
    exact h.edits hinj hedit hnames howned (Or.inl ⟨by rw [hs']; rfl, hid', hrow.trans hs'.symm⟩)
  | opened hp hnames hs' hid' hedit hrow howned halerts =>
    exact h.edits hinj hedit hnames howned (Or.inl ⟨by rw [hs']; rfl, hid', hrow.trans hs'.symm⟩)
  | recovering hp hs hid hs' hid' hedit hrow howned halerts =>
    exact h.edits hinj hedit (Or.inl hid) howned (Or.inl ⟨by rw [hs']; rfl, hid', hrow.trans hs'.symm⟩)
  | resolved hp hmaint hs hid hs' hid' hedit hrow howned halerts =>
    exact h.edits hinj hedit (Or.inl hid) howned (Or.inr ⟨by rw [hs']; rfl, hid', by rw [hrow]; rfl⟩)
  | dropped hp hs hid hs' hid' hedit hrow howned halerts =>
    exact h.edits hinj hedit (Or.inl hid) howned (Or.inr ⟨by rw [hs']; rfl, hid', by rw [hrow]; rfl⟩)
  | idle hp hidle hidle' hid' hincidents hissued halerts =>
    exact h.keep hincidents hissued (Or.inr ⟨hidle, hidle', hid'⟩)

/-! ## Retirement -/

theorem retireState_spec (engine : PwAnomalyEngine) (h : Tracks value detector state run) (reason : String) (emitAlert : Bool) :
    let retired := retireState engine reason emitAlert state run
    retired.2.1.state = .resolved ∧ retired.2.1.activeAnomalyId = none ∧ retired.2.1.watchId = state.watchId ∧
      retired.2.1.detector = state.detector ∧
      ((state.state.active = false ∧ retired.2.2 = run) ∨
        ∃ id row, state.state.active = true ∧ state.activeAnomalyId = some id ∧ Edits run retired.2.2 id row ∧
          row.state = .resolved ∧ Owned value detector row ∧
          retired.2.2.alerts = run.alerts ++
            (if emitAlert && engine.alerting && decide (state.state = .opened ∨ state.state = .recovering) then
              [.resolve state.watchId value.valueKey state.detector.value reason] else [])) := by
  refine ⟨rfl, rfl, rfl, rfl, ?_⟩
  by_cases hlive : state.state.active = true
  · obtain ⟨id, i, hid, hget, howned, hrow⟩ := h.live hlive
    have hget' : run.tick.incidents.get? id = some i := hget
    have hretired := edits_modify hget' (retiredRow (engine.clock run.reads) state.lastIntervalStart)
    have hmoved : Edits run.tick ((run.tick.modify id (retiredRow (engine.clock run.reads)
        state.lastIntervalStart)).transition engine id state.state .resolved state.lastIntervalStart reason none) id
        (retiredRow (engine.clock run.reads) state.lastIntervalStart i.row) := hretired.keep rfl (Nat.le_succ _)
    have hedit := (hmoved.countResolved.alert
      (emitAlert && engine.alerting && decide (state.state = .opened ∨ state.state = .recovering))
      (.resolve state.watchId i.row.valueKey state.detector.value reason))
    have hfound : state.activeAnomalyId.bind (fun id => (run.incidents.get? id).map (fun i => (id, i))) =
        some (id, i) := by
      rw [hid, Option.bind_some, hget, Option.map_some]
    refine Or.inr ⟨id, retiredRow (engine.clock run.reads) state.lastIntervalStart i.row, hlive, hid, ?_, rfl, howned, ?_⟩
    · simp only [retireState, hfound]
      exact ⟨hedit.at_, hedit.others, hedit.issued⟩
    · simp only [retireState, hfound]
      rw [alert_alerts, countResolved_alerts, transition_alerts, modify_alerts, tick_alerts, howned.2.2]
  · have hidle : state.state.active = false := by simpa using hlive
    have hfound : state.activeAnomalyId.bind (fun id => (run.incidents.get? id).map (fun i => (id, i))) =
        none := by
      rw [h.idle hidle, Option.bind_none]
    refine Or.inl ⟨hidle, ?_⟩
    simp only [retireState, hfound]

/-! ## The alert of a pair -/

variable {svc : Service} {s s' : Session φ} {scopes : String → Option String}

structure PairPaged (engine : PwAnomalyEngine) (svc : Service) (qradar : QRadarInstance) (value : PwValue)
    (detector : PwAnomalyType) (state : PwState) (s : Session φ) : Prop where
  wellFormed : WellFormed svc s
  context : ∀ a ∈ s.alerts, a.active → a.dedupKey = pairFingerprint engine qradar value detector →
    a.sourceType = "pw_value" ∧ watchIdOf a = some value.watchId
  paged : ActiveIn s (pairFingerprint engine qradar value detector) →
    state.state = .opened ∨ state.state = .recovering

theorem context_descends {fp watchId}
    (h : ∀ a ∈ s.alerts, a.active → a.dedupKey = fp → a.sourceType = "pw_value" ∧ watchIdOf a = some watchId)
    {a b} (hb : b ∈ s.alerts) (hab : Descends b a) (hact : a.active) (hkey : a.dedupKey = fp) :
    a.sourceType = "pw_value" ∧ watchIdOf a = some watchId := by
  have hold := h b hb (hab.active hact) (hab.dedupKey.symm.trans hkey)
  exact ⟨hab.sourceType.trans hold.1, by rw [← hold.2, watchIdOf, watchIdOf, hab.context]⟩

theorem watchIdOf_newAlert (digest : Digest) (scope : Option String) (watch : PropertyWatchRow)
    (valueKey : String) (pwValueId : Option String) (d : String) (evidence : PwEvidence φ) (bucket : PwEngineBucket)
    (incidentId : String) (now : Int) (alertId : String) :
    watchIdOf (newAlert (alertInput digest qradar scope watch valueKey pwValueId d evidence bucket incidentId) now
      alertId) = some watch.id := by
  simp [watchIdOf, newAlert, alertInput]

theorem PairPaged.same (h : PairPaged engine svc qradar value detector state s)
    (hs : state'.state = state.state ∨ (state.state ≠ .opened ∧ state.state ≠ .recovering)) :
    PairPaged engine svc qradar value detector state' s := by
  refine ⟨h.wellFormed, h.context, fun hact => ?_⟩
  rcases hs with hs | ⟨hne, hne'⟩
  · rw [hs]
    exact h.paged hact
  · rcases h.paged hact with hs | hs
    · exact absurd hs hne
    · exact absurd hs hne'

theorem PairPaged.openAction (hsvc : Function.Injective svc.uuid4)
    (h : PairPaged engine svc qradar value detector state s) {watch evidence bucket} (hwatch : watch.id = value.watchId)
    (hdetector : evidence.anomalyType = detector) (hs : state'.state = .opened ∨ state'.state = .recovering) :
    ∃ s', applyActions svc engine.digest qradar scopes s [openAction watch value evidence bucket id] = .ok s' ∧
      PairPaged engine svc qradar value detector state' s' ∧
      ActiveIn s' (pairFingerprint engine qradar value detector) := by
  let data := alertInput engine.digest qradar (scopes watch.id) watch value.valueKey (some value.id)
    evidence.anomalyType.value evidence bucket id
  have hfp : data.fingerprint = pairFingerprint engine qradar value detector := by
    rw [pairFingerprint, ← hwatch, ← hdetector]
    rfl
  have hactive : ActiveIn (openOrUpdate svc s data).2 (pairFingerprint engine qradar value detector) :=
    (openOrUpdate_activeIn data).mpr (Or.inr hfp.symm)
  refine ⟨(openOrUpdate svc s data).2, rfl, ⟨openOrUpdate_wellFormed hsvc h.wellFormed data, ?_, fun _ => hs⟩,
    hactive⟩
  intro a ha hact hkey
  rcases openOrUpdate_mem data ha with ⟨b, hb, hab⟩ | ⟨now, alertId, rfl⟩
  · exact context_descends h.context hb hab hact hkey
  · exact ⟨rfl, (watchIdOf_newAlert _ _ _ _ _ _ _ _ _ _ _).trans (congrArg some hwatch)⟩

theorem PairPaged.resolveAction (h : PairPaged engine svc qradar value detector state s) (reason : String)
    (state' : PwState) :
    ∃ s', applyActions svc engine.digest qradar scopes s
        [.resolve value.watchId value.valueKey detector.value reason] = .ok s' ∧
      PairPaged engine svc qradar value detector state' s' := by
  let item := alertResolution engine.digest qradar value.watchId value.valueKey detector.value reason
  obtain ⟨r, s', hok, hwf, hiff⟩ := resolveByFingerprint_ok h.wellFormed item
  refine ⟨s', ?_, hwf, ?_, fun hact => absurd rfl ((hiff _).mp hact).2⟩
  · simp only [applyActions, List.foldlM_cons, List.foldlM_nil, applyAction]
    rw [hok]
    rfl
  · intro a ha hact hkey
    obtain ⟨b, hb, hab⟩ := resolveByFingerprint_mem hok ha
    exact context_descends h.context hb hab hact hkey

theorem applyActions_nil : applyActions svc engine.digest qradar scopes s [] = .ok s := rfl

structure BucketAlerts (engine : PwAnomalyEngine) (svc : Service) (qradar : QRadarInstance) (j : PwJudgement φ)
    (state state' : PwState) (s s' : Session φ) : Prop where
  paged : PairPaged engine svc qradar j.value j.evidence.anomalyType state' s'
  maintenance : j.bucket.inMaintenance = true → s' = s
  keeps : ∀ id, state'.activeAnomalyId = some id →
    ActiveIn s (pairFingerprint engine qradar j.value j.evidence.anomalyType) →
    ActiveIn s' (pairFingerprint engine qradar j.value j.evidence.anomalyType)
  pages : processed state j.bucket = false → j.evidence.isAnomalous = true → j.bucket.inMaintenance = false →
    state'.state = .opened → ActiveIn s' (pairFingerprint engine qradar j.value j.evidence.anomalyType)

theorem BucketAlerts.unchanged {j} (h : PairPaged engine svc qradar j.value j.evidence.anomalyType state s)
    (hs : state'.state = state.state ∨ (state.state ≠ .opened ∧ state.state ≠ .recovering) ∨
      state'.state = .recovering)
    (hopen : processed state j.bucket = false → j.evidence.isAnomalous = true → state'.state ≠ .opened) :
    BucketAlerts engine svc qradar j state state' s s := by
  refine ⟨?_, fun _ => rfl, fun _ _ hact => hact, fun hp hanomalous _ hs' => absurd hs' (hopen hp hanomalous)⟩
  rcases hs with hs | hs | hs
  · exact h.same (Or.inl hs)
  · exact h.same (Or.inr hs)
  · exact ⟨h.wellFormed, h.context, fun _ => Or.inr hs⟩

theorem BucketAlerts.opens {j : PwJudgement φ} (halerting : engine.alerting = true)
    (hsvc : Function.Injective svc.uuid4) (hwatch : j.watch.id = j.value.watchId)
    (h : PairPaged engine svc qradar j.value j.evidence.anomalyType state s) (hs' : state'.state = .opened)
    (hs : j.bucket.inMaintenance = true → PairPaged engine svc qradar j.value j.evidence.anomalyType state' s) :
    ∃ s', applyActions svc engine.digest qradar scopes s (if j.alerting engine then
        [PropertyWatch.openAction j.watch j.value j.evidence j.bucket id] else []) = .ok s' ∧
      BucketAlerts engine svc qradar j state state' s s' := by
  cases hmaint : j.bucket.inMaintenance with
  | true =>
    refine ⟨s, by simp [PwJudgement.alerting, hmaint, applyActions_nil], ⟨hs hmaint, fun _ => rfl,
      fun _ _ hact => hact, fun _ _ hno => ?_⟩⟩
    rw [hmaint] at hno
    cases hno
  | false =>
    obtain ⟨s', hok, hpaged, hactive⟩ := h.openAction hsvc hwatch rfl
      (Or.inl hs')
    refine ⟨s', by simpa [PwJudgement.alerting, hmaint, halerting] using hok, ⟨hpaged, fun hno => ?_,
      fun _ _ _ => hactive, fun _ _ _ _ => hactive⟩⟩
    rw [hmaint] at hno
    cases hno

theorem outcome_alerts {j} (halerting : engine.alerting = true) (hsvc : Function.Injective svc.uuid4)
    (hwatch : j.watch.id = j.value.watchId) (h : PairPaged engine svc qradar j.value j.evidence.anomalyType state s)
    (ho : Outcome engine j state run state' run') :
    ∃ s', applyActions svc engine.digest qradar scopes s (run'.alerts.drop run.alerts.length) = .ok s' ∧
      BucketAlerts engine svc qradar j state state' s s' := by
  have hnone : run'.alerts = run.alerts →
      applyActions svc engine.digest qradar scopes s (run'.alerts.drop run.alerts.length) = .ok s := by
    intro hsame
    rw [hsame, List.drop_length]
    rfl
  have hidle : ∀ t : AnomalyState, t = state.state → t.active = false ∨ t = .candidate →
      state.state ≠ .opened ∧ state.state ≠ .recovering := by
    rintro t rfl ht
    constructor <;> intro hs <;> rw [hs] at ht <;> simp [AnomalyState.active] at ht
  cases ho with
  | skipped hp =>
    refine ⟨s, hnone rfl, .unchanged h (Or.inl rfl) (fun hno => ?_)⟩
    rw [hp] at hno
    cases hno
  | kept hp hs hid hincidents hissued halerts hquiet =>
    exact ⟨s, hnone halerts, .unchanged h (Or.inl hs) (fun _ hanomalous hopen =>
      hquiet ⟨hs.symm.trans hopen, hanomalous⟩)⟩
  | refreshed hp hs hs' hid hid' hedit hrow howned halerts =>
    rw [halerts, List.drop_left]
    exact BucketAlerts.opens halerting hsvc hwatch h hs' (fun _ => h.same (Or.inl (hs'.trans hs.symm)))
  | candidate hp hnone' hnames hs' hid' hedit hrow howned halerts hidle' =>
    exact ⟨s, hnone halerts, .unchanged h (Or.inr (Or.inl (hidle _ rfl (Or.inl hidle'))))
      (fun _ _ hopen => by rw [hs'] at hopen; cases hopen)⟩
  | opened hp hnames hs' hid' hedit hrow howned halerts =>
    rw [halerts, List.drop_left]
    exact BucketAlerts.opens halerting hsvc hwatch h hs' (fun _ => ⟨h.wellFormed, h.context, fun _ => Or.inl hs'⟩)
  | recovering hp hs hid hs' hid' hedit hrow howned halerts =>
    exact ⟨s, hnone halerts, .unchanged h (Or.inr (Or.inr hs')) (fun _ _ hopen => by rw [hs'] at hopen; cases hopen)⟩
  | resolved hp hmaint hs hid hs' hid' hedit hrow howned halerts =>
    rw [halerts, List.drop_left, if_pos halerting, hwatch]
    obtain ⟨s', hok, hpaged⟩ := h.resolveAction reasonRecovered state'
    refine ⟨s', hok, ⟨hpaged, fun hno => ?_, fun id hsome => ?_, fun _ _ _ hopen => ?_⟩⟩
    · rw [hmaint] at hno
      cases hno
    · rw [hid'] at hsome
      cases hsome
    · rw [hs'] at hopen
      cases hopen
  | dropped hp hs hid hs' hid' hedit hrow howned halerts =>
    exact ⟨s, hnone halerts, .unchanged h (Or.inr (Or.inl (hidle _ rfl (Or.inr hs))))
      (fun _ _ hopen => by rw [hs'] at hopen; cases hopen)⟩
  | idle hp hidle' hs' hid' hincidents hissued halerts =>
    exact ⟨s, hnone halerts, .unchanged h (Or.inr (Or.inl (hidle _ rfl (Or.inl hidle'))))
      (fun _ _ hopen => by rw [hopen] at hs'; cases hs')⟩

theorem PairPaged.disable (hsvc : Function.Injective svc.uuid4) (h : PairPaged engine svc qradar value detector state s)
    {actor} (hactor : engine.digest.strip actor.toList ≠ []) (reason : String) (state' : PwState) :
    ∃ s', resolveWatchAlerts engine.digest.toUnicodeTables svc value.watchId actor reason s = .ok s' ∧
      PairPaged engine svc qradar value detector state' s' := by
  generalize hfps : (s.alerts.filter (fun a =>
    a.sourceType = "pw_value" && a.active && watchIdOf a = some value.watchId)).map (fun a => a.dedupKey) = fps
  have hmem : ActiveIn s (pairFingerprint engine qradar value detector) →
      pairFingerprint engine qradar value detector ∈ fps := by
    rintro ⟨a, ha, hkey, hact⟩
    obtain ⟨hsource, hid⟩ := h.context a ha hact hkey
    rw [← hfps, ← hkey]
    refine List.mem_map_of_mem (List.mem_filter.mpr ⟨ha, ?_⟩)
    simp [hsource, hact, hid]
  by_cases hnil : fps = []
  · refine ⟨s, by simp only [resolveWatchAlerts, if_neg hactor, hfps, if_pos hnil], h.wellFormed, h.context, ?_⟩
    intro hact
    have hin := hmem hact
    rw [hnil] at hin
    cases hin
  · obtain ⟨hwf, hdescends⟩ := applyBulk_resolve h.wellFormed (fps.map (fun fp => ⟨fp, actor, some reason⟩))
    refine ⟨_, by simp only [resolveWatchAlerts, if_neg hactor, hfps, if_neg hnil], hwf, ?_, fun hact => ?_⟩
    · intro a ha hact hkey
      obtain ⟨b, hb, hab⟩ := hdescends a ha
      exact context_descends h.context hb hab hact hkey
    · obtain ⟨hbefore, hnot⟩ := (applyBulk_activeIn hsvc h.wellFormed [] _ _).mp hact
      rcases hbefore with hbefore | ⟨data, hdata, _⟩
      · exact absurd rfl (hnot _ (List.mem_map_of_mem (hmem hbefore)))
      · cases hdata

/-! ## Events of a pair -/

structure PairOk (engine : PwAnomalyEngine) (svc : Service) (qradar : QRadarInstance) (value : PwValue)
    (detector : PwAnomalyType) (p : PwPair φ) : Prop where
  coupled : PairCoupled engine value detector p.state p.run
  paged : PairPaged engine svc qradar value detector p.state p.alerts
  watchId : p.state.watchId = value.watchId
  detector : p.state.detector = detector

theorem PwPair.Fresh.ok {p : PwPair φ} (h : p.Fresh engine svc qradar value detector) :
    PairOk engine svc qradar value detector p := by
  obtain ⟨id, dirty, hstate⟩ := h.state
  refine ⟨⟨⟨fun _ => by rw [hstate], fun hlive => ?_⟩, h.fresh, fun id i hget hpair hactive => ?_⟩,
    ⟨⟨h.alertIds.1, h.alertIds.2, h.oneActive⟩, fun a ha hact hkey => absurd hkey (h.quiet a ha hact), ?_⟩,
    by rw [hstate], by rw [hstate]⟩
  · rw [hstate] at hlive
    cases hlive
  · rw [h.dead id i hget hpair] at hactive
    cases hactive
  · rintro ⟨a, ha, hkey, hact⟩
    exact absurd hkey (h.quiet a ha hact)

structure PairStep (engine : PwAnomalyEngine) (svc : Service) (qradar : QRadarInstance) (value : PwValue)
    (detector : PwAnomalyType) (p p' : PwPair φ) : Prop where
  ok : PairOk engine svc qradar value detector p'
  frozen : Frozen value detector p.run p'.run
  follows : Follows p.state p'.state p.run p'.run
  keeps : ∀ id, p'.state.activeAnomalyId = some id →
    ActiveIn p.alerts (pairFingerprint engine qradar value detector) →
    ActiveIn p'.alerts (pairFingerprint engine qradar value detector)

variable {p p' : PwPair φ}

theorem advance_owner {j} : (advance engine qradar j state run).1.watchId = state.watchId ∧
    (advance engine qradar j state run).1.detector = state.detector := by
  have hensure : ∀ st : PwState, (ensureIncident engine qradar j st run).2.1.watchId = st.watchId ∧
      (ensureIncident engine qradar j st run).2.1.detector = st.detector := by
    intro st
    unfold ensureIncident
    split <;> exact ⟨rfl, rfl⟩
  unfold advance
  split
  · exact ⟨rfl, rfl⟩
  · dsimp only
    split_ifs
    · exact ⟨rfl, rfl⟩
    · exact ⟨rfl, rfl⟩
    · unfold move
      dsimp only
      split <;> first | exact hensure _ | exact ⟨rfl, rfl⟩

theorem advance_opened {j} (hs : state.state = .opened) (hp : processed state j.bucket = false)
    (hanomalous : j.evidence.isAnomalous = true) : (advance engine qradar j state run).1.state = .opened := by
  have htarget := decision_opened engine hs hanomalous
  simp only [advance, hp, Bool.false_eq_true, if_false, htarget, hs, reduceCtorEq, and_false, if_true]
  exact hs

theorem PairOk.retire (hinj : Function.Injective engine.uuid4) (h : PairOk engine svc qradar value detector p)
    (reason : String) (emitAlert : Bool) :
    let retired := (retireState engine reason emitAlert p.state p.run).2
    PairCoupled engine value detector retired.1 retired.2 ∧ Frozen value detector p.run retired.2 ∧
      Follows p.state retired.1 p.run retired.2 ∧ retired.1.activeAnomalyId = none := by
  obtain ⟨hs, hid, -, -, hcase⟩ := retireState_spec engine h.coupled.toTracks reason emitAlert
  rcases hcase with ⟨hidle, hrun⟩ | ⟨id, row, hlive, hactive, hedit, hrow, howned, -⟩
  · obtain ⟨hc, hf, hfo⟩ := h.coupled.keep (congrArg PwRun.incidents hrun) (by rw [hrun])
      (Or.inr ⟨hidle, by rw [hs]; rfl, hid⟩)
    exact ⟨hc, hf, hfo, hid⟩
  · obtain ⟨hc, hf, hfo⟩ := h.coupled.edits hinj hedit (Or.inl hactive) howned
      (Or.inr ⟨by rw [hs]; rfl, hid, by rw [hrow]; rfl⟩)
    exact ⟨hc, hf, hfo, hid⟩

/-- A bucket keeps the invariant. In maintenance it leaves the alerts, one processed before changes nothing, and an
anomalous one that leaves the state OPEN leaves the alert active. -/
theorem PairOk.bucket (halerting : engine.alerting = true) (hinj : Function.Injective engine.uuid4)
    (hsvc : Function.Injective svc.uuid4) (h : PairOk engine svc qradar value detector p)
    {watch bucket evidence}
    (scopes : String → Option String) (watch_id : watch.id = value.watchId)
    (detector_eq : evidence.anomalyType = detector) :
    ∃ p', pairStep engine svc qradar value detector p (.bucket watch bucket evidence scopes watch_id detector_eq) =
        .ok p' ∧
      PairStep engine svc qradar value detector p p' ∧ (bucket.inMaintenance = true → p'.alerts = p.alerts) ∧
      (processed p.state bucket = true → p' = p) ∧
      (processed p.state bucket = false → evidence.isAnomalous = true → bucket.inMaintenance = false →
        p.state.state = .opened ∨ p'.state.state = .opened →
          ActiveIn p'.alerts (pairFingerprint engine qradar value detector)) := by
  subst detector_eq
  let j : PwJudgement φ := ⟨watch, value, bucket, evidence⟩
  have ho : Outcome engine j p.state p.run (advance engine qradar j p.state p.run).1
      (advance engine qradar j p.state p.run).2 := advance_outcome h.coupled.toTracks
  obtain ⟨s', hok, halerts⟩ := outcome_alerts halerting hsvc watch_id h.paged ho
  obtain ⟨hcoupled, hfrozen, hfollows⟩ := PairCoupled.outcome (j := j) hinj h.coupled ho
  obtain ⟨hwatch, hdetector⟩ := advance_owner
  have hstep : pairStep engine svc qradar value evidence.anomalyType p
      (.bucket watch bucket evidence scopes watch_id rfl) =
      .ok ⟨(advance engine qradar j p.state p.run).1, (advance engine qradar j p.state p.run).2, s'⟩ := by
    simp only [pairStep]
    rw [hok]
    rfl
  refine ⟨_, hstep, ⟨⟨hcoupled, halerts.paged, hwatch.trans h.watchId, hdetector.trans h.detector⟩, hfrozen,
    hfollows, halerts.keeps⟩, halerts.maintenance, fun hp => ?_, fun hp hanomalous hmaint hopen => ?_⟩
  · have hsame : advance engine qradar j p.state p.run = (p.state, p.run) := by
      simp only [advance, j, hp, if_true]
    rw [hsame, List.drop_length] at hok
    cases hok
    rw [hsame]
  · exact halerts.pages hp hanomalous hmaint (hopen.elim (fun hs => advance_opened hs hp hanomalous) id)

/-- Every event is accepted, save a disabling without an actor, and keeps the invariant. -/
theorem PairOk.step (halerting : engine.alerting = true) (hinj : Function.Injective engine.uuid4)
    (hsvc : Function.Injective svc.uuid4) (h : PairOk engine svc qradar value detector p)
    (event : PwPairEvent value detector φ) (hnamed : event.Named engine.digest.toUnicodeTables) :
    ∃ p', pairStep engine svc qradar value detector p event = .ok p' ∧
      PairStep engine svc qradar value detector p p' := by
  cases event with
  | bucket watch bucket evidence scopes watch_id detector_eq =>
    obtain ⟨p', hok, hstep, -⟩ := h.bucket halerting hinj hsvc scopes watch_id detector_eq
    exact ⟨p', hok, hstep⟩
  | retire reason =>
    obtain ⟨hcoupled, hfrozen, hfollows, hid⟩ := h.retire hinj reason true
    obtain ⟨hs, -, hwatch, hdetector, hcase⟩ := retireState_spec engine h.coupled.toTracks reason true
    have halerts : ∃ s', applyActions svc engine.digest qradar (fun _ => none) p.alerts
        ((retireState engine reason true p.state p.run).2.2.alerts.drop p.run.alerts.length) = .ok s' ∧
        PairPaged engine svc qradar value detector (retireState engine reason true p.state p.run).2.1 s' := by
      rcases hcase with ⟨hidle, hrun⟩ | ⟨id, row, hlive, hactive, hedit, hrow, howned, halerts⟩
      · rw [hrun, List.drop_length]
        refine ⟨p.alerts, rfl, h.paged.same (Or.inr ?_)⟩
        constructor <;> intro hopen <;> rw [hopen] at hidle <;> cases hidle
      · rw [halerts, List.drop_left, halerting, h.watchId, h.detector]
        by_cases hopen : p.state.state = .opened ∨ p.state.state = .recovering
        · simp only [hopen, decide_true, Bool.and_self, if_true]
          exact h.paged.resolveAction reason _
        · simp only [hopen, decide_false, Bool.and_false, Bool.false_eq_true, if_false]
          exact ⟨p.alerts, rfl, h.paged.same (Or.inr (not_or.mp hopen))⟩
    obtain ⟨s', hok, hpaged⟩ := halerts
    refine ⟨⟨(retireState engine reason true p.state p.run).2.1, (retireState engine reason true p.state p.run).2.2,
      s'⟩, ?_, ⟨⟨hcoupled, hpaged, hwatch.trans h.watchId, hdetector.trans h.detector⟩, hfrozen, hfollows, ?_⟩⟩
    · simp only [pairStep]
      rw [hok]
      rfl
    · intro id hsome
      cases hid.symm.trans hsome
  | disable actor reason =>
    by_cases hnone : p.state.activeAnomalyId = none
    · obtain ⟨s', hok, hpaged⟩ := h.paged.disable hsvc hnamed reason p.state
      refine ⟨⟨p.state, p.run, s'⟩, ?_, ⟨⟨h.coupled, hpaged, h.watchId, h.detector⟩, fun _ _ hget _ _ => hget,
        ⟨fun _ hget => hget, fun _ hid => Or.inl hid⟩, ?_⟩⟩
      · simp only [pairStep, hnone, if_true]
        rw [hok]
        rfl
      · intro id hsome
        cases hnone.symm.trans hsome
    · obtain ⟨hcoupled, hfrozen, hfollows, hid⟩ := h.retire hinj reason false
      obtain ⟨hs, -, hwatch, hdetector, -⟩ := retireState_spec engine h.coupled.toTracks reason false
      obtain ⟨s', hok, hpaged⟩ := h.paged.disable hsvc hnamed reason
        (retireState engine reason false p.state p.run).2.1
      refine ⟨⟨(retireState engine reason false p.state p.run).2.1,
        (retireState engine reason false p.state p.run).2.2, s'⟩, ?_,
        ⟨⟨hcoupled, hpaged, hwatch.trans h.watchId, hdetector.trans h.detector⟩, hfrozen, hfollows, ?_⟩⟩
      · simp only [pairStep, hnone, if_false]
        rw [hok]
        rfl
      · intro id hsome
        cases hid.symm.trans hsome

/-! ## Runs of a pair -/

structure PairRun (engine : PwAnomalyEngine) (svc : Service) (qradar : QRadarInstance) {value : PwValue}
    {detector : PwAnomalyType} (tr : List (PwPairTaken value detector φ)) (p : PwPair φ) : Prop where
  ok : PairOk engine svc qradar value detector p
  frozen : ∀ e ∈ tr, Frozen value detector e.before.run p.run
  stay : ∀ e ∈ tr, ∀ id, e.output.state.activeAnomalyId = some id → p.run.incidents.get? id ≠ none
  pages : ∀ e ∈ tr, ∀ id, e.Pages id → p.state.activeAnomalyId = some id →
    ActiveIn p.alerts (pairFingerprint engine qradar value detector)
  maintenance : ∀ e ∈ tr, e.InMaintenance → e.output.alerts = e.before.alerts
  skipped : ∀ e ∈ tr, e.Processed → e.output = e.before

theorem Frozen.trans {run''} (h : Frozen value detector run run')
    (h' : Frozen value detector run' run'') : Frozen value detector run run'' := fun id i hget hpair hclosed =>
  h' id i (h id i hget hpair hclosed) hpair hclosed

theorem named_of_ok {event}
    (hok : pairStep engine svc qradar value detector p event = .ok p') : event.Named engine.digest.toUnicodeTables := by
  cases event with
  | bucket watch bucket evidence scopes watch_id detector_eq => exact trivial
  | retire reason => exact trivial
  | disable actor reason =>
    intro hblank
    simp only [pairStep, resolveWatchAlerts, hblank, if_true] at hok
    cases hok

theorem PairRun.snoc (halerting : engine.alerting = true) (hinj : Function.Injective engine.uuid4)
    (hsvc : Function.Injective svc.uuid4) {tr} (h : PairRun engine svc qradar tr p) {event}
    (hok : pairStep engine svc qradar value detector p event = .ok p') :
    PairRun engine svc qradar (tr ++ [⟨p, event, p'⟩]) p' := by
  obtain ⟨p'', hok', hstep⟩ := h.ok.step halerting hinj hsvc event (named_of_ok hok)
  cases hok.symm.trans hok'
  have hnew : (PwPairTaken.InMaintenance ⟨p, event, p'⟩ → p'.alerts = p.alerts) ∧
      (PwPairTaken.Processed ⟨p, event, p'⟩ → p' = p) ∧ ∀ id, PwPairTaken.Pages ⟨p, event, p'⟩ id →
        ActiveIn p'.alerts (pairFingerprint engine qradar value detector) := by
    cases event with
    | bucket watch bucket evidence scopes watch_id detector_eq =>
      obtain ⟨p'', hok', -, hmaint, hskip, hpages⟩ := h.ok.bucket halerting hinj hsvc scopes watch_id detector_eq
      cases hok.symm.trans hok'
      exact ⟨hmaint, hskip, fun id hp => hpages hp.1 hp.2.1 hp.2.2.1 hp.2.2.2.1⟩
    | retire reason => exact ⟨fun hf => hf.elim, fun hf => hf.elim, fun _ hf => hf.elim⟩
    | disable actor reason => exact ⟨fun hf => hf.elim, fun hf => hf.elim, fun _ hf => hf.elim⟩
  refine ⟨hstep.ok, fun e he => ?_, fun e he id hid => ?_, fun e he id hp hid => ?_, fun e he => ?_, fun e he => ?_⟩
  · rcases List.mem_append.mp he with he | he
    · exact (h.frozen e he).trans hstep.frozen
    · cases List.mem_singleton.mp he
      exact hstep.frozen
  · rcases List.mem_append.mp he with he | he
    · exact fun hgone => h.stay e he id hid (hstep.follows.stay id hgone)
    · cases List.mem_singleton.mp he
      intro hgone
      by_cases hlive : p'.state.state.active = true
      · obtain ⟨id', i, hid', hget, -⟩ := hstep.ok.coupled.live hlive
        cases hid.symm.trans hid'
        cases hgone.symm.trans hget
      · rw [hstep.ok.coupled.idle (by simpa using hlive)] at hid
        cases hid
  · rcases List.mem_append.mp he with he | he
    · -- The incident the run paged for is tracked still: its id was not free for a new one.
      rcases hstep.follows.names id hid with hbefore | hfree
      · exact hstep.keeps id hid (h.pages e he id hp hbefore)
      · refine absurd hfree (h.stay e he id ?_)
        revert hp
        unfold PwPairTaken.Pages
        split
        · exact fun hp => hp.2.2.2.2
        · exact fun hf => hf.elim
    · cases List.mem_singleton.mp he
      exact hnew.2.2 id hp
  · rcases List.mem_append.mp he with he | he
    · exact h.maintenance e he
    · cases List.mem_singleton.mp he
      exact hnew.1
  · rcases List.mem_append.mp he with he | he
    · exact h.skipped e he
    · cases List.mem_singleton.mp he
      exact hnew.2.1

theorem pairRun (halerting : engine.alerting = true) (hinj : Function.Injective engine.uuid4)
    (hsvc : Function.Injective svc.uuid4) {p₀ : PwPair φ} (h₀ : p₀.Fresh engine svc qradar value detector)
    {tr : List (PwPairTaken value detector φ)}
    (hrun : Run (pairStep engine svc qradar value detector) (fun p => p) p₀ tr p) : PairRun engine svc qradar tr p := by
  refine hrun.invariant' (fun tr p => PairRun engine svc qradar tr p)
    ⟨h₀.ok, by simp, by simp, by simp, by simp, by simp⟩ ?_
  intro tr p event p' h hok
  exact h.snoc halerting hinj hsvc hok

end QRadarDashboard.PropertyWatch
