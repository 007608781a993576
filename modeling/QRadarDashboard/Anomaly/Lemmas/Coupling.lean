import QRadarDashboard.Anomaly.Lemmas.Hysteresis
import QRadarDashboard.Anomaly.Lemmas.Incidents
import QRadarDashboard.Lib.Run

/-!
# The detector and its incident
-/

namespace QRadarDashboard.Anomaly
open Lib Alerts

variable {φ : Type} {w w' : World φ} {engine : AnomalyEngine} {key : DetectorKey} {id : String}

/-! ## The moves of the lifecycle -/

inductive Move : AnomalyState → AnomalyState → Prop
  | candidate {s} : s.active = false → Move s .candidate
  | opened {s} : Move s .opened
  | recovering : Move .opened .recovering
  | resolved {s} : s = .opened ∨ s = .recovering → Move s .resolved
  | dropped : Move .candidate .normal
  | idle {s t} : s.active = false → t = .suppressed ∨ t = .normal ∨ t = .insufficientData → Move s t

theorem nextState_move {inp} (hsup : inp.suppressed = true → inp.state.active = false)
    (hne : (nextState inp).state ≠ inp.state) : Move inp.state (nextState inp).state := by
  unfold nextState at hne ⊢
  split_ifs at hne ⊢ with h₁ h₂ h₃ h₄ h₅
  · exact absurd rfl hne
  · exact .idle (hsup h₁) (Or.inl rfl)
  · exact .idle (by rw [h₃]; rfl) (Or.inr (Or.inl rfl))
  · refine .idle ?_ (Or.inr (Or.inr rfl))
    rcases h₅ with h | h <;> rw [h] <;> rfl
  · exact absurd rfl hne
  · cases hsignal : inp.signal with
    | unknown =>
      rw [hsignal] at hne
      exact absurd rfl hne
    | anomalous =>
      rw [hsignal] at hne
      dsimp only at hne ⊢
      rw [onAnomalous_state h₃] at hne ⊢
      split_ifs at hne ⊢ with hopen
      · exact .opened
      · refine .candidate ?_
        cases hs : inp.state <;> simp_all [AnomalyState.active]
    | healthy =>
      rw [hsignal] at hne
      dsimp only at hne ⊢
      rw [onHealthy_state] at hne ⊢
      split_ifs at hne ⊢ with hopen hone hrec htwo
      · exact .resolved (Or.inl hopen)
      · rw [hopen]
        exact .recovering
      · exact .resolved (Or.inr hrec)
      · exact absurd hrec.symm hne
      · cases hs : inp.state with
        | candidate => exact .dropped
        | opened => exact absurd hs hopen
        | recovering => exact absurd hs hrec
        | normal | insufficientData | resolved | suppressed => exact .idle rfl (Or.inr (Or.inl rfl))

theorem decision_move {j : Judgement φ} {d} (hne : (decision j d).state ≠ d.state) :
    Move d.state (decision j d).state := by
  refine nextState_move ?_ hne
  intro hsup
  simpa using (Bool.and_eq_true_iff.mp hsup).2

/-! ## The invariant -/

def LiveRow (key : DetectorKey) (w : World φ) (id : String) (row : LogSourceAnomaly φ) : Prop :=
  w.anomalies.get? id = some row ∧ row.key = key ∧ row.state.active = true

structure Coupled (svc : Service) (key : DetectorKey) (w : World φ) : Prop where
  fresh : ∀ n, w.alerts.issued ≤ n → w.anomalies.get? (svc.uuid4 n) = none
  isOpen : (detectorState w key).isOpen = true ↔
    (detectorState w key).state = .opened ∨ (detectorState w key).state = .recovering
  idle : (detectorState w key).state.active = false → (detectorState w key).activeAnomalyId = none
  tracked : (detectorState w key).state.active = true → ∃ id row,
    (detectorState w key).activeAnomalyId = some id ∧ LiveRow key w id row ∧
      row.state = (detectorState w key).state ∧ row.resolvedAt = none
  only : ∀ id row, LiveRow key w id row → (detectorState w key).activeAnomalyId = some id

def Frozen (key : DetectorKey) (w w' : World φ) : Prop :=
  ∀ id row, w.anomalies.get? id = some row → row.key = key → row.state = .resolved ∨ row.state = .normal →
    w'.anomalies.get? id = some row

def Idle (d : DetectorState) : Prop :=
  d.state.active = false ∧ d.activeAnomalyId = none ∧ d.isOpen = false

theorem Coupled.keepsRows {svc} (h : Coupled svc key w) (hidle : (detectorState w key).state.active = false)
    (hkeeps : KeepsRows w w') {d} (hd : Idle d) :
    Coupled svc key { w' with detectors := w'.detectors.set key d } ∧
      Frozen key w { w' with detectors := w'.detectors.set key d } := by
  obtain ⟨hstate, hactive, hopen⟩ := hd
  refine ⟨⟨?_, ?_, ?_, ?_, ?_⟩, fun id row hrow _ _ => (hkeeps.rows id).trans hrow⟩
  · intro n hn
    exact (hkeeps.rows _).trans (h.fresh n (hkeeps.issued.trans hn))
  · rw [detectorState_moved, hopen]
    revert hstate
    cases d.state <;> simp [AnomalyState.active]
  · rw [detectorState_moved]
    exact fun _ => hactive
  · rw [detectorState_moved, hstate]
    exact fun hf => absurd hf Bool.false_ne_true
  · intro id row ⟨hrow, hkey, hlive⟩
    have hold := h.only id row ⟨(hkeeps.rows id).symm.trans hrow, hkey, hlive⟩
    rw [h.idle hidle] at hold
    cases hold

def Writable (svc : Service) (key : DetectorKey) (w w' : World φ) (id : String) : Prop :=
  (detectorState w key).activeAnomalyId = some id ∨
    ((detectorState w key).activeAnomalyId = none ∧ id = svc.uuid4 w.alerts.issued ∧
      w.alerts.issued < w'.alerts.issued)

def Matches (id : String) (row : LogSourceAnomaly φ) (d : DetectorState) : Prop :=
  (d.isOpen = true ↔ d.state = .opened ∨ d.state = .recovering) ∧
    ((d.state.active = true ∧ d.activeAnomalyId = some id ∧ row.state = d.state ∧ row.resolvedAt = none) ∨
      (d.state.active = false ∧ d.activeAnomalyId = none ∧ row.state.active = false))

theorem Coupled.edits {svc} (hinj : Function.Injective svc.uuid4) (h : Coupled svc key w)
    {row} (hedit : Edits id w w' row) (hkey : row.key = key)
    (hwritable : Writable svc key w w' id) {d} (hd : Matches id row d) :
    Coupled svc key { w' with detectors := w'.detectors.set key d } ∧
      Frozen key w { w' with detectors := w'.detectors.set key d } := by
  obtain ⟨hopen, hmatch⟩ := hd
  -- Any other live row would have been the tracked one before.
  have hother : ∀ id' row', id' ≠ id → ¬ LiveRow key w' id' row' := by
    intro id' row' hne ⟨hrow', hkey', hlive'⟩
    have hold := h.only id' row' ⟨(hedit.others id' hne).symm.trans hrow', hkey', hlive'⟩
    rcases hwritable with htracked | ⟨hnone, _⟩
    · exact hne (Option.some.inj (hold.symm.trans htracked))
    · rw [hnone] at hold
      cases hold
  refine ⟨⟨?_, ?_, ?_, ?_, ?_⟩, ?_⟩
  · intro n hn
    have hfresh := h.fresh n (hedit.issued.trans hn)
    refine (hedit.others _ ?_).trans hfresh
    rintro rfl
    rcases hwritable with htracked | ⟨_, hid, hlt⟩
    · by_cases hactive : (detectorState w key).state.active = true
      · obtain ⟨id', row', hid', hlive, _⟩ := h.tracked hactive
        cases htracked.symm.trans hid'
        cases hfresh.symm.trans hlive.1
      · rw [h.idle (by simpa using hactive)] at htracked
        cases htracked
    · have := hinj hid
      simp only at hn
      omega
  · rw [detectorState_moved]
    exact hopen
  · rw [detectorState_moved]
    intro hidle
    rcases hmatch with ⟨hactive, _⟩ | ⟨_, hnone, _⟩
    · rw [hidle] at hactive
      cases hactive
    · exact hnone
  · rw [detectorState_moved]
    intro hactive
    rcases hmatch with ⟨_, hid, hstate, hresolved⟩ | ⟨hidle, _⟩
    · exact ⟨id, row, hid, ⟨hedit.row, hkey, by rw [hstate]; exact hactive⟩, hstate, hresolved⟩
    · rw [hidle] at hactive
      cases hactive
  · intro id' row' hlive
    rw [detectorState_moved]
    by_cases hne : id' = id
    · subst hne
      have hrow : row' = row := Option.some.inj (hlive.1.symm.trans hedit.row)
      rcases hmatch with ⟨_, hid, _⟩ | ⟨_, _, hdead⟩
      · exact hid
      · have hlive' := hlive.2.2
        rw [hrow, hdead] at hlive'
        cases hlive'
    · exact absurd hlive (hother id' row' hne)
  · intro id' row' hrow' hkey' hclosed
    refine (hedit.others id' ?_).trans hrow'
    rintro rfl
    rcases hwritable with htracked | ⟨_, hid, _⟩
    · by_cases hactive : (detectorState w key).state.active = true
      · obtain ⟨id'', row'', hid'', hlive, _⟩ := h.tracked hactive
        cases htracked.symm.trans hid''
        cases hrow'.symm.trans hlive.1
        have hlive' := hlive.2.2
        rcases hclosed with hs | hs
        · rw [hs] at hlive'
          cases hlive'
        · rw [hs] at hlive'
          cases hlive'
      · rw [h.idle (by simpa using hactive)] at htracked
        cases htracked
    · rw [hid, h.fresh _ (Nat.le_refl _)] at hrow'
      cases hrow'

/-! ## One bucket -/

theorem KeepsRows.asEdits {row} (h : KeepsRows w w') (hrow : w.anomalies.get? id = some row) : Edits id w w' row :=
  ⟨h.detectors, fun id' _ => h.rows id', (h.rows id).trans hrow, h.issued⟩

section Transition

variable [PyFloat φ] {source : LogSource} {metric : Metric} {evidence : AnomalyEvidence φ} {m : Bool}
  {d d' : DetectorState} {reason : String}

theorem applyTransition_candidate (hne : d.state ≠ .candidate)
    (h : applyTransition engine source metric evidence d ⟨.candidate, reason⟩ m w = .ok (d', w')) :
    ∃ id row, id = engine.svc.uuid4 w.alerts.issued ∧ w.alerts.issued < w'.alerts.issued ∧ Edits id w w' row ∧
      row.key = (source.id, evidence.anomalyType) ∧ row.state = .candidate ∧ row.resolvedAt = none ∧
      d' = { d with state := .candidate, activeAnomalyId := some id } := by
  simp only [applyTransition, if_neg hne.symm] at h
  obtain ⟨⟨id, w₁⟩, hcreated, h⟩ := bind_ok h
  cases h
  obtain ⟨hid, hissued, row, hedit, hspec⟩ := createIncident_spec hcreated
  have hreport := (keepsRows_reportState evidence .candidate (w := w)).edits hedit
  exact ⟨id, row, hid, hissued, hreport.keeps ⟨rfl, fun _ => rfl, Nat.le_refl _⟩, hspec.1, hspec.2.1, hspec.2.2,
    rfl⟩

theorem applyTransition_opened (hne : d.state ≠ .opened)
    (h : applyTransition engine source metric evidence d ⟨.opened, reason⟩ m w = .ok (d', w')) :
    ∃ id row, Edits id w w' row ∧ row.state = .opened ∧
      d' = { d with state := .opened, isOpen := true, openAnomalyId := some id, activeAnomalyId := some id } ∧
      ((∃ old, activeAnomaly d w = some (id, old) ∧ row.key = old.key ∧ row.resolvedAt = old.resolvedAt) ∨
        (activeAnomaly d w = none ∧ id = engine.svc.uuid4 w.alerts.issued ∧ w.alerts.issued < w'.alerts.issued ∧
          row.key = (source.id, evidence.anomalyType) ∧ row.resolvedAt = none)) := by
  simp only [applyTransition, if_neg hne.symm] at h
  obtain ⟨⟨id, w₁⟩, hincident, h⟩ := bind_ok h
  cases hactive : activeAnomaly d w with
  | some item =>
    have hactive' : activeAnomaly { d with state := .opened } (reportState evidence .opened w) = some item :=
      hactive
    simp only [incidentFor, hactive'] at hincident
    cases hincident
    obtain ⟨hid, hrow⟩ := activeAnomaly_eq_some.mp hactive
    obtain ⟨w₂, hpromoted, row, hedit, hkey, hstate, hresolved⟩ := promoteToOpen_spec engine source metric evidence
      m (w := reportState evidence .opened w) (d := { d with state := .opened, activeAnomalyId := some item.1 })
      rfl hrow
    simp only [hpromoted] at h
    cases h
    have hreport := (keepsRows_reportState evidence .opened (w := w)).edits hedit
    exact ⟨item.1, row, hreport.keeps (keepsRows_recordTransition _ _ _ _ _ _), hstate, rfl,
      Or.inl ⟨item.2, rfl, hkey, hresolved⟩⟩
  | none =>
    have hactive' : activeAnomaly { d with state := .opened } (reportState evidence .opened w) = none := hactive
    simp only [incidentFor, hactive'] at hincident
    obtain ⟨hid, hissued, row₁, hedit₁, hkey₁, hstate₁, hresolved₁⟩ := createIncident_spec hincident
    obtain ⟨w₂, hpromoted, row, hedit, hkey, hstate, hresolved⟩ := promoteToOpen_spec engine source metric evidence
      m (w := w₁) (d := { d with state := .opened, activeAnomalyId := some id }) rfl hedit₁.row
    simp only [hpromoted] at h
    cases h
    have hreport := (keepsRows_reportState evidence .opened (w := w)).edits (hedit₁.trans hedit)
    exact ⟨id, row, hreport.keeps (keepsRows_recordTransition _ _ _ _ _ _), hstate, rfl,
      Or.inr ⟨rfl, hid, Nat.lt_of_lt_of_le hissued hedit.issued, hkey.trans hkey₁, hresolved.trans hresolved₁⟩⟩

end Transition

theorem Coupled.of_activeAnomaly {svc row} (h : Coupled svc key w)
    (hactive : activeAnomaly (detectorState w key) w = some (id, row)) : row.key = key ∧ row.resolvedAt = none := by
  obtain ⟨hid, hrow⟩ := activeAnomaly_eq_some.mp hactive
  by_cases hlive : (detectorState w key).state.active = true
  · obtain ⟨id', row', hid', hlive', _, hresolved⟩ := h.tracked hlive
    cases hid.symm.trans hid'
    cases hrow.symm.trans hlive'.1
    exact ⟨hlive'.2.1, hresolved⟩
  · rw [h.idle (by simpa using hlive)] at hid
    cases hid

theorem Coupled.of_none {svc} (h : Coupled svc key w)
    (hactive : activeAnomaly (detectorState w key) w = none) : (detectorState w key).activeAnomalyId = none := by
  by_cases hlive : (detectorState w key).state.active = true
  · obtain ⟨id, row, hid, hlive', _⟩ := h.tracked hlive
    have hsome : activeAnomaly (detectorState w key) w = some (id, row) :=
      activeAnomaly_eq_some.mpr ⟨hid, hlive'.1⟩
    cases hactive.symm.trans hsome
  · exact h.idle (by simpa using hlive)

section Step

variable [PyFloat φ] {j : Judgement φ} {d' : DetectorState}

theorem isOpen_idle {d : DetectorState} (hopen : d.isOpen = true ↔ d.state = .opened ∨ d.state = .recovering)
    (hidle : d.state.active = false) : d.isOpen = false := by
  rw [← Bool.not_eq_true, hopen]
  revert hidle
  cases d.state <;> simp [AnomalyState.active]

theorem Coupled.hold (hinj : Function.Injective engine.svc.uuid4) (h : Coupled engine.svc key w)
    (hdec : (decision j (counted j (detectorState w key))).state = (counted j (detectorState w key)).state)
    (hok : applyTransition engine j.source j.metric j.evidence (counted j (detectorState w key))
      (decision j (counted j (detectorState w key))) j.inMaintenance w = .ok (d', w')) :
    Coupled engine.svc key { w' with detectors := w'.detectors.set key d' } ∧
      Frozen key w { w' with detectors := w'.detectors.set key d' } := by
  rw [applyTransition_hold engine _ _ _ _ _ hdec] at hok
  cases hok
  have hreport := keepsRows_reportState j.evidence (decision j (counted j (detectorState w key))).state (w := w)
  by_cases hactive : (detectorState w key).state.active = true
  · obtain ⟨id, row, hid, hlive, hstate, hresolved⟩ := h.tracked hactive
    have hmatch : ∀ row' : LogSourceAnomaly φ, row'.state = row.state → row'.resolvedAt = row.resolvedAt →
        Matches id row' (counted j (detectorState w key)) := fun row' hs hr =>
      ⟨h.isOpen, Or.inl ⟨hactive, hid, hs.trans hstate, hr.trans hresolved⟩⟩
    by_cases hopen : (counted j (detectorState w key)).state = .opened
    · rw [if_pos hopen]
      obtain ⟨hkey, hs, hr⟩ := touched_spec (counted j (detectorState w key)) j.metric j.evidence row
      have hkeeps := hreport.trans
        (keepsRows_refresh engine j.source j.evidence (counted j (detectorState w key)) j.inMaintenance _)
      have hid' : (counted j (detectorState w key)).activeAnomalyId = some id := hid
      have hedit := hkeeps.edits (edits_touchAnomaly j.metric j.evidence hid' ((hkeeps.rows id).trans hlive.1))
      exact h.edits hinj hedit (hkey.trans hlive.2.1) (Or.inl hid) (hmatch _ hs hr)
    · rw [if_neg hopen]
      exact h.edits hinj (hreport.asEdits hlive.1) hlive.2.1 (Or.inl hid) (hmatch row rfl rfl)
  · have hidle : (detectorState w key).state.active = false := by simpa using hactive
    have hopen : (counted j (detectorState w key)).state ≠ .opened := by
      intro ho
      have ho' : (detectorState w key).state = .opened := ho
      rw [ho'] at hidle
      cases hidle
    rw [if_neg hopen]
    exact h.keepsRows hidle hreport ⟨hidle, h.idle hidle, isOpen_idle h.isOpen hidle⟩

theorem Coupled.move (hinj : Function.Injective engine.svc.uuid4) (h : Coupled engine.svc key w) (hj : j.key = key)
    {dec : LifecycleDecision} (hne : dec.state ≠ (counted j (detectorState w key)).state)
    (hmove : Move (detectorState w key).state dec.state)
    (hok : applyTransition engine j.source j.metric j.evidence (counted j (detectorState w key)) dec
      j.inMaintenance w = .ok (d', w')) :
    Coupled engine.svc key { w' with detectors := w'.detectors.set key d' } ∧
      Frozen key w { w' with detectors := w'.detectors.set key d' } := by
  obtain ⟨target, reason⟩ := dec
  generalize hs : (detectorState w key).state = s at hmove
  -- Moves other than to CANDIDATE and OPEN settle the tracked row in a world with the same rows.
  obtain ⟨w₁, hkeeps, hsettle⟩ : ∃ w₁, KeepsRows w w₁ ∧ (target ≠ .candidate → target ≠ .opened →
      settle engine j.source j.metric j.evidence s target { counted j (detectorState w key) with state := target } w₁ =
        .ok (d', w')) := by
    refine ⟨recordActive engine j.metric j.evidence (counted j (detectorState w key)).state ⟨target, reason⟩
      { counted j (detectorState w key) with state := target } (reportState j.evidence target w),
      (keepsRows_reportState _ _).trans keepsRows_recordActive.1, fun hc ho => ?_⟩
    rw [← hs]
    exact (applyTransition_settle engine _ _ _ _ _ hne hc ho).symm.trans hok
  cases hmove with
  | candidate hidle =>
    have hnone := h.idle (hs ▸ hidle)
    obtain ⟨id, row, hid, hissued, hedit, hkey, hstate, hresolved, rfl⟩ := applyTransition_candidate hne.symm hok
    refine h.edits hinj hedit (hkey.trans hj) (Or.inr ⟨hnone, hid, hissued⟩) ⟨?_, Or.inl ⟨rfl, rfl, hstate, hresolved⟩⟩
    simp [counted, isOpen_idle h.isOpen (hs ▸ hidle)]
  | opened =>
    obtain ⟨id, row, hedit, hstate, rfl, hcase⟩ := applyTransition_opened hne.symm hok
    have hmatch : row.resolvedAt = none → Matches id row { counted j (detectorState w key) with
        state := .opened, isOpen := true, openAnomalyId := some id, activeAnomalyId := some id } := fun hr =>
      ⟨by simp, Or.inl ⟨rfl, rfl, hstate, hr⟩⟩
    rcases hcase with ⟨old, hactive, hkey, hresolved⟩ | ⟨hactive, hid, hissued, hkey, hresolved⟩
    · obtain ⟨hold, hnone⟩ := h.of_activeAnomaly hactive
      exact h.edits hinj hedit (hkey.trans hold) (Or.inl (activeAnomaly_eq_some.mp hactive).1)
        (hmatch (hresolved.trans hnone))
    · exact h.edits hinj hedit (hkey.trans hj) (Or.inr ⟨h.of_none hactive, hid, hissued⟩) (hmatch hresolved)
  | recovering =>
    obtain ⟨id, row, hid, hlive, _, hresolved⟩ := h.tracked (by rw [hs]; rfl)
    obtain ⟨w₂, row', hok', hedit, hkey, hstate, hr⟩ := settle_recovering engine j.source j.metric j.evidence .opened
      (d := { counted j (detectorState w key) with state := .recovering }) hid ((hkeeps.rows id).trans hlive.1)
    cases (hsettle (by decide) (by decide)).symm.trans hok'
    refine h.edits hinj (hkeeps.edits hedit) (hkey.trans hlive.2.1) (Or.inl hid)
      ⟨?_, Or.inl ⟨rfl, hid, hstate, hr.trans hresolved⟩⟩
    exact iff_of_true (h.isOpen.mpr (Or.inl hs)) (Or.inr rfl)
  | resolved hopen =>
    have hactive : s.active = true := by rcases hopen with rfl | rfl <;> rfl
    obtain ⟨id, row, hid, hlive, _, hresolved⟩ := h.tracked (hs ▸ hactive)
    have hrow := (hkeeps.rows id).trans hlive.1
    have htracked : activeAnomaly { counted j (detectorState w key) with state := .resolved } w₁ = some (id, row) :=
      activeAnomaly_eq_some.mpr ⟨hid, hrow⟩
    have hok' := hsettle (by decide) (by decide)
    simp only [settle, htracked] at hok'
    obtain ⟨rfl, row', hedit, hkey, hstate⟩ := resolveIncident_spec hrow hresolved hok'
    exact h.edits hinj (hkeeps.edits hedit) (hkey.trans hlive.2.1) (Or.inl hid)
      ⟨by simp, Or.inr ⟨rfl, rfl, by rw [hstate]; rfl⟩⟩
  | dropped =>
    obtain ⟨id, row, hid, hlive, _⟩ := h.tracked (by rw [hs]; rfl)
    obtain ⟨w₂, row', hok', hedit, hkey, hstate⟩ := settle_dropped engine j.source j.metric j.evidence
      (d := { counted j (detectorState w key) with state := .normal }) hid ((hkeeps.rows id).trans hlive.1)
    cases (hsettle (by decide) (by decide)).symm.trans hok'
    exact h.edits hinj (hkeeps.edits hedit) (hkey.trans hlive.2.1) (Or.inl hid)
      ⟨by simp, Or.inr ⟨rfl, rfl, by rw [hstate]; rfl⟩⟩
  | idle hidle htarget =>
    have hnone : (detectorState w key).activeAnomalyId = none := h.idle (hs ▸ hidle)
    have hclosing : target ≠ .candidate ∧ target ≠ .opened ∧ target.active = false := by
      rcases htarget with rfl | rfl | rfl <;> simp [AnomalyState.active]
    have hok' := settle_none engine j.source j.metric j.evidence s w₁
      (d := { counted j (detectorState w key) with state := target }) hnone htarget
    cases (hsettle hclosing.1 hclosing.2.1).symm.trans hok'
    exact h.keepsRows (hs ▸ hidle) hkeeps ⟨hclosing.2.2, rfl, rfl⟩

theorem applyHysteresis_coupled (hinj : Function.Injective engine.svc.uuid4) (h : Coupled engine.svc key w)
    (hj : j.key = key) (hok : applyHysteresis engine w j = .ok w') : Coupled engine.svc key w' ∧ Frozen key w w' := by
  by_cases hp : processed (detectorState w j.key) j.metric = true
  · rw [applyHysteresis_processed hp] at hok
    cases hok
    exact ⟨h, fun _ _ hrow _ _ => hrow⟩
  · simp only [applyHysteresis, hp] at hok
    obtain ⟨⟨d', w₁⟩, hmoved, hok⟩ := bind_ok hok
    cases hok
    rw [hj] at hmoved ⊢
    by_cases hne : (decision j (counted j (detectorState w key))).state = (counted j (detectorState w key)).state
    · exact h.hold hinj hne hmoved
    · exact h.move hinj hj hne (decision_move hne) hmoved

end Step

end QRadarDashboard.Anomaly
