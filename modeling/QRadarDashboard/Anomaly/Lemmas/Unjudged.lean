import QRadarDashboard.Anomaly.Lemmas.Incidents

/-!
# Buckets without a verdict
-/

namespace QRadarDashboard.Anomaly
open Lib Alerts

variable {φ : Type} {w : World φ} {engine : AnomalyEngine}

/-! ## Unjudged buckets -/

structure Unjudged (j : Judgement φ) : Prop where
  signal : j.evidence.signal = .unknown
  maintenance : j.inMaintenance = false

variable {j : Judgement φ}

theorem Unjudged.counted (h : Unjudged j) (d : DetectorState) :
    counted j d = { d with lastIntervalStart := some j.metric.bucketStart } := by
  simp [Anomaly.counted, effectiveSignal, h.signal, advanceCounters]

def unjudgedMove (insufficientData : Bool) : AnomalyState → AnomalyState
  | .suppressed => .normal
  | .normal => if insufficientData then .insufficientData else .normal
  | state => state

theorem Unjudged.decision (h : Unjudged j) (d : DetectorState) :
    (decision j d).state = unjudgedMove j.evidence.insufficientData d.state := by
  have hsignal : effectiveSignal j = .unknown := by simp [effectiveSignal, h.signal]
  cases hs : d.state <;> cases hi : j.evidence.insufficientData <;>
    simp [Anomaly.decision, nextState, unjudgedMove, hsignal, h.maintenance, hs, hi]

def unjudgedState (j : Judgement φ) (d : DetectorState) : DetectorState :=
  if processed d j.metric then d
  else
    let d := { d with lastIntervalStart := some j.metric.bucketStart }
    if unjudgedMove j.evidence.insufficientData d.state = d.state then d
    else { d with
      state := unjudgedMove j.evidence.insufficientData d.state
      activeAnomalyId := none
      isOpen := false }

/-- The bucket had no effect beyond that: no incident and no alert changed. -/
structure NoEffect (j : Judgement φ) (w w' : World φ) : Prop where
  detector : detectorState w' j.key = unjudgedState j (detectorState w j.key)
  incidents : ∀ id, w'.anomalies.get? id = w.anomalies.get? id
  alerts : w'.alerts.alerts = w.alerts.alerts

/-- The interval is not new, or the detector is not open, or it records silence without alerts and its incident counts
as many. -/
def Harmless (engine : AnomalyEngine) (j : Judgement φ) (w : World φ) : Prop :=
  processed (detectorState w j.key) j.metric = true ∨ (detectorState w j.key).state ≠ .opened ∨
    (recordOnly engine j.source j.evidence = true ∧
      ∀ id anomaly, (detectorState w j.key).activeAnomalyId = some id → w.anomalies.get? id = some anomaly →
        (detectorState w j.key).consecutiveAnomalous ≤ anomaly.consecutiveBuckets)

theorem settle_unjudged {source metric evidence previous target d} (hprevious : previous ≠ .candidate)
    (htarget : target = .normal ∨ target = .insufficientData) :
    settle engine source metric evidence previous target d w =
      .ok ({ d with activeAnomalyId := none, isOpen := false }, w) := by
  rcases htarget with rfl | rfl
  · simp only [settle, hprevious, if_false]
    split <;> rfl
  · simp only [settle, hprevious, if_false]
    split <;> rfl

variable [PyFloat φ]

theorem applyTransition_unjudged (engine : AnomalyEngine) (w : World φ) (j : Judgement φ) {d dec insufficientData}
    (hdec : dec.state = unjudgedMove insufficientData d.state) (hopen : d.state ≠ .opened) :
    ∃ w', applyTransition engine j.source j.metric j.evidence d dec j.inMaintenance w =
        .ok (if dec.state = d.state then d
          else { d with state := dec.state, activeAnomalyId := none, isOpen := false }, w') ∧
      KeepsRows w w' ∧ w'.alerts.alerts = w.alerts.alerts := by
  by_cases hmove : dec.state = d.state
  · rw [applyTransition_hold engine _ _ _ _ _ hmove, if_neg hopen, if_pos hmove]
    exact ⟨_, rfl, keepsRows_reportState _ _, rfl⟩
  · have htarget : dec.state = .normal ∨ dec.state = .insufficientData := by
      rw [hdec] at hmove ⊢
      revert hmove
      cases d.state <;> cases insufficientData <;> simp [unjudgedMove]
    have hcandidate : d.state ≠ .candidate := by
      intro hc
      rw [hdec, hc] at hmove
      exact hmove rfl
    have hclosing : dec.state ≠ .candidate ∧ dec.state ≠ .opened := by
      rcases htarget with ht | ht <;> simp [ht]
    rw [applyTransition_settle engine _ _ _ _ _ hmove hclosing.1 hclosing.2, settle_unjudged hcandidate htarget,
      if_neg hmove]
    exact ⟨_, rfl, (keepsRows_reportState _ _).trans keepsRows_recordActive.1, keepsRows_recordActive.2⟩

theorem noEffect_of_processed (h : processed (detectorState w j.key) j.metric = true) :
    applyHysteresis engine w j = .ok w ∧ NoEffect j w w :=
  ⟨applyHysteresis_processed h, by simp [unjudgedState, h], fun _ => rfl, rfl⟩

theorem noEffect_of_closed (h : Unjudged j) (hopen : (detectorState w j.key).state ≠ .opened)
    (hp : ¬ processed (detectorState w j.key) j.metric = true) :
    ∃ w', applyHysteresis engine w j = .ok w' ∧ NoEffect j w w' := by
  have hdec := h.decision (counted j (detectorState w j.key))
  have hstate : (counted j (detectorState w j.key)).state = (detectorState w j.key).state := rfl
  obtain ⟨w', hmoved, hkeeps, halerts⟩ := applyTransition_unjudged engine w j hdec hopen
  refine ⟨_, applyHysteresis_moved hp hmoved, ?_, hkeeps.rows, halerts⟩
  rw [detectorState_moved, hdec, hstate, h.counted, unjudgedState, if_neg hp]

theorem Unjudged.touched (h : Unjudged j) (d : DetectorState) (row : LogSourceAnomaly φ) :
    touched d j.metric j.evidence row =
      { row with consecutiveBuckets := max row.consecutiveBuckets d.consecutiveAnomalous } := by
  simp [Anomaly.touched, AnomalyEvidence.isAnomalous, h.signal]

theorem applyHysteresis_opened (h : Unjudged j) (hopen : (detectorState w j.key).state = .opened)
    (hp : ¬ processed (detectorState w j.key) j.metric = true) :
    ∃ w₁ w', applyHysteresis engine w j = .ok w' ∧ KeepsRows w w₁ ∧
      w₁.alerts = (refresh engine j.source j.evidence (counted j (detectorState w j.key)) false w).alerts ∧
      w'.anomalies = (touchAnomaly (counted j (detectorState w j.key)) j.metric j.evidence w₁).anomalies ∧
      w'.alerts = w₁.alerts ∧ detectorState w' j.key = unjudgedState j (detectorState w j.key) := by
  have hstate : (counted j (detectorState w j.key)).state = .opened := hopen
  have hdec : (decision j (counted j (detectorState w j.key))).state =
      (counted j (detectorState w j.key)).state := by
    rw [h.decision, hstate]
    rfl
  have hmoved := applyTransition_hold engine j.source j.metric j.evidence j.inMaintenance w hdec
  rw [if_pos hstate] at hmoved
  refine ⟨_, _, applyHysteresis_moved hp hmoved,
    (keepsRows_reportState _ _).trans (keepsRows_refresh _ _ _ _ _ _), ?_, rfl, touchAnomaly_alerts, ?_⟩
  · rw [h.maintenance]
    simp only [refresh, reportState]
    split_ifs <;> rfl
  · rw [detectorState_moved, h.counted, unjudgedState, if_neg hp]
    simp [hopen, unjudgedMove]

omit [PyFloat φ] in
theorem refresh_alerts_eq_iff {source evidence d} :
    (refresh engine source evidence d false w).alerts.alerts = w.alerts.alerts ↔
      recordOnly engine source evidence = true := by
  unfold refresh
  rw [if_neg (by decide)]
  split_ifs with hrecord
  · simp [hrecord]
  · exact iff_of_false (openOrUpdate_alerts_ne _ _ _) hrecord

theorem touchAnomaly_rows_eq_iff (h : Unjudged j) {d} :
    (∀ id, (touchAnomaly d j.metric j.evidence w).anomalies.get? id = w.anomalies.get? id) ↔
      ∀ id row, d.activeAnomalyId = some id → w.anomalies.get? id = some row →
        d.consecutiveAnomalous ≤ row.consecutiveBuckets := by
  constructor
  · intro hsame id row hid hrow
    have hedit := edits_touchAnomaly j.metric j.evidence hid hrow
    have hsame := (hsame id).symm.trans hedit.row
    rw [hrow, h.touched] at hsame
    have hcount := congrArg LogSourceAnomaly.consecutiveBuckets (Option.some.inj hsame)
    dsimp only at hcount
    omega
  · intro hcount id
    cases hactive : activeAnomaly d w with
    | none => rw [touchAnomaly_none hactive]
    | some item =>
      obtain ⟨hid, hrow⟩ := activeAnomaly_eq_some.mp hactive
      have hedit := edits_touchAnomaly j.metric j.evidence hid hrow
      by_cases hne : id = item.1
      · rw [hne, hedit.row, hrow, h.touched, Nat.max_eq_left (hcount _ _ hid hrow)]
      · exact hedit.others id hne

end QRadarDashboard.Anomaly
