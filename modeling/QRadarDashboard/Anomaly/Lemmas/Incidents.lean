import QRadarDashboard.Alerts.Lemmas.Active
import QRadarDashboard.Anomaly.Engine

/-!
# What hysteresis writes to the incidents
-/

namespace QRadarDashboard.Anomaly
open Lib Alerts

variable {φ : Type} {w w₁ w₂ : World φ} {engine : AnomalyEngine} {id : String}

/-! ## Frames -/

structure KeepsRows (w w' : World φ) : Prop where
  detectors : w'.detectors = w.detectors
  rows : ∀ id, w'.anomalies.get? id = w.anomalies.get? id
  issued : w.alerts.issued ≤ w'.alerts.issued

structure Edits (id : String) (w w' : World φ) (row : LogSourceAnomaly φ) : Prop where
  detectors : w'.detectors = w.detectors
  others : ∀ id', id' ≠ id → w'.anomalies.get? id' = w.anomalies.get? id'
  row : w'.anomalies.get? id = some row
  issued : w.alerts.issued ≤ w'.alerts.issued

theorem KeepsRows.refl (w : World φ) : KeepsRows w w := ⟨rfl, fun _ => rfl, Nat.le_refl _⟩

theorem KeepsRows.trans (h₁ : KeepsRows w w₁) (h₂ : KeepsRows w₁ w₂) : KeepsRows w w₂ :=
  ⟨h₂.detectors.trans h₁.detectors, fun id => (h₂.rows id).trans (h₁.rows id), h₁.issued.trans h₂.issued⟩

theorem KeepsRows.edits {row} (h₁ : KeepsRows w w₁) (h₂ : Edits id w₁ w₂ row) : Edits id w w₂ row :=
  ⟨h₂.detectors.trans h₁.detectors, fun id' hid => (h₂.others id' hid).trans (h₁.rows id'), h₂.row,
    h₁.issued.trans h₂.issued⟩

theorem Edits.keeps {row} (h₁ : Edits id w w₁ row) (h₂ : KeepsRows w₁ w₂) : Edits id w w₂ row :=
  ⟨h₂.detectors.trans h₁.detectors, fun id' hid => (h₂.rows id').trans (h₁.others id' hid),
    (h₂.rows id).trans h₁.row, h₁.issued.trans h₂.issued⟩

theorem Edits.trans {row row'} (h₁ : Edits id w w₁ row) (h₂ : Edits id w₁ w₂ row') : Edits id w w₂ row' :=
  ⟨h₂.detectors.trans h₁.detectors, fun id' hid => (h₂.others id' hid).trans (h₁.others id' hid), h₂.row,
    h₁.issued.trans h₂.issued⟩

theorem edits_modify {row} (hrow : w.anomalies.get? id = some row)
    (f : LogSourceAnomaly φ → LogSourceAnomaly φ) : Edits id w (w.modify id f) (f row) := by
  unfold World.modify
  rw [hrow]
  refine ⟨rfl, fun id' hid => ?_, ?_, Nat.le_refl _⟩
  · rw [Dict.get?_set, if_neg hid]
  · rw [Dict.get?_set, if_pos rfl]

@[simp] theorem modify_alerts (id : String) (f : LogSourceAnomaly φ → LogSourceAnomaly φ) :
    (w.modify id f).alerts = w.alerts := by
  unfold World.modify
  split <;> rfl

/-! ## The engine's helpers -/

theorem issued_openOrUpdate (svc : Service) (s : Session φ) (data : AlertInput φ) :
    s.issued ≤ (openOrUpdate svc s data).2.issued := by
  cases hfind : s.findActive data.fingerprint with
  | none =>
    simp only [openOrUpdate, findActive_tick, hfind]
    exact Nat.le_succ _
  | some a =>
    simp only [openOrUpdate, findActive_tick, hfind]
    exact Nat.le_refl _

theorem keepsRows_reportState (evidence : AnomalyEvidence φ) (target : AnomalyState) :
    KeepsRows w (reportState evidence target w) :=
  ⟨rfl, fun _ => rfl, Nat.le_refl _⟩

theorem keepsRows_recordTransition (id : String) (fromState toState : AnomalyState) (metric : Metric) (reason : String)
    (evidence : AnomalyEvidence φ) :
    KeepsRows w (recordTransition engine id fromState toState metric reason evidence w) :=
  ⟨rfl, fun _ => rfl, Nat.le_refl _⟩

theorem keepsRows_recordActive {metric evidence previous dec d} :
    KeepsRows w (recordActive engine metric evidence previous dec d w) ∧
      (recordActive engine metric evidence previous dec d w).alerts.alerts = w.alerts.alerts := by
  unfold recordActive
  split
  · exact ⟨KeepsRows.refl w, rfl⟩
  · exact ⟨keepsRows_recordTransition _ _ _ _ _ _, rfl⟩

theorem keepsRows_refresh (engine : AnomalyEngine) (source : LogSource) (evidence : AnomalyEvidence φ)
    (d : DetectorState) (m : Bool) (w : World φ) : KeepsRows w (refresh engine source evidence d m w) := by
  unfold refresh
  split_ifs
  · exact KeepsRows.refl w
  · exact KeepsRows.refl w
  · exact ⟨rfl, fun _ => rfl, issued_openOrUpdate _ _ _⟩

theorem activeAnomaly_eq_some {d item} :
    activeAnomaly d w = some item ↔ d.activeAnomalyId = some item.1 ∧ w.anomalies.get? item.1 = some item.2 := by
  obtain ⟨id, row⟩ := item
  cases hid : d.activeAnomalyId with
  | none => simp [activeAnomaly, hid]
  | some id' =>
    simp only [activeAnomaly, hid, Option.bind_some, Option.map_eq_some_iff, Prod.mk.injEq, Option.some.injEq]
    constructor
    · rintro ⟨_, hget, rfl, rfl⟩
      exact ⟨rfl, hget⟩
    · rintro ⟨rfl, hget⟩
      exact ⟨row, hget, rfl, rfl⟩

section Touch

variable [PyFloat φ] {d : DetectorState} {metric : Metric} {evidence : AnomalyEvidence φ}

theorem touched_spec (d : DetectorState) (metric : Metric) (evidence : AnomalyEvidence φ) (row : LogSourceAnomaly φ) :
    (touched d metric evidence row).key = row.key ∧ (touched d metric evidence row).state = row.state ∧
      (touched d metric evidence row).resolvedAt = row.resolvedAt := by
  unfold touched
  split_ifs
  · cases evidence.observedValue with
    | none => exact ⟨rfl, rfl, rfl⟩
    | some observed =>
      dsimp only
      split_ifs
      · exact ⟨rfl, rfl, rfl⟩
      · exact ⟨rfl, rfl, rfl⟩
  · exact ⟨rfl, rfl, rfl⟩

theorem edits_touchAnomaly (metric : Metric) (evidence : AnomalyEvidence φ) {row} (hid : d.activeAnomalyId = some id)
    (hrow : w.anomalies.get? id = some row) :
    Edits id w (touchAnomaly d metric evidence w) (touched d metric evidence row) := by
  have hactive : activeAnomaly d w = some (id, row) := activeAnomaly_eq_some.mpr ⟨hid, hrow⟩
  simp only [touchAnomaly, hactive]
  exact edits_modify hrow _

theorem touchAnomaly_none (h : activeAnomaly d w = none) : touchAnomaly d metric evidence w = w := by
  simp only [touchAnomaly, h]

@[simp] theorem touchAnomaly_alerts : (touchAnomaly d metric evidence w).alerts = w.alerts := by
  unfold touchAnomaly
  split
  · rfl
  · exact modify_alerts _ _

theorem applyTransition_hold (engine : AnomalyEngine) (source : LogSource) (metric : Metric)
    (evidence : AnomalyEvidence φ) (m : Bool) (w : World φ) {dec} (h : dec.state = d.state) :
    applyTransition engine source metric evidence d dec m w =
      .ok (d, if d.state = .opened then
        touchAnomaly d metric evidence (refresh engine source evidence d m (reportState evidence dec.state w))
      else reportState evidence dec.state w) := by
  simp only [applyTransition, h, if_true]
  split_ifs <;> rfl

end Touch

/-! ## Opening and closing incidents -/

section Moves

variable [PyFloat φ] {source : LogSource} {metric : Metric} {evidence : AnomalyEvidence φ} {m : Bool}

theorem createIncident_spec {w'} (h : createIncident engine source metric evidence m w = .ok (id, w')) :
    id = engine.svc.uuid4 w.alerts.issued ∧ w.alerts.issued < w'.alerts.issued ∧
      ∃ row, Edits id w w' row ∧ row.key = (source.id, evidence.anomalyType) ∧ row.state = .candidate ∧
        row.resolvedAt = none := by
  obtain ⟨version, _, h⟩ := bind_ok h
  cases h
  refine ⟨rfl, Nat.lt_succ_self _, newIncident engine source metric evidence m version,
    ⟨rfl, fun id' hid => ?_, ?_, Nat.le_succ _⟩, rfl, rfl, rfl⟩
  · rw [Dict.get?_set, if_neg hid]
  · rw [Dict.get?_set, if_pos rfl]

theorem openIncident_spec (engine : AnomalyEngine) (metric : Metric) (evidence : AnomalyEvidence φ) (m : Bool) {d row}
    (hid : d.activeAnomalyId = some id) (hrow : w.anomalies.get? id = some row) :
    ∃ row', Edits id w (openIncident engine metric evidence d id m w) row' ∧ row'.key = row.key ∧
      row'.state = .opened ∧ row'.resolvedAt = row.resolvedAt := by
  have hnow : KeepsRows w (w.now engine).2 := ⟨rfl, fun _ => rfl, Nat.le_refl _⟩
  have hrow' : (w.now engine).2.anomalies.get? id = some row := hrow
  have hopen := hnow.edits (edits_modify hrow' (fun anomaly =>
    { anomaly with
      state := .opened
      openedAt := some (w.now engine).1
      anomalyEnd := none
      severity := evidence.severity }))
  have htouch := hopen.trans (edits_touchAnomaly metric evidence hid hopen.row)
  obtain ⟨hkey, hstate, hresolved⟩ := touched_spec d metric evidence _
  unfold openIncident
  dsimp only
  split_ifs
  · exact ⟨_, htouch.trans (edits_modify htouch.row _), hkey, hstate, hresolved⟩
  · exact ⟨_, htouch, hkey, hstate, hresolved⟩

theorem promoteToOpen_spec (engine : AnomalyEngine) (source : LogSource) (metric : Metric)
    (evidence : AnomalyEvidence φ) (m : Bool) {d row}
    (hid : d.activeAnomalyId = some id) (hrow : w.anomalies.get? id = some row) :
    ∃ w', promoteToOpen engine source metric evidence d id m w =
        ({ d with isOpen := true, openAnomalyId := some id, activeAnomalyId := some id }, w') ∧
      ∃ row', Edits id w w' row' ∧ row'.key = row.key ∧ row'.state = .opened ∧
        row'.resolvedAt = row.resolvedAt := by
  obtain ⟨row', hedit, hspec⟩ := openIncident_spec engine metric evidence m hid hrow
  unfold promoteToOpen
  dsimp only
  split_ifs
  · exact ⟨_, rfl, row', hedit.keeps ⟨rfl, fun _ => rfl, Nat.le_refl _⟩, hspec⟩
  · exact ⟨_, rfl, row', hedit.keeps ⟨rfl, fun _ => rfl, Nat.le_refl _⟩, hspec⟩
  · exact ⟨_, rfl, row', hedit.keeps ⟨rfl, fun _ => rfl, issued_openOrUpdate _ _ _⟩, hspec⟩

end Moves

theorem issued_resolveByFingerprint {svc} {s : Session φ} {item r} (h : resolveByFingerprint svc s item = .ok r) :
    r.2.issued = s.issued := by
  unfold resolveByFingerprint at h
  split at h
  · cases h
    rfl
  · obtain ⟨result, hresult, h⟩ := bind_ok h
    cases h
    unfold Alerts.resolve at hresult
    split at hresult
    · cases hresult
    · split_ifs at hresult <;> cases hresult <;> rfl

theorem resolveIncident_spec {source evidence d d'}
    {row : LogSourceAnomaly φ} {w'} (hrow : w.anomalies.get? id = some row) (hlive : row.resolvedAt = none)
    (h : resolveIncident engine source evidence d (some (id, row)) w = .ok (d', w')) :
    d' = { d with isOpen := false, openAnomalyId := none, activeAnomalyId := none } ∧
      ∃ row', Edits id w w' row' ∧ row'.key = row.key ∧ row'.state = .resolved := by
  unfold resolveIncident at h
  simp only [hlive, if_true] at h
  obtain ⟨resolved, hresolved, h⟩ := bind_ok h
  cases h
  have hrow' : (w.now engine).2.anomalies.get? id = some row := hrow
  have hedit := edits_modify hrow' (fun anomaly =>
    { anomaly with state := .resolved, resolvedAt := some (w.now engine).1 })
  have hissued := issued_resolveByFingerprint hresolved
  refine ⟨rfl, _, ⟨hedit.detectors, hedit.others, hedit.row, ?_⟩, rfl, rfl⟩
  exact (le_of_eq (by simp [World.now, Session.tick])).trans (le_of_eq hissued.symm)

theorem settle_none (engine : AnomalyEngine) (source : LogSource) (metric : Metric) (evidence : AnomalyEvidence φ)
    (previous : AnomalyState) (w : World φ) {target d} (hid : d.activeAnomalyId = none)
    (htarget : target = .suppressed ∨ target = .normal ∨ target = .insufficientData) :
    settle engine source metric evidence previous target d w =
      .ok ({ d with activeAnomalyId := none, isOpen := false }, w) := by
  have hactive : activeAnomaly d w = none := by simp [activeAnomaly, hid]
  obtain ⟨_, _, _, _, _, _, active⟩ := d
  cases hid
  rcases htarget with rfl | rfl | rfl <;> simp only [settle, hactive]

theorem settle_recovering (engine : AnomalyEngine) (source : LogSource) (metric : Metric) (evidence : AnomalyEvidence φ)
    (previous : AnomalyState) {d row} (hid : d.activeAnomalyId = some id) (hrow : w.anomalies.get? id = some row) :
    ∃ w' row', settle engine source metric evidence previous .recovering d w = .ok (d, w') ∧ Edits id w w' row' ∧
      row'.key = row.key ∧ row'.state = .recovering ∧ row'.resolvedAt = row.resolvedAt := by
  have hactive : activeAnomaly d w = some (id, row) := activeAnomaly_eq_some.mpr ⟨hid, hrow⟩
  have hedit := edits_modify hrow (fun anomaly =>
    { anomaly with state := .recovering, anomalyEnd := some metric.bucketStart })
  simp only [settle, hactive]
  exact ⟨_, _, rfl, ⟨hedit.detectors, hedit.others, hedit.row, hedit.issued⟩, rfl, rfl, rfl⟩

theorem settle_dropped (engine : AnomalyEngine) (source : LogSource) (metric : Metric) (evidence : AnomalyEvidence φ)
    {d row} (hid : d.activeAnomalyId = some id) (hrow : w.anomalies.get? id = some row) :
    ∃ w' row', settle engine source metric evidence .candidate .normal d w =
        .ok ({ d with activeAnomalyId := none, isOpen := false }, w') ∧ Edits id w w' row' ∧
      row'.key = row.key ∧ row'.state = .normal := by
  have hactive : activeAnomaly d w = some (id, row) := activeAnomaly_eq_some.mpr ⟨hid, hrow⟩
  simp only [settle, hactive, if_true]
  exact ⟨_, _, rfl, edits_modify hrow _, rfl, rfl⟩

theorem applyTransition_settle [PyFloat φ] (engine : AnomalyEngine) (source : LogSource) (metric : Metric)
    (evidence : AnomalyEvidence φ) (m : Bool) (w : World φ) {d dec}
    (hne : dec.state ≠ d.state) (hc : dec.state ≠ .candidate) (ho : dec.state ≠ .opened) :
    applyTransition engine source metric evidence d dec m w =
      settle engine source metric evidence d.state dec.state { d with state := dec.state }
        (recordActive engine metric evidence d.state dec { d with state := dec.state }
          (reportState evidence dec.state w)) := by
  simp only [applyTransition, if_neg hne]

/-! ## One bucket -/

section Bucket

variable {j : Judgement φ}

theorem detectorState_moved {w : World φ} {key d} :
    detectorState { w with detectors := w.detectors.set key d } key = d := by
  simp [detectorState, Dict.get?_set]

variable [PyFloat φ]

theorem applyHysteresis_processed (h : processed (detectorState w j.key) j.metric = true) :
    applyHysteresis engine w j = .ok w := by
  simp only [applyHysteresis, h, if_true]

theorem applyHysteresis_moved {w' d'} (hp : ¬ processed (detectorState w j.key) j.metric = true)
    (h : applyTransition engine j.source j.metric j.evidence (counted j (detectorState w j.key))
      (decision j (counted j (detectorState w j.key))) j.inMaintenance w = .ok (d', w')) :
    applyHysteresis engine w j = .ok { w' with detectors := w'.detectors.set j.key d' } := by
  simp only [applyHysteresis, hp, h]
  rfl

end Bucket

end QRadarDashboard.Anomaly
