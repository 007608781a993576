import QRadarDashboard.Alerts.Lemmas.Active
import QRadarDashboard.Services.SearchAlerts

/-!
# What a cut count proves
-/

namespace QRadarDashboard.Services
open Lib Alerts

variable {search : ScheduledSearch} {N m : ℕ} {t : ℚ}

/-! ## The threshold -/

theorem holds_of_applyThreshold (ht : search.thresholdValue = some t)
    (h : applyThreshold search (min N m : ℕ) (decide (m < N)) = true) : search.thresholdOperator.holds N t = true := by
  by_cases hcut : m < N
  · have hbound : ((min N m : ℕ) : ℚ) + 1 ≤ N := by
      rw [min_eq_right hcut.le]
      exact_mod_cast hcut
    simp only [applyThreshold, ht, hcut, decide_true, if_true] at h
    cases hop : search.thresholdOperator with
    | GT =>
      rw [hop] at h
      have hlt : t < ((min N m : ℕ) : ℚ) + 1 := by exact_mod_cast of_decide_eq_true h
      exact decide_eq_true (hlt.trans_le (by exact_mod_cast hbound))
    | GE =>
      rw [hop] at h
      have hle : t ≤ ((min N m : ℕ) : ℚ) + 1 := by exact_mod_cast of_decide_eq_true h
      exact decide_eq_true (hle.trans (by exact_mod_cast hbound))
    | LT | LE | EQ =>
      rw [hop] at h
      exact absurd h Bool.false_ne_true
  · rw [min_eq_left (not_lt.mp hcut)] at h
    simpa [applyThreshold, ht, hcut] using h

theorem applyThreshold_whole (ht : search.thresholdValue = some t) (hwhole : N ≤ m) :
    applyThreshold search (min N m : ℕ) (decide (m < N)) = search.thresholdOperator.holds N t := by
  rw [min_eq_left hwhole]
  simp [applyThreshold, ht, not_lt.mpr hwhole]

theorem applyThreshold_eq_holds (ht : search.thresholdValue = some t)
    (hop : search.thresholdOperator = .GT ∨ search.thresholdOperator = .GE)
    (hreach : unreachableThresholdReason (some search.thresholdOperator) (some t) (some m) = none) :
    applyThreshold search (min N m : ℕ) (decide (m < N)) = search.thresholdOperator.holds N t := by
  by_cases hcut : m < N
  · have hbound : ((m : ℕ) : ℚ) + 1 ≤ N := by exact_mod_cast hcut
    rw [min_eq_right hcut.le]
    rcases hop with hop | hop
    · rw [hop] at hreach ⊢
      have hlt : t < (m : ℚ) + 1 := by simpa [unreachableThresholdReason] using hreach
      have hholds : t < (N : ℚ) := hlt.trans_le hbound
      simp [applyThreshold, ht, hcut, hop, ThresholdOperator.holds, hlt, hholds]
    · rw [hop] at hreach ⊢
      have hle : t ≤ (m : ℚ) + 1 := by simpa [unreachableThresholdReason] using hreach
      have hholds : t ≤ (N : ℚ) := hle.trans hbound
      simp [applyThreshold, ht, hcut, hop, ThresholdOperator.holds, hle, hholds]
  · exact applyThreshold_whole ht (not_lt.mp hcut)

theorem applyThreshold_unreachable (ht : search.thresholdValue = some t) {reason}
    (hreason : unreachableThresholdReason (some search.thresholdOperator) (some t) (some m) = some reason) :
    applyThreshold search (min N m : ℕ) (decide (m < N)) = false := by
  have hcount : ((min N m : ℕ) : ℚ) ≤ m := by exact_mod_cast min_le_right N m
  cases hop : search.thresholdOperator with
  | GT =>
    rw [hop] at hreason
    have hle : (m : ℚ) + 1 ≤ t := by
      by_contra hlt
      simp [unreachableThresholdReason, hlt] at hreason
    have hwhole : ¬ t < ((min N m : ℕ) : ℚ) := by linarith
    have hbound : ¬ t < ((min N m : ℕ) : ℚ) + 1 := by linarith
    by_cases hcut : m < N
    · simpa [applyThreshold, ht, hcut, hop] using hbound
    · simpa [applyThreshold, ht, hcut, hop, ThresholdOperator.holds] using hwhole
  | GE =>
    rw [hop] at hreason
    have hlt : (m : ℚ) + 1 < t := by
      by_contra hle
      simp [unreachableThresholdReason, hle] at hreason
    have hwhole : ¬ t ≤ ((min N m : ℕ) : ℚ) := by linarith
    have hbound : ¬ t ≤ ((min N m : ℕ) : ℚ) + 1 := by linarith
    by_cases hcut : m < N
    · simpa [applyThreshold, ht, hcut, hop] using hbound
    · simpa [applyThreshold, ht, hcut, hop, ThresholdOperator.holds] using hwhole
  | LT | LE | EQ => simp [unreachableThresholdReason, hop] at hreason

/-! ## The evaluator -/

theorem threshold_fingerprint_ne_failure (digest : Digest) (id : String) :
    searchThresholdFingerprint digest id ≠ searchFailureFingerprint digest id := by
  intro h
  have hhead := congrArg (fun s : String => s.toList[7]?) h
  simp [searchThresholdFingerprint, searchFailureFingerprint, computeFingerprint] at hhead

variable {φ : Type} [PyFloat φ] {svc : Service} {s s' : Session φ} {alerted : AlertedSearch}
  {execution : FinishedExecution} {digest : Digest}

theorem evaluateThreshold_rows (digest : Digest) (alerted : AlertedSearch) (execution : FinishedExecution)
    (hinj : Function.Injective svc.uuid4) (h : WellFormed svc s) :
    ∃ r s', evaluateThreshold svc digest s alerted execution = .ok (r, s') ∧ WellFormed svc s' ∧
      (execution.thresholdBreached = false → ∀ b ∈ s'.alerts, b.active → b ∈ s.alerts) ∧
      (execution.thresholdBreached = true ∨ execution.truncated = true → ∀ a ∈ s.alerts, a.active →
        ∃ b ∈ s'.alerts, b.id = a.id ∧ b.dedupKey = a.dedupKey ∧ b.active) := by
  have hsame : ∀ a ∈ s.alerts, a.active → ∃ b ∈ s.alerts, b.id = a.id ∧ b.dedupKey = a.dedupKey ∧ b.active :=
    fun a ha hact => ⟨a, ha, rfl, rfl, hact⟩
  unfold evaluateThreshold
  split
  · exact ⟨none, s, rfl, h, fun _ b hb _ => hb, fun _ => hsame⟩
  · split
    · exact ⟨none, s, rfl, h, fun _ b hb _ => hb, fun _ => hsame⟩
    · cases hbreached : execution.thresholdBreached with
      | true =>
        refine ⟨_, _, rfl, openOrUpdate_wellFormed hinj h _, fun hfalse => (by cases hfalse), fun _ a ha hact => ?_⟩
        obtain ⟨b, hb, hid, hkey, hactive⟩ := @openOrUpdate_kept φ svc s _ a ha
        exact ⟨b, hb, hid, hkey, hactive.trans hact⟩
      | false =>
        cases htruncated : execution.truncated with
        | true => exact ⟨none, s, rfl, h, fun _ b hb _ => hb, fun _ => hsame⟩
        | false =>
          obtain ⟨r, s', hok, hwf, -⟩ := resolveByFingerprint_ok h
            { fingerprint := searchThresholdFingerprint digest alerted.id
              actor := "search-scheduler"
              reason := some "result back within threshold" }
          refine ⟨r, s', hok, hwf, fun _ b hb hact => ?_, fun hor => (by simp at hor)⟩
          rcases (resolveByFingerprint_rows h hok).1 b hb with hold | ⟨-, hresolved⟩
          · exact hold
          · exact absurd hact (by rw [hresolved]; exact Bool.false_ne_true)

theorem evaluateFailure_rows (digest : Digest) (alerted : AlertedSearch) (h : WellFormed svc s)
    (searchFailureAlertAfter : ℕ) (hcompleted : execution.status = .COMPLETED) :
    ∃ r s', evaluateFailure svc digest searchFailureAlertAfter s alerted execution = .ok (r, s') ∧
      (∀ b ∈ s'.alerts, b.dedupKey = searchThresholdFingerprint digest alerted.id → b ∈ s.alerts) ∧
      ∀ a ∈ s.alerts, a.dedupKey = searchThresholdFingerprint digest alerted.id → a ∈ s'.alerts := by
  obtain ⟨r, s', hok, -⟩ := resolveByFingerprint_ok h
    { fingerprint := searchFailureFingerprint digest alerted.id
      actor := "search-scheduler"
      reason := some "search executed successfully" }
  have hne := threshold_fingerprint_ne_failure digest alerted.id
  obtain ⟨hnew, hold⟩ := resolveByFingerprint_rows h hok
  refine ⟨r, s', (if_pos hcompleted).trans hok, fun b hb hkey => ?_, fun a ha hkey => ?_⟩
  · exact (hnew b hb).resolve_right (fun hb => hne (hkey.symm.trans hb.1))
  · exact (hold a ha).resolve_right (fun ha => hne (hkey.symm.trans ha))

end QRadarDashboard.Services
