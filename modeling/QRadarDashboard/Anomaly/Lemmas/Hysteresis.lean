import QRadarDashboard.Anomaly.Lifecycle
import QRadarDashboard.Lib.Streak

/-!
# The language of the hysteresis
-/

namespace QRadarDashboard.Anomaly
open Lib

variable {openAfter resolveAfter : Nat} {h : Hysteresis} {J : List Bool}

/-! ## What one bucket decides -/

theorem onAnomalous_state {inp} (h : inp.state ≠ .suppressed) :
    (onAnomalous inp).state =
      if inp.state = .opened ∨ inp.state = .recovering ∨ inp.openAfter ≤ inp.consecutiveAnomalous then .opened
      else .candidate := by
  unfold onAnomalous
  cases hs : inp.state with
  | suppressed => exact absurd hs h
  | opened | recovering => simp
  | normal | insufficientData | resolved | candidate => simp [apply_ite LifecycleDecision.state]

theorem onHealthy_state (inp : LifecycleInput) :
    (onHealthy inp).state =
      if inp.state = .opened then if inp.resolveAfter ≤ 1 then .resolved else .recovering
      else if inp.state = .recovering then
        if inp.resolveAfter ≤ inp.consecutiveHealthy then .resolved else .recovering
      else .normal := by
  unfold onHealthy
  cases hs : inp.state with
  | opened | recovering => simp [apply_ite LifecycleDecision.state]
  | candidate | insufficientData | normal | resolved | suppressed => simp

/-! ## The invariant -/

structure Follows (openAfter resolveAfter : Nat) (J : List Bool) (h : Hysteresis) : Prop where
  anomalous : h.consecutiveAnomalous = trail true J
  healthy : h.consecutiveHealthy = trail false J
  raised : h.state = .opened ∨ h.state = .recovering ↔ Raised openAfter resolveAfter J
  hit : h.state = .opened ∨ h.state = .candidate ↔ J.getLast? = some true
  unsuppressed : h.state ≠ .suppressed

theorem follows_start (hopen : 1 ≤ openAfter) {start} (hstart : start = .normal ∨ start = .insufficientData) :
    Follows openAfter resolveAfter [] ⟨start, 0, 0⟩ := by
  have hno := not_raised_nil (n := resolveAfter) hopen
  rcases hstart with rfl | rfl
  · exact ⟨rfl, rfl, by simpa using hno, by simp, by simp⟩
  · exact ⟨rfl, rfl, by simpa using hno, by simp, by simp⟩

theorem Follows.unknown (hf : Follows openAfter resolveAfter J h) {verdict} (hsignal : verdict.signal = .unknown) :
    Follows openAfter resolveAfter J (hysteresisStep openAfter resolveAfter h verdict) := by
  obtain ⟨state, a, b⟩ := h
  have hstate : (hysteresisStep openAfter resolveAfter ⟨state, a, b⟩ verdict).state = state ∨
      (state = .normal ∧ (hysteresisStep openAfter resolveAfter ⟨state, a, b⟩ verdict).state =
        .insufficientData) := by
    have hsup := hf.unsuppressed
    cases state <;> cases hins : verdict.insufficientData <;>
      simp_all [hysteresisStep, nextState, advanceCounters]
  have hcounters : (hysteresisStep openAfter resolveAfter ⟨state, a, b⟩ verdict).consecutiveAnomalous = a ∧
      (hysteresisStep openAfter resolveAfter ⟨state, a, b⟩ verdict).consecutiveHealthy = b := by
    simp [hysteresisStep, advanceCounters, hsignal]
  refine ⟨hcounters.1.trans hf.anomalous, hcounters.2.trans hf.healthy, ?_, ?_, ?_⟩
  · rcases hstate with hs | ⟨rfl, hs⟩
    · rw [hs]
      exact hf.raised
    · rw [hs, ← hf.raised]
      simp
  · rcases hstate with hs | ⟨rfl, hs⟩
    · rw [hs]
      exact hf.hit
    · rw [hs, ← hf.hit]
      simp
  · rcases hstate with hs | ⟨rfl, hs⟩
    · rw [hs]
      exact hf.unsuppressed
    · rw [hs]
      simp

theorem Verdict.sufficient {verdict : Verdict} (h : verdict.signal ≠ .unknown) : verdict.insufficientData = false := by
  cases hins : verdict.insufficientData with
  | false => rfl
  | true => exact absurd (verdict.unjudged hins) h

theorem Follows.anomalous_step (hf : Follows openAfter resolveAfter J h) (hresolve : 1 ≤ resolveAfter)
    {verdict : Verdict} (hsignal : verdict.signal = .anomalous) :
    Follows openAfter resolveAfter (J ++ [true]) (hysteresisStep openAfter resolveAfter h verdict) := by
  have hins := verdict.sufficient (by rw [hsignal]; decide)
  have hstate : (hysteresisStep openAfter resolveAfter h verdict).state =
      if h.state = .opened ∨ h.state = .recovering ∨ openAfter ≤ h.consecutiveAnomalous + 1 then .opened
      else .candidate := by
    simp only [hysteresisStep, nextState, advanceCounters, hsignal, hins, hf.unsuppressed, Bool.false_eq_true,
      if_false]
    exact onAnomalous_state hf.unsuppressed
  have hcount : trail true (J ++ [true]) = h.consecutiveAnomalous + 1 := by
    rw [trail_snoc, if_pos rfl, hf.anomalous]
  have hraised := raised_snoc_true (m := openAfter) (l := J) hresolve
  rw [hcount, ← hf.raised, or_assoc] at hraised
  refine ⟨?_, ?_, ?_, ?_, ?_⟩
  · simp [hysteresisStep, advanceCounters, hsignal, hcount]
  · simp [hysteresisStep, advanceCounters, hsignal, trail_snoc]
  · rw [hraised, hstate]
    split_ifs with hc <;> simp [hc]
  · rw [hstate]
    split_ifs <;> simp
  · rw [hstate]
    split_ifs <;> simp

theorem Follows.healthy_of_opened (hf : Follows openAfter resolveAfter J h) (hs : h.state = .opened) :
    h.consecutiveHealthy = 0 := by
  obtain ⟨l, rfl⟩ := List.getLast?_eq_some_iff.mp (hf.hit.mp (Or.inl hs))
  rw [hf.healthy, trail_snoc]
  simp

theorem Follows.healthy_step (hf : Follows openAfter resolveAfter J h) (hopen : 1 ≤ openAfter)
    {verdict : Verdict} (hsignal : verdict.signal = .healthy) :
    Follows openAfter resolveAfter (J ++ [false]) (hysteresisStep openAfter resolveAfter h verdict) := by
  have hins := verdict.sufficient (by rw [hsignal]; decide)
  have hstate : (hysteresisStep openAfter resolveAfter h verdict).state =
      if h.state = .opened ∨ h.state = .recovering then
        if resolveAfter ≤ h.consecutiveHealthy + 1 then .resolved else .recovering
      else .normal := by
    simp only [hysteresisStep, nextState, advanceCounters, hsignal, hins, hf.unsuppressed, Bool.false_eq_true,
      if_false, onHealthy_state]
    by_cases hs : h.state = .opened
    · simp [hs, hf.healthy_of_opened hs]
    · simp [hs]
  have hcount : trail false (J ++ [false]) = h.consecutiveHealthy + 1 := by
    rw [trail_snoc, if_pos rfl, hf.healthy]
  have hraised := raised_snoc_false (n := resolveAfter) (l := J) hopen
  rw [hcount, ← hf.raised] at hraised
  refine ⟨?_, ?_, ?_, ?_, ?_⟩
  · simp [hysteresisStep, advanceCounters, hsignal, trail_snoc]
  · simp [hysteresisStep, advanceCounters, hsignal, hcount]
  · rw [hraised, hstate]
    split_ifs with hlive hc
    · simp [hlive, hc]
    · simp [hlive, Nat.not_le.mp hc]
    · simp [hlive]
  · rw [hstate]
    split_ifs <;> simp
  · rw [hstate]
    split_ifs <;> simp

theorem judged_snoc (verdicts : List Verdict) (verdict : Verdict) :
    judged (verdicts ++ [verdict]) = judged verdicts ++ judged [verdict] :=
  List.filterMap_append

theorem hysteresisRun_follows (hopen : 1 ≤ openAfter) (hresolve : 1 ≤ resolveAfter) {start}
    (hstart : start = .normal ∨ start = .insufficientData) (verdicts : List Verdict) :
    Follows openAfter resolveAfter (judged verdicts) (hysteresisRun openAfter resolveAfter start verdicts) := by
  induction verdicts using List.reverseRecOn with
  | nil => exact follows_start hopen hstart
  | append_singleton verdicts verdict ih =>
    rw [judged_snoc, hysteresisRun, List.foldl_append, List.foldl_cons, List.foldl_nil]
    cases hsignal : verdict.signal with
    | unknown =>
      simp only [judged, List.filterMap_cons, hsignal, List.filterMap_nil, List.append_nil]
      exact ih.unknown hsignal
    | anomalous =>
      simp only [judged, List.filterMap_cons, hsignal, List.filterMap_nil]
      exact ih.anomalous_step hresolve hsignal
    | healthy =>
      simp only [judged, List.filterMap_cons, hsignal, List.filterMap_nil]
      exact ih.healthy_step hopen hsignal

end QRadarDashboard.Anomaly
