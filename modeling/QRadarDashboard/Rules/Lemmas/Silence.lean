import QRadarDashboard.Rules.Silence
import QRadarDashboard.Rules.Lemmas.MatchCollector
import Mathlib.Data.Rat.Floor
import Mathlib.Tactic.GCongr
import Mathlib.Tactic.Positivity

/-!
# What the readers take from the windows
-/

namespace QRadarDashboard.Rules
open Lib

variable {cfg : MatchConfig} {tables : UnicodeTables} {st : MatchState} {i : Nat}

theorem le_firstWindow (v : Int) {windowSeconds} (hpos : 0 < windowSeconds) : v ≤ firstWindow v windowSeconds := by
  have hlt := lt_floorToWindow v hpos
  simp only [firstWindow]
  split <;> omega

theorem spanWindows_bounds {evaluationStart now s}
    (h : s ∈ spanWindows evaluationStart now cfg.windowSeconds cfg.settleLagSeconds) :
    evaluationStart ≤ s ∧ s < settledUntil now cfg.windowSeconds cfg.settleLagSeconds := by
  have hpos := windowStep_pos cfg.windowSeconds_pos
  have hfirst := first_le_of_mem_windowsBetween hpos h
  obtain ⟨_, _, hend⟩ := (mem_windowsBetween hpos).mp h
  have hle := le_firstWindow evaluationStart cfg.windowSeconds_pos
  exact ⟨by omega, by omega⟩

theorem silentRules_spec {item spanStart spanEnd} (h : item ∈ st.silentRules spanStart spanEnd) :
    st.rules[item.2]? = some item.1 ∧ item.1.enabled = true ∧
      ∀ s, spanStart ≤ s → s < spanEnd → ¬ st.Stored item.2 s := by
  simp only [MatchState.silentRules, mem_sortOn, List.mem_filter, List.mem_zipIdx_iff_getElem?, Bool.and_eq_true,
    Bool.not_eq_true'] at h
  obtain ⟨hrule, ⟨henabled, -⟩, hmatched⟩ := h
  refine ⟨hrule, henabled, fun s hlow hhigh hstored => ?_⟩
  obtain ⟨row, hrow⟩ := Option.isSome_iff_exists.mp hstored
  rw [MatchState.matched, List.any_eq_false] at hmatched
  exact hmatched _ (Dict.mem_of_get? hrow) (by simp [hlow, hhigh])

theorem silentSection_spec {days now silent}
    (h : st.silentSection cfg tables days now = some silent) {item} (hitem : item ∈ silent.items) :
    (st.coverage cfg (statisticsStart cfg days now) now).state = .COMPLETE ∧
      item ∈ st.silentRules (statisticsStart cfg days now) (settledUntil now cfg.windowSeconds cfg.settleLagSeconds) := by
  simp only [MatchState.silentSection] at h
  split at h
  · rename_i hcomplete
    cases h
    exact ⟨hcomplete, List.mem_of_mem_take hitem⟩
  · cases h

/-! ## Verdicts -/

theorem totalDays_mono {delta delta'} (h : delta ≤ delta') : totalDays delta ≤ totalDays delta' := by
  refine Double.round_mono (div_le_div_of_nonneg_right (Double.round_mono ?_) (by norm_num))
  exact div_le_div_of_nonneg_right (by exact_mod_cast h) (by norm_num [secondMicros])

section Verdict

variable {settings : HealthSettings} {rule : AnalyticsRule} {now windowStart : Int} {known : Observation}
  {missing unknown : List String} {measured : Option MeasuredMatches}

structure Judged (settings : HealthSettings) (rule : AnalyticsRule) (now windowStart : Int) (missing unknown : List String)
    (count : Nat) : Prop where
  enabled : rule.enabled = true
  old : ∃ age, rule.age now = some age ∧ settings.gracePeriodDays ≤ age ∧ settings.minHistoryDays ≤ age
  missing : missing = []
  unknown : unknown = []
  quiet : noisy settings rule now windowStart count = false

def Stale (settings : HealthSettings) (now fired : Int) : Prop := settings.inactivityDays < totalDays (now - fired)

theorem Stale.earlier {fired fired'} (h : Stale settings now fired) (hle : fired' ≤ fired) :
    Stale settings now fired' :=
  h.trans_le (totalDays_mono (by omega))

def firingVerdict (settings : HealthSettings) (now : Int) (obs : Observation) : RuleHealthStatus :=
  match obs.lastFired with
  | none =>
    if obs.triggerCount = 0 then if obs.observationComplete then .NEVER_OBSERVED else .INSUFFICIENT_DATA else .HEALTHY
  | some fired => if settings.inactivityDays < totalDays (now - fired) then .INACTIVE else .HEALTHY

def Silent (status : RuleHealthStatus) : Prop := status = .NEVER_OBSERVED ∨ status = .INACTIVE

theorem classify_observation :
    (classify settings rule now windowStart known missing unknown measured).observation = known.measure measured := by
  unfold classify
  simp only
  repeat' split
  all_goals rfl

theorem classify_status :
    (Judged settings rule now windowStart missing unknown (known.measure measured).triggerCount ∧
      (classify settings rule now windowStart known missing unknown measured).status =
        firingVerdict settings now (known.measure measured)) ∨
    ¬ Judged settings rule now windowStart missing unknown (known.measure measured).triggerCount ∧
      ¬ Silent (classify settings rule now windowStart known missing unknown measured).status := by
  unfold classify
  simp only
  split
  · rename_i henabled
    exact .inr ⟨fun h => henabled h.enabled, by simp [Silent]⟩
  rename_i henabled
  split
  · rename_i hage
    exact .inr ⟨fun h => (by obtain ⟨age, heq, -⟩ := h.old; rw [hage] at heq; cases heq), by simp [Silent]⟩
  rename_i age hage
  have hold : ∀ h : Judged settings rule now windowStart missing unknown (known.measure measured).triggerCount,
      settings.gracePeriodDays ≤ age ∧ settings.minHistoryDays ≤ age := by
    intro h
    obtain ⟨age', heq, hbounds⟩ := h.old
    rw [hage] at heq
    cases heq
    exact hbounds
  split
  · rename_i hgrace
    exact .inr ⟨fun h => absurd (hold h).1 (not_le.mpr hgrace), by simp [Silent]⟩
  rename_i hgrace
  split
  · rename_i hhistory
    exact .inr ⟨fun h => absurd (hold h).2 (not_le.mpr hhistory), by simp [Silent]⟩
  rename_i hhistory
  split
  · rename_i hmissing
    exact .inr ⟨fun h => hmissing h.missing, by simp [Silent]⟩
  rename_i hmissing
  split
  · rename_i hunknown
    exact .inr ⟨fun h => hunknown h.unknown, by simp [Silent]⟩
  rename_i hunknown
  split
  · rename_i hnoisy
    exact .inr ⟨fun h => absurd (hnoisy.symm.trans h.quiet) (by simp), by simp [Silent]⟩
  rename_i hnoisy
  refine .inl ⟨⟨by simpa using henabled, ⟨age, hage, not_lt.mp hgrace, not_lt.mp hhistory⟩, not_not.mp hmissing,
    not_not.mp hunknown, by simpa using hnoisy⟩, ?_⟩
  unfold firingVerdict
  cases (known.measure measured).lastFired with
  | none =>
    by_cases hcount : (known.measure measured).triggerCount = 0
    · cases hcomplete : (known.measure measured).observationComplete <;> simp [hcount]
    · simp [hcount]
  | some fired => by_cases hstale : settings.inactivityDays < totalDays (now - fired) <;> simp [hstale]

theorem firingVerdict_silent {obs} : Silent (firingVerdict settings now obs) ↔
    (obs.lastFired = none ∧ obs.triggerCount = 0 ∧ obs.observationComplete = true) ∨
      ∃ fired, obs.lastFired = some fired ∧ Stale settings now fired := by
  unfold firingVerdict
  cases hfired : obs.lastFired with
  | none =>
    by_cases hcount : obs.triggerCount = 0
    · cases hcomplete : obs.observationComplete <;> simp [hcount, Silent]
    · simp [hcount, Silent]
  | some fired => by_cases hstale : settings.inactivityDays < totalDays (now - fired) <;> simp [hstale, Silent, Stale]

theorem classify_silent_iff :
    Silent (classify settings rule now windowStart known missing unknown measured).status ↔
      Judged settings rule now windowStart missing unknown (known.measure measured).triggerCount ∧
        (((known.measure measured).lastFired = none ∧ (known.measure measured).triggerCount = 0 ∧
            (known.measure measured).observationComplete = true) ∨
          ∃ fired, (known.measure measured).lastFired = some fired ∧ Stale settings now fired) := by
  rcases @classify_status settings rule now windowStart known missing unknown measured with
    ⟨hjudged, hstatus⟩ | ⟨hnot, hstatus⟩
  · rw [hstatus, firingVerdict_silent]
    exact ⟨fun h => ⟨hjudged, h⟩, fun h => h.2⟩
  · exact iff_of_false hstatus (fun h => hnot h.1)

/-! ## What is measured -/

def ExactCollection (m : MeasuredMatches) : Prop := m.evidence = .EXACT ∧ m.coverage.state ≠ .NONE

def Backed (known : Observation) (measured : Option MeasuredMatches) : Prop :=
  match measured with
  | none => known.observationComplete = true
  | some m =>
    if m.evidence = .EXACT ∧ m.coverage.state ≠ .NONE then m.coverage.state = .COMPLETE
    else known.observationComplete = true

theorem measure_observationComplete : (known.measure measured).observationComplete = true ↔ Backed known measured := by
  cases measured with
  | none => rfl
  | some m =>
    cases hevidence : m.evidence <;> cases hstate : m.coverage.state <;>
      by_cases hevents : 0 < m.events <;> by_cases hmore : known.triggerCount < m.events <;>
      simp [Observation.measure, Backed, hevidence, hstate, hevents, hmore]

def Counted (m : MeasuredMatches) : Prop := m.evidence ≠ .NOT_MEASURED ∧ m.coverage.state ≠ .NONE

theorem measure_lastFired {m} (hcounted : Counted m) :
    (known.measure (some m)).lastFired =
      if 0 < m.events then laterFired known.lastFired m.lastMatchAt else known.lastFired := by
  have hskip : ¬ (m.evidence = .NOT_MEASURED ∨ m.coverage.state = .NONE) := not_or.mpr hcounted
  simp only [Observation.measure, hskip, if_false]
  split_ifs <;> rfl

def IsLowerBound (m : MeasuredMatches) : Prop := Counted m ∧ ¬ (m.evidence = .EXACT ∧ m.coverage.state = .COMPLETE)

theorem measure_triggerCount {m} (h : IsLowerBound m) :
    (known.measure (some m)).triggerCount = max known.triggerCount m.events := by
  have hskip : ¬ (m.evidence = .NOT_MEASURED ∨ m.coverage.state = .NONE) := not_or.mpr h.1
  have hmax : max known.triggerCount m.events = if known.triggerCount < m.events then m.events else known.triggerCount := by
    split <;> omega
  simp only [hmax, Observation.measure, hskip, h.2, if_false]
  split_ifs <;> rfl

theorem le_laterFired {fired t} : ∃ later, laterFired fired (some t) = some later ∧ t ≤ later := by
  cases fired with
  | none => exact ⟨t, rfl, le_refl t⟩
  | some f =>
    by_cases hlt : f < t
    · exact ⟨t, if_pos hlt, le_refl t⟩
    · exact ⟨f, if_neg hlt, not_lt.mp hlt⟩

theorem laterFired_eq_none {fired matched} : laterFired fired matched = none ↔ fired = none ∧ matched = none := by
  cases fired with
  | none => cases matched <;> simp [laterFired]
  | some f =>
    cases matched with
    | none => simp [laterFired]
    | some t => by_cases hlt : f < t <;> simp [laterFired, hlt]

theorem laterFired_mono {fired matched matched' f} (h : laterFired fired matched = some f)
    (hle : ∀ t, matched = some t → ∃ t', matched' = some t' ∧ t ≤ t') :
    ∃ f', laterFired fired matched' = some f' ∧ f ≤ f' := by
  cases matched with
  | none =>
    have hfired : fired = some f := by cases fired <;> exact h
    subst hfired
    cases matched' with
    | none => exact ⟨f, rfl, le_refl f⟩
    | some t' => by_cases hlt : f < t' <;> simp [laterFired, hlt, le_of_lt]
  | some t =>
    obtain ⟨t', rfl, ht⟩ := hle t rfl
    obtain ⟨later, hlater, hbound⟩ := @le_laterFired fired t'
    refine ⟨later, hlater, ?_⟩
    cases fired with
    | none =>
      cases h
      exact ht.trans hbound
    | some g =>
      have hg : g ≤ later := by
        by_cases hlt : g < t'
        · exact (le_of_lt hlt).trans hbound
        · rw [laterFired, if_neg hlt] at hlater
          exact le_of_eq (Option.some.inj hlater)
      by_cases hlt : g < t
      · rw [laterFired, if_pos hlt] at h
        cases h
        exact ht.trans hbound
      · rw [laterFired, if_neg hlt] at h
        cases h
        exact hg

theorem laterFired_eq_some {fired matched f} (h : laterFired fired matched = some f) :
    fired = some f ∨ matched = some f := by
  cases fired with
  | none => cases matched <;> simp_all [laterFired]
  | some g =>
    cases matched with
    | none => exact .inl h
    | some t =>
      by_cases hlt : g < t
      · exact .inr (by rwa [laterFired, if_pos hlt] at h)
      · exact .inl (by rwa [laterFired, if_neg hlt] at h)

/-! ## Dependencies -/

theorem dependencyState_clear_iff {coverageMinConfidence health dependencies} :
    ((dependencyState coverageMinConfidence health dependencies).missing = [] ∧
        (dependencyState coverageMinConfidence health dependencies).unknown = []) ↔
      ∀ dep ∈ dependencies, coverageMinConfidence ≤ dep.confidence → health.of dep = some true := by
  unfold dependencyState
  induction dependencies using List.reverseRecOn with
  | nil => simp
  | append_singleton dependencies dep ih =>
    rw [List.foldl_append, List.foldl_cons, List.foldl_nil, List.forall_mem_append, ← ih, List.forall_mem_singleton]
    generalize dependencies.foldl (DependencyState.add coverageMinConfidence health) {} = state
    unfold DependencyState.add
    by_cases hconfident : dep.confidence < coverageMinConfidence
    · simp [hconfident, not_le.mpr hconfident]
    · simp only [hconfident, if_false, not_lt.mp hconfident, forall_const]
      rcases health.of dep with _ | _ | _ <;> simp

structure Assessed (settings : HealthSettings) (coverageMinConfidence : Rat) (rule : AnalyticsRule)
    (now windowStart : Int) (dependencies : List RuleDependency) (health : DependencyHealth) (count : Nat) : Prop where
  enabled : rule.enabled = true
  old : ∃ age, rule.age now = some age ∧ settings.gracePeriodDays ≤ age ∧ settings.minHistoryDays ≤ age
  dependencies : ∀ dep ∈ dependencies, coverageMinConfidence ≤ dep.confidence → health.of dep = some true
  quiet : noisy settings rule now windowStart count = false

theorem judged_iff {coverageMinConfidence dependencies health count} :
    Judged settings rule now windowStart (dependencyState coverageMinConfidence health dependencies).missing
        (dependencyState coverageMinConfidence health dependencies).unknown count ↔
      Assessed settings coverageMinConfidence rule now windowStart dependencies health count := by
  constructor
  · intro h
    exact ⟨h.enabled, h.old, dependencyState_clear_iff.mp ⟨h.missing, h.unknown⟩, h.quiet⟩
  · intro h
    obtain ⟨hmissing, hunknown⟩ := dependencyState_clear_iff.mpr h.dependencies
    exact ⟨h.enabled, h.old, hmissing, hunknown, h.quiet⟩

/-! ## One call -/

def firings (known : Observation) (measured : Option MeasuredMatches) : Nat :=
  match measured with
  | none => known.triggerCount
  | some m =>
    if m.evidence = .NOT_MEASURED ∨ m.coverage.state = .NONE then known.triggerCount
    else if m.evidence = .EXACT ∧ m.coverage.state = .COMPLETE then m.events
    else max known.triggerCount m.events

def Fired (known : Observation) (measured : Option MeasuredMatches) (t : Int) : Prop :=
  known.lastFired = some t ∨ ∃ m, measured = some m ∧ Counted m ∧ 0 < m.events ∧ m.lastMatchAt = some t

def LongQuiet (settings : HealthSettings) (now : Int) (known : Observation) (measured : Option MeasuredMatches) : Prop :=
  (∃ t, Fired known measured t) ∧ ∀ t, Fired known measured t → Stale settings now t

theorem measure_firings : (known.measure measured).triggerCount = firings known measured := by
  cases measured with
  | none => rfl
  | some m =>
    by_cases hskip : m.evidence = .NOT_MEASURED ∨ m.coverage.state = .NONE
    · simp [Observation.measure, firings, hskip]
    · by_cases hexact : m.evidence = .EXACT ∧ m.coverage.state = .COMPLETE
      · simp [Observation.measure, firings, hexact]
      · rw [measure_triggerCount ⟨not_or.mp hskip, hexact⟩]
        simp only [firings, hskip, hexact, if_false]

theorem fired_of_measure {t} (h : (known.measure measured).lastFired = some t) : Fired known measured t := by
  cases measured with
  | none => exact .inl h
  | some m =>
    by_cases hskip : m.evidence = .NOT_MEASURED ∨ m.coverage.state = .NONE
    · exact .inl (by simpa [Observation.measure, hskip] using h)
    · have hcounted : Counted m := not_or.mp hskip
      rw [measure_lastFired hcounted] at h
      split at h
      · rename_i hevents
        rcases laterFired_eq_some h with hfired | hmatched
        · exact .inl hfired
        · exact .inr ⟨m, rfl, hcounted, hevents, hmatched⟩
      · exact .inl h

theorem fired_le_measure {t} (h : Fired known measured t) :
    ∃ later, (known.measure measured).lastFired = some later ∧ t ≤ later := by
  cases measured with
  | none => exact ⟨t, h.resolve_right (fun ⟨m, hm, _⟩ => by cases hm), le_refl t⟩
  | some m =>
    by_cases hskip : m.evidence = .NOT_MEASURED ∨ m.coverage.state = .NONE
    · have hfired := h.resolve_right (fun ⟨_, hm, hcounted, _⟩ => by cases hm; exact not_or.mpr hcounted hskip)
      exact ⟨t, by simpa [Observation.measure, hskip] using hfired, le_refl t⟩
    · have hcounted : Counted m := not_or.mp hskip
      rw [measure_lastFired hcounted]
      rcases h with hfired | ⟨m, hm, -, hevents, hmatched⟩
      · split
        · exact @laterFired_mono known.lastFired none m.lastMatchAt t (by rw [hfired]; rfl) (fun _ hnone => by cases hnone)
        · exact ⟨t, hfired, le_refl t⟩
      · cases hm
        rw [if_pos hevents, hmatched]
        exact le_laterFired

theorem measure_longQuiet : LongQuiet settings now known measured ↔
    ∃ fired, (known.measure measured).lastFired = some fired ∧ Stale settings now fired := by
  constructor
  · rintro ⟨⟨t, hfired⟩, hstale⟩
    obtain ⟨later, hlater, -⟩ := fired_le_measure hfired
    exact ⟨later, hlater, hstale later (fired_of_measure hlater)⟩
  · rintro ⟨fired, hlast, hstale⟩
    refine ⟨⟨fired, fired_of_measure hlast⟩, fun t ht => ?_⟩
    obtain ⟨later, hlater, hle⟩ := fired_le_measure ht
    rw [hlast] at hlater
    cases hlater
    exact hstale.earlier hle

structure SilenceObserved (coverageMinConfidence : Rat) (known : Observation) (dependencies : List RuleDependency)
    (health : DependencyHealth) (measured : Option MeasuredMatches) (verdict : HealthVerdict) : Prop where
  backed : Silent verdict.status → Backed known measured
  recent : Silent verdict.status → ∀ m, measured = some m → ExactCollection m → 0 < m.events →
    ∀ t, m.lastMatchAt = some t → ∃ fired, verdict.observation.lastFired = some fired ∧ t ≤ fired
  dependencies : Silent verdict.status → ∀ dep ∈ dependencies, coverageMinConfidence ≤ dep.confidence →
    health.of dep = some true

theorem silenceObserved_iff {coverageMinConfidence dependencies health} :
    SilenceObserved coverageMinConfidence known dependencies health measured
        (classifyRule settings coverageMinConfidence rule now windowStart known dependencies health
          measured).toHealthVerdict ↔
      (Assessed settings coverageMinConfidence rule now windowStart dependencies health (firings known measured) →
        LongQuiet settings now known measured → Backed known measured) := by
  have hsilent := @classify_silent_iff settings rule now windowStart known
    (dependencyState coverageMinConfidence health dependencies).missing
    (dependencyState coverageMinConfidence health dependencies).unknown measured
  rw [judged_iff, measure_firings, ← measure_longQuiet] at hsilent
  constructor
  · exact fun h hassessed hquiet => h.backed (hsilent.mpr ⟨hassessed, .inr hquiet⟩)
  · intro h
    refine ⟨fun hverdict => ?_, fun hverdict m hm hexact hevents t ht => ?_, fun hverdict => ?_⟩
    · obtain ⟨hassessed, ⟨-, -, hcomplete⟩ | hquiet⟩ := hsilent.mp hverdict
      · exact measure_observationComplete.mp hcomplete
      · exact h hassessed hquiet
    · have hcounted : Counted m := ⟨by rw [hexact.1]; simp, hexact.2⟩
      rw [show (classifyRule settings coverageMinConfidence rule now windowStart known dependencies health
        measured).observation = known.measure measured from classify_observation]
      exact fired_le_measure (.inr ⟨m, hm, hcounted, hevents, ht⟩)
    · exact (hsilent.mp hverdict).1.dependencies

/-! ## More matches -/

structure Adds (m m' : MeasuredMatches) : Prop where
  evidence : m'.evidence = m.evidence
  coverage : m'.coverage = m.coverage
  events : m.events ≤ m'.events
  lastMatchAt : ∀ t, m.lastMatchAt = some t → ∃ t', m'.lastMatchAt = some t' ∧ t ≤ t'

/-- The matches that are added date the last firing of the rule for the first time, and date it long ago. -/
structure DatesStale (settings : HealthSettings) (now : Int) (known : Observation) (m m' : MeasuredMatches) : Prop where
  undated : known.lastFired = none ∧ (m.events = 0 ∨ m.lastMatchAt = none)
  dated : 0 < m'.events ∧ ∃ t, m'.lastMatchAt = some t ∧ Stale settings now t
  vocal : ¬ (known.triggerCount = 0 ∧ m.events = 0 ∧ Backed known (some m))

theorem noisy_mono {count count'} (hle : count ≤ count') (h : noisy settings rule now windowStart count' = false) :
    noisy settings rule now windowStart count = false := by
  have hmono : ∀ days threshold : Rat, 0 < days →
      (0 < count' && decide (threshold < Double.round (Double.round count' / days))) = false →
      (0 < count && decide (threshold < Double.round (Double.round count / days))) = false := by
    intro days threshold hpos h
    have hround : Double.round count ≤ Double.round count' := Double.round_mono (by exact_mod_cast hle)
    have hrate : Double.round (Double.round count / days) ≤ Double.round (Double.round count' / days) :=
      Double.round_mono (div_le_div_of_nonneg_right hround hpos.le)
    rw [Bool.and_eq_false_iff] at h ⊢
    rcases h with hzero | hquiet
    · have hcount : ¬ 0 < count' := of_decide_eq_false hzero
      exact .inl (decide_eq_false (by omega))
    · refine .inr (decide_eq_false (fun hlt => ?_))
      exact of_decide_eq_false hquiet (hlt.trans_le hrate)
  exact hmono _ _ (lt_of_lt_of_le one_pos (le_max_left _ _)) h

section Adds

variable {m m' : MeasuredMatches}

theorem Adds.counted (h : Adds m m') (hm : IsLowerBound m) : IsLowerBound m' := by
  unfold IsLowerBound Counted at *
  rwa [h.evidence, h.coverage]

theorem Adds.backed (h : Adds m m') : Backed known (some m') ↔ Backed known (some m) := by
  simp only [Backed, h.evidence, h.coverage]

theorem Adds.judged (h : Adds m m') (hm : IsLowerBound m)
    (hjudged : Judged settings rule now windowStart missing unknown (known.measure (some m')).triggerCount) :
    Judged settings rule now windowStart missing unknown (known.measure (some m)).triggerCount := by
  have hle : (known.measure (some m)).triggerCount ≤ (known.measure (some m')).triggerCount := by
    rw [measure_triggerCount hm, measure_triggerCount (h.counted hm)]
    exact max_le_max_left _ h.events
  exact { hjudged with quiet := noisy_mono hle hjudged.quiet }

theorem Adds.lastFired (h : Adds m m') (hm : IsLowerBound m) {f} (hf : (known.measure (some m)).lastFired = some f) :
    ∃ f', (known.measure (some m')).lastFired = some f' ∧ f ≤ f' := by
  rw [measure_lastFired hm.1] at hf
  rw [measure_lastFired (h.counted hm).1]
  by_cases hevents : 0 < m.events
  · rw [if_pos hevents] at hf
    rw [if_pos (hevents.trans_le h.events)]
    exact laterFired_mono hf h.lastMatchAt
  · rw [if_neg hevents] at hf
    by_cases hevents' : 0 < m'.events
    · rw [if_pos hevents']
      exact @laterFired_mono known.lastFired none m'.lastMatchAt f (by rw [hf]; rfl) (fun t ht => by cases ht)
    · exact ⟨f, by rw [if_neg hevents', hf], le_refl f⟩

theorem measure_undated (hm : IsLowerBound m) :
    (known.measure (some m)).lastFired = none ↔ known.lastFired = none ∧ (m.events = 0 ∨ m.lastMatchAt = none) := by
  rw [measure_lastFired hm.1]
  by_cases hevents : 0 < m.events
  · rw [if_pos hevents, laterFired_eq_none]
    simp [Nat.pos_iff_ne_zero.mp hevents]
  · rw [if_neg hevents]
    simp [Nat.eq_zero_of_not_pos hevents]

theorem measure_dated (hm : IsLowerBound m) (hnone : known.lastFired = none) {f} :
    (known.measure (some m)).lastFired = some f ↔ 0 < m.events ∧ m.lastMatchAt = some f := by
  rw [measure_lastFired hm.1, hnone]
  by_cases hevents : 0 < m.events
  · cases m.lastMatchAt <;> simp [hevents, laterFired]
  · simp [hevents]

theorem adds_silent_iff (hm : IsLowerBound m) (hadds : Adds m m') :
    (¬ Silent (classify settings rule now windowStart known missing unknown (some m)).status →
        ¬ Silent (classify settings rule now windowStart known missing unknown (some m')).status) ↔
      ¬ (Judged settings rule now windowStart missing unknown (max known.triggerCount m'.events) ∧
        DatesStale settings now known m m') := by
  have hcount := @measure_triggerCount known m hm
  have hcount' := @measure_triggerCount known m' (hadds.counted hm)
  rw [not_imp_not, classify_silent_iff, classify_silent_iff]
  constructor
  · rintro h ⟨hjudged, hdates⟩
    obtain ⟨hnone, hundated⟩ := hdates.undated
    obtain ⟨hevents, t, ht, hstale⟩ := hdates.dated
    have hfired' := (measure_dated (hadds.counted hm) hnone).mpr ⟨hevents, ht⟩
    have hlast : (known.measure (some m)).lastFired = none := (measure_undated hm).mpr hdates.undated
    obtain ⟨-, ⟨-, hzero, hcomplete⟩ | ⟨f, hf, -⟩⟩ := h ⟨hcount' ▸ hjudged, .inr ⟨t, hfired', hstale⟩⟩
    · rw [hcount] at hzero
      exact hdates.vocal ⟨by omega, by omega, measure_observationComplete.mp hcomplete⟩
    · rw [hlast] at hf
      cases hf
  · rintro hdates ⟨hjudged, hsilent⟩
    refine ⟨hadds.judged hm hjudged, ?_⟩
    rcases hsilent with ⟨hlast', hzero, hcomplete⟩ | ⟨f', hfired', hstale⟩
    · -- nothing was added: the verdict is the one before
      rw [hcount'] at hzero
      have hle := hadds.events
      refine .inl ⟨(measure_undated hm).mpr ⟨((measure_undated (hadds.counted hm)).mp hlast').1, .inl (by omega)⟩,
        by rw [hcount]; omega, ?_⟩
      exact measure_observationComplete.mpr (hadds.backed.mp (measure_observationComplete.mp hcomplete))
    · cases hlast : (known.measure (some m)).lastFired with
      | some f =>
        obtain ⟨g, hg, hle⟩ := hadds.lastFired hm hlast
        rw [hfired'] at hg
        cases hg
        exact .inr ⟨f, rfl, hstale.earlier hle⟩
      | none =>
        have hundated := (measure_undated hm).mp hlast
        obtain ⟨hevents, ht⟩ := (measure_dated (hadds.counted hm) hundated.1).mp hfired'
        by_cases hvocal : known.triggerCount = 0 ∧ m.events = 0 ∧ Backed known (some m)
        · obtain ⟨hknown, hm0, hbacked⟩ := hvocal
          exact .inl ⟨rfl, by rw [hcount]; omega, measure_observationComplete.mpr hbacked⟩
        · exact absurd ⟨hcount' ▸ hjudged, hundated, ⟨hevents, f', ht, hstale⟩, hvocal⟩ hdates

end Adds

end Verdict

/-- A measured EVENT rule is never observed only over a complete span, with no event measured. -/
theorem neverObserved_measured {settings rule now windowStart known missing unknown m} (hevidence : m.evidence = .EXACT)
    (hcoverage : m.coverage.state ≠ .NONE)
    (h : (classify settings rule now windowStart known missing unknown (some m)).status = .NEVER_OBSERVED) :
    m.coverage.state = .COMPLETE ∧ m.events = 0 ∧ rule.enabled = true := by
  rcases @classify_status settings rule now windowStart known missing unknown (some m) with
    ⟨hjudged, hstatus⟩ | ⟨-, hstatus⟩
  · rw [hstatus] at h
    unfold firingVerdict at h
    split at h
    · split at h
      · rename_i hzero
        split at h
        · rename_i hcomplete
          have hbacked : Backed known (some m) := measure_observationComplete.mp hcomplete
          have hstate : m.coverage.state = .COMPLETE := by simpa only [Backed, hevidence, hcoverage, ne_eq, not_false_iff,
            and_self, if_true] using hbacked
          rw [measure_firings] at hzero
          exact ⟨hstate, by simpa [firings, hevidence, hstate] using hzero, hjudged.enabled⟩
        · cases h
      · cases h
    · split at h <;> cases h
  · exact absurd (.inl h) hstatus

end QRadarDashboard.Rules
