import QRadarDashboard.Rules.Lemmas.LiveTicks
import QRadarDashboard.Rules.Lemmas.Silence

/-!
# Rules
-/

namespace QRadarDashboard.Rules

open Lib

variable {cfg : MatchConfig} {tables : UnicodeTables}

def MatchState.Unmatched (st : MatchState) (windows : List Int) (qradarId : Int) : Prop :=
  ∀ b ∈ st.seen, b.start ∈ windows → ∀ row ∈ b.batch.rows, row.qradarRuleId ≠ qradarId

structure SilenceHonest (cfg : MatchConfig) (tables : UnicodeTables) (st : MatchState) : Prop where
  /-- An enabled EVENT rule without a row in a complete span. -/
  span : ∀ (i : Nat) rule evaluationStart now, st.rules[i]? = some rule → rule.enabled = true →
    matchEvidence tables rule.ruleType = .EXACT → (st.coverage cfg evaluationStart now).state = .COMPLETE →
    (∀ s ∈ spanWindows evaluationStart now cfg.windowSeconds cfg.settleLagSeconds, ¬ st.Stored i s) →
    st.Unmatched (spanWindows evaluationStart now cfg.windowSeconds cfg.settleLagSeconds) rule.qradarId
  /-- A rule that the statistics list. -/
  statistics : ∀ days now silent, st.silentSection cfg tables days now = some silent → ∀ item ∈ silent.items,
    st.Unmatched (spanWindows (statisticsStart cfg days now) now cfg.windowSeconds cfg.settleLagSeconds) item.1.qradarId
  /-- An EVENT rule without a row that rule health calls NEVER_OBSERVED. -/
  health : ∀ settings (i : Nat) rule now known missing unknown, st.rules[i]? = some rule →
    matchEvidence tables rule.ruleType = .EXACT →
    (st.coverage cfg (now - settings.windowDays * dayMicros) now).state ≠ .NONE →
    (st.evaluateRule cfg tables settings i rule now known missing unknown).status = .NEVER_OBSERVED →
    (∀ s ∈ spanWindows (now - settings.windowDays * dayMicros) now cfg.windowSeconds cfg.settleLagSeconds,
      ¬ st.Stored i s) →
    st.Unmatched (spanWindows (now - settings.windowDays * dayMicros) now cfg.windowSeconds cfg.settleLagSeconds)
      rule.qradarId

theorem silenceHonest {st} (hremembered : Remembered st) (hjoined : AllJoined st) : SilenceHonest cfg tables st := by
  have hspan : ∀ (i : Nat) rule evaluationStart now, st.rules[i]? = some rule → rule.enabled = true →
      matchEvidence tables rule.ruleType = .EXACT → (st.coverage cfg evaluationStart now).state = .COMPLETE →
      (∀ s ∈ spanWindows evaluationStart now cfg.windowSeconds cfg.settleLagSeconds, ¬ st.Stored i s) →
      st.Unmatched (spanWindows evaluationStart now cfg.windowSeconds cfg.settleLagSeconds) rule.qradarId := by
    intro i rule _ _ hrule _ _ _ hnone b hb hwindow row hrow hid
    exact hnone _ hwindow (hremembered.stored_of_mem hjoined hrule hb hrow hid)
  refine ⟨hspan, ?_, ?_⟩
  · intro days now silent hsilent item hitem
    obtain ⟨_, hlisted⟩ := silentSection_spec hsilent hitem
    obtain ⟨hrule, _, hnone⟩ := silentRules_spec hlisted
    intro b hb hwindow row hrow hid
    obtain ⟨hlow, hhigh⟩ := spanWindows_bounds hwindow
    exact hnone _ hlow hhigh (hremembered.stored_of_mem hjoined hrule hb hrow hid)
  · intro settings i rule now known missing unknown hrule hevidence hmeasured hnever hnone
    simp only [MatchState.evaluateRule, hmeasured, if_false] at hnever
    obtain ⟨hcomplete, _, henabled⟩ := neverObserved_measured hevidence hmeasured hnever
    exact hspan i rule _ now hrule henabled hevidence hcomplete hnone

/-- While no rule joins the inventory after its id was seen, and every batch is joined to the inventory of its time, a
silent rule did not match. -/
theorem silent_rules_unmatched {tr : List MatchTaken} {st : MatchState}
    (h : Run (MatchState.step cfg) (fun st => st) {} tr st) (hkeep : ∀ e ∈ tr, MatchTaken.KeepsJoined e) :
    (∀ e ∈ tr, SilenceHonest cfg tables e.output) ∧ SilenceHonest cfg tables st := by
  have hrun := h.reached (fun st => InOrder cfg st ∧ Remembered st ∧ AllJoined st) MatchTaken.KeepsJoined
    ⟨inOrder_initial, remembered_initial, by simp [AllJoined]⟩ ?_ hkeep
  · exact ⟨fun e he => silenceHonest (hrun.1 e he).2.1 (hrun.1 e he).2.2, silenceHonest hrun.2.2.1 hrun.2.2.2⟩
  · intro st ev st' ⟨horder, hremembered, hjoined⟩ hkeeps hstep
    exact ⟨horder.step hstep, hremembered.step horder hstep, hjoined.step hkeeps hstep⟩

def dailyWindows : MatchConfig where
  sanitizeText := some
  windowSeconds := 86400
  settleLagSeconds := 0
  maxRows := 2000
  maxCatchupSeconds := 86400
  maxWindowsPerRun := 6
  maxWindowAttempts := 3
  windowSeconds_pos := by decide

def collectionDay : Int := 20731 * dayMicros

def beaconing : AnalyticsRuleDto where
  qradarId := 100
  name := "Beaconing"
  ruleType := some "EVENT"
  createdAt := some (collectionDay - 30 * dayMicros)

def matchedDay : RuleMatchBatch where
  rows := [⟨100, 3, 7⟩]
  rowCap := 2000
  queryVersion := failedQueryVersion

def knownRule : List MatchEvent :=
  [.sync beaconing collectionDay, .collect collectionDay 900, .window (some matchedDay), .close]

theorem silent_rules_unmatched_known : ∃ (tr : List MatchTaken) (st : MatchState),
    Run (MatchState.step dailyWindows) (fun st => st) {} tr st ∧ tr.map Taken.input = knownRule ∧
      (∀ e ∈ tr, SilenceHonest dailyWindows asciiTables e.output) ∧ SilenceHonest dailyWindows asciiTables st := by
  obtain ⟨tr, st, hrun, hinputs, hjoined⟩ := exists_run_of_inputs (MatchState.step dailyWindows) (fun st => st) {}
    knownRule (fun r => r.1.all (fun (e : MatchTaken) => match e.input with
      | .sync _ _ => e.before.seen = []
      | .window _ => e.before.run.map (fun run => run.ruleIds) = some (some [(100, 0)])
      | .history _ _ => false
      | _ => true)) true (by decide)
  refine ⟨tr, st, hrun, hinputs, silent_rules_unmatched hrun ?_⟩
  rintro ⟨before, input, output⟩ he
  have hmem : input ∈ knownRule := hinputs ▸ List.mem_map_of_mem he
  have hstep := List.all_eq_true.mp hjoined _ he
  simp only [knownRule, List.mem_cons, List.not_mem_nil, or_false] at hmem
  rcases hmem with rfl | rfl | rfl | rfl
  · intro _ b hb
    rw [of_decide_eq_true hstep] at hb
    cases hb
  · trivial
  · intro run hrun row hrow rule _ _
    have hids := of_decide_eq_true hstep
    rw [hrun, Option.map_some, Option.some.injEq] at hids
    rw [hids, List.mem_singleton.mp hrow]
    rfl
  · trivial

def lateRule : List MatchEvent :=
  [.collect collectionDay 900, .window (some matchedDay), .close, .sync beaconing collectionDay]

def collectedSpan : List Int :=
  spanWindows (collectionDay - dayMicros) collectionDay dailyWindows.windowSeconds dailyWindows.settleLagSeconds

theorem late_rule_silent : ∃ (tr : List MatchTaken) (st : MatchState) (rule : AnalyticsRule),
    Run (MatchState.step dailyWindows) (fun st => st) {} tr st ∧ tr.map Taken.input = lateRule ∧
      st.rules[0]? = some rule ∧ rule.enabled = true ∧ matchEvidence asciiTables rule.ruleType = .EXACT ∧
      (st.coverage dailyWindows (collectionDay - dayMicros) collectionDay).state = .COMPLETE ∧
      (∀ s ∈ collectedSpan, ¬ st.Stored 0 s) ∧ ¬ st.Unmatched collectedSpan rule.qradarId ∧
      (st.silentSection dailyWindows asciiTables 1 collectionDay).map
        (fun silent => silent.items.map (fun item => item.1.qradarId)) = some [100] ∧
      (st.evaluateRule dailyWindows asciiTables { windowDays := 1 } 0 rule collectionDay
        ⟨0, none, false, .never_run, false, false, false⟩ [] []).status = .NEVER_OBSERVED := by
  obtain ⟨tr, st, hrun, hinputs, hlate⟩ := exists_run_of_inputs (MatchState.step dailyWindows) (fun st => st) {}
    lateRule (fun (r : List MatchTaken × MatchState) => r.2.rules[0]?.map (fun (rule : AnalyticsRule) => decide (
      rule.enabled = true ∧
      matchEvidence asciiTables rule.ruleType = .EXACT ∧
      (r.2.coverage dailyWindows (collectionDay - dayMicros) collectionDay).state = .COMPLETE ∧
      (∀ s ∈ collectedSpan, ¬ (r.2.metrics.get? (0, s)).isSome) ∧
      (∃ b ∈ r.2.seen, b.start ∈ collectedSpan ∧ ∃ row ∈ b.batch.rows, row.qradarRuleId = rule.qradarId) ∧
      (r.2.silentSection dailyWindows asciiTables 1 collectionDay).map
        (fun silent => silent.items.map (fun item => item.1.qradarId)) = some [100] ∧
      (r.2.evaluateRule dailyWindows asciiTables { windowDays := 1 } 0 rule collectionDay
        ⟨0, none, false, .never_run, false, false, false⟩ [] []).status = .NEVER_OBSERVED))) (some true) (by decide +kernel)
  obtain ⟨rule, hrule, hreported⟩ := Option.map_eq_some_iff.mp hlate
  obtain ⟨henabled, hevidence, hcomplete, hnone, ⟨b, hb, hwindow, row, hrow, hid⟩, hsilent, hnever⟩ :=
    of_decide_eq_true hreported
  exact ⟨tr, st, rule, hrun, hinputs, hrule, henabled, hevidence, hcomplete, hnone,
    fun hunmatched => hunmatched b hb hwindow row hrow hid, hsilent, hnever⟩

/-! ## Verdicts of silence -/

/-- A silence was observed unless the rule is judged on firings that are all long ago, and nothing observed its silence.
Matches added to a lower bound silence no rule unless they date its last firing for the first time, and date it long
ago. -/
theorem silence_observed_iff (settings : HealthSettings) (coverageMinConfidence : Rat) (rule : AnalyticsRule)
    (now windowStart : Int) (known : Observation) (dependencies : List RuleDependency) (health : DependencyHealth) :
    (∀ measured, SilenceObserved coverageMinConfidence known dependencies health measured
        (classifyRule settings coverageMinConfidence rule now windowStart known dependencies health
          measured).toHealthVerdict ↔
      (Assessed settings coverageMinConfidence rule now windowStart dependencies health (firings known measured) →
        LongQuiet settings now known measured → Backed known measured)) ∧
    ∀ m m', IsLowerBound m → Adds m m' →
      ((¬ Silent (classifyRule settings coverageMinConfidence rule now windowStart known dependencies health
            (some m)).status →
          ¬ Silent (classifyRule settings coverageMinConfidence rule now windowStart known dependencies health
            (some m')).status) ↔
        ¬ (Assessed settings coverageMinConfidence rule now windowStart dependencies health
            (max known.triggerCount m'.events) ∧ DatesStale settings now known m m')) := by
  refine ⟨fun measured => silenceObserved_iff, fun m m' hm hadds => ?_⟩
  rw [← judged_iff]
  exact adds_silent_iff hm hadds

def quietRule : AnalyticsRule where
  qradarId := 100
  name := "Beaconing"
  ruleType := some "EVENT"
  qradarCreatedAt := some (collectionDay - 100 * dayMicros)
  lastFiredAt := some (collectionDay - 20 * dayMicros)

def oneWindowFailed : MeasuredMatches where
  evidence := .EXACT
  coverage := { state := .INCOMPLETE, expected := 720, complete := 719, failed := 1 }

/-- A rule whose matches are a lower bound, with `events` that ended twenty days ago. -/
def lowerBound (events : Nat) : MeasuredMatches where
  evidence := .LOWER_BOUND
  coverage := { state := .COMPLETE, expected := 720, complete := 720 }
  events := events
  lastMatchAt := if events = 0 then none else some (collectionDay - 20 * dayMicros)

def unobserved (lastFired : Option Int) : Observation where
  triggerCount := 0
  lastFired := lastFired
  observationComplete := false
  observationStatus := .never_run
  metricInferred := false

def quietVerdict (lastFired : Option Int) (m : MeasuredMatches) : HealthVerdict :=
  (classifyRule {} (1 / 2) { quietRule with lastFiredAt := lastFired } collectionDay (collectionDay - 30 * dayMicros)
    (unobserved lastFired) [] ⟨[], []⟩ (some m)).toHealthVerdict

/-- A failed window is called silence, and so is a first match. -/
theorem unobserved_inactive :
    ((quietVerdict quietRule.lastFiredAt oneWindowFailed).status = .INACTIVE ∧
      ¬ SilenceObserved (1 / 2) (unobserved quietRule.lastFiredAt) [] ⟨[], []⟩ (some oneWindowFailed)
        (quietVerdict quietRule.lastFiredAt oneWindowFailed)) ∧
    IsLowerBound (lowerBound 0) ∧ Adds (lowerBound 0) (lowerBound 1) ∧
      (quietVerdict none (lowerBound 0)).status = .INSUFFICIENT_DATA ∧
      (quietVerdict none (lowerBound 1)).status = .INACTIVE := by
  have hinactive : (quietVerdict quietRule.lastFiredAt oneWindowFailed).status = .INACTIVE := by decide +kernel
  refine ⟨⟨hinactive, fun h => ?_⟩, ?_, ?_, by decide +kernel, by decide +kernel⟩
  · have hbacked := h.backed (.inr hinactive)
    simp [Backed, oneWindowFailed] at hbacked
  · simp [IsLowerBound, Counted, lowerBound]
  · exact ⟨rfl, rfl, by decide, fun t ht => by simp [lowerBound] at ht⟩

/-! ## The live windows -/

structure LiveWindows (cfg : MatchConfig) (tr : List LiveTaken) (st : MatchState) : Prop where
  /-- From a window that was due to the watermark, every window of the grid has one record. -/
  recorded : ∀ e ∈ tr, ∀ a ∈ e.output.due, ∀ w, st.watermark = some w → ∀ s, windowStep cfg.windowSeconds ∣ s →
    a ≤ s → s ≤ w → st.windows.keys.count s = 1
  /-- A complete record and the rows of its window are those of a batch that a search of a tick measured whole. -/
  complete : ∀ s row, st.windows.get? s = some row → row.origin = .LIVE → row.status = .COMPLETE →
    ∃ e ∈ tr, ∃ batch : RuleMatchBatch, (∃ search ∈ e.output.sent, search.Answers cfg s batch) ∧
      batch.truncated = false ∧ batch.malformedRows = 0 ∧
      row = (foldRuleMatches batch (ruleIdMap e.before.rules) s cfg.windowSeconds).window.row .LIVE row.attempts ∧
      ∀ i, st.metrics.get? (i, s) =
        (foldRuleMatches batch (ruleIdMap e.before.rules) s cfg.windowSeconds).metricOf cfg.windowSeconds i

def NeverStalls (cfg : MatchConfig) (tr : List LiveTaken) (st : MatchState) : Prop :=
  ∀ tr₁ (seg : List LiveTaken) st₁, tr = tr₁ ++ seg → Run (liveStep cfg) LiveReport.state st₁ seg st →
    Run (liveStep cfg) LiveReport.state {} tr₁ st₁ → (∀ e ∈ seg, e.input.isTick = true → e.output.due ≠ []) →
    seg.countP (fun e => e.input.isTick) = cfg.maxWindowAttempts → Advanced st₁ st

/-- While a run without a watermark takes the window that was attempted before, no live window is lost and the
collection goes on. -/
theorem live_windows_kept (hattempts : 0 < cfg.maxWindowAttempts) {tr : List LiveTaken} {st : MatchState}
    (h : Run (liveStep cfg) LiveReport.state {} tr st) (hretries : ∀ e ∈ tr, LiveTaken.Retries cfg e) :
    LiveWindows cfg tr st ∧
      (∀ e ∈ tr, (Advanced e.before e.output.state ∨ e.output.state.watermark = e.before.watermark) ∧
        e.output.sent.length ≤ 2 * e.output.due.length - 1) ∧ NeverStalls cfg tr st := by
  have hrecord := h.invariant (LiveRecord cfg) (LiveTaken.Retries cfg) (.inl ⟨unattempted_initial, by simp⟩)
    (fun hI hc hs => hI.step hc hs) hretries
  refine ⟨⟨?_, ?_⟩, ?_, ?_⟩
  · intro e he a ha w hw s hgrid hfrom hto
    rcases hrecord with ⟨hnone, -⟩ | ⟨first, due, htracked, hwindows, -⟩
    · cases hnone.watermark.symm.trans hw
    · have hlt : s < due := by
        rcases htracked.live.watermark with ⟨hnone, -⟩ | ⟨hsome, -⟩
        · cases hnone.symm.trans hw
        · cases hsome.symm.trans hw
          have := windowStep_pos cfg.windowSeconds_pos
          omega
      have hsome := htracked.live.recorded s hgrid (Int.le_trans (hwindows e he a ha) hfrom) hlt
      obtain ⟨row, hrow⟩ := Option.isSome_iff_exists.mp hsome
      exact List.count_eq_one_of_mem htracked.order.keys (List.mem_map_of_mem (Dict.mem_of_get? hrow))
  · intro s row hrow hlive hcomplete
    rcases hrecord with ⟨hnone, -⟩ | ⟨first, due, htracked, -, hseen⟩
    · rw [hnone.windows] at hrow
      cases hrow
    · obtain ⟨hfirst, -⟩ := htracked.live.live s row hrow hlive
      obtain ⟨b, hb, rfl, htruncated, hmalformed, hrecord, hrows⟩ := htracked.live.exact s row hrow hlive hcomplete
      rcases hseen b hb with hlt | ⟨e, he, hids, hsearch⟩
      · exact absurd hfirst (Int.not_le.mpr hlt)
      · rw [hids] at hrecord hrows
        exact ⟨e, he, b.batch, hsearch, htruncated, hmalformed, hrecord, hrows⟩
  · refine (h.invariant (fun tr st => Standing cfg 0 st ∧ ∀ e ∈ tr, (Advanced e.before e.output.state ∨
      e.output.state.watermark = e.before.watermark) ∧ e.output.sent.length ≤ 2 * e.output.due.length - 1)
      (LiveTaken.Retries cfg) ⟨.inl ⟨unattempted_initial, rfl⟩, by simp⟩ ?_ hretries).2
    intro tr st event report ⟨hstands, hold⟩ hretry hstep
    have hnext := hstands.step hretry hstep
    refine ⟨hnext.1, fun e he => ?_⟩
    rcases List.mem_append.mp he with he | he
    · exact hold e he
    · cases List.mem_singleton.mp he
      exact hnext.2
  · rintro tr₁ seg st₁ rfl hseg hrun₁ hdue hcount
    have hbegun := (hrun₁.reached (Standing cfg 0) (LiveTaken.Retries cfg) (.inl ⟨unattempted_initial, rfl⟩)
      (fun hs hc hstep => (hs.step hc hstep).1) (fun e he => hretries e (List.mem_append_left _ he))).2
    obtain ⟨-, hadvanced | ⟨-, hstands⟩⟩ := hbegun.segment hseg (fun e he => hretries e (List.mem_append_right _ he)) hdue
    · exact hadvanced
    · exact absurd (hcount ▸ hstands.lt hattempts) (Nat.lt_irrefl _)

def hourlyWindows : MatchConfig where
  sanitizeText := some
  windowSeconds := 3600
  settleLagSeconds := 300
  maxRows := 2000
  maxCatchupSeconds := 86400
  maxWindowsPerRun := 6
  maxWindowAttempts := 3
  windowSeconds_pos := by omega

def hour : Int := 3600 * secondMicros

def hourlyTick (hours : Int) (answers : Bool) : LiveEvent :=
  let batch : RuleMatchBatch := { rows := [⟨100, 3, 7⟩], rowCap := 2000, queryVersion := failedQueryVersion }
  .tick {
    now := hours * hour + 600 * secondMicros
    cadenceSeconds := 7200
    provider := {
      getRuleMatches := fun _ _ _ => if answers then some batch else none
      getRuleMatchesWindowed := fun _ _ _ => none } }

def failedHour : List LiveEvent := [.sync beaconing 0, hourlyTick 2 true, hourlyTick 3 false, hourlyTick 5 true]

theorem live_windows_kept_failed : ∃ (tr : List LiveTaken) (st : MatchState),
    Run (liveStep hourlyWindows) LiveReport.state {} tr st ∧ tr.map Taken.input = failedHour ∧
      st.watermark = some (4 * hour) ∧ LiveWindows hourlyWindows tr st ∧ NeverStalls hourlyWindows tr st := by
  obtain ⟨tr, st, hrun, hinputs, hcollected⟩ := exists_run_of_inputs (liveStep hourlyWindows) LiveReport.state {} failedHour
    (fun (r : List LiveTaken × MatchState) => decide (r.2.watermark = some (4 * hour)) &&
      r.1.all (fun (e : LiveTaken) => e.before.watermark.isSome || e.before.windows.isEmpty)) true (by with_unfolding_all decide)
  simp only [Bool.and_eq_true, decide_eq_true_eq, List.all_eq_true, Bool.or_eq_true] at hcollected
  obtain ⟨hwatermark, hbefore⟩ := hcollected
  have hkept := live_windows_kept (by decide) hrun ?_
  · exact ⟨tr, st, hrun, hinputs, hwatermark, hkept.1, hkept.2.2⟩
  · rintro ⟨before, input, output⟩ he
    cases input with
    | sync dto now => trivial
    | tick tick =>
      intro hnone s horigin
      rcases hbefore _ he with hsome | hempty
      · rw [hnone] at hsome
        cases hsome
      · rw [MatchState.originAt, List.isEmpty_iff.mp hempty] at horigin
        cases horigin

def downAtFirst : List LiveEvent := [hourlyTick 2 false, hourlyTick 4 false, hourlyTick 6 false, hourlyTick 8 true]

/-- Three ticks without a watermark each have a window due; the hours between their windows have no record. -/
theorem live_windows_lost : ∃ (tr : List LiveTaken) (st : MatchState),
    Run (liveStep hourlyWindows) LiveReport.state {} tr st ∧ tr.map Taken.input = downAtFirst ∧
      tr.map (fun e => (e.output.due, e.output.state.watermark)) =
        [([hour], none), ([3 * hour], none), ([5 * hour], none), ([7 * hour], some (7 * hour))] ∧
      st.windows.keys = [hour, 3 * hour, 5 * hour, 7 * hour] ∧ ¬ LiveWindows hourlyWindows tr st := by
  obtain ⟨tr, st, hrun, hinputs, hcomputed⟩ := exists_run_of_inputs (liveStep hourlyWindows) LiveReport.state {} downAtFirst
    (fun (r : List LiveTaken × MatchState) =>
      (r.1.map (fun (e : LiveTaken) => (e.output.due, e.output.state.watermark)), r.2.watermark, r.2.windows.keys))
    ([([hour], none), ([3 * hour], none), ([5 * hour], none), ([7 * hour], some (7 * hour))], some (7 * hour),
      [hour, 3 * hour, 5 * hour, 7 * hour]) (by with_unfolding_all decide)
  simp only [Prod.mk.injEq] at hcomputed
  obtain ⟨hticks, hwatermark, hkeys⟩ := hcomputed
  refine ⟨tr, st, hrun, hinputs, hticks, hkeys, fun hkept => ?_⟩
  have hfirst : ([hour], (none : Option Int)) ∈ tr.map (fun e => (e.output.due, e.output.state.watermark)) := by
    rw [hticks]
    exact List.mem_cons_self
  obtain ⟨e, he, hdue⟩ := List.mem_map.mp hfirst
  simp only [Prod.mk.injEq] at hdue
  have hcount := hkept.recorded e he hour (by rw [hdue.1]; exact List.mem_singleton_self _) (7 * hour) hwatermark (2 * hour)
    (by decide) (by decide) (by decide)
  rw [hkeys] at hcount
  exact absurd hcount (by decide)

end QRadarDashboard.Rules
