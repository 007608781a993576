import QRadarDashboard.Rules.Lemmas.MatchCollector

/-!
# The windows of the live pass
-/

namespace QRadarDashboard.Rules
open Lib

/-! ## Consecutive windows -/

def windowsFrom (first step : Int) (n : Nat) : List Int := (List.range n).map (fun (i : Nat) => first + i * step)

section Consecutive

variable {first step : Int} {n m : Nat}

theorem windowsFrom_succ : windowsFrom first step (n + 1) = first :: windowsFrom (first + step) step n := by
  simp only [windowsFrom, List.range_succ_eq_map, List.map_cons, List.map_map, Function.comp_def]
  refine congrArg₂ List.cons (by simp) (List.map_congr_left (fun i _ => ?_))
  rw [Nat.succ_eq_add_one, Int.natCast_add, Int.add_mul, Int.natCast_one, Int.one_mul]
  omega

theorem take_windowsFrom : (windowsFrom first step n).take m = windowsFrom first step (min m n) := by
  rw [windowsFrom, ← List.map_take, List.take_range, windowsFrom]

theorem windowsBetween_eq {until_} :
    windowsBetween first until_ step = windowsFrom first step ((until_ - first) / step).toNat := rfl

theorem mem_windowsFrom {s} (h : s ∈ windowsFrom first step n) (hstep : 0 < step) : first ≤ s := by
  obtain ⟨i, -, rfl⟩ := List.mem_map.mp h
  have := Int.mul_nonneg (Int.natCast_nonneg i) (Int.le_of_lt hstep)
  omega

end Consecutive

/-! ## What a write does -/

section Writes

variable {cfg : MatchConfig} {st : MatchState} {start s : Int}

theorem get?_writeWindow {window attempts}
    (hopen : ∀ row, st.windows.get? window.windowStart = some row → row.origin = .LIVE ∧ row.status = .FAILED) :
    (st.writeWindow window attempts).windows.get? s =
      if s = window.windowStart then some (window.row .LIVE attempts) else st.windows.get? s := by
  unfold MatchState.writeWindow
  cases hold : st.windows.get? window.windowStart with
  | none => rw [Dict.get?_set]
  | some old =>
    obtain ⟨horigin, hstatus⟩ := hopen old hold
    simp only [hstatus, horigin, reduceCtorEq, and_false, if_false]
    rw [Dict.get?_set]

theorem get?_writeRows (rows : List MatchRowToWrite) (i : Nat) (hstart : s ≠ start) :
    (st.writeRows cfg start rows).metrics.get? (i, s) = st.metrics.get? (i, s) := by
  unfold MatchState.writeRows
  rw [Dict.get?_foldl_set_of_ne (fun row : MatchRowToWrite => (row.ruleId, start)) _ _ (by simp [hstart.symm]),
    Dict.get?_filter st.metrics (fun key => ¬ (key.2 = start ∧ key.1 < st.rules.length)) (i, s)]
  simp [hstart]

def MatchFold.metricOf (fold : MatchFold) (windowSeconds i : Nat) : Option RuleMatchMetric :=
  (fold.rows.find? (fun row => row.ruleId = i)).map (fun row => row.metric windowSeconds)

theorem get?_foldl_rows {rows : List MatchRowToWrite} (hnodup : (rows.map MatchRowToWrite.ruleId).Nodup)
    (windowSeconds : Nat) (d : Dict (Nat × Int) RuleMatchMetric) (i : Nat) :
    (rows.foldl (fun d row => d.set (row.ruleId, start) (row.metric windowSeconds)) d).get? (i, start) =
      ((rows.find? (fun row => row.ruleId = i)).map (fun row => row.metric windowSeconds)).or (d.get? (i, start)) := by
  induction rows generalizing d with
  | nil => rfl
  | cons row rows ih =>
    obtain ⟨hnew, hrest⟩ := List.nodup_cons.mp hnodup
    rw [List.foldl_cons, ih hrest, Dict.get?_set, List.find?_cons]
    by_cases hi : row.ruleId = i
    · have hnone : rows.find? (fun row => row.ruleId = i) = none :=
        List.find?_eq_none.mpr (fun other hother heq => hnew (List.mem_map.mpr ⟨other, hother, by simpa [hi] using heq⟩))
      simp [hi, hnone]
    · simp [hi, Ne.symm hi]

theorem nodup_foldRows (batch : RuleMatchBatch) (ruleIds : Dict Int Nat) (windowSeconds : Nat) :
    ((foldRuleMatches batch ruleIds start windowSeconds).rows.map MatchRowToWrite.ruleId).Nodup := by
  have hkeys (rows : List RuleMatchRow) (totals : Dict Nat (Nat × Nat)) (h : totals.keys.Nodup) :
      (rows.foldl (addMatch ruleIds) totals).keys.Nodup := by
    induction rows generalizing totals with
    | nil => exact h
    | cons row rows ih =>
      refine ih _ ?_
      unfold addMatch
      split
      · exact h
      · exact Dict.nodup_keys_set h _ _
  have hnodup := hkeys batch.rows [] .nil
  simp only [foldRuleMatches, List.map_map]
  exact hnodup

theorem get?_writeRows_self {batch ruleIds}
    (hknown : ∀ i s, (st.metrics.get? (i, s)).isSome → i < st.rules.length) (i : Nat) :
    (st.writeRows cfg start (foldRuleMatches batch ruleIds start cfg.windowSeconds).rows).metrics.get? (i, start) =
      (foldRuleMatches batch ruleIds start cfg.windowSeconds).metricOf cfg.windowSeconds i := by
  have hcleared : Dict.get? (st.metrics.filter (fun item => ¬ (item.1.2 = start ∧ item.1.1 < st.rules.length))) (i, start) =
      none := by
    rw [Dict.get?_filter st.metrics (fun key => ¬ (key.2 = start ∧ key.1 < st.rules.length)) (i, start)]
    cases hget : st.metrics.get? (i, start) with
    | none => simp
    | some metric => simp [hknown i start (by rw [hget]; rfl)]
  unfold MatchState.writeRows
  rw [get?_foldl_rows (nodup_foldRows batch ruleIds cfg.windowSeconds), hcleared, Option.or_none]
  rfl

theorem get?_skipped (l : List Int) (row : Int → RuleMatchWindow) (d : Dict Int RuleMatchWindow) (s : Int) :
    (l.foldl (fun d start => insertNew d start (row start)) d).get? s =
      (d.get? s).or (if s ∈ l then some (row s) else none) := by
  induction l generalizing d with
  | nil => simp
  | cons start l ih =>
    rw [List.foldl_cons, ih, get?_insertNew]
    by_cases hs : s = start
    · subst hs
      cases d.get? s <;> simp
    · simp [hs]

end Writes

/-! ## The windows that are recorded -/

def MatchState.ExactAt (cfg : MatchConfig) (st : MatchState) (s : Int) (row : RuleMatchWindow) : Prop :=
  ∃ b ∈ st.seen, b.start = s ∧ b.batch.truncated = false ∧ b.batch.malformedRows = 0 ∧
    row = (foldRuleMatches b.batch b.ruleIds s cfg.windowSeconds).window.row .LIVE row.attempts ∧
    ∀ i, st.metrics.get? (i, s) = (foldRuleMatches b.batch b.ruleIds s cfg.windowSeconds).metricOf cfg.windowSeconds i

structure Live (cfg : MatchConfig) (first due : Int) (st : MatchState) : Prop where
  firstGrid : windowStep cfg.windowSeconds ∣ first
  dueGrid : windowStep cfg.windowSeconds ∣ due
  watermark : st.watermark = none ∧ due = first ∨
    st.watermark = some (due - windowStep cfg.windowSeconds) ∧ first < due
  recorded : ∀ s, windowStep cfg.windowSeconds ∣ s → first ≤ s → s < due → (st.windows.get? s).isSome
  live : ∀ s row, st.windows.get? s = some row → row.origin = .LIVE →
    first ≤ s ∧ (s < due ∨ s = due ∧ row.status = .FAILED ∧ row.attempts < cfg.maxWindowAttempts)
  history : ∀ s row, st.windows.get? s = some row → row.origin = .HISTORY → s < first
  exact : ∀ s row, st.windows.get? s = some row → row.origin = .LIVE → row.status = .COMPLETE → st.ExactAt cfg s row
  known : ∀ i s, (st.metrics.get? (i, s)).isSome → i < st.rules.length

section Steps

variable {cfg : MatchConfig} {st : MatchState} {first due s : Int}

theorem Live.first_le (h : Live cfg first due st) : first ≤ due := by
  rcases h.watermark with ⟨-, heq⟩ | ⟨-, hlt⟩
  · exact Int.le_of_eq heq.symm
  · exact Int.le_of_lt hlt

theorem Live.dueOpen (h : Live cfg first due st) {row} (hrow : st.windows.get? due = some row) :
    row.origin = .LIVE ∧ row.status = .FAILED := by
  have horigin : row.origin = .LIVE := by
    cases horigin : row.origin with
    | LIVE => rfl
    | HISTORY => exact absurd (h.history due row hrow horigin) (Int.not_lt.mpr h.first_le)
  obtain ⟨-, hlt | ⟨-, hstatus, -⟩⟩ := h.live due row hrow horigin
  · exact absurd hlt (Int.lt_irrefl _)
  · exact ⟨horigin, hstatus⟩

theorem Live.attempts_lt (h : Live cfg first due st) (hattempts : 0 < cfg.maxWindowAttempts) :
    st.priorAttempts due < cfg.maxWindowAttempts := by
  unfold MatchState.priorAttempts
  cases hrow : st.windows.get? due with
  | none => exact hattempts
  | some row =>
    obtain ⟨horigin, hstatus⟩ := h.dueOpen hrow
    obtain ⟨-, hlt | ⟨-, -, hless⟩⟩ := h.live due row hrow horigin
    · exact absurd hlt (Int.lt_irrefl _)
    · simpa only [hstatus, if_true] using hless

theorem Live.advance (h : Live cfg first due st) {st' row}
    (hwindows : ∀ s, st'.windows.get? s = if s = due then some row else st.windows.get? s) (horigin : row.origin = .LIVE)
    (hwatermark : st'.watermark = some due) (hseen : ∀ b ∈ st.seen, b ∈ st'.seen)
    (hmetrics : ∀ i s, s ≠ due → st'.metrics.get? (i, s) = st.metrics.get? (i, s))
    (hexact : row.status = .COMPLETE → st'.ExactAt cfg due row)
    (hknown : ∀ i s, (st'.metrics.get? (i, s)).isSome → i < st'.rules.length) :
    Live cfg first (due + windowStep cfg.windowSeconds) st' := by
  have hpos := windowStep_pos cfg.windowSeconds_pos
  have hle := h.first_le
  refine ⟨h.firstGrid, Int.dvd_add h.dueGrid (Int.dvd_refl _), .inr ⟨?_, by omega⟩, ?_, ?_, ?_, ?_, hknown⟩
  · rw [hwatermark, Int.add_sub_cancel]
  · intro s hgrid hfirst hlt
    rw [hwindows]
    split
    · rfl
    · rename_i hne
      refine h.recorded s hgrid hfirst (Int.not_le.mp (fun hge => ?_))
      -- the grid has no point strictly between two neighbours
      have := Int.le_of_dvd (by omega) (Int.dvd_sub hgrid h.dueGrid)
      omega
  · intro s old hold hlive
    rw [hwindows] at hold
    split at hold
    · exact ⟨by omega, .inl (by omega)⟩
    · obtain ⟨hfirst, hlt | ⟨heq, -⟩⟩ := h.live s old hold hlive
      · exact ⟨hfirst, .inl (by omega)⟩
      · exact ⟨hfirst, .inl (by omega)⟩
  · intro s old hold hhistory
    rw [hwindows] at hold
    split at hold
    · cases hold
      cases horigin.symm.trans hhistory
    · exact h.history s old hold hhistory
  · intro s old hold hlive hcomplete
    rw [hwindows] at hold
    split at hold
    · rename_i heq
      cases hold
      subst heq
      exact hexact hcomplete
    · rename_i hne
      obtain ⟨b, hb, hstart, htruncated, hmalformed, hrow, hrows⟩ := h.exact s old hold hlive hcomplete
      exact ⟨b, hseen b hb, hstart, htruncated, hmalformed, hrow, fun i => (hmetrics i s hne).trans (hrows i)⟩

theorem foldRow_known {batch ruleIds rules row start windowSeconds} (hsound : Sound rules ruleIds)
    (hrow : row ∈ (foldRuleMatches batch ruleIds start windowSeconds).rows) : row.ruleId < rules.length := by
  obtain ⟨item, hitem, rfl⟩ := List.mem_map.mp hrow
  have hsome : ((batch.rows.foldl (addMatch ruleIds) []).get? item.1).isSome := by
    cases hget : (batch.rows.foldl (addMatch ruleIds) []).get? item.1 with
    | none => exact absurd (List.mem_map_of_mem hitem) (Dict.not_mem_keys_of_get? hget)
    | some total => rfl
  rw [get?_foldl_addMatch] at hsome
  simp only [Dict.get?_nil, Option.isSome_none, Bool.false_or, List.any_eq_true, decide_eq_true_eq] at hsome
  obtain ⟨found, -, hid⟩ := hsome
  have hrule := hsound _ _ hid
  rw [← List.getElem?_map] at hrule
  simpa using (List.getElem?_eq_some_iff.mp hrule).1

theorem Live.record (h : Live cfg first due st) {ruleIds} (hsound : Sound st.rules ruleIds)
    (batch : RuleMatchBatch) (run : Option MatchRun) :
    Live cfg first (due + windowStep cfg.windowSeconds) { st.recordWindow cfg due batch ruleIds with run } := by
  let fold := foldRuleMatches batch ruleIds due cfg.windowSeconds
  let rowed := st.writeRows cfg due fold.rows
  obtain ⟨hrules, hmetrics, -⟩ := writeWindow_frame rowed fold.window (st.priorAttempts due + 1)
  refine h.advance (fun s => get?_writeWindow (fun row hrow => h.dueOpen hrow)) rfl rfl
    (fun b hb => List.mem_append_left _ hb) (fun i s hne => ?_) (fun hcomplete => ?_) (fun i s hsome => ?_)
  · exact (congrArg (Dict.get? · (i, s)) hmetrics).trans (get?_writeRows fold.rows i hne)
  · have hwhole : ¬ (batch.truncated = true ∨ 0 < batch.malformedRows) := by
      intro hpart
      have hstatus : fold.window.status = .COMPLETE := hcomplete
      simp [fold, foldRuleMatches, hpart] at hstatus
    refine ⟨⟨due, batch, ruleIds⟩, List.mem_append_right _ (List.mem_singleton_self _), rfl, ?_, ?_, rfl, fun i => ?_⟩
    · simpa using fun ht => hwhole (.inl ht)
    · exact Nat.eq_zero_of_not_pos (fun hm => hwhole (.inr hm))
    · exact (congrArg (Dict.get? · (i, due)) hmetrics).trans (get?_writeRows_self h.known i)
  · refine Nat.lt_of_lt_of_eq ?_ (congrArg List.length hrules).symm
    have hsome : (rowed.metrics.get? (i, s)).isSome := by
      rw [← hmetrics]
      exact hsome
    by_cases hs : s = due
    · subst hs
      rw [get?_writeRows_self h.known i, MatchFold.metricOf, Option.isSome_map] at hsome
      obtain ⟨row, hfind⟩ := Option.isSome_iff_exists.mp hsome
      have hi : row.ruleId = i := by simpa using List.find?_some hfind
      exact hi ▸ foldRow_known hsound (List.mem_of_find?_eq_some hfind)
    · rw [get?_writeRows fold.rows i hs] at hsome
      exact h.known i s hsome

theorem Live.giveUp (h : Live cfg first due st) (hout : cfg.maxWindowAttempts ≤ st.priorAttempts due + 1)
    (rest : List Int) (ruleIds : Option (Dict Int Nat)) :
    Live cfg first (due + windowStep cfg.windowSeconds) (st.failWindow cfg due rest ruleIds) := by
  let window := failedWindow due cfg.windowSeconds cfg.maxRows failedQueryVersion
  obtain ⟨hrules, hmetrics, -, -, -, hseen⟩ := writeWindow_frame st window (st.priorAttempts due + 1)
  simp only [MatchState.failWindow, hout, if_true]
  refine h.advance (fun s => get?_writeWindow (fun row hrow => h.dueOpen hrow)) rfl rfl
    (fun b hb => hseen ▸ hb) (fun i s _ => congrArg (Dict.get? · (i, s)) hmetrics) (fun hcomplete => by cases hcomplete)
    (fun i s hsome => ?_)
  rw [show (st.writeWindow window (st.priorAttempts due + 1)).metrics = st.metrics from hmetrics] at hsome
  exact Nat.lt_of_lt_of_eq (h.known i s hsome) (congrArg List.length hrules).symm

theorem Live.hold (h : Live cfg first due st) (hleft : ¬ cfg.maxWindowAttempts ≤ st.priorAttempts due + 1)
    (rest : List Int) (ruleIds : Option (Dict Int Nat)) :
    Live cfg first due (st.failWindow cfg due rest ruleIds) ∧
      (st.failWindow cfg due rest ruleIds).priorAttempts due = st.priorAttempts due + 1 := by
  let window := failedWindow due cfg.windowSeconds cfg.maxRows failedQueryVersion
  obtain ⟨hrules, hmetrics, hwatermark, -, -, hseen⟩ := writeWindow_frame st window (st.priorAttempts due + 1)
  have hwindows (s : Int) : (st.failWindow cfg due rest ruleIds).windows.get? s =
      if s = due then some (window.row .LIVE (st.priorAttempts due + 1)) else st.windows.get? s := by
    simp only [MatchState.failWindow, hleft, if_false]
    exact get?_writeWindow (fun row hrow => h.dueOpen hrow)
  refine ⟨⟨h.firstGrid, h.dueGrid, ?_, ?_, ?_, ?_, ?_, ?_⟩, ?_⟩
  · simp only [MatchState.failWindow, hleft, if_false]
    exact hwatermark.symm ▸ h.watermark
  · intro s hgrid hfirst hlt
    rw [hwindows, if_neg (by omega)]
    exact h.recorded s hgrid hfirst hlt
  · intro s row hrow hlive
    rw [hwindows] at hrow
    split at hrow
    · rename_i heq
      cases hrow
      exact ⟨heq ▸ h.first_le, .inr ⟨heq, rfl, Nat.not_le.mp hleft⟩⟩
    · exact h.live s row hrow hlive
  · intro s row hrow hhistory
    rw [hwindows] at hrow
    split at hrow
    · cases hrow
      cases hhistory
    · exact h.history s row hrow hhistory
  · intro s row hrow hlive hcomplete
    rw [hwindows] at hrow
    split at hrow
    · cases hrow
      cases hcomplete
    · obtain ⟨-, hmetrics', hseen', -⟩ := failWindow_frame cfg st due rest ruleIds
      unfold MatchState.ExactAt
      rw [hmetrics', hseen']
      exact h.exact s row hrow hlive hcomplete
  · obtain ⟨hrules', hmetrics', -⟩ := failWindow_frame cfg st due rest ruleIds
    rw [hrules', hmetrics']
    exact h.known
  · unfold MatchState.priorAttempts
    rw [hwindows, if_pos rfl]
    rfl

theorem Live.congr (h : Live cfg first due st) {st'} (hwindows : st'.windows = st.windows)
    (hmetrics : st'.metrics = st.metrics) (hwatermark : st'.watermark = st.watermark)
    (hrules : st.rules.length ≤ st'.rules.length) (hseen : ∀ b ∈ st.seen, b ∈ st'.seen) : Live cfg first due st' := by
  refine ⟨h.firstGrid, h.dueGrid, hwatermark ▸ h.watermark, hwindows ▸ h.recorded, hwindows ▸ h.live, hwindows ▸ h.history,
    ?_, fun i s hsome => Nat.lt_of_lt_of_le (h.known i s (hmetrics ▸ hsome)) hrules⟩
  intro s row hrow hlive hcomplete
  obtain ⟨b, hb, hexact⟩ := h.exact s row (hwindows ▸ hrow) hlive hcomplete
  exact ⟨b, hseen b hb, hmetrics ▸ hexact⟩

theorem length_syncRule (rules : List AnalyticsRule) (dto : AnalyticsRuleDto) (now : Int) :
    rules.length ≤ (syncRule cfg rules dto now).length := by
  unfold syncRule
  split
  · simp
  · simp

theorem floorToWindow_of_dvd (hgrid : windowStep cfg.windowSeconds ∣ s) : floorToWindow s cfg.windowSeconds = s := by
  obtain ⟨k, rfl⟩ := hgrid
  have hseconds : windowStep cfg.windowSeconds * k = cfg.windowSeconds * k * secondMicros := by
    unfold windowStep
    rw [Int.mul_assoc, Int.mul_comm secondMicros, ← Int.mul_assoc]
  have hmod : (cfg.windowSeconds * k : Int) % cfg.windowSeconds = 0 := Int.mul_emod_right _ _
  rw [floorToWindow, hseconds, Int.mul_tdiv_cancel _ (by decide)]
  simp only [hmod, Int.sub_zero]

theorem Live.firstStart (h : Live cfg first due st) (hbegun : st.watermark ≠ none) : st.firstStart cfg = some due := by
  have hpos := windowStep_pos cfg.windowSeconds_pos
  rcases h.watermark with ⟨hnone, -⟩ | ⟨hw, -⟩
  · exact absurd hnone hbegun
  · simp only [MatchState.firstStart, hw, Option.map_some, Int.sub_add_cancel, floorToWindow_of_dvd h.dueGrid]
    rw [if_neg (by omega)]

theorem Live.skip (h : Live cfg first due st) (now : Int) : ∃ due', Live cfg first due' (st.skipBeyondHorizon cfg now) ∧
    (due < due' ∨ due' = due ∧ st.skipBeyondHorizon cfg now = st) := by
  have hsame : ∃ due', Live cfg first due' st ∧ (due < due' ∨ due' = due ∧ st = st) := ⟨due, h, .inr ⟨rfl, rfl⟩⟩
  have hpos := windowStep_pos cfg.windowSeconds_pos
  unfold MatchState.skipBeyondHorizon
  cases hfirst : st.firstStart cfg with
  | none => exact hsame
  | some start =>
    have hbegun : st.watermark ≠ none := by
      intro hnone
      simp [MatchState.firstStart, hnone] at hfirst
    cases hfirst.symm.trans (h.firstStart hbegun)
    generalize hhorizon : min (floorToWindow (settledUntil now cfg.windowSeconds cfg.settleLagSeconds -
      cfg.maxCatchupSeconds * secondMicros) cfg.windowSeconds)
      (settledUntil now cfg.windowSeconds cfg.settleLagSeconds - windowStep cfg.windowSeconds) = horizon
    have hgrid : windowStep cfg.windowSeconds ∣ horizon := hhorizon ▸ horizon_dvd cfg now
    simp only [hhorizon]
    split
    · exact hsame
    · rename_i hbeyond
      have hlater : due < horizon := Int.not_le.mp hbeyond
      have hle := h.first_le
      let skipped : Int → RuleMatchWindow := fun start =>
        (failedWindow start cfg.windowSeconds cfg.maxRows failedQueryVersion).row .LIVE 0
      have hmem (s : Int) (hs : windowStep cfg.windowSeconds ∣ s) (hdue : due ≤ s) (hlt : s < horizon) :
          s ∈ windowsBetween due horizon (windowStep cfg.windowSeconds) := by
        have hnext := Int.le_of_dvd (by omega) (Int.dvd_sub hgrid hs)
        obtain ⟨k, hk⟩ := Int.dvd_sub hs h.dueGrid
        have hk0 : 0 ≤ k := by
          refine Int.not_lt.mp (fun hneg => ?_)
          have := Int.mul_neg_of_pos_of_neg hpos hneg
          omega
        refine (mem_windowsBetween hpos).mpr ⟨k.toNat, ?_, by omega⟩
        rw [Int.toNat_of_nonneg hk0, Int.mul_comm]
        omega
      have hwindows (s : Int) := get?_skipped (windowsBetween due horizon (windowStep cfg.windowSeconds)) skipped st.windows s
      refine ⟨horizon, ⟨h.firstGrid, hgrid, .inr ⟨rfl, by omega⟩, ?_, ?_, ?_, ?_, h.known⟩, .inl hlater⟩
      · intro s hs hfrom hlt
        refine (congrArg Option.isSome (hwindows s)).trans ?_
        by_cases hdue : s < due
        · rw [Option.isSome_or, h.recorded s hs hfrom hdue, Bool.true_or]
        · rw [if_pos (hmem s hs (Int.not_lt.mp hdue) hlt), Option.isSome_or, Option.isSome_some, Bool.or_true]
      · intro s row hrow hlive
        rcases Option.or_eq_some_iff.mp ((hwindows s).symm.trans hrow) with hold | ⟨-, hnew⟩
        · obtain ⟨hfrom, hlt | ⟨heq, -⟩⟩ := h.live s row hold hlive
          · exact ⟨hfrom, .inl (by omega)⟩
          · exact ⟨hfrom, .inl (by omega)⟩
        · split at hnew
          · rename_i hbetween
            obtain ⟨-, -, hend⟩ := (mem_windowsBetween hpos).mp hbetween
            have := first_le_of_mem_windowsBetween hpos hbetween
            exact ⟨by omega, .inl (by omega)⟩
          · cases hnew
      · intro s row hrow hhistory
        rcases Option.or_eq_some_iff.mp ((hwindows s).symm.trans hrow) with hold | ⟨-, hnew⟩
        · exact h.history s row hold hhistory
        · split at hnew
          · cases hnew
            cases hhistory
          · cases hnew
      · intro s row hrow hlive hcomplete
        rcases Option.or_eq_some_iff.mp ((hwindows s).symm.trans hrow) with hold | ⟨-, hnew⟩
        · exact h.exact s row hold hlive hcomplete
        · split at hnew
          · cases hnew
            cases hcomplete
          · cases hnew

theorem Live.windowsToCollect (h : Live cfg first due st) {now}
    (hfirst : st.watermark = none → first = lastWindow cfg now) (limit : Nat) :
    ∃ n, st.windowsToCollect cfg now limit = windowsFrom due (windowStep cfg.windowSeconds) n := by
  have hstart : (st.firstStart cfg).getD (settledUntil now cfg.windowSeconds cfg.settleLagSeconds -
      windowStep cfg.windowSeconds) = due := by
    rcases h.watermark with ⟨hnone, heq⟩ | ⟨hw, -⟩
    · rw [show st.firstStart cfg = none by simp [MatchState.firstStart, hnone], Option.getD_none, heq, hfirst hnone]
      rfl
    · rw [h.firstStart (by rw [hw]; simp), Option.getD_some]
  unfold MatchState.windowsToCollect
  simp only [hstart, windowsBetween_eq, take_windowsFrom]
  exact ⟨_, rfl⟩

theorem Live.historyWindow (h : Live cfg first due st) (hkeys : st.windows.keys.Nodup)
    (hanchored : (st.windows.get? first).isSome) {start anchor} (hanchor : st.anchor cfg = some anchor)
    (hbefore : start < anchor) {ruleIds} (hsound : Sound st.rules ruleIds) (batch : RuleMatchBatch)
    (run : Option MatchRun) :
    Live cfg first due { st.writeHistory cfg (foldRuleMatches batch ruleIds start cfg.windowSeconds) with
      run, seen := st.seen ++ [⟨start, batch, ruleIds⟩] } ∧
    ((st.writeHistory cfg (foldRuleMatches batch ruleIds start cfg.windowSeconds)).windows.get? first).isSome ∧
    (st.writeHistory cfg (foldRuleMatches batch ruleIds start cfg.windowSeconds)).priorAttempts due = st.priorAttempts due ∧
    start < first := by
  let fold := foldRuleMatches batch ruleIds start cfg.windowSeconds
  have hstart : start < first := by
    obtain ⟨row, hrow⟩ := Option.isSome_iff_exists.mp hanchored
    have hlive : row.origin = .LIVE := by
      cases horigin : row.origin with
      | LIVE => rfl
      | HISTORY => exact absurd (h.history first row hrow horigin) (Int.lt_irrefl _)
    obtain ⟨oldest, hmin, rfl⟩ := Option.map_eq_some_iff.mp hanchor
    have hleast := (List.min?_eq_some_iff.mp hmin).2 first (List.mem_map.mpr ⟨(first, row),
      List.mem_filter.mpr ⟨(Dict.get?_eq_some_iff hkeys).mp hrow, by simpa using hlive⟩, rfl⟩)
    have hfloor := floorToWindow_mono cfg.windowSeconds_pos hleast
    rw [floorToWindow_of_dvd h.firstGrid] at hfloor
    exact Int.lt_of_lt_of_le hbefore hfloor
  have hwindows (s : Int) : (st.writeHistory cfg fold).windows.get? s =
      if s = start then (st.windows.get? start).or (some (fold.window.row .HISTORY 1)) else st.windows.get? s :=
    get?_insertNew st.windows start s _
  have hafter (s : Int) (hs : first ≤ s) : (st.writeHistory cfg fold).windows.get? s = st.windows.get? s := by
    rw [hwindows, if_neg (by omega)]
  have hmetrics (i : Nat) (s : Int) (hs : first ≤ s) :
      (st.writeHistory cfg fold).metrics.get? (i, s) = st.metrics.get? (i, s) := by
    have hrest (rows : List MatchRowToWrite) (d : Dict (Nat × Int) RuleMatchMetric) :
        (rows.foldl (fun d row => insertNew d (row.ruleId, start) (row.metric cfg.windowSeconds)) d).get? (i, s) =
          d.get? (i, s) := by
      induction rows generalizing d with
      | nil => rfl
      | cons row rows ih => rw [List.foldl_cons, ih, get?_insertNew, if_neg (fun heq => by cases heq; omega)]
    exact hrest fold.rows st.metrics
  have hold (s : Int) (row : RuleMatchWindow) (hrow : (st.writeHistory cfg fold).windows.get? s = some row) :
      st.windows.get? s = some row ∨ s = start ∧ row.origin = .HISTORY := by
    rw [hwindows] at hrow
    split at hrow
    · rename_i heq
      rcases Option.or_eq_some_iff.mp hrow with hold | ⟨-, hnew⟩
      · exact .inl (heq ▸ hold)
      · cases hnew
        exact .inr ⟨heq, rfl⟩
    · exact .inl hrow
  refine ⟨⟨h.firstGrid, h.dueGrid, h.watermark, ?_, ?_, ?_, ?_, ?_⟩, ?_, ?_, hstart⟩
  · intro s hgrid hfrom hlt
    exact (congrArg Option.isSome (hafter s hfrom)).trans (h.recorded s hgrid hfrom hlt)
  · intro s row hrow hlive
    rcases hold s row hrow with hrow | ⟨-, hhistory⟩
    · exact h.live s row hrow hlive
    · cases hlive.symm.trans hhistory
  · intro s row hrow hhistory
    rcases hold s row hrow with hrow | ⟨heq, -⟩
    · exact h.history s row hrow hhistory
    · exact heq ▸ hstart
  · intro s row hrow hlive hcomplete
    rcases hold s row hrow with hrow | ⟨-, hhistory⟩
    · obtain ⟨b, hb, hstart', htruncated, hmalformed, hrecord, hrows⟩ := h.exact s row hrow hlive hcomplete
      refine ⟨b, List.mem_append_left _ hb, hstart', htruncated, hmalformed, hrecord, fun i => ?_⟩
      exact (hmetrics i s (h.live s row hrow hlive).1).trans (hrows i)
    · cases hlive.symm.trans hhistory
  · intro i s hsome
    have hsome : ((st.writeHistory cfg fold).metrics.get? (i, s)).isSome := hsome
    unfold MatchState.writeHistory at hsome
    rw [isSome_foldl_insertNew (fun row : MatchRowToWrite => (row.ruleId, fold.window.windowStart))] at hsome
    simp only [Bool.or_eq_true, List.any_eq_true, decide_eq_true_eq] at hsome
    rcases hsome with hsome | ⟨row, hrow, heq⟩
    · exact h.known i s hsome
    · cases heq
      exact foldRow_known hsound hrow
  · rw [hafter first (Int.le_refl _)]
    exact hanchored
  · unfold MatchState.priorAttempts
    rw [hafter due h.first_le]

end Steps

/-! ## The live pass -/

/-- The search measured the window as the batch has it: alone, or with all the windows of its span. -/
def MatchSearch.Answers (cfg : MatchConfig) (start : Int) (batch : RuleMatchBatch) : MatchSearch → Prop
  | .single s answer => s = start ∧ answer = some batch
  | .keyed from_ until_ answer => from_ ≤ start ∧ start + windowStep cfg.windowSeconds ≤ until_ ∧
      ∃ result, answer = some result ∧ result.truncated = false ∧ result.batches.get? start = some batch

structure Passing (cfg : MatchConfig) (first : Int) (ruleIds : Dict Int Nat) (before : List FoldedBatch) (due : Int)
    (rest : List Int) (pass : LivePass) : Prop where
  live : Live cfg first due pass.state
  order : InOrder cfg pass.state
  remembered : Remembered pass.state
  run : pass.state.run = some ⟨rest, some ruleIds⟩
  windows : ∃ n, rest = windowsFrom due (windowStep cfg.windowSeconds) n
  seen : ∀ b ∈ pass.state.seen, b ∈ before ∨ b.ruleIds = ruleIds ∧ ∃ search ∈ pass.sent, search.Answers cfg b.start b.batch

section Pass

variable {cfg : MatchConfig} {first due start : Int} {ruleIds : Dict Int Nat} {before : List FoldedBatch}
  {rest : List Int} {pass : LivePass} {provider : MatchProvider}

theorem Passing.head (h : Passing cfg first ruleIds before due (start :: rest) pass) : start = due ∧
    ∃ n, rest = windowsFrom (due + windowStep cfg.windowSeconds) (windowStep cfg.windowSeconds) n := by
  obtain ⟨n, hn⟩ := h.windows
  cases n with
  | zero => cases hn
  | succ n =>
    rw [windowsFrom_succ] at hn
    cases hn
    exact ⟨rfl, n, rfl⟩

theorem Passing.send (h : Passing cfg first ruleIds before due rest pass) (search : MatchSearch) (splits : Nat) :
    Passing cfg first ruleIds before due rest { pass with sent := pass.sent ++ [search], splits } := by
  refine ⟨h.live, h.order, h.remembered, h.run, h.windows, fun b hb => (h.seen b hb).imp_right ?_⟩
  rintro ⟨hids, found, hfound, hanswers⟩
  exact ⟨hids, found, List.mem_append_left _ hfound, hanswers⟩

theorem take_send (pass : LivePass) (answer : Option RuleMatchBatch) (sent : List MatchSearch) :
    LivePass.take cfg { pass with sent } answer = { pass.take cfg answer with sent } := by
  cases hstep : pass.state.step cfg (.window answer) <;> simp only [LivePass.take, hstep]

theorem Passing.answer (h : Passing cfg first ruleIds before due (start :: rest) pass) {batch}
    (hanswers : ∃ search ∈ pass.sent, search.Answers cfg start batch) :
    Passing cfg first ruleIds before (due + windowStep cfg.windowSeconds) rest (pass.take cfg (some batch)) := by
  obtain ⟨rfl, hrest⟩ := h.head
  have hstep : pass.state.step cfg (.window (some batch)) =
      .ok { pass.state.recordWindow cfg start batch ruleIds with run := some ⟨rest, some ruleIds⟩ } := by
    simp only [MatchState.step, h.run, Option.getD_some]
  simp only [LivePass.take, hstep]
  refine ⟨h.live.record (h.remembered.runSound _ ruleIds h.run rfl) batch _, h.order.step hstep,
    h.remembered.step h.order hstep, rfl, hrest, fun b hb => ?_⟩
  rcases List.mem_append.mp hb with hb | hb
  · exact h.seen b hb
  · rw [List.mem_singleton.mp hb]
    exact .inr ⟨rfl, hanswers⟩

theorem Passing.failed (h : Passing cfg first ruleIds before due (start :: rest) pass) :
    pass.state.step cfg (.window none) = .ok (pass.state.failWindow cfg start rest (some ruleIds)) := by
  simp only [MatchState.step, h.run]

theorem Passing.giveUp (h : Passing cfg first ruleIds before due (start :: rest) pass)
    (hout : cfg.maxWindowAttempts ≤ pass.state.priorAttempts start + 1) :
    Passing cfg first ruleIds before (due + windowStep cfg.windowSeconds) rest (pass.take cfg none) := by
  obtain ⟨rfl, hrest⟩ := h.head
  obtain ⟨-, -, hseen, -⟩ := failWindow_frame cfg pass.state start rest (some ruleIds)
  simp only [LivePass.take, h.failed]
  refine ⟨h.live.giveUp hout rest _, h.order.step h.failed, h.remembered.step h.order h.failed, ?_, hrest, hseen ▸ h.seen⟩
  simp only [MatchState.failWindow, hout, if_true]

theorem Passing.hold (h : Passing cfg first ruleIds before due (start :: rest) pass)
    (hleft : ¬ cfg.maxWindowAttempts ≤ pass.state.priorAttempts start + 1) :
    Passing cfg first ruleIds before due [] (pass.take cfg none) ∧
      (pass.take cfg none).state.priorAttempts due = pass.state.priorAttempts due + 1 := by
  obtain ⟨rfl, -⟩ := h.head
  obtain ⟨-, -, hseen, -⟩ := failWindow_frame cfg pass.state start rest (some ruleIds)
  obtain ⟨hlive, hattempts⟩ := h.live.hold hleft rest (some ruleIds)
  simp only [LivePass.take, h.failed]
  refine ⟨⟨hlive, h.order.step h.failed, h.remembered.step h.order h.failed, ?_, ⟨0, rfl⟩, hseen ▸ h.seen⟩, hattempts⟩
  simp only [MatchState.failWindow, hleft, if_false]

theorem fetchWindows_spec {span answer batches}
    (h : fetchWindows span answer = some batches) : batches.map Prod.fst = span ∧
      ∃ result, answer = some result ∧ result.truncated = false ∧
        ∀ item ∈ batches, result.batches.get? item.1 = some item.2 := by
  have hmapM (result : WindowedRuleMatches) (span : List Int) : ∀ batches,
      span.mapM (fun start => (result.batches.get? start).map (fun batch => (start, batch))) = some batches →
      batches.map Prod.fst = span ∧ ∀ item ∈ batches, result.batches.get? item.1 = some item.2 := by
    induction span with
    | nil =>
      rintro batches ⟨⟩
      exact ⟨rfl, fun item hitem => by cases hitem⟩
    | cons start span ih =>
      intro batches hcons
      rw [List.mapM_cons] at hcons
      obtain ⟨item, hitem, hrest⟩ := Option.bind_eq_some_iff.mp hcons
      obtain ⟨others, hothers, heq⟩ := Option.bind_eq_some_iff.mp hrest
      obtain ⟨batch, hbatch, rfl⟩ := Option.map_eq_some_iff.mp hitem
      obtain ⟨hspan, hget⟩ := ih others hothers
      cases heq
      refine ⟨by rw [List.map_cons, hspan], fun item hitem => ?_⟩
      rcases List.mem_cons.mp hitem with rfl | hitem
      · exact hbatch
      · exact hget item hitem
  obtain ⟨result, rfl, hresult⟩ := Option.bind_eq_some_iff.mp h
  split at hresult
  · cases hresult
  · rename_i hwhole
    split at hresult
    · cases hresult
    · obtain ⟨hspan, hget⟩ := hmapM result span batches hresult
      exact ⟨hspan, result, rfl, by simpa using hwhole, hget⟩

theorem Passing.answerAll {batches : List (Int × RuleMatchBatch)} {tail}
    (h : Passing cfg first ruleIds before due (batches.map Prod.fst ++ tail) pass)
    (hanswers : ∀ item ∈ batches, ∃ search ∈ pass.sent, search.Answers cfg item.1 item.2) :
    Passing cfg first ruleIds before (due + batches.length * windowStep cfg.windowSeconds) tail
      (batches.foldl (fun pass item => pass.take cfg (some item.2)) pass) := by
  induction batches generalizing pass due with
  | nil => simpa using h
  | cons item batches ih =>
    have hsent : (pass.take cfg (some item.2)).sent = pass.sent := by
      unfold LivePass.take
      split <;> rfl
    have hnext := ih (h.answer (hanswers item List.mem_cons_self))
      (fun other hother => hsent ▸ hanswers other (List.mem_cons_of_mem _ hother))
    have hdue : due + windowStep cfg.windowSeconds + batches.length * windowStep cfg.windowSeconds =
        due + (item :: batches).length * windowStep cfg.windowSeconds := by
      rw [List.length_cons, Int.natCast_add, Int.add_mul, Int.natCast_one, Int.one_mul]
      omega
    exact hdue ▸ hnext

theorem span_bounds {span : List Int} (hne : span ≠ []) (hsorted : span.Pairwise (· < ·)) {s} (hs : s ∈ span) :
    span.head hne ≤ s ∧ s ≤ span.getLast hne := by
  constructor
  · cases span with
    | nil => cases hs
    | cons start rest =>
      rcases List.mem_cons.mp hs with rfl | hs
      · exact Int.le_refl _
      · exact Int.le_of_lt ((List.pairwise_cons.mp hsorted).1 s hs)
  · rw [← List.dropLast_append_getLast hne] at hs hsorted
    rcases List.mem_append.mp hs with hs | hs
    · exact Int.le_of_lt ((List.pairwise_append.mp hsorted).2.2 s hs _ (List.mem_singleton_self _))
    · exact Int.le_of_eq (List.mem_singleton.mp hs)

theorem searchWindows_spec (queue : List (List Int)) (pass : LivePass) :
    ∀ due, Passing cfg first ruleIds before due queue.flatten pass →
    ∃ due', Passing cfg first ruleIds before due' [] (searchWindows cfg provider queue pass) ∧ due ≤ due' ∧
      (queue.flatten ≠ [] → due < due' ∨
        due' = due ∧ (searchWindows cfg provider queue pass).state.priorAttempts due = pass.state.priorAttempts due + 1) := by
  have hpos := windowStep_pos cfg.windowSeconds_pos
  induction queue, pass using searchWindows.induct cfg provider with
  | case1 pass =>
    intro due h
    rw [searchWindows]
    exact ⟨due, h, Int.le_refl _, fun hne => absurd rfl hne⟩
  | case2 queue pass ih =>
    intro due h
    rw [searchWindows]
    exact ih due h
  | case3 start queue pass answer next hgoes ih =>
    intro due h
    have hsent : Passing cfg first ruleIds before due (start :: queue.flatten) _ := h.send (.single start answer) pass.splits
    have hnext : Passing cfg first ruleIds before (due + windowStep cfg.windowSeconds) queue.flatten next := by
      cases hanswer : answer with
      | none =>
        have hout : cfg.maxWindowAttempts ≤ pass.state.priorAttempts start + 1 := by
          simpa [LivePass.goesOn, hanswer] using hgoes
        simpa only [next, hanswer, take_send] using hsent.giveUp hout
      | some batch =>
        have hanswers := hsent.answer ⟨_, List.mem_append_right _ (List.mem_singleton_self _), rfl, hanswer⟩
        simpa only [next, hanswer, take_send] using hanswers
    obtain ⟨due', hdone, hle, -⟩ := ih _ hnext
    rw [searchWindows, if_pos hgoes]
    exact ⟨due', hdone, by omega, fun _ => .inl (by omega)⟩
  | case4 start queue pass answer hstops =>
    intro due h
    have hanswer : answer = none := by
      cases hanswer : answer with
      | none => rfl
      | some batch => simp [LivePass.goesOn, hanswer] at hstops
    have hleft : ¬ cfg.maxWindowAttempts ≤ pass.state.priorAttempts start + 1 := by
      simpa [LivePass.goesOn, hanswer] using hstops
    obtain ⟨hheld, hattempts⟩ := (h.send (.single start answer) pass.splits).hold hleft
    rw [searchWindows, if_neg hstops]
    rw [take_send, ← hanswer] at hheld hattempts
    exact ⟨due, hheld, Int.le_refl _, fun _ => .inr ⟨rfl, hattempts⟩⟩
  | case5 start second rest queue pass span stop answer next hfetch middle ih =>
    intro due h
    have hflatten : (span.take middle :: span.drop middle :: queue).flatten = (span :: queue).flatten := by
      rw [List.flatten_cons, List.flatten_cons, List.flatten_cons, ← List.append_assoc, List.take_append_drop]
    have hnext := h.send (.keyed start stop answer) (pass.splits + 1)
    rw [searchWindows, hfetch]
    obtain ⟨due', hdone, hle, hmoved⟩ := ih due (hflatten ▸ hnext)
    exact ⟨due', hdone, hle, fun hne => hmoved (hflatten ▸ hne)⟩
  | case6 start second rest queue pass span stop answer next batches hfetch ih =>
    intro due h
    obtain ⟨hspan, result, hanswer, hwhole, hget⟩ := fetchWindows_spec hfetch
    have hsorted : span.Pairwise (· < ·) := (List.pairwise_append.mp (h.order.increasing _ h.run)).1
    have hnext := h.send (.keyed start stop answer) pass.splits
    have hanswers (item : Int × RuleMatchBatch) (hitem : item ∈ batches) :
        ∃ search ∈ next.sent, search.Answers cfg item.1 item.2 := by
      obtain ⟨hfrom, hto⟩ := span_bounds (List.cons_ne_nil _ _) hsorted (hspan ▸ List.mem_map_of_mem hitem)
      rw [List.getLast_cons (List.cons_ne_nil _ _)] at hto
      exact ⟨_, List.mem_append_right _ (List.mem_singleton_self _), hfrom, Int.add_le_add_right hto _,
        result, hanswer, hwhole, hget item hitem⟩
    have hdone : Passing cfg first ruleIds before due (batches.map Prod.fst ++ queue.flatten) next := hspan ▸ hnext
    obtain ⟨due', hdone, hle, -⟩ := ih _ (hdone.answerAll hanswers)
    have hlater : due < due + batches.length * windowStep cfg.windowSeconds := by
      have hlength : 0 < batches.length := by
        rw [← List.length_map (f := Prod.fst), hspan]
        exact Nat.succ_pos _
      have := Int.mul_pos (Int.natCast_pos.mpr hlength) hpos
      omega
    rw [searchWindows, hfetch]
    exact ⟨due', hdone, by omega, fun _ => .inl (by omega)⟩

end Pass

end QRadarDashboard.Rules
