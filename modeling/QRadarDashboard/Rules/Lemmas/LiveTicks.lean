import QRadarDashboard.Rules.Lemmas.LiveCollection
import QRadarDashboard.Lib.Except

/-!
# The ticks of the live pass
-/

namespace QRadarDashboard.Rules
open Lib

variable {cfg : MatchConfig} {st : MatchState} {first due : Int}

/-! ## The searches of a pass -/

theorem sent_foldl_take (batches : List (Int × RuleMatchBatch)) (pass : LivePass) :
    (batches.foldl (fun pass item => pass.take cfg (some item.2)) pass).sent = pass.sent := by
  induction batches generalizing pass with
  | nil => rfl
  | cons item batches ih =>
    rw [List.foldl_cons, ih]
    unfold LivePass.take
    split <;> rfl

theorem searchBound_cons (span : List Int) (queue : List (List Int)) :
    searchBound (span :: queue) = max 1 (2 * span.length - 1) + searchBound queue := by
  simp only [searchBound, List.map_cons, List.sum_cons]

theorem length_searchWindows (cfg : MatchConfig) (provider : MatchProvider) (queue : List (List Int)) (pass : LivePass) :
    (searchWindows cfg provider queue pass).sent.length ≤ pass.sent.length + searchBound queue := by
  induction queue, pass using searchWindows.induct cfg provider with
  | case1 pass =>
    rw [searchWindows]
    exact Nat.le_add_right _ _
  | case2 queue pass ih =>
    rw [searchWindows, searchBound_cons]
    omega
  | case3 start queue pass answer next hgoes ih =>
    have hsent : next.sent.length = pass.sent.length + 1 := List.length_append
    rw [searchWindows, if_pos hgoes, searchBound_cons, List.length_singleton]
    refine Nat.le_trans ih ?_
    omega
  | case4 start queue pass answer hstops =>
    rw [searchWindows, if_neg hstops, searchBound_cons]
    simp only [List.length_append, List.length_singleton]
    omega
  | case5 start second rest queue pass span stop answer next hfetch middle ih =>
    have hsent : next.sent.length = pass.sent.length + 1 := List.length_append
    have hspan : 2 ≤ span.length := Nat.le_add_left 2 _
    have hmiddle : middle = span.length / 2 := rfl
    rw [searchWindows, hfetch, searchBound_cons]
    simp only [searchBound_cons, List.length_take, List.length_drop, hsent] at ih
    refine Nat.le_trans ih ?_
    change _ ≤ pass.sent.length + (max 1 (2 * span.length - 1) + searchBound queue)
    omega
  | case6 start second rest queue pass span stop answer next batches hfetch ih =>
    have hsent : next.sent.length = pass.sent.length + 1 := List.length_append
    rw [sent_foldl_take, hsent] at ih
    rw [searchWindows, hfetch, searchBound_cons]
    refine Nat.le_trans ih ?_
    omega

/-! ## What a tick does -/

structure Tracked (cfg : MatchConfig) (first due : Int) (st : MatchState) : Prop where
  live : Live cfg first due st
  order : InOrder cfg st
  remembered : Remembered st
  anchored : (st.windows.get? first).isSome

structure Unattempted (cfg : MatchConfig) (st : MatchState) : Prop where
  watermark : st.watermark = none
  windows : st.windows = []
  metrics : st.metrics = []
  seen : st.seen = []
  order : InOrder cfg st
  remembered : Remembered st

theorem Unattempted.live (h : Unattempted cfg st) (hgrid : windowStep cfg.windowSeconds ∣ first) :
    Live cfg first first st := by
  refine ⟨hgrid, hgrid, .inl ⟨h.watermark, rfl⟩, fun s _ hfrom hlt => absurd hfrom (Int.not_le.mpr hlt), ?_, ?_, ?_, ?_⟩
  · rw [h.windows]
    exact fun s row hrow => by cases hrow
  · rw [h.windows]
    exact fun s row hrow => by cases hrow
  · rw [h.windows]
    exact fun s row hrow => by cases hrow
  · rw [h.metrics]
    exact fun i s hsome => by cases hsome

theorem Tracked.historySteps {items : List (Int × RuleMatchBatch)} {st'} (h : Tracked cfg first due st)
    (hsteps : items.foldlM (fun st item => st.step cfg (.history item.1 item.2)) st = .ok st') :
    Tracked cfg first due st' ∧ st'.priorAttempts due = st.priorAttempts due ∧
      ∀ b ∈ st'.seen, b ∈ st.seen ∨ b.start < first := by
  induction items generalizing st with
  | nil =>
    cases hsteps
    exact ⟨h, rfl, fun b hb => .inl hb⟩
  | cons item items ih =>
    rw [List.foldlM_cons] at hsteps
    obtain ⟨next, hnext, hrest⟩ := bind_ok hsteps
    have horder := h.order.step hnext
    have hremembered := h.remembered.step h.order hnext
    cases step_cases hnext with
    | history hrun batch hanchor hbefore =>
      have hsound := h.remembered.runMap hrun (ruleIdMap_sound st.rules)
      obtain ⟨hlive, hanchored, hprior, hstart⟩ := h.live.historyWindow h.order.keys h.anchored hanchor hbefore
        hsound item.2 _
      obtain ⟨htracked, hattempts, hseen⟩ := ih ⟨hlive, horder, hremembered, hanchored⟩ hrest
      refine ⟨htracked, hattempts.trans hprior, fun b hb => ?_⟩
      rcases hseen b hb with hb | hlt
      · rcases List.mem_append.mp hb with hb | hb
        · exact .inl hb
        · rw [List.mem_singleton.mp hb]
          exact .inr hstart
      · exact .inr hlt

theorem Live.opened (h : Live cfg first due st) {now cadence opened}
    (hfirst : st.watermark = none → first = lastWindow cfg now)
    (hstep : st.step cfg (.collect now cadence) = .ok opened) :
    ∃ due' n, Live cfg first due' opened ∧
      opened.run = some ⟨windowsFrom due' (windowStep cfg.windowSeconds) n,
        if windowsFrom due' (windowStep cfg.windowSeconds) n = [] then none else some (ruleIdMap st.rules)⟩ ∧
      opened.rules = st.rules ∧ opened.seen = st.seen ∧
      (due < due' ∨ due' = due ∧ opened.windows = st.windows ∧ opened.watermark = st.watermark) := by
  simp only [MatchState.step] at hstep
  split at hstep
  · cases hstep
  · have hskip := skipBeyondHorizon_skipped cfg st now
    obtain ⟨due', hlive, hmoved⟩ := h.skip now
    generalize st.skipBeyondHorizon cfg now = skipped at hskip hlive hmoved hstep
    have hnone : skipped.watermark = none → first = lastWindow cfg now := by
      intro hnone
      refine hfirst ?_
      cases hw : st.watermark with
      | none => rfl
      | some w =>
        obtain ⟨w', hw', -⟩ := hskip.later w hw
        cases hnone.symm.trans hw'
    obtain ⟨n, hn⟩ := hlive.windowsToCollect hnone (runLimit cfg cadence)
    rw [hn] at hstep
    cases hstep
    refine ⟨due', n, hlive.congr rfl rfl rfl (Nat.le_refl _) (fun b hb => hb), rfl, hskip.rules, hskip.seen, ?_⟩
    rcases hmoved with hlt | ⟨heq, rfl⟩
    · exact .inl hlt
    · exact .inr ⟨heq, rfl, rfl⟩

theorem priorAttempts_congr {st' : MatchState} (h : st'.windows = st.windows) (s : Int) :
    st'.priorAttempts s = st.priorAttempts s := by
  unfold MatchState.priorAttempts
  rw [h]

theorem get?_isSome_of_attempts {s} (h : 0 < st.priorAttempts s) : (st.windows.get? s).isSome := by
  unfold MatchState.priorAttempts at h
  cases hrow : st.windows.get? s with
  | none => simp [hrow] at h
  | some row => rfl

structure Ticked (cfg : MatchConfig) (first due : Int) (st : MatchState) (report : LiveReport) (due' : Int) : Prop where
  tracked : Tracked cfg first due' report.state
  forward : due ≤ due'
  moved : report.due ≠ [] →
    due < due' ∨ due' = due ∧ report.state.priorAttempts due = st.priorAttempts due + 1
  still : due' = due → st.priorAttempts due ≤ report.state.priorAttempts due
  windows : ∀ a ∈ report.due, first ≤ a
  seen : ∀ b ∈ report.state.seen, b ∈ st.seen ∨ b.start < first ∨
    b.ruleIds = ruleIdMap st.rules ∧ ∃ search ∈ report.sent, search.Answers cfg b.start b.batch
  bound : report.sent.length ≤ 2 * report.due.length - 1

theorem Live.collectTick {tick : LiveTick} {report} (h : Live cfg first due st) (horder : InOrder cfg st)
    (hremembered : Remembered st) (hfirst : st.watermark = none → first = lastWindow cfg tick.now)
    (hstep : collectTick cfg st tick = .ok report) (hbegun : report.due = [] → (st.windows.get? first).isSome) :
    ∃ due', Ticked cfg first due st report due' := by
  obtain ⟨opened, hopened, hstep⟩ := bind_ok hstep
  obtain ⟨read, hread, hstep⟩ := bind_ok hstep
  obtain ⟨closed, hclosed, hstep⟩ := bind_ok hstep
  obtain ⟨due₁, n, hlive, hrun, hrules, hseen, hmoved⟩ := h.opened hfirst hopened
  have horder₁ := horder.step hopened
  have hremembered₁ := hremembered.step horder hopened
  have hgrid : due ≤ due₁ := by
    rcases hmoved with hlt | ⟨rfl, -⟩
    · exact Int.le_of_lt hlt
    · exact Int.le_refl _
  simp only [hrun, Option.map_some, Option.getD_some] at hread hstep
  generalize hstarts : windowsFrom due₁ (windowStep cfg.windowSeconds) n = starts at hrun hread hstep
  have hpass : ∃ due₂ pass, pass = searchWindows cfg tick.provider (if starts = [] then [] else [starts]) { state := opened } ∧
      Live cfg first due₂ pass.state ∧ InOrder cfg pass.state ∧ Remembered pass.state ∧ due₁ ≤ due₂ ∧
      (starts = [] → pass.state = opened ∧ due₂ = due₁) ∧
      (starts ≠ [] → due₁ < due₂ ∨ due₂ = due₁ ∧ pass.state.priorAttempts due₁ = opened.priorAttempts due₁ + 1) ∧
      ∀ b ∈ pass.state.seen, b ∈ st.seen ∨ b.ruleIds = ruleIdMap st.rules ∧
        ∃ search ∈ pass.sent, search.Answers cfg b.start b.batch := by
    by_cases hnone : starts = []
    · refine ⟨due₁, _, rfl, ?_⟩
      rw [if_pos hnone, searchWindows]
      exact ⟨hlive, horder₁, hremembered₁, Int.le_refl _, fun _ => ⟨rfl, rfl⟩, fun hne => absurd hnone hne,
        fun b hb => .inl (hseen ▸ hb)⟩
    · rw [if_neg hnone] at hrun ⊢
      have hpassing : Passing cfg first (ruleIdMap st.rules) st.seen due₁ [starts].flatten { state := opened } := by
        refine ⟨hlive, horder₁, hremembered₁, ?_, ⟨n, ?_⟩, fun b hb => .inl (hseen ▸ hb)⟩
        · simpa using hrun
        · simpa using hstarts.symm
      obtain ⟨due₂, hdone, hle, hprogress⟩ := searchWindows_spec [starts] _ due₁ hpassing
      exact ⟨due₂, _, rfl, hdone.live, hdone.order, hdone.remembered, hle, fun h => absurd h hnone,
        fun _ => hprogress (by simpa using hnone), hdone.seen⟩
  obtain ⟨due₂, pass, hpassdef, hlive₂, horder₂, hremembered₂, hle₂, hquiet, hprogress, hseen₂⟩ := hpass
  rw [← hpassdef] at hread hstep
  cases hstep
  -- the first window has a record once the pass is over
  have hanchored : (pass.state.windows.get? first).isSome := by
    by_cases hnone : starts = []
    · obtain ⟨rfl, rfl⟩ := hquiet hnone
      rcases hmoved with hlt | ⟨-, hwindows, -⟩
      · exact hlive.recorded first hlive.firstGrid (Int.le_refl _) (Int.lt_of_le_of_lt h.first_le hlt)
      · rw [hwindows]
        exact hbegun hnone
    · by_cases hlt : first < due₂
      · exact hlive₂.recorded first hlive₂.firstGrid (Int.le_refl _) hlt
      · have hfirst_le := hlive.first_le
        rcases hprogress hnone with hlater | ⟨heq, hattempts⟩
        · omega
        · have hsame : first = due₁ := by omega
          rw [hsame]
          exact get?_isSome_of_attempts (by omega)
  obtain ⟨htracked, hprior, hseen₃⟩ := Tracked.historySteps ⟨hlive₂, horder₂, hremembered₂, hanchored⟩ hread
  have horder₃ := htracked.order.step hclosed
  have hremembered₃ := htracked.remembered.step htracked.order hclosed
  obtain ⟨hclosed_windows, hclosed_live, hclosed_seen⟩ : closed.windows = read.windows ∧ Live cfg first due₂ closed ∧
      closed.seen = read.seen := by
    simp only [MatchState.step] at hclosed
    split at hclosed
    · cases hclosed
      exact ⟨rfl, htracked.live.congr rfl rfl rfl (Nat.le_refl _) (fun b hb => hb), rfl⟩
    · cases hclosed
  have hattempts (s : Int) (hs : s = due₂) : closed.priorAttempts s = pass.state.priorAttempts s := by
    rw [priorAttempts_congr hclosed_windows, hs, hprior]
  have hbefore (hdue : due₁ = due) : opened.priorAttempts due₁ = st.priorAttempts due := by
    rcases hmoved with hlt | ⟨heq, hwindows, -⟩
    · omega
    · rw [heq, priorAttempts_congr hwindows]
  refine ⟨due₂, ⟨⟨hclosed_live, horder₃, hremembered₃, ?_⟩, Int.le_trans hgrid hle₂, ?_, ?_, ?_, ?_, ?_⟩⟩
  · rw [hclosed_windows]
    exact htracked.anchored
  · intro hne
    rcases hprogress hne with hlt | ⟨heq, hcharged⟩
    · exact .inl (by omega)
    · by_cases hdue : due₁ = due
      · refine .inr ⟨heq.trans hdue, ?_⟩
        rw [hattempts due (by rw [heq, hdue]), ← hdue, hcharged, hdue, ← hbefore hdue, hdue]
      · exact .inl (by omega)
  · intro heq
    have hdue : due₁ = due := by omega
    rw [hattempts due heq.symm, ← hbefore hdue, ← hdue]
    by_cases hnone : starts = []
    · exact Nat.le_of_eq (congrArg (fun s => s.priorAttempts due₁) (hquiet hnone).1.symm)
    · rcases hprogress hnone with hlt | ⟨-, hcharged⟩
      · omega
      · omega
  · intro a ha
    exact Int.le_trans hlive.first_le (mem_windowsFrom (hstarts ▸ ha) (windowStep_pos cfg.windowSeconds_pos))
  · intro b hb
    rcases hseen₃ b (hclosed_seen ▸ hb) with hb | hlt
    · exact (hseen₂ b hb).imp_right .inr
    · exact .inr (.inl hlt)
  · have hlength := length_searchWindows cfg tick.provider (if starts = [] then [] else [starts]) { state := opened }
    rw [← hpassdef] at hlength
    by_cases hnone : starts = []
    · simp only [hnone, if_true, searchBound, List.map_nil, List.sum_nil, List.length_nil] at hlength ⊢
      exact hlength
    · rw [if_neg hnone, searchBound_cons] at hlength
      have hpos := List.length_pos_iff.mpr hnone
      simp only [searchBound, List.map_nil, List.sum_nil, List.length_nil] at hlength
      simp only
      omega

/-! ## The runs -/

def LiveEvent.isTick : LiveEvent → Bool
  | .sync _ _ => false
  | .tick _ => true

/-- While there is no watermark, the window that was attempted is the one that a first run takes. -/
def LiveTaken.Retries (cfg : MatchConfig) (e : LiveTaken) : Prop :=
  match e.input with
  | .sync _ _ => True
  | .tick tick => e.before.watermark = none → ∀ s, e.before.originAt s = some .LIVE → s = lastWindow cfg tick.now

def Advanced (st st' : MatchState) : Prop :=
  ∃ w', st'.watermark = some w' ∧ ∀ w, st.watermark = some w → w < w'

theorem unattempted_initial : Unattempted cfg {} := ⟨rfl, rfl, rfl, rfl, inOrder_initial, remembered_initial⟩

theorem Unattempted.tick {tick report} (h : Unattempted cfg st) (hstep : Rules.collectTick cfg st tick = .ok report)
    (hdue : report.due = []) : Unattempted cfg report.state ∧ report.sent = [] := by
  obtain ⟨opened, hopened, hstep⟩ := bind_ok hstep
  obtain ⟨read, hread, hstep⟩ := bind_ok hstep
  obtain ⟨closed, hclosed, hstep⟩ := bind_ok hstep
  have horder := h.order.step hopened
  have hremembered := h.remembered.step h.order hopened
  cases hstep
  simp only at hdue
  rw [hdue, if_pos rfl, searchWindows] at hread ⊢
  have hunmoved : st.skipBeyondHorizon cfg tick.now = st := (skipBeyondHorizon_skipped cfg st tick.now).none h.watermark
  obtain ⟨hwatermark, hwindows, hmetrics, hseen⟩ : opened.watermark = none ∧ opened.windows = [] ∧ opened.metrics = [] ∧
      opened.seen = [] := by
    simp only [MatchState.step] at hopened
    split at hopened
    · cases hopened
    · rw [hunmoved] at hopened
      cases hopened
      exact ⟨h.watermark, h.windows, h.metrics, h.seen⟩
  have hsame : read = opened := by
    cases hhistory : tick.history with
    | nil =>
      rw [hhistory] at hread
      exact (Except.ok.inj hread).symm
    | cons item items =>
      rw [hhistory, List.foldlM_cons] at hread
      obtain ⟨next, hnext, -⟩ := bind_ok hread
      have hanchor : opened.anchor cfg = none := by
        unfold MatchState.anchor
        rw [hwindows]
        rfl
      simp only [MatchState.step, hanchor, true_or, if_true] at hnext
      split at hnext <;> cases hnext
  subst hsame
  have horder' := horder.step hclosed
  have hremembered' := hremembered.step horder hclosed
  simp only [MatchState.step] at hclosed
  split at hclosed
  · cases hclosed
    exact ⟨⟨hwatermark, hwindows, hmetrics, hseen, horder', hremembered'⟩, rfl⟩
  · cases hclosed

/-- The live windows have not begun, or the one that is due was charged `k` attempts at least. -/
def Standing (cfg : MatchConfig) (k : Nat) (st : MatchState) : Prop :=
  Unattempted cfg st ∧ k = 0 ∨ ∃ first due, Tracked cfg first due st ∧ k ≤ st.priorAttempts due

variable {k : Nat}

theorem Unattempted.sync (h : Unattempted cfg st) {dto now st'}
    (hstep : st.step cfg (.sync dto now) = .ok st') : Unattempted cfg st' := by
  have horder := h.order.step hstep
  have hremembered := h.remembered.step h.order hstep
  cases hstep
  exact ⟨h.watermark, h.windows, h.metrics, h.seen, horder, hremembered⟩

theorem Tracked.sync (h : Tracked cfg first due st) {dto now st'}
    (hstep : st.step cfg (.sync dto now) = .ok st') : Tracked cfg first due st' := by
  have horder := h.order.step hstep
  have hremembered := h.remembered.step h.order hstep
  cases hstep
  exact ⟨h.live.congr rfl rfl rfl (length_syncRule st.rules dto now) (fun b hb => hb), horder, hremembered, h.anchored⟩

theorem Standing.sync (h : Standing cfg k st) {dto now st'}
    (hstep : st.step cfg (.sync dto now) = .ok st') : Standing cfg k st' ∧ st'.watermark = st.watermark := by
  have hstands : Standing cfg k st' := by
    rcases h with ⟨hnone, heq⟩ | ⟨first, due, htracked, hle⟩
    · exact .inl ⟨hnone.sync hstep, heq⟩
    · refine .inr ⟨first, due, htracked.sync hstep, ?_⟩
      cases hstep
      exact hle
  cases hstep
  exact ⟨hstands, rfl⟩

theorem Live.advanced {due' st'} (h : Live cfg first due st) (h' : Live cfg first due' st')
    (hle : due ≤ due') : Advanced st st' ∧ due < due' ∨ st'.watermark = st.watermark ∧ due' = due := by
  have hfirst := h.first_le
  rcases h.watermark with ⟨hw, heq⟩ | ⟨hw, hlt⟩ <;> rcases h'.watermark with ⟨hw', heq'⟩ | ⟨hw', hlt'⟩
  · exact .inr ⟨hw'.trans hw.symm, heq'.trans heq.symm⟩
  · refine .inl ⟨⟨_, hw', fun w hsome => ?_⟩, by omega⟩
    cases hw.symm.trans hsome
  · omega
  · by_cases hsame : due' = due
    · exact .inr ⟨by rw [hw', hw, hsame], hsame⟩
    · refine .inl ⟨⟨_, hw', fun w hsome => ?_⟩, by omega⟩
      cases hw.symm.trans hsome
      omega

theorem Tracked.first_eq (h : Tracked cfg first due st) {tick report}
    (hretries : LiveTaken.Retries cfg ⟨st, .tick tick, report⟩) (hw : st.watermark = none) :
    first = lastWindow cfg tick.now := by
  obtain ⟨row, hrow⟩ := Option.isSome_iff_exists.mp h.anchored
  refine hretries hw first ?_
  cases horigin : row.origin with
  | LIVE => simp only [MatchState.originAt, hrow, Option.map_some, horigin]
  | HISTORY => exact absurd (h.live.history first row hrow horigin) (Int.lt_irrefl _)

theorem Standing.tick {tick report} (h : Standing cfg k st)
    (hretries : LiveTaken.Retries cfg ⟨st, .tick tick, report⟩) (hstep : Rules.collectTick cfg st tick = .ok report) :
    Standing cfg 0 report.state ∧ (Advanced st report.state ∨ report.state.watermark = st.watermark) ∧
      report.sent.length ≤ 2 * report.due.length - 1 ∧
      (report.due ≠ [] → Advanced st report.state ∨
        report.state.watermark = st.watermark ∧ Standing cfg (k + 1) report.state) := by
  have hticked {first due due' : Int} (hlive : Live cfg first due st) (hk : k ≤ st.priorAttempts due)
      (hdone : Ticked cfg first due st report due') : Standing cfg 0 report.state ∧
      (Advanced st report.state ∨ report.state.watermark = st.watermark) ∧
      report.sent.length ≤ 2 * report.due.length - 1 ∧
      (report.due ≠ [] → Advanced st report.state ∨
        report.state.watermark = st.watermark ∧ Standing cfg (k + 1) report.state) := by
    have hmoved := hlive.advanced hdone.tracked.live hdone.forward
    refine ⟨.inr ⟨first, due', hdone.tracked, Nat.zero_le _⟩, hmoved.imp And.left And.left, hdone.bound, fun hdue => ?_⟩
    rcases hdone.moved hdue with hlt | ⟨rfl, hcharged⟩
    · rcases hmoved with ⟨hadvanced, -⟩ | ⟨-, heq⟩
      · exact .inl hadvanced
      · omega
    · rcases hmoved with ⟨hadvanced, -⟩ | ⟨hsame, -⟩
      · exact .inl hadvanced
      · exact .inr ⟨hsame, .inr ⟨first, due', hdone.tracked, by omega⟩⟩
  rcases h with ⟨hnone, rfl⟩ | ⟨first, due, htracked, hk⟩
  · by_cases hdue : report.due = []
    · obtain ⟨hstill, hsent⟩ := hnone.tick hstep hdue
      refine ⟨.inl ⟨hstill, rfl⟩, .inr (hstill.watermark.trans hnone.watermark.symm), ?_, fun hne => absurd hdue hne⟩
      rw [hsent]
      exact Nat.zero_le _
    · have hgrid : windowStep cfg.windowSeconds ∣ lastWindow cfg tick.now :=
        Int.dvd_sub (floorToWindow_dvd _ _) (Int.dvd_refl _)
      obtain ⟨due', hdone⟩ := (hnone.live hgrid).collectTick hnone.order hnone.remembered (fun _ => rfl) hstep
        (fun hempty => absurd hempty hdue)
      exact hticked (hnone.live hgrid) (Nat.zero_le _) hdone
  · obtain ⟨due', hdone⟩ := htracked.live.collectTick htracked.order htracked.remembered (htracked.first_eq hretries) hstep
      (fun _ => htracked.anchored)
    exact hticked htracked.live hk hdone

theorem liveStep_sync {dto now report} (h : liveStep cfg st (.sync dto now) = .ok report) :
    ∃ st', st.step cfg (.sync dto now) = .ok st' ∧ report = { state := st' } := by
  cases h
  exact ⟨_, rfl, rfl⟩

theorem Standing.step {event report} (h : Standing cfg 0 st)
    (hretries : LiveTaken.Retries cfg ⟨st, event, report⟩) (hstep : liveStep cfg st event = .ok report) :
    Standing cfg 0 report.state ∧ (Advanced st report.state ∨ report.state.watermark = st.watermark) ∧
      report.sent.length ≤ 2 * report.due.length - 1 := by
  cases event with
  | sync dto now =>
    obtain ⟨st', hst', rfl⟩ := liveStep_sync hstep
    obtain ⟨hstands, hwatermark⟩ := h.sync hst'
    exact ⟨hstands, .inr hwatermark, Nat.zero_le _⟩
  | tick tick =>
    obtain ⟨hstands, hforward, hbound, -⟩ := h.tick hretries hstep
    exact ⟨hstands, hforward, hbound⟩

/-- Nothing was due yet, or the live windows go from the first that was attempted and come from the searches of the
ticks. -/
def LiveRecord (cfg : MatchConfig) (tr : List LiveTaken) (st : MatchState) : Prop :=
  Unattempted cfg st ∧ (∀ e ∈ tr, e.output.due = []) ∨
  ∃ first due, Tracked cfg first due st ∧ (∀ e ∈ tr, ∀ a ∈ e.output.due, first ≤ a) ∧
    ∀ b ∈ st.seen, b.start < first ∨
      ∃ e ∈ tr, b.ruleIds = ruleIdMap e.before.rules ∧ ∃ search ∈ e.output.sent, search.Answers cfg b.start b.batch

theorem LiveRecord.step {tr event report} (h : LiveRecord cfg tr st)
    (hretries : LiveTaken.Retries cfg ⟨st, event, report⟩) (hstep : liveStep cfg st event = .ok report) :
    LiveRecord cfg (tr ++ [⟨st, event, report⟩]) report.state := by
  have hticked {first due due' : Int} (hdone : Ticked cfg first due st report due')
      (hwindows : ∀ e ∈ tr, ∀ a ∈ e.output.due, first ≤ a)
      (hseen : ∀ b ∈ st.seen, b.start < first ∨
        ∃ e ∈ tr, b.ruleIds = ruleIdMap e.before.rules ∧ ∃ search ∈ e.output.sent, search.Answers cfg b.start b.batch) :
      LiveRecord cfg (tr ++ [⟨st, event, report⟩]) report.state := by
    refine .inr ⟨first, due', hdone.tracked, fun e he a ha => ?_, fun b hb => ?_⟩
    · rcases List.mem_append.mp he with he | he
      · exact hwindows e he a ha
      · cases List.mem_singleton.mp he
        exact hdone.windows a ha
    · rcases hdone.seen b hb with hold | hbefore | ⟨hids, hsearch⟩
      · exact (hseen b hold).imp_right (fun ⟨e, he, hsource⟩ => ⟨e, List.mem_append_left _ he, hsource⟩)
      · exact .inl hbefore
      · exact .inr ⟨_, List.mem_append_right _ (List.mem_singleton_self _), hids, hsearch⟩
  cases event with
  | sync dto now =>
    obtain ⟨st', hst', rfl⟩ := liveStep_sync hstep
    rcases h with ⟨hnone, hdue⟩ | ⟨first, due, htracked, hwindows, hseen⟩
    · refine .inl ⟨hnone.sync hst', fun e he => ?_⟩
      rcases List.mem_append.mp he with he | he
      · exact hdue e he
      · cases List.mem_singleton.mp he
        rfl
    · have htracked' := htracked.sync hst'
      refine .inr ⟨first, due, htracked', fun e he a ha => ?_, fun b hb => ?_⟩
      · rcases List.mem_append.mp he with he | he
        · exact hwindows e he a ha
        · cases List.mem_singleton.mp he
          cases ha
      · cases hst'
        exact (hseen b hb).imp_right (fun ⟨e, he, hsource⟩ => ⟨e, List.mem_append_left _ he, hsource⟩)
  | tick tick =>
    rcases h with ⟨hnone, hdue⟩ | ⟨first, due, htracked, hwindows, hseen⟩
    · by_cases hempty : report.due = []
      · refine .inl ⟨(hnone.tick hstep hempty).1, fun e he => ?_⟩
        rcases List.mem_append.mp he with he | he
        · exact hdue e he
        · cases List.mem_singleton.mp he
          exact hempty
      · have hgrid : windowStep cfg.windowSeconds ∣ lastWindow cfg tick.now :=
          Int.dvd_sub (floorToWindow_dvd _ _) (Int.dvd_refl _)
        obtain ⟨due', hdone⟩ := (hnone.live hgrid).collectTick hnone.order hnone.remembered (fun _ => rfl) hstep
          (fun hnil => absurd hnil hempty)
        refine hticked hdone (fun e he a ha => ?_) (fun b hb => ?_)
        · rw [hdue e he] at ha
          cases ha
        · rw [hnone.seen] at hb
          cases hb
    · obtain ⟨due', hdone⟩ := htracked.live.collectTick htracked.order htracked.remembered (htracked.first_eq hretries) hstep
        (fun _ => htracked.anchored)
      exact hticked hdone hwindows hseen

theorem Standing.segment {st₀ : MatchState} {seg : List LiveTaken} (h : Standing cfg 0 st₀)
    (hrun : Run (liveStep cfg) LiveReport.state st₀ seg st) (hretries : ∀ e ∈ seg, LiveTaken.Retries cfg e)
    (hdue : ∀ e ∈ seg, e.input.isTick = true → e.output.due ≠ []) :
    Standing cfg 0 st ∧ (Advanced st₀ st ∨
      st.watermark = st₀.watermark ∧ Standing cfg (seg.countP (fun e => e.input.isTick)) st) := by
  refine hrun.invariant (fun seg st => Standing cfg 0 st ∧ (Advanced st₀ st ∨
    st.watermark = st₀.watermark ∧ Standing cfg (seg.countP (fun e => e.input.isTick)) st))
    (fun e => LiveTaken.Retries cfg e ∧ (e.input.isTick = true → e.output.due ≠ [])) ⟨h, .inr ⟨rfl, h⟩⟩ ?_
    (fun e he => ⟨hretries e he, hdue e he⟩)
  intro seg st event report ⟨hzero, hstands⟩ ⟨hretry, hneeds⟩ hstep
  cases event with
  | sync dto now =>
    obtain ⟨st', hst', rfl⟩ := liveStep_sync hstep
    obtain ⟨hnext, hwatermark⟩ := hzero.sync hst'
    refine ⟨hnext, ?_⟩
    rw [List.countP_append, List.countP_singleton]
    rcases hstands with ⟨w', hw', hlater⟩ | ⟨hsame, hk⟩
    · exact .inl ⟨w', hwatermark.trans hw', hlater⟩
    · exact .inr ⟨hwatermark.trans hsame, (hk.sync hst').1⟩
  | tick tick =>
    rw [List.countP_append, List.countP_singleton]
    rcases hstands with ⟨w', hw', hlater⟩ | ⟨hsame, hk⟩
    · obtain ⟨hnext, hforward, -⟩ := hzero.tick hretry hstep
      refine ⟨hnext, .inl ?_⟩
      rcases hforward with ⟨w'', hw'', hgreater⟩ | hstill
      · exact ⟨w'', hw'', fun w hw => Int.lt_trans (hlater w hw) (hgreater w' hw')⟩
      · exact ⟨w', hstill.trans hw', hlater⟩
    · obtain ⟨hnext, -, -, hmoved⟩ := hk.tick hretry hstep
      refine ⟨hnext, ?_⟩
      rcases hmoved (hneeds rfl) with ⟨w', hw', hlater⟩ | ⟨hstill, hcharged⟩
      · exact .inl ⟨w', hw', fun w hw => hlater w (hsame.trans hw)⟩
      · exact .inr ⟨hstill.trans hsame, hcharged⟩

theorem Standing.lt (h : Standing cfg k st) (hattempts : 0 < cfg.maxWindowAttempts) : k < cfg.maxWindowAttempts := by
  rcases h with ⟨-, rfl⟩ | ⟨first, due, htracked, hle⟩
  · exact hattempts
  · exact Nat.lt_of_le_of_lt hle (htracked.live.attempts_lt hattempts)

end QRadarDashboard.Rules
