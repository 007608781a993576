import QRadarDashboard.History.Lifecycle
import QRadarDashboard.Lib.Except
import QRadarDashboard.Lib.Run

/-!
# Ticks of a console-wide scope
-/

namespace QRadarDashboard.History
open Lib

variable {φ : Type} {family : HistoryFamily} {instanceId : String}

structure ConsoleWide (family : HistoryFamily) : Prop where
  inTable : family.inScopeTable = true
  notPerSource : family.perSource = false

def Restarts (row : ScopeRowView φ) (decision : DecisionView) (switchOn : Bool) : Prop :=
  row.state.finished = true ∧ consoleMode (some decision) = .active ∧ switchOn = true ∧
    ∃ started finished, decision.startRequestedAt = some started ∧ row.finishedAt = some finished ∧
      finished < started

/-! ## The action -/

inductive ActionCase (decision : DecisionView) (row : Option (ScopeRowView φ)) (live : Option Int)
    (switchOn : Bool) (a : ScopeAction) : Prop
  | nothing (hk : a.kind = .none)
  | createReading (hr : row = none) (hl : live.isSome = true) (hk : a.kind = .create)
      (hs : a.state = some .reading) (ha : a.anchor = live)
  | createWaiting (hr : row = none) (hk : a.kind = .create) (hs : a.state = some .waiting)
  | wake (r : ScopeRowView φ) (hr : row = some r) (hl : live.isSome = true) (hk : a.kind = .transition)
      (hs : a.state = some .reading) (ha : a.anchor = live)
  | stop (r : ScopeRowView φ) (hr : row = some r) (hk : a.kind = .transition)
      (hs : a.state = some .partly)
  | step (r : ScopeRowView φ) (hr : row = some r) (hst : r.state = .reading) (hk : a.kind = .step)
  | restart (r : ScopeRowView φ) (hr : row = some r) (hre : Restarts r decision switchOn)
      (hk : a.kind = .transition) (hs : a.state = some .reading) (ha : a.anchor = live)

theorem moving_ok {kind current trigger reason anchor a} (h : moving kind current trigger reason anchor = .ok a) :
    ∃ target text, transitions current trigger = some (target, text) ∧ a.kind = kind ∧
      a.state = some target ∧ a.anchor = anchor := by
  unfold moving nextState at h
  cases ht : transitions current trigger with
  | none => simp [ht, bind, Except.bind] at h
  | some p =>
    simp only [ht, bind, Except.bind, pure, Except.pure, Except.ok.injEq] at h
    subst h
    exact ⟨p.1, p.2, rfl, rfl, rfl, rfl⟩

theorem moving_state {kind current target trigger reason anchor text a}
    (h : moving kind current trigger reason anchor = .ok a) (ht : transitions current trigger = some (target, text)) :
    a.kind = kind ∧ a.state = some target ∧ a.anchor = anchor := by
  obtain ⟨target', text', ht', hk, hs, ha⟩ := moving_ok h
  rw [ht, Option.some.injEq, Prod.mk.injEq] at ht'
  exact ⟨hk, ht'.1 ▸ hs, ha⟩

theorem checkLive_isSome (live : Option Int) : checkLive live.isSome live family = .ok () := by
  simp [checkLive]

theorem createAction_cases (hw : ConsoleWide family) {d live switchOn a}
    (h : createAction family live.isSome live = .ok a) : ActionCase (φ := φ) d none live switchOn a := by
  simp only [createAction, hw.notPerSource, Bool.not_false, if_true] at h
  split at h
  · rename_i hl
    obtain ⟨hk, hs, ha⟩ := moving_state h rfl
    exact .createReading rfl hl hk hs ha
  · obtain ⟨hk, hs, _⟩ := moving_state h rfl
    exact .createWaiting rfl hk hs

theorem restart_state {s} (h : s.finished = true) : ∃ text, transitions s .restart = some (.reading, text) := by
  cases s <;> first | exact ⟨_, rfl⟩ | cases h

theorem finishedAction_cases (hw : ConsoleWide family) {d} {r : ScopeRowView φ} {live switchOn a}
    (hst : r.state.finished = true) (hmode : consoleMode (some d) = .active) (hsw : switchOn = true)
    (h : finishedAction family d r live = .ok a) : ActionCase d (some r) live switchOn a := by
  unfold finishedAction at h
  cases hd : d.startRequestedAt with
  | none =>
    simp only [hd, Except.ok.injEq] at h
    subst h
    exact .nothing rfl
  | some started =>
    cases hfin : r.finishedAt with
    | none => simp [hd, hfin] at h
    | some finished =>
      simp only [hd, hfin, hw.notPerSource] at h
      split at h
      · cases h
        exact .nothing rfl
      · rename_i hlt
        obtain ⟨text, ht⟩ := restart_state hst
        obtain ⟨hk, hs, ha⟩ := moving_state h ht
        exact .restart r rfl ⟨hst, hmode, hsw, started, finished, hd, hfin, by omega⟩ hk hs ha

theorem rowAction_cases (hw : ConsoleWide family) {d : DecisionView} {r : ScopeRowView φ} {live switchOn a}
    (hmode : consoleMode (some d) = .active) (hsw : switchOn = true)
    (h : rowAction family d r live.isSome live = .ok a) : ActionCase d (some r) live switchOn a := by
  cases hst : r.state with
  | complete | partly | unavailable =>
    simp only [rowAction, hst] at h
    exact finishedAction_cases hw (by rw [hst]; rfl) hmode hsw h
  | waiting =>
    simp only [rowAction, hst] at h
    split at h
    · rename_i hl
      obtain ⟨hk, hs, ha⟩ := moving_state h rfl
      exact .wake r rfl hl hk hs ha
    · simp only [Except.ok.injEq] at h
      subst h
      exact .nothing rfl
  | reading =>
    simp only [rowAction, hst, Except.ok.injEq] at h
    subst h
    exact .step r rfl hst rfl
  | notRequested | notEligible =>
    simp only [rowAction, hst, Except.ok.injEq] at h
    subst h
    exact .nothing rfl

theorem stop_cases {d} {row : Option (ScopeRowView φ)} {live switchOn a trigger reason}
    (hrun : (currentState row).readingOrWaiting = true) (htr : trigger = .switchedOff ∨ trigger = .stoppedByOperator)
    (h : moving .transition (currentState row) trigger reason = .ok a) : ActionCase d row live switchOn a := by
  cases row with
  | none => cases hrun
  | some r =>
    have hto : ∃ text, transitions r.state trigger = some (.partly, text) := by
      simp only [currentState] at hrun
      rcases htr with rfl | rfl <;> cases hst : r.state <;> rw [hst] at hrun <;>
        first | exact ⟨_, rfl⟩ | cases hrun
    obtain ⟨text, ht⟩ := hto
    obtain ⟨hk, hs, _⟩ := moving_state h ht
    exact .stop r rfl hk hs

/-- The inversion lemma of `scopeAction` for a console-wide family. -/
theorem scopeAction_cases (hw : ConsoleWide family) {d : DecisionView}
    {row : Option (ScopeRowView φ)} {live switchOn a}
    (h : scopeAction family (consoleMode (some d)) (some d) row live.isSome live switchOn = .ok a) :
    ActionCase d row live switchOn a := by
  have hnone : ∀ {a text}, Except.ok (ε := Exc) (noAction text) = .ok a →
      ActionCase d row live switchOn a := by
    intro a text heq
    cases heq
    exact .nothing rfl
  unfold scopeAction at h
  simp only [hw.inTable, Bool.not_true, Bool.false_eq_true, if_false, checkLive_isSome] at h
  simp only [bind, Except.bind, pure, Except.pure] at h
  split at h
  · exact hnone h
  · rename_i hmode
    split at h
    · split at h
      · rename_i hrun
        exact stop_cases hrun (Or.inl rfl) h
      · exact hnone h
    · rename_i hsw
      split at h
      · split at h
        · rename_i hrun
          exact stop_cases hrun (Or.inr rfl) h
        · exact hnone h
      · rename_i hstop
        have hactive : consoleMode (some d) = .active := by
          cases hm : consoleMode (some d) with
          | undecided | no => simp [hm] at hmode
          | stopped => exact absurd hm hstop
          | active => rfl
        cases row with
        | none => exact createAction_cases hw h
        | some r => exact rowAction_cases hw hactive (by simpa using hsw) h

/-! ## The rows a tick writes -/

structure Begins (row : ScopeRow φ) (now : Int) : Prop where
  state : row.state = .reading
  startedAt : row.startedAt = some now
  finishedAt : row.finishedAt = none

structure SameReading (row row' : ScopeRow φ) : Prop where
  state : row'.state = row.state
  anchor : row'.anchor = row.anchor
  startedAt : row'.startedAt = row.startedAt
  finishedAt : row'.finishedAt = row.finishedAt

theorem newScopeRow_ok {a key d now} {row : ScopeRow φ} {s}
    (h : newScopeRow a instanceId family key d now = .ok row) (hs : a.state = some s) :
    row.state = s ∧ row.anchor = a.anchor ∧
      row.startedAt = (if s = .reading then some now else none) ∧
      row.finishedAt = (if s = .notEligible then some now else none) := by
  unfold newScopeRow at h
  split at h
  · rename_i s' _ hs'
    cases hs.symm.trans hs'
    obtain ⟨_, _, h⟩ := bind_ok h
    split at h
    · cases h
    · cases h
      exact ⟨rfl, rfl, rfl, rfl⟩
  · cases h

theorem transitionRow_reading {a key view d now} {row : ScopeRow φ}
    (h : transitionRow a instanceId family key view d now = .ok row) (hs : a.state = some .reading) :
    Begins row now ∧ row.anchor = if a.anchor.isSome then a.anchor else view.anchor := by
  unfold transitionRow at h
  split at h
  · rename_i s' _ hs'
    cases hs.symm.trans hs'
    obtain ⟨_, _, h⟩ := bind_ok h
    cases h
    exact ⟨⟨rfl, rfl, rfl⟩, rfl⟩
  · cases h

theorem transitionRow_ended {a key view d now} {row : ScopeRow φ} {s}
    (h : transitionRow a instanceId family key view d now = .ok row) (hs : a.state = some s)
    (hne : s ≠ .reading) : row.state = s ∧ row.finishedAt = some now := by
  unfold transitionRow at h
  split at h
  · rename_i s' _ hs'
    cases hs.symm.trans hs'
    obtain ⟨_, _, h⟩ := bind_ok h
    rw [if_neg hne] at h
    cases h
    exact ⟨rfl, rfl⟩
  · cases h

theorem keepStep_ok {row out} {i : TickInput φ}
    (h : keepStep instanceId family row i = .ok out) : SameReading row out := by
  unfold keepStep at h
  split at h
  · cases h
    exact ⟨rfl, rfl, rfl, rfl⟩
  · obtain ⟨base, hbase, h⟩ := bind_ok h
    unfold scopeRow at hbase
    obtain ⟨_, _, hbase⟩ := bind_ok hbase
    cases hbase
    cases h
    exact ⟨rfl, rfl, rfl, rfl⟩

theorem reading_transitions {trigger target text} (h : transitions .reading trigger = some (target, text)) :
    target.finished = true ∨ target = .reading := by
  cases trigger <;> simp only [transitions, Option.some.injEq, Prod.mk.injEq, reduceCtorEq] at h <;>
    obtain ⟨rfl, _⟩ := h <;> first | exact Or.inl rfl | exact Or.inr rfl

/-! ## The tick -/

/-- The inversion of `tick`: what became of the stored row. -/
inductive TickCase (stored : Option (ScopeRow φ)) (i : TickInput φ) (out : Option (ScopeRow φ)) : Prop
  | kept (h : out = stored)
  | stepped (row row' : ScopeRow φ) (hs : stored = some row) (ho : out = some row')
      (same : SameReading row row')
  | waits (row' : ScopeRow φ) (ho : out = some row') (hst : row'.state = .waiting)
  | begins (row' : ScopeRow φ) (ho : out = some row') (b : Begins row' i.now)
      (hl : i.liveAnchor.isSome = true) (ha : row'.anchor = i.liveAnchor)
  | again (row row' : ScopeRow φ) (hs : stored = some row) (hst : row.state = .reading)
      (ho : out = some row') (b : Begins row' i.now) (ha : row'.anchor = row.anchor)
  | ends (row' : ScopeRow φ) (ho : out = some row') (hst : row'.state.finished = true)
      (hf : row'.finishedAt = some i.now)
  | restarts (row row' : ScopeRow φ) (d : DecisionView) (hs : stored = some row)
      (hd : i.decision = some d) (hr : Restarts row.toScopeRowView d i.switchOn) (ho : out = some row')
      (b : Begins row' i.now)
      (ha : row'.anchor = if i.liveAnchor.isSome then i.liveAnchor else row.anchor)

theorem readingStep_cases {row row'} {d : DecisionView} {i : TickInput φ} (hst : row.state = .reading)
    (h : readingStep instanceId family row d i = .ok row') : TickCase (some row) i (some row') := by
  unfold readingStep at h
  obtain ⟨stepped, hk, h⟩ := bind_ok h
  have same := keepStep_ok hk
  split at h
  · cases h
    exact .stepped row row' rfl rfl same
  · rename_i trigger reason _
    obtain ⟨change, hc, hrow⟩ := bind_ok h
    unfold nextState at hc
    cases ht : transitions .reading trigger with
    | none => simp [ht] at hc
    | some p =>
      simp only [ht, Except.ok.injEq] at hc
      subst hc
      rcases reading_transitions ht with hfin | hread
      · have hne : p.1 ≠ .reading := by
          intro heq
          rw [heq] at hfin
          cases hfin
        obtain ⟨hs, hf⟩ := transitionRow_ended hrow rfl hne
        exact .ends row' rfl (by rw [hs]; exact hfin) hf
      · obtain ⟨b, ha⟩ := transitionRow_reading hrow (by rw [hread])
        exact .again row row' rfl hst rfl b (ha.trans same.anchor)

theorem tick_cases (hw : ConsoleWide family) {stored out} {i : TickInput φ}
    (h : tick instanceId family stored i = .ok out) : TickCase stored i out := by
  unfold tick at h
  cases hd : i.decision with
  | none =>
    simp only [hd, Except.ok.injEq] at h
    exact .kept h.symm
  | some d =>
    simp only [hd] at h
    obtain ⟨a, ha, h⟩ := bind_ok h
    cases scopeAction_cases hw ha with
    | nothing hk =>
      simp only [hk] at h
      cases stored with
      | none =>
        cases h
        exact .kept rfl
      | some row =>
        obtain ⟨row', hrow, h⟩ := bind_ok h
        cases h
        exact .stepped row row' rfl rfl (keepStep_ok hrow)
    | createReading _ hl hk hs hanchor =>
      simp only [hk] at h
      obtain ⟨row', hrow, h⟩ := bind_ok h
      cases h
      obtain ⟨h₁, h₂, h₃, h₄⟩ := newScopeRow_ok hrow hs
      exact .begins row' rfl ⟨h₁, h₃, h₄⟩ hl (h₂.trans hanchor)
    | createWaiting _ hk hs =>
      simp only [hk] at h
      obtain ⟨row', hrow, h⟩ := bind_ok h
      cases h
      exact .waits row' rfl (newScopeRow_ok hrow hs).1
    | wake r hr hl hk hs hanchor =>
      obtain ⟨row, rfl, rfl⟩ := Option.map_eq_some_iff.mp hr
      simp only [hk] at h
      obtain ⟨row', hrow, h⟩ := bind_ok h
      cases h
      obtain ⟨b, hrow'⟩ := transitionRow_reading hrow hs
      rw [hanchor, if_pos hl] at hrow'
      exact .begins row' rfl b hl hrow'
    | stop r hr hk hs =>
      obtain ⟨row, rfl, rfl⟩ := Option.map_eq_some_iff.mp hr
      simp only [hk] at h
      obtain ⟨row', hrow, h⟩ := bind_ok h
      cases h
      obtain ⟨hst, hf⟩ := transitionRow_ended hrow hs (by decide)
      exact .ends row' rfl (by rw [hst]; rfl) hf
    | step r hr hst hk =>
      obtain ⟨row, rfl, rfl⟩ := Option.map_eq_some_iff.mp hr
      simp only [hk] at h
      obtain ⟨row', hrow, h⟩ := bind_ok h
      cases h
      exact readingStep_cases hst hrow
    | restart r hr hre hk hs hanchor =>
      obtain ⟨row, rfl, rfl⟩ := Option.map_eq_some_iff.mp hr
      simp only [hk] at h
      obtain ⟨row', hrow, h⟩ := bind_ok h
      cases h
      obtain ⟨b, hrow'⟩ := transitionRow_reading hrow hs
      rw [hanchor] at hrow'
      exact .restarts row row' d rfl hd hre rfl b hrow'

/-! ## What every stored row satisfies -/

structure RowOk (row : ScopeRow φ) : Prop where
  reading : row.state = .reading → row.startedAt.isSome = true ∧ row.finishedAt = none
  finished : row.state.finished = true ∨ row.state = .notEligible → row.finishedAt.isSome = true

theorem Begins.rowOk {row : ScopeRow φ} {now} (b : Begins row now) : RowOk row := by
  refine ⟨fun _ => ⟨by simp [b.startedAt], b.finishedAt⟩, fun h => ?_⟩
  simp [b.state, HistoryState.finished] at h

theorem SameReading.rowOk {row row' : ScopeRow φ} (s : SameReading row row') (h : RowOk row) : RowOk row' := by
  refine ⟨?_, ?_⟩
  · rw [s.state, s.startedAt, s.finishedAt]
    exact h.reading
  · rw [s.state, s.finishedAt]
    exact h.finished

theorem RowOk.tick (hw : ConsoleWide family) {stored out : Option (ScopeRow φ)} {i : TickInput φ}
    (h : ∀ row, stored = some row → RowOk row) (ht : tick instanceId family stored i = .ok out) :
    ∀ row, out = some row → RowOk row := by
  intro row' hout
  cases tick_cases hw ht with
  | kept heq => exact h row' (heq ▸ hout)
  | stepped row _ hs ho same =>
    cases ho.symm.trans hout
    exact same.rowOk (h row hs)
  | waits _ ho hst =>
    cases ho.symm.trans hout
    refine ⟨fun hr => ?_, fun hf => ?_⟩
    · simp [hst] at hr
    · simp [hst, HistoryState.finished] at hf
  | begins _ ho b _ _ | again _ _ _ _ ho b _ | restarts _ _ _ _ _ _ ho b _ =>
    cases ho.symm.trans hout
    exact b.rowOk
  | ends _ ho hst hf =>
    cases ho.symm.trans hout
    refine ⟨fun hr => ?_, fun _ => by simp [hf]⟩
    rw [hr] at hst
    cases hst

theorem moving_total {kind current trigger reason anchor} (h : (transitions current trigger).isSome = true) :
    ∃ a, moving kind current trigger reason anchor = .ok a := by
  obtain ⟨p, hp⟩ := Option.isSome_iff_exists.mp h
  simp [moving, nextState, hp, bind, Except.bind, pure, Except.pure]

theorem rowAction_total (hw : ConsoleWide family) {d} {row : ScopeRow φ} (h : RowOk row) (live : Option Int) :
    ∃ a, rowAction family d row.toScopeRowView live.isSome live = .ok a := by
  unfold rowAction
  cases hst : row.state with
  | waiting =>
    dsimp only
    split
    · exact moving_total rfl
    · exact ⟨_, rfl⟩
  | reading | notRequested | notEligible => exact ⟨_, rfl⟩
  | complete | partly | unavailable =>
    have hfin := h.finished (Or.inl (by rw [hst]; rfl))
    obtain ⟨finished, hfin⟩ := Option.isSome_iff_exists.mp hfin
    dsimp only
    unfold finishedAction
    cases d.startRequestedAt with
    | none => exact ⟨_, rfl⟩
    | some started =>
      simp only [hfin, hw.notPerSource]
      split
      · exact ⟨_, rfl⟩
      · exact moving_total (by rw [hst]; rfl)

/-- On a row of the lifecycle, `scopeAction` does not raise. -/
theorem scopeAction_total (hw : ConsoleWide family) {stored : Option (ScopeRow φ)}
    (h : ∀ row, stored = some row → RowOk row) (d : Option DecisionView) (live : Option Int) (switchOn : Bool) :
    ∃ a, scopeAction family (consoleMode d) d (stored.map (·.toScopeRowView)) live.isSome live switchOn = .ok a := by
  have hstop : ∀ {trigger reason}, trigger = .switchedOff ∨ trigger = .stoppedByOperator →
      (currentState (stored.map (·.toScopeRowView))).readingOrWaiting = true →
      ∃ a, moving .transition (currentState (stored.map (·.toScopeRowView))) trigger reason = .ok a := by
    intro trigger reason htr hrun
    apply moving_total
    rcases htr with rfl | rfl <;>
      cases hst : currentState (stored.map (·.toScopeRowView)) <;> rw [hst] at hrun <;>
      first | rfl | cases hrun
  unfold scopeAction
  simp only [hw.inTable, Bool.not_true, Bool.false_eq_true, if_false, checkLive_isSome]
  simp only [bind, Except.bind, pure, Except.pure]
  split
  · exact ⟨_, rfl⟩
  · rename_i hmode
    cases d with
    | none => simp [consoleMode] at hmode
    | some d =>
      dsimp only
      split
      · split
        · exact hstop (Or.inl rfl) ‹_›
        · exact ⟨_, rfl⟩
      · split
        · split
          · exact hstop (Or.inr rfl) ‹_›
          · exact ⟨_, rfl⟩
        · cases stored with
          | none =>
            simp only [Option.map_none, createAction, hw.notPerSource, Bool.not_false, if_true]
            split <;> exact moving_total rfl
          | some row => exact rowAction_total hw (h row rfl) live

/-! ## Runs -/

abbrev TickTaken (φ : Type) := Taken (Option (ScopeRow φ)) (TickInput φ) (Option (ScopeRow φ))

abbrev ScopeRun (instanceId : String) (family : HistoryFamily) :
    List (TickTaken φ) → Option (ScopeRow φ) → Prop :=
  Run (tick instanceId family) id none

/-- The tick restarts a finished row that never had an anchor while there is no live data. -/
def RestartsUnanchored (e : TickTaken φ) : Prop :=
  ∃ row d, e.before = some row ∧ e.input.decision = some d ∧
    Restarts row.toScopeRowView d e.input.switchOn ∧ row.anchor = none ∧ e.input.liveAnchor = none

def Anchored (stored : Option (ScopeRow φ)) : Prop :=
  ∀ row, stored = some row → row.state = .reading → row.anchor.isSome = true

theorem Anchored.tick (hw : ConsoleWide family) {stored out : Option (ScopeRow φ)} {i} (h : Anchored stored)
    (hC : ¬ RestartsUnanchored ⟨stored, i, out⟩) (ht : tick instanceId family stored i = .ok out) : Anchored out := by
  intro row' hout hread
  cases tick_cases hw ht with
  | kept heq => exact h row' (heq ▸ hout) hread
  | stepped row _ hs ho same =>
    cases ho.symm.trans hout
    rw [same.anchor]
    exact h row hs (same.state ▸ hread)
  | waits _ ho hst =>
    cases ho.symm.trans hout
    simp [hst] at hread
  | begins _ ho _ hl ha =>
    cases ho.symm.trans hout
    rw [ha]
    exact hl
  | again row _ hs hst ho _ ha =>
    cases ho.symm.trans hout
    rw [ha]
    exact h row hs hst
  | ends _ ho hst _ =>
    cases ho.symm.trans hout
    rw [hread] at hst
    cases hst
  | restarts row _ d hs hd hr ho _ ha =>
    cases ho.symm.trans hout
    rw [ha]
    split
    · assumption
    · rename_i hlive
      by_contra hrow
      exact hC ⟨row, d, hs, hd, hr, by simpa using hrow, by simpa using hlive⟩

theorem RestartsUnanchored.unanchored (hw : ConsoleWide family) {e : TickTaken φ}
    (ht : tick instanceId family e.before e.input = .ok e.output) (hr : RestartsUnanchored e) :
    ¬ Anchored e.output := by
  obtain ⟨row, d, hs, hd, ⟨hfin, hmode, hsw, started, finished, hst, hfi, hlt⟩, hanchor, hlive⟩ := hr
  have hact : scopeAction family (consoleMode (some d)) (some d) (some row.toScopeRowView)
      false none true = moving .transition row.state .restart (some restartReason) none := by
    have hrow : rowAction family d row.toScopeRowView false none =
        moving .transition row.state .restart (some restartReason) none := by
      have hfa : finishedAction family d row.toScopeRowView none =
          moving .transition row.state .restart (some restartReason) none := by
        simp [finishedAction, hst, hfi, hw.notPerSource, Int.not_le.mpr hlt]
      unfold rowAction
      cases hs : row.state <;> rw [hs] at hfin hfa <;> first | exact hfa | cases hfin
    simp only [scopeAction, hw.inTable, checkLive, hmode]
    simpa [bind, Except.bind, hw.notPerSource] using hrow
  intro hall
  unfold tick at ht
  rw [hs, hd, hsw, hlive] at ht
  simp only [Option.map_some, Option.isSome_none] at ht
  obtain ⟨a, ha, ht⟩ := bind_ok ht
  rw [hact] at ha
  obtain ⟨text, htr⟩ := restart_state hfin
  obtain ⟨hk, hstate, han⟩ := moving_state ha htr
  simp only [hk] at ht
  obtain ⟨row', hrow', ht⟩ := bind_ok ht
  obtain ⟨b, hanc⟩ := transitionRow_reading hrow' hstate
  have hout : e.output = some row' := (Except.ok.inj ht).symm
  have := hall row' hout b.state
  simp [hanc, han, hanchor] at this

theorem ScopeRun.rowOk (hw : ConsoleWide family) {tr}
    {stored : Option (ScopeRow φ)} (h : ScopeRun instanceId family tr stored) :
    (∀ e ∈ tr, ∀ row, e.output = some row → RowOk row) ∧ ∀ row, stored = some row → RowOk row :=
  h.reached (fun s => ∀ row, s = some row → RowOk row) (fun _ => True) (by simp)
    (fun hI _ ht => RowOk.tick hw hI ht) (fun _ _ => trivial)

theorem ScopeRun.anchored (hw : ConsoleWide family) {tr} {stored : Option (ScopeRow φ)}
    (h : ScopeRun instanceId family tr stored) (hC : ∀ e ∈ tr, ¬ RestartsUnanchored e) : ∀ e ∈ tr, Anchored e.output :=
  (h.reached Anchored (fun e => ¬ RestartsUnanchored e) (by simp [Anchored])
    (fun hI hc ht => hI.tick hw hc ht) hC).1

end QRadarDashboard.History
