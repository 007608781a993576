import QRadarDashboard.History.Lemmas.Codec
import QRadarDashboard.Lib.Run

/-!
# What a restarted row holds
-/

namespace QRadarDashboard.History
open Lib

section Restart

variable {φ : Type}

/-! ## The restart -/

def IsRestart (action : ScopeAction) : Prop :=
  action.kind = .transition ∧ action.state = some .reading ∧ action.reason = restartReason

theorem moving_trigger {kind current trigger reason anchor action}
    (h : moving kind current trigger reason anchor = .ok action) : action.trigger = some trigger := by
  rw [moving] at h
  obtain ⟨change, _, h⟩ := bind_ok h
  cases h
  rfl

theorem moving_restart {current anchor action}
    (h : moving .transition current .restart (some restartReason) anchor = .ok action) : IsRestart action := by
  rw [moving] at h
  obtain ⟨change, hchange, h⟩ := bind_ok h
  cases h
  have hreason : ∀ text, boundedReason (orReason (some restartReason) text) = restartReason := by
    intro text
    have hkept : orReason (some restartReason) text = restartReason := by simp [orReason, restartReason]
    rw [hkept]
    decide
  refine ⟨rfl, ?_, hreason _⟩
  cases current with
  | notRequested | waiting | notEligible => cases hchange
  | reading | complete | partly | unavailable =>
    cases hchange
    rfl

theorem finishedAction_restart {family decision} {row : ScopeRowView φ}
    {liveAnchor action} (h : finishedAction family decision row liveAnchor = .ok action)
    (htrigger : action.trigger = some .restart) : IsRestart action := by
  unfold finishedAction at h
  split at h
  · cases h
    cases htrigger
  · cases h
  · split at h
    · cases h
      cases htrigger
    · split at h
      · cases h
        cases htrigger
      · exact moving_restart h

theorem rowAction_restart {family decision} {row : ScopeRowView φ}
    {hasLiveData liveAnchor action}
    (h : rowAction family decision row hasLiveData liveAnchor = .ok action)
    (htrigger : action.trigger = some .restart) : IsRestart action := by
  unfold rowAction at h
  cases hst : row.state with
  | complete | partly | unavailable =>
    simp only [hst] at h
    exact finishedAction_restart h htrigger
  | waiting =>
    simp only [hst] at h
    split at h
    · cases (moving_trigger h).symm.trans htrigger
    · cases h
      cases htrigger
  | reading | notRequested | notEligible =>
    simp only [hst] at h
    cases h
    cases htrigger

theorem scopeAction_restart {family mode} {decision : Option DecisionView}
    {row : ScopeRowView φ} {hasLiveData liveAnchor switchOn action}
    (h : scopeAction family mode decision (some row) hasLiveData liveAnchor switchOn = .ok action)
    (htrigger : action.trigger = some .restart) : IsRestart action := by
  have hnone : ∀ {text}, Except.ok (ε := Exc) (noAction text) = .ok action → IsRestart action := by
    intro text heq
    cases heq
    cases htrigger
  unfold scopeAction at h
  simp only at h
  split at h
  · cases h
  · obtain ⟨_, _, h⟩ := bind_ok h
    split at h
    · exact hnone h
    · cases decision with
      | none => cases h
      | some decision =>
        simp only at h
        split at h
        · split at h
          · cases (moving_trigger h).symm.trans htrigger
          · exact hnone h
        · split at h
          · split at h
            · cases (moving_trigger h).symm.trans htrigger
            · exact hnone h
          · exact rowAction_restart h htrigger

/-! ## Rows that wait for a step -/

structure Holds (row : ScopeRowView φ) (body : JsonObject φ) (targetStart : Option Int) (startedAt : Int)
    (reason : String) : Prop where
  state : row.state = .reading
  progress : row.progress = some body
  targetStart : row.targetStart = targetStart
  startedAt : row.startedAt = some startedAt
  reason : row.reason = some reason

theorem transitionRow_restart {action} (haction : IsRestart action) {instanceId family scopeKey row decision now}
    {restarted : ScopeRow φ} (h : transitionRow action instanceId family scopeKey row decision now = .ok restarted)
    {body} (hbody : row.progress = some body) :
    Holds restarted.toScopeRowView body row.targetStart now restartReason := by
  obtain ⟨hkind, hstate, hreason⟩ := haction
  unfold transitionRow at h
  simp only [hkind, hstate, hreason] at h
  obtain ⟨_, _, h⟩ := bind_ok h
  simp only [if_true] at h
  cases h
  exact ⟨rfl, by simp [hbody], rfl, rfl, rfl⟩

variable {instanceId : String} {family : HistoryFamily} {scopeKey : String}

theorem scopeRow_holds {view} {values : ScopeRow φ} (h : scopeRow view instanceId family scopeKey = .ok values)
    {body targetStart startedAt reason} (hold : Holds view body targetStart startedAt reason) :
    Holds values.toScopeRowView body targetStart startedAt reason := by
  rw [scopeRow] at h
  obtain ⟨_, _, h⟩ := bind_ok h
  cases h
  exact ⟨hold.state, by simp [hold.progress], hold.targetStart, hold.startedAt, hold.reason⟩

theorem idleWrite_holds {stored stored' : ScopeRow φ} {write}
    (h : idleWrite instanceId family scopeKey stored write = .ok stored') {body targetStart startedAt writes}
    (hold : Holds stored.toScopeRowView body targetStart startedAt (heldReason writes)) :
    Holds stored'.toScopeRowView body targetStart startedAt (heldReason (writes ++ [write])) := by
  cases write with
  | roundTrip =>
    have hheld : heldReason (writes ++ [.roundTrip]) = heldReason writes := by simp [heldReason]
    rw [hheld]
    exact scopeRow_holds h hold
  | deferred reason =>
    have hheld : heldReason (writes ++ [.deferred reason]) = boundedReason reason := by simp [heldReason]
    rw [hheld]
    obtain ⟨values, hvalues, h⟩ := bind_ok h
    cases h
    have hkept := scopeRow_holds hvalues hold
    exact ⟨hkept.state, hkept.progress, hkept.targetStart, hkept.startedAt, rfl⟩

theorem Holds.run {restarted stored : ScopeRow φ} {body targetStart startedAt}
    (hold : Holds restarted.toScopeRowView body targetStart startedAt restartReason)
    {tr}
    (hrun : Run (idleWrite instanceId family scopeKey) id restarted tr stored) :
    Holds stored.toScopeRowView body targetStart startedAt (heldReason (tr.map Taken.input)) := by
  refine hrun.invariant' (fun tr stored =>
    Holds stored.toScopeRowView body targetStart startedAt (heldReason (tr.map Taken.input))) hold ?_
  intro tr stored write stored' hold h
  rw [List.map_append]
  exact idleWrite_holds h hold

end Restart

section Decode

variable {φ : Type} [PyFloat φ] {repr : Json φ → String}

/-! ## Decoding -/

theorem decodeProgress_nil : ∀ d, decodeProgress repr (.obj []) ≠ .ok d := by
  intro d h
  cases h

theorem decodeScope_some {row d} : decodeScope repr row = .ok (some d) ↔
    ∃ body target, row.progress = some body ∧ row.state ≠ .waiting ∧ row.state ≠ .notEligible ∧
      row.targetStart = some target ∧ decodeProgress repr (.obj body) = .ok d ∧
      (∀ started ∈ row.startedAt, started ≤ d.progress.startedAt.timestamp) ∧ row.reason ≠ some restartReason ∧
      d.progress.targetStart.timestamp = target := by
  unfold decodeScope
  cases hprogress : row.progress with
  | none => simp
  | some body =>
    cases body with
    | nil => simp [decodeProgress_nil]
    | cons member rest =>
      by_cases hstate : row.state = .waiting ∨ row.state = .notEligible
      · simp only [List.isEmpty_cons, hstate, Bool.false_eq_true, if_false, if_true, reduceCtorEq, false_iff]
        rintro ⟨_, _, _, hwaiting, hnot, _⟩
        exact hstate.elim hwaiting hnot
      · obtain ⟨hwaiting, hnot⟩ := not_or.mp hstate
        cases htarget : row.targetStart with
        | none => simp [hwaiting, hnot]
        | some target =>
          cases hdecode : decodeProgress repr (.obj (member :: rest)) with
          | error e => simp [hwaiting, hnot, hdecode, bind, Except.bind]
          | ok decoded =>
            have hany : (row.startedAt.any (fun started => decoded.progress.startedAt.timestamp < started)) = true ↔
                ¬ ∀ started ∈ row.startedAt, started ≤ decoded.progress.startedAt.timestamp := by
              cases row.startedAt <;> simp
            simp only [List.isEmpty_cons, hstate, Bool.false_eq_true, if_false, hdecode, bind, Except.bind,
              pure, Except.pure, throw, throwThe, MonadExceptOf.throw, hany]
            by_cases hold : ∀ started ∈ row.startedAt, started ≤ decoded.progress.startedAt.timestamp
            · rw [if_neg (not_not.mpr hold)]
              by_cases hreason : row.reason = some restartReason
              · simp [hreason]
              · by_cases hwindow : decoded.progress.targetStart.timestamp = target
                · rw [if_neg hreason, if_neg (not_not.mpr hwindow)]
                  constructor
                  · intro h
                    cases h
                    exact ⟨_, _, rfl, hwaiting, hnot, rfl, hdecode, hold, hreason, hwindow⟩
                  · rintro ⟨_, _, hbody, _, _, _, hd, _⟩
                    cases hbody
                    cases hdecode.symm.trans hd
                    rfl
                · simp only [hreason, hwindow, if_false, ne_eq, not_false_eq_true, if_true, reduceCtorEq, false_iff]
                  rintro ⟨_, _, hbody, _, _, htarget', hd, _, _, heq⟩
                  cases hbody
                  cases htarget'
                  cases hdecode.symm.trans hd
                  exact hwindow heq
            · rw [if_pos hold]
              simp only [Except.ok.injEq, reduceCtorEq, false_iff]
              rintro ⟨_, _, hbody, _, _, _, hd, hstarted, _⟩
              cases hbody
              cases hdecode.symm.trans hd
              exact hold hstarted

/-- A waiting row is not read on exactly if its body is older than its start or its reason is still the restart's. -/
theorem Holds.decode {row body target startedAt reason} (hold : Holds row body (some target) startedAt reason) {d}
    (hdecode : decodeProgress repr (.obj body) = .ok d) : decodeScope repr row = .ok none ↔
      d.progress.startedAt.timestamp < startedAt ∨ reason = restartReason := by
  have hne : body.isEmpty = false := by
    cases body with
    | nil => exact absurd hdecode (decodeProgress_nil d)
    | cons member rest => rfl
  simp only [decodeScope, hold.progress, hne, hold.state, hold.targetStart, hdecode, hold.startedAt, hold.reason,
    bind, Except.bind, pure, Except.pure, throw, throwThe, MonadExceptOf.throw, Bool.false_eq_true, if_false,
    reduceCtorEq, or_self, Option.any_some, decide_eq_true_eq, Option.some.injEq]
  by_cases hold' : d.progress.startedAt.timestamp < startedAt
  · simp [hold']
  · by_cases hreason : reason = restartReason
    · simp [hreason]
    · rw [if_neg hold', if_neg hreason]
      by_cases htarget : d.progress.targetStart.timestamp = target
      · simp [htarget, hold', hreason]
      · simp [htarget, hold', hreason]

theorem decodeScope_stored {row : ScopeRowView φ} {p : ScopeProgress DateTime φ} {adapter body : JsonObject φ}
    (hstored : encodeProgress p adapter = .ok (.obj body)) (hbody : row.progress = some body)
    (htarget : row.targetStart = some p.targetStart.timestamp)
    (hstarted : ∀ started ∈ row.startedAt, started ≤ p.startedAt.timestamp) :
    decodeScope repr row = .ok (some ⟨p.map DateTime.utc, adapter⟩) ↔
      row.reason ≠ some restartReason ∧ 0 ≤ p.ceilingSuccesses ∧ row.state ≠ .waiting ∧ row.state ≠ .notEligible := by
  obtain ⟨henc, hdecode⟩ := decode_of_encodeProgress hstored repr
  have hinstant : ∀ {t : DateTime}, Encodable t → t.utc.timestamp = t.timestamp := by
    intro t ht
    obtain ⟨o, ho⟩ := Option.isSome_iff_exists.mp ht.1
    exact (DateTime.utc_spec ho ht.2).2
  rw [decodeScope_some]
  constructor
  · rintro ⟨body', _, hbody', hwaiting, hnot, _, hd, _, hreason, _⟩
    cases hbody.symm.trans hbody'
    exact ⟨hreason, hdecode.mp hd, hwaiting, hnot⟩
  · rintro ⟨hreason, hceiling, hwaiting, hnot⟩
    refine ⟨body, _, hbody, hwaiting, hnot, htarget, hdecode.mpr hceiling, fun started hs => ?_, hreason,
      hinstant henc.targetStart⟩
    exact le_of_le_of_eq (hstarted started hs) (hinstant henc.startedAt).symm

end Decode

end QRadarDashboard.History
