import QRadarDashboard.History.Lemmas.SettleRun

/-!
# The failures behind a gap
-/

namespace QRadarDashboard.History
open Lib

variable {φ : Type} [PyFloat φ] {st : PlannerSettings φ}

def failedAt (st : PlannerSettings φ) (e : SettledStep φ) : Option Int :=
  match blockerOf st e.input.1 with
  | some b => if b.status = .failed then some b.span.start else none
  | none => none

def failedStarts (st : PlannerSettings φ) (tr : List (SettledStep φ)) : List Int :=
  tr.filterMap (failedAt st)

/-- Every gap of the run is earned: the last `maxFailures` failed blockers up to it were at its start, and nothing at or
after it was written meanwhile. -/
def GapsEarned (st : PlannerSettings φ) (tr : List (SettledStep φ)) : Prop :=
  ∀ tr₁ e tr₂ g, tr = tr₁ ++ e :: tr₂ → e.output.newGap = some g →
    ∃ older last, tr₁ ++ [e] = older ++ last ∧
      failedStarts st last = List.replicate st.maxFailures.toNat g.start ∧
      ∀ e' ∈ last, ∀ s ∈ e'.output.writeSpans, s.stop ≤ g.start

/-- The step does not read something and then meet a blocker while failures are counted. -/
def KeepsSpan (st : PlannerSettings φ) (e : SettledStep φ) : Prop :=
  0 < e.before.failures → donePrefix st e.input.1 = [] ∨ blockerOf st e.input.1 = none

instance (e : SettledStep φ) : Decidable (KeepsSpan st e) :=
  inferInstanceAs (Decidable (_ → _ ∨ _))

/-! ## The counter -/

/-- The counter of `p` is about its next start: so many failed blockers were there in the last steps. -/
def CountsAt (st : PlannerSettings φ) (tr : List (SettledStep φ)) (p : ScopeProgress Int φ) : Prop :=
  p.failures = 0 ∨ 0 < p.failures ∧ ∃ n older last m, nextStart p st = some n ∧ tr = older ++ last ∧
    failedStarts st last = List.replicate m n ∧ p.failures ≤ m ∧
    ∀ e ∈ last, ∀ s ∈ e.output.writeSpans, s.stop ≤ n

theorem filterMap_suffix {α β : Type} {f : α → Option β} {n k} {l : List α} :
    ∀ {m : Nat}, l.filterMap f = List.replicate m n → k ≤ m →
      ∃ l₁ l₂, l = l₁ ++ l₂ ∧ l₂.filterMap f = List.replicate k n := by
  induction l with
  | nil =>
    intro m h hk
    have hm : m = 0 := by simpa using congrArg List.length h.symm
    exact ⟨[], [], rfl, by simp [show k = 0 by omega]⟩
  | cons x l ih =>
    intro m h hk
    by_cases heq : k = m
    · exact ⟨[], x :: l, rfl, by rw [h, heq]⟩
    · have hl : ∃ m', l.filterMap f = List.replicate m' n ∧ k ≤ m' := by
        cases hx : f x with
        | none => exact ⟨m, by rwa [List.filterMap_cons_none hx] at h, hk⟩
        | some y =>
          rw [List.filterMap_cons_some hx] at h
          cases m with
          | zero => simp at h
          | succ m =>
            rw [List.replicate_succ, List.cons.injEq] at h
            exact ⟨m, h.2, by omega⟩
      obtain ⟨m', hm', hk'⟩ := hl
      obtain ⟨l₁, l₂, rfl, h₂⟩ := ih hm' hk'
      exact ⟨x :: l₁, l₂, rfl, h₂⟩

theorem failedStarts_snoc (tr : List (SettledStep φ)) (e : SettledStep φ) :
    failedStarts st (tr ++ [e]) = failedStarts st tr ++ (failedAt st e).toList := by
  unfold failedStarts
  rw [List.filterMap_append]
  cases h : failedAt st e <;> simp [h]

theorem MinFailure.failedAt {b e} (hb : blockerOf st e.input.1 = some b) (hm : MinFailure st b) :
    failedAt st e = some b.span.start := by
  simp [History.failedAt, hb, hm.1]

theorem Settled.write_le {p rs o start mid next} (h : Settled st p rs o start mid next) :
    ∀ s ∈ o.writeSpans, s.stop ≤ mid := by
  intro s hs
  rw [h.write] at hs
  obtain ⟨r, hr, rfl⟩ := List.mem_map.mp hs
  exact h.tiles.stop_le r.span.pair (List.mem_map.mpr ⟨r, hr, rfl⟩)

theorem Settled.mid_eq {p rs o start mid next} (h : Settled st p rs o start mid next) (hnil : donePrefix st rs = []) :
    start = mid := by
  simpa [hnil, Tiles] using h.tiles

theorem CountsAt.counted {tr p i o start mid next b} (hc : CountsAt st tr p) (hk : KeepsSpan st ⟨p, i, o⟩)
    (s : Settled st p i.1 o start mid next) (hb : blockerOf st i.1 = some b) (hm : MinFailure st b) :
    ∃ older last m, tr ++ [⟨p, i, o⟩] = older ++ last ∧
      failedStarts st last = List.replicate m mid ∧ p.failures + 1 ≤ m ∧
      ∀ e ∈ last, ∀ w ∈ e.output.writeSpans, w.stop ≤ mid := by
  have hat : failedAt st (⟨p, i, o⟩ : SettledStep φ) = some mid := by
    rw [hm.failedAt hb, (s.blocked b hb).1]
  rcases hc with h0 | ⟨hpos, n, older, last, m, hn, rfl, hl, hle, hw⟩
  · refine ⟨tr, [⟨p, i, o⟩], 1, rfl, by simp [failedStarts, hat], by omega, ?_⟩
    simpa using s.write_le
  · have hnil : donePrefix st i.1 = [] := by simpa [hb] using hk hpos
    have hmid : n = mid := (Option.some.inj (hn.symm.trans s.start_eq)).trans (s.mid_eq hnil)
    subst hmid
    refine ⟨older, last ++ [⟨p, i, o⟩], m + 1, by simp, ?_, by omega, ?_⟩
    · rw [failedStarts_snoc, hl, hat, List.replicate_succ']; rfl
    · intro e he
      rcases List.mem_append.mp he with he | he
      · exact hw e he
      · rw [List.mem_singleton.mp he]
        exact s.write_le

theorem CountsAt.held {tr p i o start mid next b} (hc : CountsAt st tr p) (hk : KeepsSpan st ⟨p, i, o⟩)
    (s : Settled st p i.1 o start mid next) (hb : blockerOf st i.1 = some b) (hf : o.progress.failures = p.failures)
    (hg : o.newGap = none) : CountsAt st (tr ++ [⟨p, i, o⟩]) o.progress := by
  rcases hc with h0 | ⟨hpos, n, older, last, m, hn, rfl, hl, hle, hw⟩
  · exact Or.inl (hf.trans h0)
  · have hnil : donePrefix st i.1 = [] := by simpa [hb] using hk hpos
    have hmid : n = mid := (Option.some.inj (hn.symm.trans s.start_eq)).trans (s.mid_eq hnil)
    subst hmid
    have hnext : next = n := by simpa [hg] using s.stop_cases
    -- a failed blocker above the minimum width is one more hit at the same start
    have hhits : ∃ k, failedStarts st (last ++ [⟨p, i, o⟩]) = List.replicate (m + k) n := by
      have hstart := (s.blocked b hb).1
      rw [failedStarts_snoc, hl]
      by_cases hst : b.status = .failed
      · exact ⟨1, by simp [failedAt, hb, hst, hstart, List.replicate_succ']⟩
      · exact ⟨0, by simp [failedAt, hb, hst]⟩
    obtain ⟨k, hk'⟩ := hhits
    refine Or.inr ⟨by omega, n, older, last ++ [⟨p, i, o⟩], m + k, ?_, by simp, hk', by omega, ?_⟩
    · rw [s.stop_eq, hnext]
    · intro e he
      rcases List.mem_append.mp he with he | he
      · exact hw e he
      · rw [List.mem_singleton.mp he]
        exact s.write_le

theorem CountsAt.step {tr p i o} (hc : CountsAt st tr p) (hp : 0 ≤ p.failures) (hk : KeepsSpan st ⟨p, i, o⟩)
    (h : settleStep p i.1 i.2 st = .ok o) : CountsAt st (tr ++ [⟨p, i, o⟩]) o.progress := by
  obtain ⟨start, mid, next, s⟩ := settleStep_ok h
  cases s.effect with
  | clean _ hf _ | gap _ _ _ _ hf _ _ _ _ => exact Or.inl hf
  | held b hb _ hf hg => exact hc.held hk s hb hf hg
  | counted b hb hm hf hg _ =>
    obtain ⟨older, last, m, hsplit, hl, hle, hw⟩ := hc.counted hk s hb hm
    have hnext : next = mid := by simpa [hg] using s.stop_cases
    exact Or.inr ⟨by omega, mid, older, last, m, by rw [s.stop_eq, hnext], hsplit, hl, by omega, hw⟩

theorem CountsAt.gap_earned {tr p i} {o : StepSettlement φ} {g} (hc : CountsAt st tr p)
    (hk : KeepsSpan st ⟨p, i, o⟩) (h : settleStep p i.1 i.2 st = .ok o) (hg : o.newGap = some g) :
    ∃ older last, tr ++ [⟨p, i, o⟩] = older ++ last ∧
      failedStarts st last = List.replicate st.maxFailures.toNat g.start ∧
      ∀ e' ∈ last, ∀ s ∈ e'.output.writeSpans, s.stop ≤ g.start := by
  obtain ⟨start, mid, next, s⟩ := settleStep_ok h
  cases s.effect with
  | clean _ _ hn | held _ _ _ _ hn | counted _ _ _ _ hn _ => simp [hn] at hg
  | gap b g' hb hm _ hg' hspan hlim _ =>
    obtain rfl : g' = g := Option.some.inj (hg'.symm.trans hg)
    have hstart : g'.start = mid := (congrArg Span.start hspan).trans (s.blocked b hb).1
    obtain ⟨older, last, m, hsplit, hl, hle, hw⟩ := hc.counted hk s hb hm
    obtain ⟨l₁, l₂, rfl, hl₂⟩ :=
      filterMap_suffix (k := st.maxFailures.toNat) hl (by omega)
    refine ⟨older ++ l₁, l₂, by simp [hsplit], by rw [hstart]; exact hl₂, fun e he => ?_⟩
    rw [hstart]
    exact hw e (List.mem_append_right _ he)

/-! ## Runs -/

/-- The invariant of a run: its gaps are earned and the counter is about the next start. -/
structure CountsRun (st : PlannerSettings φ) (tr : List (SettledStep φ)) (p : ScopeProgress Int φ) :
    Prop where
  earned : GapsEarned st tr
  counts : CountsAt st tr p

theorem CountsAt.nonneg {tr p} (h : CountsAt st tr p) : 0 ≤ p.failures := by
  rcases h with h | ⟨h, _⟩ <;> omega

theorem CountsRun.step {tr p i o} (hr : CountsRun st tr p) (hk : KeepsSpan st ⟨p, i, o⟩)
    (h : settleStep p i.1 i.2 st = .ok o) : CountsRun st (tr ++ [⟨p, i, o⟩]) o.progress := by
  refine ⟨?_, hr.counts.step hr.counts.nonneg hk h⟩
  intro tr₁ e tr₂ g hsplit hg
  rcases List.eq_nil_or_concat tr₂ with rfl | ⟨tr₂, e', rfl⟩
  · obtain ⟨rfl, he⟩ := List.append_inj' hsplit rfl
    obtain rfl : (⟨p, i, o⟩ : SettledStep φ) = e := by simpa using he
    exact hr.counts.gap_earned hk h hg
  · have hsplit' : tr ++ [⟨p, i, o⟩] = (tr₁ ++ e :: tr₂) ++ [e'] := by simpa using hsplit
    obtain ⟨rfl, _⟩ := List.append_inj' hsplit' rfl
    exact hr.earned tr₁ e tr₂ g rfl hg

theorem SettleRun.counts {p₀ p tr} (h₀ : p₀.failures = 0) (h : SettleRun st p₀ tr p) (hC : ∀ e ∈ tr, KeepsSpan st e) :
    CountsRun st tr p :=
  h.invariant (CountsRun st) (KeepsSpan st) ⟨by simp [GapsEarned], Or.inl h₀⟩
    (fun hr hk hs => hr.step hk hs) hC

end QRadarDashboard.History
