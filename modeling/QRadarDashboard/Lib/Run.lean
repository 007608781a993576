import Mathlib.Data.List.Induction

/-!
# Runs of a machine whose steps can be refused

A run lists the accepted steps, oldest first.
-/

namespace QRadarDashboard.Lib

variable {σ ι ο ε : Type}

structure Taken (σ ι ο : Type) where
  before : σ
  input : ι
  output : ο

/-- `Run step next s₀ tr s`: the steps `tr` were accepted one after the other from `s₀` and lead to `s`. -/
inductive Run (step : σ → ι → Except ε ο) (next : ο → σ) (s₀ : σ) : List (Taken σ ι ο) → σ → Prop
  | nil : Run step next s₀ [] s₀
  | snoc {tr s i o} : Run step next s₀ tr s → step s i = .ok o →
      Run step next s₀ (tr ++ [⟨s, i, o⟩]) (next o)

variable {step : σ → ι → Except ε ο} {next : ο → σ} {s₀ : σ}

/-- The invariant rule: what holds of the empty run and is kept by every accepted step that meets `C` holds of every run
whose steps all meet `C`. -/
theorem Run.invariant (I : List (Taken σ ι ο) → σ → Prop) (C : Taken σ ι ο → Prop) (h₀ : I [] s₀)
    (hstep : ∀ {tr s i o}, I tr s → C ⟨s, i, o⟩ → step s i = .ok o → I (tr ++ [⟨s, i, o⟩]) (next o))
    {tr s} (h : Run step next s₀ tr s) (hC : ∀ e ∈ tr, C e) : I tr s := by
  induction h with
  | nil => exact h₀
  | snoc _ hs ih =>
    have hpre := ih (fun e he => hC e (List.mem_append_left _ he))
    exact hstep hpre (hC _ (by simp)) hs

/-- The invariant rule for runs with no condition on the steps. -/
theorem Run.invariant' (I : List (Taken σ ι ο) → σ → Prop) (h₀ : I [] s₀)
    (hstep : ∀ {tr s i o}, I tr s → step s i = .ok o → I (tr ++ [⟨s, i, o⟩]) (next o))
    {tr s} (h : Run step next s₀ tr s) : I tr s :=
  h.invariant I (fun _ => True) h₀ (fun hI _ hs => hstep hI hs) (fun _ _ => trivial)

/-- A property of states that every accepted step within `C` keeps holds in every state of the run. -/
theorem Run.reached (I : σ → Prop) (C : Taken σ ι ο → Prop) (h₀ : I s₀)
    (hstep : ∀ {s i o}, I s → C ⟨s, i, o⟩ → step s i = .ok o → I (next o))
    {tr s} (h : Run step next s₀ tr s) (hC : ∀ e ∈ tr, C e) : (∀ e ∈ tr, I (next e.output)) ∧ I s := by
  refine h.invariant (fun tr s => (∀ e ∈ tr, I (next e.output)) ∧ I s) C ⟨by simp, h₀⟩ ?_ hC
  intro tr s i o hI hc hs
  have hnew := hstep hI.2 hc hs
  refine ⟨fun e he => ?_, hnew⟩
  rcases List.mem_append.mp he with he | he
  · exact hI.1 e he
  · rw [List.mem_singleton.mp he]
    exact hnew

theorem Run.taken {tr s} (h : Run step next s₀ tr s) : ∀ e ∈ tr, step e.before e.input = .ok e.output := by
  refine h.invariant' (fun tr _ => ∀ e ∈ tr, step e.before e.input = .ok e.output) (by simp) ?_
  intro tr s i o hI hs e he
  rcases List.mem_append.mp he with he | he
  · exact hI e he
  · rw [List.mem_singleton.mp he]
    exact hs

theorem Run.cons {tr s i o} (hs : step s₀ i = .ok o)
    (h : Run step next (next o) tr s) : Run step next s₀ (⟨s₀, i, o⟩ :: tr) s := by
  induction h with
  | nil => exact Run.nil.snoc hs
  | snoc _ hs' ih => exact ih.snoc hs'

theorem Run.split {tr₁ tr₂ s} (h : Run step next s₀ (tr₁ ++ tr₂) s) :
    ∃ s₁, Run step next s₀ tr₁ s₁ ∧ Run step next s₁ tr₂ s := by
  induction tr₂ using List.reverseRecOn generalizing s with
  | nil => exact ⟨s, by simpa using h, Run.nil⟩
  | append_singleton tr₂ e ih =>
    rw [← List.append_assoc] at h
    generalize hall : tr₁ ++ tr₂ ++ [e] = all at h
    cases h with
    | nil => simp at hall
    | @snoc tr s i o hpre hs =>
      obtain ⟨rfl, he⟩ := List.append_inj' hall rfl
      cases he
      obtain ⟨s₁, h₁, h₂⟩ := ih hpre
      exact ⟨s₁, h₁, h₂.snoc hs⟩

/-- The steps before a step of a run lead to the state it was taken from. -/
theorem Run.before {tr₁ tr₂ e s} (h : Run step next s₀ (tr₁ ++ e :: tr₂) s) : Run step next s₀ tr₁ e.before := by
  rw [List.append_cons] at h
  obtain ⟨s₁, h, -⟩ := h.split
  generalize hall : tr₁ ++ [e] = all at h
  cases h with
  | nil => simp at hall
  | snoc hpre _ =>
    obtain ⟨rfl, he⟩ := List.append_inj' hall rfl
    cases he
    exact hpre

def replay (step : σ → ι → Except ε ο) (next : ο → σ) : σ → List ι → Except ε (List (Taken σ ι ο) × σ)
  | s, [] => .ok ([], s)
  | s, i :: is =>
    match step s i with
    | .error e => .error e
    | .ok o => (replay step next (next o) is).map (fun r => (⟨s, i, o⟩ :: r.1, r.2))

theorem replay_run {is} : ∀ {s₀ : σ} {r : List (Taken σ ι ο) × σ},
    replay step next s₀ is = .ok r → Run step next s₀ r.1 r.2 ∧ r.1.map Taken.input = is := by
  induction is with
  | nil =>
    intro s₀ r h
    cases h
    exact ⟨Run.nil, rfl⟩
  | cons i is ih =>
    intro s₀ r h
    simp only [replay] at h
    cases hs : step s₀ i with
    | error e => simp [hs] at h
    | ok o =>
      cases hr : replay step next (next o) is with
      | error e => simp [hs, hr, Except.map] at h
      | ok r' =>
        simp only [hs, hr, Except.map, Except.ok.injEq] at h
        subst h
        obtain ⟨hrun, hinputs⟩ := ih hr
        exact ⟨hrun.cons hs, by rw [List.map_cons, hinputs]⟩

theorem exists_run_of_inputs {γ : Type} (step : σ → ι → Except ε ο) (next : ο → σ) (s₀ : σ) (is : List ι)
    (f : List (Taken σ ι ο) × σ → γ) (v : γ) (h : (replay step next s₀ is).toOption.map f = some v) :
    ∃ tr s, Run step next s₀ tr s ∧ tr.map Taken.input = is ∧ f (tr, s) = v := by
  cases hr : replay step next s₀ is with
  | error e => simp [hr, Except.toOption] at h
  | ok r =>
    simp only [hr, Except.toOption, Option.map_some, Option.some.injEq] at h
    exact ⟨r.1, r.2, (replay_run hr).1, (replay_run hr).2, h⟩

theorem exists_run_of_replay {γ : Type} (step : σ → ι → Except ε ο) (next : ο → σ) (s₀ : σ) (is : List ι)
    (f : List (Taken σ ι ο) × σ → γ) (v : γ) (h : (replay step next s₀ is).toOption.map f = some v) :
    ∃ tr s, Run step next s₀ tr s ∧ f (tr, s) = v := by
  obtain ⟨tr, s, hrun, _, hv⟩ := exists_run_of_inputs step next s₀ is f v h
  exact ⟨tr, s, hrun, hv⟩

theorem exists_run_of_all (step : σ → ι → Except ε ο) (next : ο → σ) (s₀ : σ) (is : List ι)
    (p : Taken σ ι ο → Bool) (h : (replay step next s₀ is).toOption.map (fun r => r.1.all p) = some true) :
    ∃ tr s, Run step next s₀ tr s ∧ tr.map Taken.input = is ∧ ∀ e ∈ tr, p e := by
  obtain ⟨tr, s, hrun, hinputs, hall⟩ := exists_run_of_inputs step next s₀ is (fun r => r.1.all p) true h
  exact ⟨tr, s, hrun, hinputs, List.all_eq_true.mp hall⟩

end QRadarDashboard.Lib
