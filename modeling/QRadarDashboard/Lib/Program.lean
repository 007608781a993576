import QRadarDashboard.Lib.ReadCommitted

/-!
# Transactions as programs

What a program does next depends on what its statements returned. Other transactions may commit between any two.
-/

namespace QRadarDashboard.Lib.ReadCommitted

/-- A transaction with store `σ`, rows `κ` and result `α`, which its commit applies. -/
inductive Program (σ κ α : Type) where
  | done (a : α)
  /-- An exception: the transaction is rolled back. -/
  | fail
  | query (f : σ → Program σ κ α)
  | lock (k : κ) (f : σ → Program σ κ α)

structure Rely (σ : Type) where
  rel : σ → σ → Prop
  refl : ∀ s, rel s s
  trans : ∀ {s s' s''}, rel s s' → rel s' s'' → rel s s''

namespace Program

variable {σ κ ι τ ρ α β : Type}

def bind : Program σ κ α → (α → Program σ κ β) → Program σ κ β
  | done a, g => g a
  | fail, _ => fail
  | query f, g => query (fun s => (f s).bind g)
  | lock k f, g => lock k (fun s => (f s).bind g)

instance : Monad (Program σ κ) where
  pure := done
  bind := bind

theorem bind_assoc {γ : Type} (p : Program σ κ α) (f : α → Program σ κ β) (g : β → Program σ κ γ) :
    p >>= f >>= g = p >>= fun a => f a >>= g := by
  induction p with
  | done a => rfl
  | fail => rfl
  | query q ih => exact congrArg query (funext ih)
  | lock k q ih => exact congrArg (lock k) (funext ih)

def read (f : σ → α) : Program σ κ α := query (fun s => done (f s))

/-- The statement a program makes. Its result takes effect by `apply`. -/
def statement (apply : α → σ → σ) : Program σ κ α → Statement σ κ (Program σ κ α)
  | done a => .commit (apply a)
  | fail => .rollback
  | query f => .read f
  | lock k f => .lock k f

def answered : Program σ κ α → List σ → Option α
  | done a, _ => some a
  | query f, s :: ss | lock _ f, s :: ss => (f s).answered ss
  | _, _ => none

@[simp] theorem answered_pure (a : α) (ss : List σ) : (pure a : Program σ κ α).answered ss = some a := rfl

theorem answered_read_bind (f : σ → α) (g : α → Program σ κ β) (s : σ) (ss : List σ) :
    (read f >>= g).answered (s :: ss) = (g (f s)).answered ss := rfl

/-! ## What a program ensures of its result -/

/-- From the store `s` on, the program's result meets `Q` in the store in which it is committed. -/
def Ensures (r : Rely σ) (Q : σ → α → Prop) : Program σ κ α → σ → Prop
  | done a, s => ∀ s', r.rel s s' → Q s' a
  | fail, _ => True
  | query f, s | lock _ f, s => ∀ s', r.rel s s' → (f s').Ensures r Q s'

variable {r : Rely σ} {Q : σ → α → Prop} {R : σ → β → Prop} {s s' : σ}

theorem ensures_pure {a} (h : ∀ s', r.rel s s' → Q s' a) : (pure a : Program σ κ α).Ensures r Q s := h

theorem ensures_read {f : σ → α} (h : ∀ s' s'', r.rel s s' → r.rel s' s'' → Q s'' (f s')) :
    (read f : Program σ κ α).Ensures r Q s := fun s' hs s'' hs' => h s' s'' hs hs'

theorem Ensures.rely {p : Program σ κ α} (h : p.Ensures r Q s) (hs : r.rel s s') : p.Ensures r Q s' := by
  cases p with
  | fail => trivial
  | _ => exact fun s'' hs' => h s'' (r.trans hs hs')

theorem Ensures.bind {p} {g : α → Program σ κ β} (h : p.Ensures r Q s)
    (hg : ∀ a s, Q s a → (g a).Ensures r R s) : (p >>= g).Ensures r R s := by
  induction p generalizing s with
  | done a => exact hg a s (h s (r.refl s))
  | fail => trivial
  | query f ih => exact fun s' hs => ih s' (h s' hs)
  | lock k f ih => exact fun s' hs => ih s' (h s' hs)

theorem ensures_foldlM {γ : Type} {f : α → γ → Program σ κ α} (l : List γ)
    (hQ : ∀ {s s' a}, Q s a → r.rel s s' → Q s' a) (hf : ∀ a s, Q s a → ∀ x ∈ l, (f a x).Ensures r Q s) {a}
    (ha : Q s a) : (l.foldlM f a).Ensures r Q s := by
  induction l generalizing a s with
  | nil => exact ensures_pure (fun s' hs => hQ ha hs)
  | cons x l ih =>
    rw [List.foldlM_cons]
    exact (hf a s ha x (by simp)).bind
      (fun b s hb => ih (fun a s ha y hy => hf a s ha y (List.mem_cons_of_mem _ hy)) hb)

/-! ## Runs of programs -/

variable [DecidableEq κ] [DecidableEq τ] {row : σ → κ → Option ρ} {apply : α → σ → σ} {enter : ι → Program σ κ α}

abbrev Taken (σ κ ι τ α : Type) :=
  Lib.Taken (Db σ κ τ (Program σ κ α)) (Move τ ι) (Db σ κ τ (Program σ κ α))

theorem ensures_perform {db db' : Db σ κ τ (Program σ κ α)} {t} {p q : Program σ κ α}
    (hstep : db.perform row t (p.statement apply) = .ok db') (hq : db'.session t = some q)
    (h : p.Ensures r Q db.committed) : q.Ensures r Q db'.committed := by
  cases p with
  | query f =>
    cases hstep
    obtain rfl : f db.committed = q := by simpa using hq
    exact h _ (r.refl _)
  | lock k f =>
    rw [statement, Db.perform] at hstep
    split_ifs at hstep <;> cases hstep <;>
    · obtain rfl : f db.committed = q := by simpa using hq
      exact h _ (r.refl _)
  | _ =>
    cases hstep
    simp at hq

/-- The invariant rule for programs that all ensure `Q` of their results, where every commit that meets `C` keeps to the
rely. -/
theorem invariant (I : List (Taken σ κ ι τ α) → σ → Prop) (C : Taken σ κ ι τ α → Prop)
    (henter : ∀ i s, (enter i).Ensures r Q s)
    (hrely : ∀ {db db' : Db σ κ τ (Program σ κ α)} {t a}, db.session t = some (done a) → Q db.committed a →
      C ⟨db, .advance t, db'⟩ → r.rel db.committed (apply a db.committed)) (h₀ : I [] s)
    (hidle : ∀ {tr} {db db' : Db σ κ τ (Program σ κ α)} {move}, I tr db.committed → db'.committed = db.committed →
      I (tr ++ [⟨db, move, db'⟩]) db.committed)
    (hcommit : ∀ {tr} {db db' : Db σ κ τ (Program σ κ α)} {t a}, I tr db.committed → db.session t = some (done a) →
      Q db.committed a → C ⟨db, .advance t, db'⟩ → db'.committed = apply a db.committed →
      I (tr ++ [⟨db, .advance t, db'⟩]) (apply a db.committed))
    {tr db} (h : Steps row enter (statement apply) s tr db) (hC : ∀ e ∈ tr, C e) : I tr db.committed := by
  refine (h.invariant (fun tr db => (∀ t p, db.session t = some p → p.Ensures r Q db.committed) ∧ I tr db.committed) C
    ⟨fun _ _ hopen => by simp [Db.quiet] at hopen, h₀⟩ ?_ hC).2
  intro tr db move db' hI hcond hstep
  have hrel : r.rel db.committed db'.committed := by
    rcases committed_step hstep with hsame | ⟨t, p, f, rfl, hsession, hnext, hf⟩
    · rw [hsame]
      exact r.refl _
    · cases p with
      | done a =>
        cases hnext
        rw [hf]
        exact hrely hsession (hI.1 t _ hsession _ (r.refl _)) hcond
      | _ => cases hnext
  constructor
  · intro u q hq
    cases move with
    | start t i =>
      rw [step_start hstep] at hq ⊢
      by_cases hu : u = t
      · subst hu
        obtain rfl : enter i = q := by simpa using hq
        exact henter i _
      · exact hI.1 u q (by simpa [Function.update_of_ne hu] using hq)
    | advance t =>
      obtain ⟨p, hsession, hperform⟩ := step_advance hstep
      by_cases hu : u = t
      · subst hu
        exact ensures_perform hperform hq (hI.1 u p hsession)
      · rw [perform_session_of_ne hu hperform] at hq
        exact (hI.1 u q hq).rely hrel
  · rcases committed_step hstep with hsame | ⟨t, p, f, rfl, hsession, hnext, hf⟩
    · simp only [hsame]
      exact hidle hI.2 hsame
    · cases p with
      | done a =>
        cases hnext
        simp only [hf]
        exact hcommit hI.2 hsession (hI.1 t _ hsession _ (r.refl _)) hcond hf
      | _ => cases hnext

end Program

end QRadarDashboard.Lib.ReadCommitted
