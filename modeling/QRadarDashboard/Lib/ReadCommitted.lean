import QRadarDashboard.Lib.Run
import Mathlib.Data.Set.Card

/-!
# Locks and transactions at READ COMMITTED
-/

namespace QRadarDashboard.Lib

/-!
## Exclusive locks

A table says which owner holds each key. A try-lock is granted on a free key and on a key the owner
already holds; it never waits. The locks of one owner are freed together.
-/

section Locks

variable {κ γ : Type}

abbrev LockTable (κ γ : Type) := κ → Option γ

namespace LockTable

def empty : LockTable κ γ := fun _ => none

def held (t : LockTable κ γ) (c : γ) : Set κ := {k | t k = some c}

section Pool

variable {π : Type} {t : LockTable κ γ} {c : γ} {k : κ}

@[simp] theorem mem_held : k ∈ t.held c ↔ t k = some c := Iff.rfl

@[simp] theorem held_empty : (empty : LockTable κ γ).held c = ∅ := by
  ext k
  simp [empty]

theorem encard_users_le (t : LockTable κ γ) (pool : Set κ) (owner : π → Option γ)
    (hown : ∀ {p q c}, owner p = some c → owner q = some c → p = q) :
    {p | ∃ c, owner p = some c ∧ ∃ k ∈ pool, k ∈ t.held c}.encard ≤ pool.encard := by
  have hinj : Set.InjOn owner {p | ∃ c, owner p = some c ∧ ∃ k ∈ pool, k ∈ t.held c} := by
    rintro p ⟨c, hp, -⟩ q _ hpq
    exact hown hp (hpq ▸ hp)
  rw [← hinj.encard_image]
  refine le_trans (Set.encard_le_encard ?_) (Set.encard_image_le t pool)
  rintro _ ⟨p, ⟨c, hp, k, hk, hc⟩, rfl⟩
  exact ⟨k, hk, hc.trans hp.symm⟩

end Pool

section Operations

variable [DecidableEq γ] {t : LockTable κ γ} {c d : γ} {k : κ}

def unlockAll (t : LockTable κ γ) (c : γ) : LockTable κ γ :=
  fun k => if t k = some c then none else t k

@[simp] theorem held_unlockAll : (t.unlockAll c).held c = ∅ := by
  ext k
  by_cases h : t k = some c <;> simp [unlockAll, h]

theorem held_unlockAll_of_ne (h : d ≠ c) : (t.unlockAll c).held d = t.held d := by
  ext k
  by_cases hk : t k = some c
  · simp [unlockAll, hk, h.symm]
  · simp [unlockAll, hk]

def grants (t : LockTable κ γ) (c : γ) (k : κ) : Bool := decide (t k = none ∨ t k = some c)

variable [DecidableEq κ]

def lock (t : LockTable κ γ) (c : γ) (k : κ) : LockTable κ γ :=
  if t.grants c k then Function.update t k (some c) else t

theorem held_lock (h : t.grants c k) : (t.lock c k).held c = insert k (t.held c) := by
  ext k'
  by_cases hk : k' = k
  · subst hk
    simp [lock, h]
  · simp [lock, h, hk]

theorem lock_refused (h : t.grants c k = false) : t.lock c k = t := by
  simp [lock, h]

theorem held_lock_subset : (t.lock c k).held c ⊆ insert k (t.held c) := by
  cases h : t.grants c k with
  | true => rw [held_lock h]
  | false =>
    rw [lock_refused h]
    exact Set.subset_insert k _

theorem held_lock_of_ne (h : d ≠ c) : (t.lock c k).held d = t.held d := by
  cases hg : t.grants c k with
  | false => rw [lock_refused hg]
  | true =>
    ext k'
    by_cases hk : k' = k
    · subst hk
      have hfree : t k' = none ∨ t k' = some c := by simpa [grants] using hg
      rcases hfree with hfree | hfree <;> simp [lock, hg, hfree, h.symm]
    · simp [lock, hg, hk]

end Operations

end LockTable

end Locks

/-!
## Transactions at READ COMMITTED

Each statement of a transaction sees what was committed before it. A row read for update is locked until the
transaction ends, and only a transaction's commit changes what the others see.
-/

namespace ReadCommitted

/-- What a transaction does next: `σ` is the committed store, `κ` names its rows, and `α` is where the transaction
is. -/
inductive Statement (σ κ α : Type) where
  /-- A query. -/
  | read (f : σ → α)
  /-- A query that locks the row at `k`, which may have to wait for it. -/
  | lock (k : κ) (f : σ → α)
  /-- The writes take effect and the transaction ends. -/
  | commit (f : σ → σ)
  | rollback

structure Db (σ κ τ α : Type) where
  committed : σ
  locks : LockTable κ τ
  session : τ → Option α

def Db.quiet {σ κ τ α : Type} (s : σ) : Db σ κ τ α := ⟨s, LockTable.empty, fun _ => none⟩

inductive Move (τ ι : Type) where
  | start (t : τ) (i : ι)
  | advance (t : τ)

inductive Refused where
  /-- Another transaction holds the row. -/
  | waiting
  | notOpen
  | alreadyOpen

variable {σ κ τ ι α ρ : Type} [DecidableEq κ] [DecidableEq τ]

/-- One statement of a transaction that is at `a`. A row that is not there is not locked. -/
def Db.perform (row : σ → κ → Option ρ) (db : Db σ κ τ α) (t : τ) :
    Statement σ κ α → Except Refused (Db σ κ τ α)
  | .read f => .ok { db with session := Function.update db.session t (some (f db.committed)) }
  | .lock k f =>
    if db.locks.grants t k then
      .ok { db with
        locks := if (row db.committed k).isSome then db.locks.lock t k else db.locks
        session := Function.update db.session t (some (f db.committed)) }
    else .error .waiting
  | .commit f =>
    .ok { committed := f db.committed
          locks := db.locks.unlockAll t
          session := Function.update db.session t none }
  | .rollback =>
    .ok { db with locks := db.locks.unlockAll t, session := Function.update db.session t none }

/-- Transactions enter the program `next` with their requests; any of the open ones moves. -/
def Db.step (row : σ → κ → Option ρ) (enter : ι → α) (next : α → Statement σ κ α) (db : Db σ κ τ α) :
    Move τ ι → Except Refused (Db σ κ τ α)
  | .start t i =>
    match db.session t with
    | none => .ok { db with session := Function.update db.session t (some (enter i)) }
    | some _ => .error .alreadyOpen
  | .advance t =>
    match db.session t with
    | none => .error .notOpen
    | some a => db.perform row t (next a)

variable {row : σ → κ → Option ρ} {enter : ι → α} {next : α → Statement σ κ α} {db db' : Db σ κ τ α} {t u : τ} {a : α}

/-! ## What a statement leaves -/

theorem perform_session_of_ne {stmt} (hu : u ≠ t) (h : db.perform row t stmt = .ok db') :
    db'.session u = db.session u := by
  cases stmt with
  | lock k f =>
    rw [Db.perform] at h
    split_ifs at h <;> cases h <;> exact Function.update_of_ne hu _ _
  | _ => cases h; exact Function.update_of_ne hu _ _

theorem perform_held_of_ne {stmt} (hu : u ≠ t) (h : db.perform row t stmt = .ok db') :
    db'.locks.held u = db.locks.held u := by
  cases stmt with
  | read f => cases h; rfl
  | lock k f =>
    rw [Db.perform] at h
    split_ifs at h <;> cases h
    · exact LockTable.held_lock_of_ne hu
    · rfl
  | commit f => cases h; exact LockTable.held_unlockAll_of_ne hu
  | rollback => cases h; exact LockTable.held_unlockAll_of_ne hu

theorem perform_committed {stmt} (h : db.perform row t stmt = .ok db') :
    db'.committed = db.committed ∨ ∃ f, stmt = .commit f ∧ db'.committed = f db.committed := by
  cases stmt with
  | lock k f =>
    rw [Db.perform] at h
    split_ifs at h <;> cases h <;> exact Or.inl rfl
  | commit f => cases h; exact Or.inr ⟨f, rfl, rfl⟩
  | _ => cases h; exact Or.inl rfl

theorem step_advance (h : db.step row enter next (.advance t) = .ok db') :
    ∃ a, db.session t = some a ∧ db.perform row t (next a) = .ok db' := by
  rw [Db.step] at h
  split at h
  · cases h
  · next a hsession => exact ⟨a, hsession, h⟩

theorem step_start {i} (h : db.step row enter next (.start t i) = .ok db') :
    db' = { db with session := Function.update db.session t (some (enter i)) } := by
  rw [Db.step] at h
  split at h
  · cases h; rfl
  · cases h

/-! ## Locked rows -/

/-- A program that writes only rows it has locked, or new ones. `owned a` are the rows locked at `a`, and `Knows a k r`
is what was read of such a row. -/
structure Discipline (row : σ → κ → Option ρ) (enter : ι → α) (next : α → Statement σ κ α) where
  owned : α → Set κ
  Knows : α → κ → Option ρ → Prop
  enter : ∀ i, owned (enter i) = ∅
  read : ∀ {a f}, next a = .read f → ∀ s k, k ∈ owned (f s) →
    k ∈ owned a ∧ (Knows a k (row s k) → Knows (f s) k (row s k))
  lock : ∀ {a k f}, next a = .lock k f → ∀ s k', k' ∈ owned (f s) →
    (k' ∈ owned a ∧ (Knows a k' (row s k') → Knows (f s) k' (row s k'))) ∨
      (k' = k ∧ (row s k).isSome ∧ Knows (f s) k (row s k))
  commit : ∀ {a f}, next a = .commit f → ∀ s k, k ∉ owned a → (row s k).isSome → row (f s) k = row s k

def Discipline.Inv (d : Discipline row enter next) (db : Db σ κ τ α) : Prop :=
  ∀ t a, db.session t = some a → ∀ k ∈ d.owned a,
    db.locks k = some t ∧ (row db.committed k).isSome ∧ d.Knows a k (row db.committed k)

variable {d : Discipline row enter next}

theorem Discipline.inv_self (h : d.Inv db) (hsession : db.session t = some a)
    (hstep : db.perform row t (next a) = .ok db') {b} (hb : db'.session t = some b) {k} (hk : k ∈ d.owned b) :
    db'.locks k = some t ∧ (row db'.committed k).isSome ∧ d.Knows b k (row db'.committed k) := by
  cases hnext : next a with
  | read f =>
    rw [hnext] at hstep
    cases hstep
    obtain rfl : f db.committed = b := by simpa using hb
    obtain ⟨howned, hknows⟩ := d.read hnext db.committed k hk
    obtain ⟨hlock, hrow, hknown⟩ := h t a hsession k howned
    exact ⟨hlock, hrow, hknows hknown⟩
  | lock k' f =>
    rw [hnext, Db.perform] at hstep
    split_ifs at hstep with hgrants hthere <;> cases hstep
    · obtain rfl : f db.committed = b := by simpa using hb
      have hheld : (db.locks.lock t k').held t = insert k' (db.locks.held t) := LockTable.held_lock hgrants
      rcases d.lock hnext db.committed k hk with ⟨howned, hknows⟩ | ⟨rfl, hrow, hknown⟩
      · obtain ⟨hlock, hrow, hknown⟩ := h t a hsession k howned
        have hmem : k ∈ (db.locks.lock t k').held t := hheld ▸ Set.mem_insert_of_mem _ hlock
        exact ⟨hmem, hrow, hknows hknown⟩
      · have hmem : k ∈ (db.locks.lock t k).held t := hheld ▸ Set.mem_insert _ _
        exact ⟨hmem, hrow, hknown⟩
    · obtain rfl : f db.committed = b := by simpa using hb
      rcases d.lock hnext db.committed k hk with ⟨howned, hknows⟩ | ⟨rfl, hrow, _⟩
      · obtain ⟨hlock, hrow, hknown⟩ := h t a hsession k howned
        exact ⟨hlock, hrow, hknows hknown⟩
      · exact absurd hrow hthere
  | commit f =>
    rw [hnext] at hstep
    cases hstep
    simp at hb
  | rollback =>
    rw [hnext] at hstep
    cases hstep
    simp at hb

/-- The transactions that do not move: none of the rows they have locked is written. -/
theorem Discipline.inv_other (h : d.Inv db) (hsession : db.session t = some a)
    (hstep : db.perform row t (next a) = .ok db') (hu : u ≠ t) {b} (hb : db'.session u = some b) {k}
    (hk : k ∈ d.owned b) : db'.locks k = some u ∧ (row db'.committed k).isSome ∧ d.Knows b k (row db'.committed k) := by
  rw [perform_session_of_ne hu hstep] at hb
  obtain ⟨hlock, hrow, hknown⟩ := h u b hb k hk
  have hheld : k ∈ db'.locks.held u := by
    rw [perform_held_of_ne hu hstep]
    exact hlock
  have hsame : row db'.committed k = row db.committed k := by
    rcases perform_committed hstep with hcommitted | ⟨f, hnext, hcommitted⟩
    · rw [hcommitted]
    · rw [hcommitted]
      refine d.commit hnext db.committed k (fun hmine => ?_) hrow
      exact hu (Option.some.inj (hlock.symm.trans (h t a hsession k hmine).1))
  rw [hsame]
  exact ⟨hheld, hrow, hknown⟩

theorem Discipline.inv_step (h : d.Inv db) {move} (hstep : db.step row enter next move = .ok db') : d.Inv db' := by
  intro u b hb k hk
  cases move with
  | start t i =>
    rw [step_start hstep] at hb ⊢
    by_cases hu : u = t
    · subst hu
      obtain rfl : enter i = b := by simpa using hb
      rw [d.enter i] at hk
      cases hk
    · exact h u b (by simpa [Function.update_of_ne hu] using hb) k hk
  | advance t =>
    obtain ⟨a, hsession, hperform⟩ := step_advance hstep
    by_cases hu : u = t
    · subst hu
      exact d.inv_self h hsession hperform hb hk
    · exact d.inv_other h hsession hperform hu hb hk

theorem committed_step {move} (hstep : db.step row enter next move = .ok db') :
    db'.committed = db.committed ∨ ∃ t a f, move = .advance t ∧ db.session t = some a ∧ next a = .commit f ∧
      db'.committed = f db.committed := by
  cases move with
  | start t i => exact Or.inl (by rw [step_start hstep])
  | advance t =>
    obtain ⟨a, hsession, hperform⟩ := step_advance hstep
    rcases perform_committed hperform with hsame | ⟨f, hnext, hf⟩
    · exact Or.inl hsame
    · exact Or.inr ⟨t, a, f, rfl, hsession, hnext, hf⟩

/-- A query, locking or not, leads to `b`. -/
def Statement.Answers (stmt : Statement σ κ α) (s : σ) (b : α) : Prop :=
  (∃ f, stmt = .read f ∧ f s = b) ∨ ∃ k f, stmt = .lock k f ∧ f s = b

theorem perform_self {stmt} (h : db.perform row t stmt = .ok db') {b}
    (hb : db'.session t = some b) : stmt.Answers db.committed b ∧ db'.committed = db.committed := by
  cases stmt with
  | read f =>
    cases h
    exact ⟨Or.inl ⟨f, rfl, by simpa using hb⟩, rfl⟩
  | lock k f =>
    rw [Db.perform] at h
    split_ifs at h <;> cases h <;> exact ⟨Or.inr ⟨k, f, rfl, by simpa using hb⟩, rfl⟩
  | commit f =>
    cases h
    simp at hb
  | rollback =>
    cases h
    simp at hb

theorem known_step {K : α → σ → Prop} {move} (h : ∀ t a, db.session t = some a → K a db.committed)
    (henter : ∀ i s, K (enter i) s) (hanswer : ∀ {a s b}, (next a).Answers s b → K a s → K b s)
    (hcommit : ∀ {t a f}, move = .advance t → db.session t = some a → next a = .commit f →
      ∀ {u b}, u ≠ t → db.session u = some b → K b db.committed → K b (f db.committed))
    (hstep : db.step row enter next move = .ok db') : ∀ t a, db'.session t = some a → K a db'.committed := by
  intro u b hb
  cases move with
  | start t i =>
    rw [step_start hstep] at hb ⊢
    by_cases hu : u = t
    · subst hu
      obtain rfl : enter i = b := by simpa using hb
      exact henter i _
    · exact h u b (by simpa [Function.update_of_ne hu] using hb)
  | advance t =>
    obtain ⟨a, hsession, hperform⟩ := step_advance hstep
    by_cases hu : u = t
    · subst hu
      obtain ⟨hanswers, hsame⟩ := perform_self hperform hb
      rw [hsame]
      exact hanswer hanswers (h u a hsession)
    · rw [perform_session_of_ne hu hperform] at hb
      rcases perform_committed hperform with hsame | ⟨f, hnext, hf⟩
      · rw [hsame]
        exact h u b hb
      · rw [hf]
        exact hcommit rfl hsession hnext hu hb (h u b hb)

abbrev Steps (row : σ → κ → Option ρ) (enter : ι → α) (next : α → Statement σ κ α) (s : σ) :=
  Run (fun (db : Db σ κ τ α) (move : Move τ ι) => db.step row enter next move) (fun db => db) (Db.quiet s)

/-- The invariant rule for the committed store: what every commit keeps, knowing its locked rows, holds in every
state reached. -/
theorem Discipline.committed_steps (d : Discipline row enter next) {s} (P : σ → Prop)
    (C : Taken (Db σ κ τ α) (Move τ ι) (Db σ κ τ α) → Prop) (h₀ : P s)
    (hcommit : ∀ {db db' : Db σ κ τ α} {t a f}, d.Inv db → db.session t = some a → next a = .commit f →
      C ⟨db, .advance t, db'⟩ → P db.committed → P (f db.committed)) {tr db} (h : Steps row enter next s tr db)
    (hC : ∀ e ∈ tr, C e) : (∀ e ∈ tr, P e.output.committed) ∧ P db.committed := by
  have hreached := h.reached (fun db => d.Inv db ∧ P db.committed) C
    ⟨fun _ _ hopen => by simp [Db.quiet] at hopen, h₀⟩ ?_ hC
  · exact ⟨fun e he => (hreached.1 e he).2, hreached.2.2⟩
  · intro db move db' hI hcond hstep
    refine ⟨d.inv_step hI.1 hstep, ?_⟩
    rcases committed_step hstep with hsame | ⟨t, a, f, rfl, hsession, hnext, hf⟩
    · rw [hsame]
      exact hI.2
    · rw [hf]
      exact hcommit hI.1 hsession hnext hcond hI.2

end ReadCommitted

end QRadarDashboard.Lib
