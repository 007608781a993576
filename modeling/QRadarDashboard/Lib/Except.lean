import Mathlib.Data.List.Basic

/-!
# Computations that can raise
-/

namespace QRadarDashboard.Lib

variable {ε α β : Type}

def require (p : Prop) [Decidable p] (e : ε) : Except ε Unit := if p then .ok () else .error e

theorem bind_ok {x} {f : α → Except ε β} {b} (h : x >>= f = .ok b) : ∃ a, x = .ok a ∧ f a = .ok b := by
  cases x with
  | error e => cases h
  | ok a => exact ⟨a, rfl, h⟩

theorem bind_eq_ok {x} {f : α → Except ε β} {b} : x >>= f = .ok b ↔ ∃ a, x = .ok a ∧ f a = .ok b := by
  refine ⟨bind_ok, ?_⟩
  rintro ⟨a, rfl, h⟩
  exact h

theorem map_eq_ok {x : Except ε α} {f : α → β} {b} : x.map f = .ok b ↔ ∃ a, x = .ok a ∧ f a = b := by
  cases x with
  | error e => exact ⟨nofun, fun ⟨a, h, _⟩ => by cases h⟩
  | ok a => exact ⟨fun h => ⟨a, rfl, Except.ok.inj h⟩, fun ⟨_, h, hf⟩ => by cases h; exact congrArg Except.ok hf⟩

theorem mapError_eq_ok {ε' : Type} {x : Except ε α} {f : ε → ε'} {a} : x.mapError f = .ok a ↔ x = .ok a := by
  cases x with
  | error e => exact ⟨nofun, nofun⟩
  | ok b => exact ⟨fun h => congrArg Except.ok (Except.ok.inj h), fun h => congrArg Except.ok (Except.ok.inj h)⟩

theorem require_eq_ok {p : Prop} [Decidable p] {e : ε} {u} : require p e = .ok u ↔ p := by
  unfold require
  split
  · exact ⟨fun _ => ‹p›, fun _ => rfl⟩
  · exact ⟨nofun, fun h => absurd h ‹¬ p›⟩

theorem ok_of_toOption {x : Except ε α} {a} (h : x.toOption = some a) : x = .ok a := by
  cases x with
  | error e => cases h
  | ok b => exact congrArg Except.ok (Option.some.inj h)

theorem exists_ok_of_toOption {x : Except ε α} {f : α → β} {b} (h : x.toOption.map f = some b) :
    ∃ a, x = .ok a ∧ f a = b := by
  cases x with
  | error e => cases h
  | ok a => exact ⟨a, rfl, Option.some.inj h⟩

theorem mapM_ok {f : α → Except ε β} {g : α → β} {l : List α} (h : ∀ x ∈ l, f x = .ok (g x)) :
    l.mapM f = .ok (l.map g) := by
  induction l with
  | nil => rfl
  | cons x l ih =>
    rw [List.mapM_cons, h x List.mem_cons_self, ih (fun y hy => h y (List.mem_cons_of_mem _ hy))]
    rfl

theorem mapM_total {f : α → Except ε β} {l : List α} (h : ∀ x ∈ l, ∃ y, f x = .ok y) : ∃ r, l.mapM f = .ok r := by
  induction l with
  | nil => exact ⟨[], rfl⟩
  | cons x l ih =>
    obtain ⟨y, hy⟩ := h x List.mem_cons_self
    obtain ⟨r, hr⟩ := ih (fun z hz => h z (List.mem_cons_of_mem _ hz))
    exact ⟨y :: r, by rw [List.mapM_cons, hy, hr]; rfl⟩

theorem exists_mem_of_mapM {f : α → Except ε β} {l : List α} {r} (h : l.mapM f = .ok r) :
    ∀ x ∈ l, ∃ y ∈ r, f x = .ok y := by
  induction l generalizing r with
  | nil => simp
  | cons a l ih =>
    rw [List.mapM_cons] at h
    obtain ⟨y, hy, h⟩ := bind_ok h
    obtain ⟨ys, hys, h⟩ := bind_ok h
    cases h
    intro x hx
    rcases List.mem_cons.mp hx with rfl | hx
    · exact ⟨y, List.mem_cons_self, hy⟩
    · obtain ⟨z, hz, hfz⟩ := ih hys x hx
      exact ⟨z, List.mem_cons_of_mem y hz, hfz⟩

theorem exists_ok_of_mapM {f : α → Except ε β} {l : List α} {r} (h : l.mapM f = .ok r) : ∀ x ∈ l, ∃ y, f x = .ok y := by
  intro x hx
  obtain ⟨y, _, hy⟩ := exists_mem_of_mapM h x hx
  exact ⟨y, hy⟩

theorem exists_of_mem_mapM {f : α → Except ε β} {l : List α} {r} (h : l.mapM f = .ok r) {y}
    (hy : y ∈ r) : ∃ x ∈ l, f x = .ok y := by
  induction l generalizing r with
  | nil =>
    cases h
    cases hy
  | cons a l ih =>
    rw [List.mapM_cons] at h
    obtain ⟨b, hb, h⟩ := bind_ok h
    obtain ⟨ys, hys, h⟩ := bind_ok h
    cases h
    rcases List.mem_cons.mp hy with rfl | hy
    · exact ⟨a, List.mem_cons_self, hb⟩
    · obtain ⟨x, hx, hfx⟩ := ih hys hy
      exact ⟨x, List.mem_cons_of_mem a hx, hfx⟩

theorem map_eq_of_mapM {γ : Type} {f : α → Except ε β} {g : β → γ} {k : α → γ} (hk : ∀ x y, f x = .ok y → g y = k x)
    {l : List α} {r} (h : l.mapM f = .ok r) : r.map g = l.map k := by
  induction l generalizing r with
  | nil =>
    cases h
    rfl
  | cons a l ih =>
    rw [List.mapM_cons] at h
    obtain ⟨b, hb, h⟩ := bind_ok h
    obtain ⟨bs, hbs, h⟩ := bind_ok h
    cases h
    rw [List.map_cons, List.map_cons, hk a b hb, ih hbs]

theorem perm_of_mapM {f : α → Except ε β} {l l' : List α} (hperm : l.Perm l') {r} (h : l.mapM f = .ok r) :
    ∃ r', l'.mapM f = .ok r' ∧ r'.Perm r := by
  induction hperm generalizing r with
  | nil => exact ⟨r, h, .refl r⟩
  | cons a _ ih =>
    rw [List.mapM_cons] at h
    obtain ⟨b, hb, h⟩ := bind_ok h
    obtain ⟨bs, hbs, h⟩ := bind_ok h
    cases h
    obtain ⟨r', hr', hperm⟩ := ih hbs
    refine ⟨b :: r', ?_, hperm.cons b⟩
    rw [List.mapM_cons, hb, hr']
    rfl
  | swap a a' l =>
    rw [List.mapM_cons] at h
    obtain ⟨b', hb', h⟩ := bind_ok h
    obtain ⟨bs, hbs, h⟩ := bind_ok h
    cases h
    rw [List.mapM_cons] at hbs
    obtain ⟨b, hb, hbs⟩ := bind_ok hbs
    obtain ⟨rest, hrest, hbs⟩ := bind_ok hbs
    cases hbs
    refine ⟨b :: b' :: rest, ?_, .swap _ _ _⟩
    rw [List.mapM_cons, List.mapM_cons, hb, hb', hrest]
    rfl
  | trans _ _ ih₁ ih₂ =>
    obtain ⟨r₁, hr₁, hperm₁⟩ := ih₁ h
    obtain ⟨r₂, hr₂, hperm₂⟩ := ih₂ hr₁
    exact ⟨r₂, hr₂, hperm₂.trans hperm₁⟩

theorem mapM_of_map {γ δ : Type} {f : α → Except ε β} {k : γ → α} {f' : γ → Except ε δ} {g : δ → β}
    (hk : ∀ x y, f' x = .ok y → f (k x) = .ok (g y)) {l : List γ} {r} (h : l.mapM f' = .ok r) :
    (l.map k).mapM f = .ok (r.map g) := by
  induction l generalizing r with
  | nil =>
    cases h
    rfl
  | cons x l ih =>
    rw [List.mapM_cons] at h
    obtain ⟨y, hy, h⟩ := bind_ok h
    obtain ⟨ys, hys, h⟩ := bind_ok h
    cases h
    rw [List.map_cons, List.mapM_cons, hk x y hy, ih hys]
    rfl

theorem length_of_mapM {f : α → Except ε β} {l : List α} {r} (h : l.mapM f = .ok r) : r.length = l.length := by
  have := congrArg List.length (map_eq_of_mapM (g := fun _ => ()) (k := fun _ => ()) (fun _ _ _ => rfl) h)
  simpa using this

end QRadarDashboard.Lib
