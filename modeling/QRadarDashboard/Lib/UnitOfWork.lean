import QRadarDashboard.Lib.Dict

/-!
# Rows as objects

A flush inserts the new objects of a session, and writes the columns of the others that have changed since they were
loaded.
-/

namespace QRadarDashboard.Lib

def written {α : Type} [DecidableEq α] (loaded current stored : α) : α := if current = loaded then stored else current

@[simp] theorem written_self {α : Type} [DecidableEq α] (loaded stored : α) : written loaded loaded stored = stored :=
  if_pos rfl

@[simp] theorem written_loaded {α : Type} [DecidableEq α] (loaded current : α) :
    written loaded current loaded = current := by
  rw [written]
  split_ifs with h
  · exact h.symm
  · rfl

/-- An object: the row it was loaded from, unless it is new, and what it has become. -/
structure Mapped (ρ : Type) where
  loaded : Option ρ
  current : ρ

structure Mapper (κ ρ : Type) where
  key : ρ → κ
  flush : (loaded current stored : ρ) → ρ
  flush_key : ∀ loaded current stored, key (flush loaded current stored) = key stored
  flush_self : ∀ loaded stored, flush loaded loaded stored = stored

namespace Mapper

variable {κ ρ : Type} [DecidableEq κ] (m : Mapper κ ρ)

def rewrite (o : Mapped ρ) (stored : ρ) : ρ :=
  match o.loaded with
  | none => o.current
  | some loaded => m.flush loaded o.current stored

def rewriteRow (objects : Dict κ (Mapped ρ)) (row : ρ) : ρ :=
  match objects.get? (m.key row) with
  | none => row
  | some o => m.rewrite o row

def inserts (objects : Dict κ (Mapped ρ)) (rows : List ρ) : List ρ :=
  (objects.filter (fun item => item.2.loaded.isNone && decide (item.1 ∉ rows.map m.key))).map (fun item => item.2.current)

def view (objects : Dict κ (Mapped ρ)) (rows : List ρ) : List ρ :=
  rows.map (m.rewriteRow objects) ++ m.inserts objects rows

def fits (objects : Dict κ (Mapped ρ)) (rows : List ρ) : Bool :=
  objects.all (fun item => item.2.loaded.isSome == decide (item.1 ∈ rows.map m.key))

def load (objects : Dict κ (Mapped ρ)) (row : ρ) : ρ × Dict κ (Mapped ρ) :=
  match objects.get? (m.key row) with
  | some o => (o.current, objects)
  | none => (row, objects.set (m.key row) ⟨some row, row⟩)

def assign (objects : Dict κ (Mapped ρ)) (k : κ) (f : ρ → ρ) : Dict κ (Mapped ρ) :=
  match objects.get? k with
  | some o => objects.set k { o with current := f o.current }
  | none => objects

variable {m} {objects : Dict κ (Mapped ρ)} {rows : List ρ} {row : ρ} {k : κ} {o : Mapped ρ}

@[simp] theorem view_nil : m.view [] rows = rows := by
  have hid : m.rewriteRow [] = id := rfl
  simp [view, inserts, hid]

theorem rewriteRow_mem_view (h : row ∈ rows) : m.rewriteRow objects row ∈ m.view objects rows :=
  List.mem_append_left _ (List.mem_map_of_mem h)

theorem current_mem_view (h : objects.get? k = some o) (hnew : o.loaded = none) (hk : k ∉ rows.map m.key) :
    o.current ∈ m.view objects rows := by
  refine List.mem_append_right _ (List.mem_map.mpr ⟨(k, o), List.mem_filter.mpr ⟨Dict.mem_of_get? h, ?_⟩, rfl⟩)
  simpa [hnew] using hk

theorem mem_view (h : row ∈ m.view objects rows) :
    (∃ stored ∈ rows, objects.get? (m.key stored) = none ∧ row = stored) ∨
    (∃ stored ∈ rows, ∃ o, objects.get? (m.key stored) = some o ∧ row = m.rewrite o stored) ∨
    ∃ k o, (k, o) ∈ objects ∧ o.loaded = none ∧ k ∉ rows.map m.key ∧ row = o.current := by
  rcases List.mem_append.mp h with h | h
  · obtain ⟨stored, hstored, rfl⟩ := List.mem_map.mp h
    rw [rewriteRow]
    cases hget : objects.get? (m.key stored) with
    | none => exact Or.inl ⟨stored, hstored, hget, rfl⟩
    | some o => exact Or.inr (Or.inl ⟨stored, hstored, o, hget, rfl⟩)
  · obtain ⟨⟨k, o⟩, hitem, rfl⟩ := List.mem_map.mp h
    obtain ⟨hmem, hnew⟩ := List.mem_filter.mp hitem
    rw [Bool.and_eq_true, decide_eq_true_eq, Option.isNone_iff_eq_none] at hnew
    exact Or.inr (Or.inr ⟨k, o, hmem, hnew.1, hnew.2, rfl⟩)

theorem rewriteRow_of_fits (h : m.fits objects rows = true) (hrow : row ∈ rows) : m.rewriteRow objects row = row ∨
    ∃ o loaded, objects.get? (m.key row) = some o ∧ o.loaded = some loaded ∧
      m.rewriteRow objects row = m.flush loaded o.current row := by
  cases hget : objects.get? (m.key row) with
  | none => exact Or.inl (by rw [rewriteRow, hget])
  | some o =>
    have hfit := List.all_eq_true.mp h _ (Dict.mem_of_get? hget)
    cases hloaded : o.loaded with
    | none =>
      simp only [hloaded, Option.isSome_none, beq_iff_eq, Bool.false_eq, decide_eq_false_iff_not] at hfit
      exact absurd (List.mem_map_of_mem hrow) hfit
    | some loaded => exact Or.inr ⟨o, loaded, rfl, hloaded, by simp only [rewriteRow, hget, rewrite, hloaded]⟩

theorem fits_set (h : m.fits objects rows = true) (hk : objects.get? k = none) (hrow : k ∈ rows.map m.key)
    (loaded current : ρ) : m.fits (objects.set k ⟨some loaded, current⟩) rows = true := by
  rw [Dict.set_of_not_mem (Dict.not_mem_keys_of_get? hk), fits, List.all_append, Bool.and_eq_true]
  exact ⟨h, by simpa using hrow⟩

theorem view_set (h : m.fits objects rows = true) (hk : objects.get? k = none)
    (hkeys : ((m.view objects rows).map m.key).Nodup) (hrow : k ∈ rows.map m.key) (loaded current : ρ) :
    m.view (objects.set k ⟨some loaded, current⟩) rows =
      (m.view objects rows).map (fun row => if m.key row = k then m.flush loaded current row else row) := by
  have hinserts : m.inserts (objects.set k ⟨some loaded, current⟩) rows = m.inserts objects rows := by
    rw [Dict.set_of_not_mem (Dict.not_mem_keys_of_get? hk)]
    simp [inserts, List.filter_append]
  have hkey : ∀ row ∈ rows, m.key (m.rewriteRow objects row) = m.key row := by
    intro row hmem
    rcases rewriteRow_of_fits h hmem with hsame | ⟨o, l, _, _, hflush⟩
    · rw [hsame]
    · rw [hflush, m.flush_key]
  rw [view, view, List.map_append, List.map_map, hinserts]
  congr 1
  · refine List.map_congr_left (fun row hmem => ?_)
    rw [Function.comp_apply, hkey row hmem, rewriteRow, Dict.get?_set]
    split_ifs with hrowk
    · have hsame : m.rewriteRow objects row = row := by rw [rewriteRow, hrowk, hk]
      rw [hsame]
      rfl
    · rfl
  · refine ((List.map_congr_left (fun row hmem => ?_)).trans (List.map_id _)).symm
    refine if_neg (fun hrowk => ?_)
    obtain ⟨stored, hstored, hstoredk⟩ := List.mem_map.mp hrow
    rw [view, List.map_append] at hkeys
    refine (List.nodup_append.mp hkeys).2.2 k ?_ k (hrowk ▸ List.mem_map_of_mem hmem) rfl
    exact List.mem_map.mpr ⟨_, List.mem_map_of_mem hstored, (hkey stored hstored).trans hstoredk⟩

theorem get?_assign (f : ρ → ρ) (k' : κ) : (assign objects k f).get? k' =
    if k' = k then (objects.get? k).map (fun o => { o with current := f o.current }) else objects.get? k' := by
  rw [assign]
  cases hget : objects.get? k with
  | none =>
    split_ifs with hk
    · rw [hk, hget]
      rfl
    · rfl
  | some o =>
    rw [Dict.get?_set]
    rfl

theorem assign_set (hk : objects.get? k = none) (o : Mapped ρ) (f : ρ → ρ) :
    assign (objects.set k o) k f = objects.set k { o with current := f o.current } := by
  have hget : (objects.set k o).get? k = some o := by rw [Dict.get?_set, if_pos rfl]
  rw [assign, hget]
  exact Dict.set_set hk _ _

end Mapper

end QRadarDashboard.Lib
