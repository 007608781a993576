import Mathlib.Algebra.BigOperators.Group.List.Basic
import Mathlib.Data.List.Induction
import Mathlib.Data.List.Nodup

/-!
# Dictionaries

Items in insertion order, as Python's: a key that is there keeps its place.
-/

namespace QRadarDashboard.Lib

abbrev Dict (κ α : Type) := List (κ × α)

namespace Dict

variable {κ α : Type} [DecidableEq κ]

/-- `d.get(k)` -/
def get? (d : Dict κ α) (k : κ) : Option α :=
  (d.find? (fun item => item.1 = k)).map (fun item => item.2)

/-- `d[k] = v` -/
def set (d : Dict κ α) (k : κ) (v : α) : Dict κ α :=
  if d.any (fun item => item.1 = k) then d.map (fun item => if item.1 = k then (k, v) else item)
  else d ++ [(k, v)]

/-- `d.pop(k, None)` -/
def pop (d : Dict κ α) (k : κ) : Dict κ α := d.filter (fun item => item.1 ≠ k)

@[simp] theorem get?_nil (k : κ) : get? ([] : Dict κ α) k = none := rfl

theorem get?_cons (item : κ × α) (d : Dict κ α) (k : κ) :
    get? (item :: d) k = if item.1 = k then some item.2 else get? d k := by
  by_cases h : item.1 = k <;> simp [get?, h]

theorem mem_of_get? {d} {k : κ} {v : α} (h : get? d k = some v) : (k, v) ∈ d := by
  simp only [get?, Option.map_eq_some_iff] at h
  obtain ⟨item, hfind, rfl⟩ := h
  have hk : item.1 = k := by simpa using List.find?_some hfind
  rw [← hk]
  exact List.mem_of_find?_eq_some hfind

theorem get?_append (d₁ d₂ : Dict κ α) (k : κ) : get? (d₁ ++ d₂) k = (get? d₁ k).or (get? d₂ k) := by
  induction d₁ with
  | nil => simp
  | cons item d₁ ih =>
    rw [List.cons_append, get?_cons, get?_cons, ih]
    by_cases h : item.1 = k <;> simp [h]

theorem get?_map_ne (d : Dict κ α) {k k'} (v : α) (h : k' ≠ k) :
    get? (d.map (fun item => if item.1 = k then (k, v) else item)) k' = get? d k' := by
  induction d with
  | nil => rfl
  | cons item d ih =>
    rw [List.map_cons, get?_cons, get?_cons, ih]
    by_cases hk : item.1 = k
    · simp [hk, h.symm]
    · simp [hk]

theorem get?_map_self (d : Dict κ α) {k} (v : α) (h : d.any (fun item => item.1 = k)) :
    get? (d.map (fun item => if item.1 = k then (k, v) else item)) k = some v := by
  induction d with
  | nil => simp at h
  | cons item d ih =>
    rw [List.map_cons, get?_cons]
    by_cases hk : item.1 = k
    · simp [hk]
    · have hany : d.any (fun item => item.1 = k) := by simpa [hk] using h
      simp [hk, ih hany]

theorem get?_eq_none_of_any {d : Dict κ α} {k} (h : ¬ d.any (fun item => item.1 = k)) : get? d k = none := by
  simp only [get?, Option.map_eq_none_iff, List.find?_eq_none]
  intro item hitem hk
  exact h (List.any_eq_true.mpr ⟨item, hitem, hk⟩)

theorem get?_set (d : Dict κ α) (k k' : κ) (v : α) : get? (d.set k v) k' = if k' = k then some v else get? d k' := by
  by_cases hany : d.any (fun item => item.1 = k)
  · simp only [set, hany, if_true]
    by_cases hk : k' = k
    · rw [hk, get?_map_self d v hany]
      simp
    · simp [get?_map_ne d v hk, hk]
  · simp only [set, hany, Bool.false_eq_true, if_false]
    rw [get?_append, get?_cons]
    by_cases hk : k' = k
    · simp [hk, get?_eq_none_of_any hany]
    · simp [hk, Ne.symm hk]

theorem mem_set {d : Dict κ α} {k v item} (h : item ∈ d.set k v) : item ∈ d ∨ item = (k, v) := by
  unfold set at h
  split_ifs at h
  · obtain ⟨old, hold, rfl⟩ := List.mem_map.mp h
    by_cases hkey : old.1 = k
    · exact Or.inr (if_pos hkey)
    · simp only [hkey, if_false]
      exact Or.inl hold
  · simpa using h

theorem get?_pop (d : Dict κ α) (k k' : κ) : get? (d.pop k) k' = if k' = k then none else get? d k' := by
  induction d with
  | nil => simp [pop]
  | cons item d ih =>
    simp only [pop] at ih
    by_cases hk : item.1 = k
    · simp only [pop, List.filter_cons, hk, ne_eq, not_true_eq_false, decide_false, Bool.false_eq_true,
        if_false, ih, get?_cons]
      by_cases hk' : k' = k
      · simp [hk']
      · simp [hk', Ne.symm hk']
    · simp only [pop, List.filter_cons, hk, ne_eq, not_false_eq_true, decide_true, if_true, get?_cons, ih]
      by_cases hk' : k' = k
      · simp [hk', hk]
      · simp [hk']

theorem get?_foldl_set {β : Type} (key : β → κ) (val : β → α) (l : List β) (d : Dict κ α) (k : κ) :
    match get? (l.foldl (fun d b => d.set (key b) (val b)) d) k with
    | some v => (∃ b ∈ l, key b = k ∧ val b = v) ∨ get? d k = some v
    | none => get? d k = none ∧ ∀ b ∈ l, key b ≠ k := by
  induction l generalizing d with
  | nil =>
    simp only [List.foldl_nil]
    cases get? d k <;> simp
  | cons b l ih =>
    have ih := ih (d.set (key b) (val b))
    rw [List.foldl_cons]
    cases hget : get? (l.foldl (fun d b => d.set (key b) (val b)) (d.set (key b) (val b))) k with
    | none =>
      simp only [hget, get?_set] at ih ⊢
      by_cases hk : k = key b
      · simp [hk] at ih
      · simp only [hk, if_false] at ih
        refine ⟨ih.1, ?_⟩
        intro b' hb'
        rcases List.mem_cons.mp hb' with rfl | hb'
        · exact Ne.symm hk
        · exact ih.2 b' hb'
    | some v =>
      simp only [hget, get?_set] at ih ⊢
      rcases ih with ⟨b', hb', hkey⟩ | ih
      · exact Or.inl ⟨b', List.mem_cons_of_mem b hb', hkey⟩
      · by_cases hk : k = key b
        · simp only [hk, if_true, Option.some.injEq] at ih
          exact Or.inl ⟨b, List.mem_cons_self, hk.symm, ih⟩
        · simp only [hk, if_false] at ih
          exact Or.inr ih

theorem get?_foldl_set_of_ne {β : Type} (key : β → κ) (val : β → α) {l : List β} (d : Dict κ α) {k}
    (h : ∀ b ∈ l, key b ≠ k) : get? (l.foldl (fun d b => d.set (key b) (val b)) d) k = get? d k := by
  induction l generalizing d with
  | nil => rfl
  | cons b l ih =>
    rw [List.foldl_cons, ih _ (fun b' hb' => h b' (List.mem_cons_of_mem b hb')), get?_set,
      if_neg (Ne.symm (h b List.mem_cons_self))]

theorem get?_mapValues (d : Dict κ α) (f : κ → α → α) (k : κ) :
    get? (d.map (fun item => (item.1, f item.1 item.2))) k = (get? d k).map (f k) := by
  induction d with
  | nil => rfl
  | cons item d ih =>
    rw [List.map_cons, get?_cons, get?_cons, ih]
    by_cases hk : item.1 = k
    · simp [hk]
    · simp [hk]

theorem get?_filter (d : Dict κ α) (p : κ → Bool) (k : κ) :
    get? (d.filter (fun item => p item.1)) k = if p k then get? d k else none := by
  induction d with
  | nil => simp
  | cons item d ih =>
    by_cases hp : p item.1
    · simp only [List.filter_cons, hp, if_true]
      rw [get?_cons, get?_cons, ih]
      by_cases hk : item.1 = k
      · subst hk
        simp [hp]
      · simp [hk]
    · simp only [List.filter_cons, hp, Bool.false_eq_true, if_false]
      rw [ih, get?_cons]
      by_cases hk : item.1 = k
      · subst hk
        simp [hp]
      · simp [hk]

/-! ### Keys -/

def keys (d : Dict κ α) : List κ := d.map (fun item => item.1)

omit [DecidableEq κ] in
theorem nodup_keys_nil : (keys ([] : Dict κ α)).Nodup := List.nodup_nil

theorem keys_set (d : Dict κ α) (k : κ) (v : α) : (d.set k v).keys = if k ∈ d.keys then d.keys else d.keys ++ [k] := by
  have hany : (d.any (fun item => item.1 = k)) = true ↔ k ∈ d.keys := by
    simp [keys]
  by_cases h : k ∈ d.keys
  · have hkeep : ∀ item : κ × α, (if item.1 = k then (k, v) else item).1 = item.1 := by
      intro item
      by_cases hk : item.1 = k <;> simp [hk]
    simp only [set, hany.mpr h, if_true, h]
    simp [keys, Function.comp_def, hkeep]
  · have hnone : ¬ d.any (fun item => item.1 = k) := fun hc => h (hany.mp hc)
    simp only [set, hnone, h, Bool.false_eq_true, if_false]
    simp [keys]

theorem nodup_keys_set {d : Dict κ α} (h : d.keys.Nodup) (k : κ) (v : α) : (d.set k v).keys.Nodup := by
  rw [keys_set]
  by_cases hk : k ∈ d.keys
  · simpa [hk] using h
  · simp only [hk, if_false]
    rw [List.nodup_append]
    refine ⟨h, by simp, ?_⟩
    intro a ha b hb heq
    exact hk (List.mem_singleton.mp hb ▸ heq ▸ ha)

theorem nodup_keys_foldl_set {β : Type} (key : β → κ) (val : β → α) (l : List β) {d : Dict κ α}
    (h : d.keys.Nodup) : (l.foldl (fun d b => d.set (key b) (val b)) d).keys.Nodup := by
  induction l generalizing d with
  | nil => exact h
  | cons b l ih => exact ih (nodup_keys_set h _ _)

omit [DecidableEq κ] in
theorem nodup_keys_filter {d : Dict κ α} (h : d.keys.Nodup) (p : κ × α → Bool) : (keys (d.filter p)).Nodup :=
  h.sublist (List.filter_sublist.map _)

theorem get?_eq_some_iff {d : Dict κ α} (h : d.keys.Nodup) {k v} : get? d k = some v ↔ (k, v) ∈ d := by
  induction d with
  | nil => simp
  | cons item d ih =>
    have hnodup : item.1 ∉ keys d ∧ (keys d).Nodup := List.nodup_cons.mp h
    rw [get?_cons, List.mem_cons]
    by_cases hk : item.1 = k
    · simp only [hk, if_true, Option.some.injEq]
      constructor
      · intro hv
        exact Or.inl (by rw [← hk, ← hv])
      · rintro (hv | hv)
        · rw [← hv]
        · exact absurd (List.mem_map.mpr ⟨(k, v), hv, rfl⟩) (hk ▸ hnodup.1)
    · simp only [hk, if_false, ih hnodup.2]
      constructor
      · exact Or.inr
      · rintro (hv | hv)
        · exact absurd (by rw [← hv]) hk
        · exact hv

theorem get?_filterMap_keys {β : Type} (d : Dict κ α) (f : κ → Option β) (k : κ) :
    get? (d.filterMap (fun item => (f item.1).map (fun v => (item.1, v)))) k = if k ∈ d.keys then f k else none := by
  induction d with
  | nil => rfl
  | cons item d ih =>
    have hkeys : k ∈ keys (item :: d) ↔ k = item.1 ∨ k ∈ keys d := by simp [keys]
    cases hf : f item.1 with
    | none =>
      rw [List.filterMap_cons_none (by simp [hf]), ih]
      by_cases hk : k = item.1
      · simp [hk, hf]
      · simp [hkeys, hk]
    | some v =>
      rw [List.filterMap_cons_some (b := (item.1, v)) (by simp [hf]), get?_cons, ih]
      by_cases hk : k = item.1
      · simp [hk, hf, keys]
      · simp [hkeys, hk, Ne.symm hk]

theorem set_of_not_mem {d : Dict κ α} {k} (h : k ∉ d.keys) (v : α) : d.set k v = d ++ [(k, v)] := by
  have hnone : ¬ d.any (fun item => item.1 = k) := by
    intro hany
    obtain ⟨item, hitem, hk⟩ := List.any_eq_true.mp hany
    exact h (List.mem_map.mpr ⟨item, hitem, of_decide_eq_true hk⟩)
  simp only [set, hnone, Bool.false_eq_true, if_false]

theorem not_mem_keys_of_get? {d : Dict κ α} {k} (h : d.get? k = none) : k ∉ d.keys := by
  intro hmem
  obtain ⟨item, hitem, hk⟩ := List.mem_map.mp hmem
  rw [get?, Option.map_eq_none_iff, List.find?_eq_none] at h
  exact h item hitem (by simpa using hk)

theorem set_set {d : Dict κ α} {k} (h : d.get? k = none) (v v' : α) : (d.set k v).set k v' = d.set k v' := by
  have hk := not_mem_keys_of_get? h
  rw [set_of_not_mem hk, set_of_not_mem hk, set, if_pos (by simp), List.map_append]
  congr 1
  · refine (List.map_congr_left (fun item hitem => ?_)).trans (List.map_id d)
    exact if_neg (fun heq => hk (List.mem_map.mpr ⟨item, hitem, heq⟩))
  · simp

theorem set_comm {d : Dict κ α} {k k'} (hne : k ≠ k') (hk : k ∈ d.keys) (hk' : k' ∈ d.keys) (v v' : α) :
    (d.set k v).set k' v' = (d.set k' v').set k v := by
  have hany : ∀ {d : Dict κ α} {k : κ}, k ∈ d.keys → d.any (fun item => item.1 = k) = true := by
    intro d k hk
    obtain ⟨item, hitem, heq⟩ := List.mem_map.mp hk
    exact List.any_eq_true.mpr ⟨item, hitem, decide_eq_true heq⟩
  have hstill : ∀ {j j' : κ} (w : α), j' ∈ d.keys → j' ∈ (d.set j w).keys := by
    intro j j' w hj'
    rw [keys_set]
    split
    · exact hj'
    · exact List.mem_append_left _ hj'
  rw [set, if_pos (hany (hstill v hk')), set, if_pos (hany hk), set, if_pos (hany (hstill v' hk)), set,
    if_pos (hany hk'), List.map_map, List.map_map]
  refine List.map_congr_left (fun item _ => ?_)
  by_cases h : item.1 = k
  · simp [h, hne]
  · by_cases h' : item.1 = k' <;> simp [h, h', Ne.symm hne]

theorem mem_keys_of_get? {d : Dict κ α} {k : κ} {v : α} (h : d.get? k = some v) : k ∈ d.keys :=
  List.mem_map.mpr ⟨(k, v), mem_of_get? h, rfl⟩

theorem get?_eq_none_iff {d : Dict κ α} {k} : d.get? k = none ↔ k ∉ d.keys := by
  refine ⟨not_mem_keys_of_get?, fun h => ?_⟩
  cases hget : d.get? k with
  | none => rfl
  | some v => exact absurd (mem_keys_of_get? hget) h

theorem foldl_set_values {key : α → κ} {d : Dict κ α} (hnodup : d.keys.Nodup) (hkey : ∀ item ∈ d, key item.2 = item.1) :
    (d.map (fun item => item.2)).foldl (fun d v => Dict.set d (key v) v) [] = d := by
  induction d using List.reverseRecOn with
  | nil => rfl
  | append_singleton d item ih =>
    have hkeys : (keys d).Nodup ∧ item.1 ∉ keys d := by
      simp only [keys, List.map_append, List.map_cons, List.map_nil, List.nodup_append] at hnodup
      exact ⟨hnodup.1, fun hmem => hnodup.2.2 item.1 hmem item.1 (List.mem_singleton.mpr rfl) rfl⟩
    have hrest := ih hkeys.1 (fun x hx => hkey x (List.mem_append_left _ hx))
    rw [List.map_append, List.foldl_append, hrest]
    simp only [List.map_cons, List.map_nil, List.foldl_cons, List.foldl_nil]
    rw [hkey item (List.mem_append_right _ (List.mem_singleton.mpr rfl)), set_of_not_mem hkeys.2]

theorem foldl_set_of_nodup {β : Type} (key : β → κ) (val : β → α) {l : List β} {d : Dict κ α}
    (h : (d.keys ++ l.map key).Nodup) :
    l.foldl (fun d b => d.set (key b) (val b)) d = d ++ l.map (fun b => (key b, val b)) := by
  induction l generalizing d with
  | nil => simp
  | cons b l ih =>
    have hnew : key b ∉ d.keys := by
      intro hmem
      exact (List.nodup_append.mp h).2.2 (key b) hmem (key b) (by simp) rfl
    rw [List.foldl_cons, set_of_not_mem hnew, ih (by simpa [keys] using h), List.append_assoc]
    rfl

theorem sum_set {M : Type} [AddCommMonoid M] (w : α → M) {d : Dict κ α} (h : d.keys.Nodup) (k : κ) (v : α) :
    ((d.set k v).map (fun item => w item.2)).sum + ((d.get? k).map w).getD 0 =
      (d.map (fun item => w item.2)).sum + w v := by
  by_cases hk : k ∈ d.keys
  · have hany : d.any (fun item => item.1 = k) = true := by
      obtain ⟨item, hitem, heq⟩ := List.mem_map.mp hk
      exact List.any_eq_true.mpr ⟨item, hitem, decide_eq_true heq⟩
    rw [set, if_pos hany]
    clear hany
    induction d with
    | nil => cases hk
    | cons item d ih =>
      have hnodup : item.1 ∉ keys d ∧ (keys d).Nodup := List.nodup_cons.mp h
      rw [get?_cons, List.map_cons]
      by_cases heq : item.1 = k
      · have hrest : d.map (fun item => if item.1 = k then (k, v) else item) = d := by
          refine (List.map_congr_left (fun other hother => ?_)).trans (List.map_id d)
          refine if_neg (fun hsame => hnodup.1 ?_)
          rw [heq, ← hsame]
          exact List.mem_map.mpr ⟨other, hother, rfl⟩
        rw [if_pos heq, if_pos heq, hrest]
        simp only [List.map_cons, List.sum_cons, Option.map_some, Option.getD_some]
        rw [add_comm (w v), add_comm (w item.2), add_right_comm]
      · have hmem : k ∈ keys d := by
          rcases List.mem_cons.mp hk with hsame | hmem
          · exact absurd hsame.symm heq
          · exact hmem
        rw [if_neg heq, if_neg heq]
        simp only [List.map_cons, List.sum_cons]
        rw [add_assoc, ih hnodup.2 hmem, add_assoc]
  · have hnone : d.get? k = none := by
      cases hget : d.get? k with
      | none => rfl
      | some v => exact absurd (List.mem_map.mpr ⟨_, mem_of_get? hget, rfl⟩) hk
    rw [set_of_not_mem hk, hnone]
    simp

theorem filter_set {p : κ × α → Bool} {k} (h : ∀ v, p (k, v) = false) (d : Dict κ α) (v : α) :
    (d.set k v).filter p = d.filter p := by
  rw [set]
  split_ifs with hany
  · clear hany
    induction d with
    | nil => rfl
    | cons item d ih =>
      by_cases hk : item.1 = k
      · have hitem : p item = false := by rw [← h item.2, ← hk]
        rw [List.map_cons, if_pos hk, List.filter_cons_of_neg (by simp [h v]),
          List.filter_cons_of_neg (by simp [hitem]), ih]
      · rw [List.map_cons, if_neg hk, List.filter_cons, List.filter_cons, ih]
  · rw [List.filter_append, List.filter_cons_of_neg (by simp [h v]), List.filter_nil, List.append_nil]

theorem countP_set (p : α → Bool) {d : Dict κ α} (h : d.keys.Nodup) (k : κ) (v : α) :
    (d.set k v).countP (fun item => p item.2) + ((d.get? k).map (fun v => (p v).toNat)).getD 0 =
      d.countP (fun item => p item.2) + (p v).toNat := by
  have hcount : ∀ d : Dict κ α, d.countP (fun item => p item.2) = (d.map (fun item => (p item.2).toNat)).sum := by
    intro d
    induction d with
    | nil => rfl
    | cons item d ih =>
      rw [List.countP_cons, ih, List.map_cons, List.sum_cons, Nat.add_comm]
      cases p item.2 <;> rfl
  rw [hcount, hcount, sum_set (fun v => (p v).toNat) h]

theorem perm_of_get? {d d' : Dict κ α} (hd : d.keys.Nodup) (hd' : d'.keys.Nodup) (h : ∀ k, d.get? k = d'.get? k) :
    d.Perm d' := by
  have hitems : ∀ {d : Dict κ α}, d.keys.Nodup → d.Nodup := fun hkeys => List.Nodup.of_map _ hkeys
  rw [List.perm_ext_iff_of_nodup (hitems hd) (hitems hd')]
  rintro ⟨k, v⟩
  rw [← get?_eq_some_iff hd, ← get?_eq_some_iff hd', h k]

/-! ### Filing items -/

omit [DecidableEq κ] in
theorem sum_filterMap_add {β M : Type} [AddCommMonoid M] (key : β → Option κ) (w : β → M) (items : List β) :
    ((items.filterMap (fun b => (key b).map (fun k => (k, b)))).map (fun item => w item.2)).sum +
      ((items.filter (fun b => (key b).isNone)).map w).sum = (items.map w).sum := by
  induction items with
  | nil => simp
  | cons b items ih =>
    rw [List.map_cons, List.sum_cons, ← ih]
    cases hkey : key b with
    | none =>
      rw [List.filterMap_cons_none (by rw [hkey]; rfl), List.filter_cons_of_pos (by rw [hkey]; rfl), List.map_cons,
        List.sum_cons, add_left_comm]
    | some k =>
      rw [List.filterMap_cons_some (b := (k, b)) (by rw [hkey]; rfl),
        List.filter_cons_of_neg (by rw [hkey]; exact Bool.false_ne_true), List.map_cons, List.sum_cons, add_assoc]

def file {β : Type} (key : β → κ) (f : β → Option α → α) (d : Dict κ α) (b : β) : Dict κ α :=
  d.set (key b) (f b (d.get? (key b)))

section File

variable {β : Type} {key : β → κ} {f : β → Option α → α}

theorem nodup_keys_foldl_file (items : List β) {d : Dict κ α} (h : d.keys.Nodup) :
    (items.foldl (file key f) d).keys.Nodup := by
  induction items generalizing d with
  | nil => exact h
  | cons b items ih => exact ih (nodup_keys_set h _ _)

theorem get?_foldl_file (items : List β) (d : Dict κ α) (k : κ) : (items.foldl (file key f) d).get? k =
    (items.filter (fun b => key b = k)).foldl (fun o b => some (f b o)) (d.get? k) := by
  induction items generalizing d with
  | nil => rfl
  | cons b items ih =>
    rw [List.foldl_cons, ih, file, get?_set, List.filter_cons]
    by_cases hk : key b = k
    · rw [if_pos hk.symm, if_pos (decide_eq_true hk), List.foldl_cons, hk]
    · rw [if_neg (Ne.symm hk), if_neg (by simp [hk])]

/-- The order of the items does not matter to what is read of the values, when two items of one key can be
exchanged. -/
theorem perm_map_foldl_file (e : α → α) (hstep : ∀ b o, e (f b o) = e (f b (o.map e))) {items items' : List β}
    (hcomm : ∀ a ∈ items, ∀ b ∈ items, key a = key b → ∀ o, e (f b (some (f a o))) = e (f a (some (f b o))))
    (h : items.Perm items') {d} (hd : d.keys.Nodup) :
    (((items.foldl (file key f) d)).map (fun item => (item.1, e item.2))).Perm
      ((items'.foldl (file key f) d).map (fun item => (item.1, e item.2))) := by
  have hkeys : ∀ d : Dict κ α, keys (d.map (fun item => (item.1, e item.2))) = d.keys := fun d => by
    simp [keys, Function.comp_def]
  have hread : ∀ (l : List β) (o : Option α), (l.foldl (fun o b => some (f b o)) o).map e =
      l.foldl (fun o b => some (e (f b o))) (o.map e) := by
    intro l
    induction l with
    | nil => exact fun o => rfl
    | cons b l ih =>
      intro o
      rw [List.foldl_cons, List.foldl_cons, ih, Option.map_some, hstep]
  refine perm_of_get? ?_ ?_ (fun k => ?_)
  · rw [hkeys]
    exact nodup_keys_foldl_file items hd
  · rw [hkeys]
    exact nodup_keys_foldl_file items' hd
  · rw [get?_mapValues _ (fun _ v => e v), get?_mapValues _ (fun _ v => e v), get?_foldl_file, get?_foldl_file, hread,
      hread]
    refine (h.filter _).foldl_eq' (fun a ha b hb o => congrArg some ?_) _
    obtain ⟨ha, hka⟩ := List.mem_filter.mp ha
    obtain ⟨hb, hkb⟩ := List.mem_filter.mp hb
    have hsame := (of_decide_eq_true hka).trans (of_decide_eq_true hkb).symm
    have hab := hstep b (some (f a o))
    have hba := hstep a (some (f b o))
    rw [Option.map_some] at hab hba
    rw [← hab, ← hba, hcomm a ha b hb hsame]

theorem perm_foldl_file (hcomm : ∀ a b o, key a = key b → f b (some (f a o)) = f a (some (f b o)))
    {items items' : List β} (h : items.Perm items') {d} (hd : d.keys.Nodup) :
    (items.foldl (file key f) d).Perm (items'.foldl (file key f) d) := by
  have hperm := perm_map_foldl_file id (fun b o => by simp) (fun a _ b _ hab o => hcomm a b o hab) h hd
  simpa using hperm

theorem sum_foldl_file {M : Type} [AddCancelCommMonoid M] (w : α → M) (weight : β → M)
    (hweight : ∀ b o, w (f b o) = (o.map w).getD 0 + weight b) (items : List β) {d : Dict κ α} (hd : d.keys.Nodup) :
    ((items.foldl (file key f) d).map (fun item => w item.2)).sum =
      (d.map (fun item => w item.2)).sum + (items.map weight).sum := by
  induction items generalizing d with
  | nil => simp
  | cons b items ih =>
    have hset := sum_set w hd (key b) (f b (d.get? (key b)))
    rw [hweight, ← add_assoc, add_right_comm] at hset
    have hnodup : (file key f d b).keys.Nodup := nodup_keys_set hd _ _
    rw [List.foldl_cons, ih hnodup, file, add_right_cancel hset, List.map_cons, List.sum_cons, add_assoc]

end File

end Dict

end QRadarDashboard.Lib
