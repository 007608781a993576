import QRadarDashboard.PropertyWatch.Lemmas.DriverOutcome

/-!
# Adding rows up by value key
-/

namespace QRadarDashboard.PropertyWatch
open Lib

variable {u : UnicodeTables}

/-- What Python's tables say of the two characters the fold relies on. -/
structure PythonTables (u : UnicodeTables) : Prop where
  separator : u.isprintable tupleSeparator = false
  replacement : u.isspace replacement = false

/-! ## Components -/

structure Sanitized (limit : Nat) (text : String) : Prop where
  ne_empty : text ≠ ""
  le_limit : text.length ≤ limit
  no_separator : tupleSeparator ∉ text.toList

theorem sanitizeComponent_isSome (u : UnicodeTables) (limit : Nat) (raw : Option String) :
    (sanitizeComponent u limit raw).isSome = !isUnparsed u raw := by
  cases raw with
  | none => rfl
  | some value =>
    unfold sanitizeComponent
    by_cases h : isUnparsed u (some value) = true
    · simp [h]
    · simp only [h, Bool.false_eq_true, if_false]
      split <;> simp

theorem sanitized_of_some (hu : PythonTables u) {limit} (hlimit : 0 < limit) {raw part}
    (h : sanitizeComponent u limit raw = some part) : Sanitized limit part.1 := by
  cases raw with
  | none => cases h
  | some value =>
    unfold sanitizeComponent at h
    by_cases hun : isUnparsed u (some value) = true
    · simp [hun] at h
    · simp only [hun, Bool.false_eq_true, if_false] at h
      have hne : u.strip value.toList ≠ [] := by simpa [isUnparsed] using hun
      obtain ⟨c, rest, hstrip⟩ := List.exists_cons_of_ne_nil hne
      have hprintable : ∀ c ∈ (u.strip value.toList).map (fun c => if u.isprintable c then c else replacement),
          c ≠ tupleSeparator := by
        intro c' hc'
        obtain ⟨c, _, rfl⟩ := List.mem_map.mp hc'
        by_cases hp : u.isprintable c = true
        · simp only [hp, if_true]
          rintro rfl
          rw [hu.separator] at hp
          cases hp
        · simp only [hp, Bool.false_eq_true, if_false]
          decide
      generalize htext : (u.strip value.toList).map (fun c => if u.isprintable c then c else replacement) = text at *
      -- The first character is printable and not a space, or the replacement.
      obtain ⟨c', rest', hcons, hspace⟩ : ∃ c' rest', text = c' :: rest' ∧ u.isspace c' = false := by
        rw [← htext, hstrip]
        refine ⟨_, _, rfl, ?_⟩
        dsimp only
        split
        · exact UnicodeTables.head_strip hstrip
        · exact hu.replacement
      split at h
      · cases h
        have hpre : u.rstrip (text.take limit) <+: text.take limit := UnicodeTables.rstrip_prefix _
        refine ⟨?_, ?_, ?_⟩
        · have hmem : c' ∈ text.take limit := by
            rw [hcons, ← Nat.succ_pred_eq_of_pos hlimit]
            exact List.mem_cons_self
          simpa using UnicodeTables.rstrip_ne_nil hmem hspace
        · have := hpre.length_le
          simp only [String.length_ofList]
          exact this.trans (List.length_take_le _ _)
        · intro hmem
          rw [String.toList_ofList] at hmem
          exact hprintable _ (List.mem_of_mem_take (hpre.subset hmem)) rfl
      · rename_i hle
        cases h
        refine ⟨by simp [hcons], by simpa using not_lt.mp hle, ?_⟩
        intro hmem
        rw [String.toList_ofList] at hmem
        exact hprintable _ hmem rfl

def parsedRow (u : UnicodeTables) (row : PwKeyedRow) : Bool := row.values.all (fun value => !isUnparsed u value)

theorem rowParts_isSome (u : UnicodeTables) (limit : Nat) (values : List (Option String)) :
    (rowParts u limit values).isSome = values.all (fun value => !isUnparsed u value) := by
  unfold rowParts
  induction values with
  | nil => rfl
  | cons value values ih =>
    have hhead := sanitizeComponent_isSome u limit value
    rw [List.mapM_cons, List.all_cons, ← ih, ← hhead]
    cases sanitizeComponent u limit value with
    | none => rfl
    | some part => cases List.mapM (sanitizeComponent u limit) values <;> rfl

theorem rowParts_some (hu : PythonTables u) {limit} (hlimit : 0 < limit) {values parts}
    (h : rowParts u limit values = some parts) :
    parts.length = values.length ∧ ∀ part ∈ parts, Sanitized limit part.1 := by
  unfold rowParts at h
  induction values generalizing parts with
  | nil =>
    cases h
    exact ⟨rfl, by simp⟩
  | cons value values ih =>
    rw [List.mapM_cons, Option.bind_eq_bind, Option.bind_eq_some_iff] at h
    obtain ⟨part, hpart, h⟩ := h
    obtain ⟨rest, hrest, h⟩ := Option.bind_eq_some_iff.mp h
    cases h
    obtain ⟨hlen, hall⟩ := ih hrest
    refine ⟨by simp [hlen], ?_⟩
    intro p hp
    rcases List.mem_cons.mp hp with rfl | hp
    · exact sanitized_of_some hu hlimit hpart
    · exact hall p hp

/-! ## Keys -/

structure StorableKey (key : String) : Prop where
  ne_empty : key ≠ ""
  le_width : key.length ≤ 255

theorem componentLimit_ok {propertyCount limit maxLength} (h : componentLimit propertyCount maxLength = .ok limit) :
    0 < limit ∧ (propertyCount = 1 ∧ limit ≤ 255 ∨ propertyCount = 2 ∧ 2 * limit + 1 ≤ 255) := by
  unfold componentLimit valueKeyWidth at h
  split at h
  · cases h
  · rename_i hcount
    split at h
    · cases h
    · rename_i hlength
      cases h
      rcases not_not.mp hcount with rfl | rfl
      · rw [if_pos rfl]
        omega
      · rw [if_neg (by omega)]
        omega

theorem joinTupleKey_total {propertyCount limit maxLength} (hlimit : componentLimit propertyCount maxLength = .ok limit)
    (components : List String) (hcount : components.length = propertyCount)
    (h : ∀ text ∈ components, Sanitized limit text) : ∃ key, joinTupleKey components = .ok key ∧ StorableKey key := by
  obtain ⟨_, hwidth⟩ := componentLimit_ok hlimit
  have hseparator : components.any (fun component => tupleSeparator ∈ component.toList) = false := by
    rw [List.any_eq_false]
    intro text htext hmem
    exact (h text htext).no_separator (of_decide_eq_true hmem)
  have hpos : 0 < components.length := by
    rcases hwidth with ⟨hone, _⟩ | ⟨htwo, _⟩ <;> omega
  have hne : components ≠ [] := List.ne_nil_of_length_pos hpos
  refine ⟨String.intercalate (String.singleton tupleSeparator) components, by simp [joinTupleKey, hne, hseparator], ?_⟩
  rcases hwidth with ⟨hone, hle⟩ | ⟨htwo, hle⟩
  · obtain ⟨text, rfl⟩ := List.length_eq_one_iff.mp (hcount.trans hone)
    have ht := h text List.mem_cons_self
    rw [String.intercalate_singleton]
    exact ⟨ht.ne_empty, ht.le_limit.trans hle⟩
  · obtain ⟨first, second, rfl⟩ := List.length_eq_two.mp (hcount.trans htwo)
    have h₁ := (h first List.mem_cons_self).le_limit
    have h₂ := (h second (List.mem_cons_of_mem _ List.mem_cons_self)).le_limit
    rw [String.intercalate_cons_cons, String.intercalate_singleton]
    have hlen : (first ++ String.singleton tupleSeparator ++ second).length = first.length + 1 + second.length := by
      simp [String.length_append]
    refine ⟨fun hempty => ?_, by omega⟩
    rw [hempty, String.length_empty] at hlen
    omega

/-! ## Sums -/

def totalEvents (sums : Dict String PwSum) : Int := (sums.map (fun item => item.2.events)).sum

theorem totalEvents_append (sums sums' : Dict String PwSum) :
    totalEvents (sums ++ sums') = totalEvents sums + totalEvents sums' := by
  simp [totalEvents]

theorem totalEvents_perm {sums sums'} (h : sums.Perm sums') : totalEvents sums = totalEvents sums' := (h.map _).sum_eq

theorem totalEvents_nonneg {sums} (h : ∀ item ∈ sums, 0 ≤ item.2.events) : 0 ≤ totalEvents sums := by
  refine List.sum_nonneg (fun n hn => ?_)
  obtain ⟨item, hitem, rfl⟩ := List.mem_map.mp hn
  exact h item hitem

theorem totalEvents_set {sums} (h : sums.keys.Nodup) (key : String) (sum : PwSum) :
    totalEvents (sums.set key sum) =
      totalEvents sums - ((sums.get? key).map (fun sum => sum.events)).getD 0 + sum.events := by
  have hset := Dict.sum_set (fun sum : PwSum => sum.events) h key sum
  simp only [totalEvents]
  omega

/-- Sums the fold can store: every key once, each fits its column, and no count is negative. -/
structure Storable (sums : Dict String PwSum) : Prop where
  nodup : sums.keys.Nodup
  keys : ∀ item ∈ sums, StorableKey item.1
  counts : ∀ item ∈ sums, 0 ≤ item.2.events

theorem Storable.nil : Storable ([] : Dict String PwSum) := ⟨List.nodup_nil, by simp, by simp⟩

theorem Storable.set {sums} (h : Storable sums) {key} (hkey : StorableKey key)
    {sum} (hsum : 0 ≤ sum.events) : Storable (sums.set key sum) := by
  refine ⟨Dict.nodup_keys_set h.nodup _ _, ?_, ?_⟩
  · intro item hitem
    rcases Dict.mem_set hitem with hitem | rfl
    · exact h.keys item hitem
    · exact hkey
  · intro item hitem
    rcases Dict.mem_set hitem with hitem | rfl
    · exact h.counts item hitem
    · exact hsum

theorem Storable.get?_nonneg {sums} (h : Storable sums) (key : String) :
    0 ≤ ((sums.get? key).map (fun sum => sum.events)).getD 0 := by
  cases hget : sums.get? key with
  | none => exact le_rfl
  | some sum => exact h.counts _ (Dict.mem_of_get? hget)

def parsedEvents (u : UnicodeTables) (rows : List PwKeyedRow) : Int :=
  ((rows.filter (parsedRow u)).map (fun row => row.events)).sum

theorem sumRow_total (hu : PythonTables u) {propertyCount limit maxLength}
    (hlimit : componentLimit propertyCount maxLength = .ok limit) {acc}
    (hacc : Storable acc.1) {row} (harity : row.values.length = propertyCount) (hevents : 0 ≤ row.events) :
    ∃ acc', sumRow u propertyCount limit acc row = .ok acc' ∧ Storable acc'.1 ∧
      acc'.2 - acc.2 = (if parsedRow u row then row.events else 0) ∧
      totalEvents acc'.1 - totalEvents acc.1 = acc'.2 - acc.2 := by
  have hsome := rowParts_isSome u limit row.values
  unfold sumRow
  rw [if_neg (not_not.mpr harity)]
  cases hparts : rowParts u limit row.values with
  | none =>
    rw [hparts] at hsome
    have hnot : parsedRow u row = false := hsome.symm
    exact ⟨acc, rfl, hacc, by simp [hnot], by simp⟩
  | some parts =>
    rw [hparts] at hsome
    have hparsed : parsedRow u row = true := hsome.symm
    obtain ⟨hlen, hsanitized⟩ := rowParts_some hu (componentLimit_ok hlimit).1 hparts
    obtain ⟨key, hkey, hstorable⟩ := joinTupleKey_total hlimit (parts.map (fun part => part.1))
      (by rw [List.length_map, hlen, harity]) (fun text htext => by
        obtain ⟨part, hpart, rfl⟩ := List.mem_map.mp htext
        exact hsanitized part hpart)
    simp only [hkey, bind, Except.bind, pure, Except.pure]
    have hold := hacc.get?_nonneg key
    have hentry : ((acc.1.get? key).getD ⟨0, parts.map (fun part => part.1), false⟩).events =
        ((acc.1.get? key).map (fun sum => sum.events)).getD 0 := by
      cases acc.1.get? key <;> rfl
    refine ⟨_, rfl, hacc.set hstorable ?_, ?_, ?_⟩
    · simp only [hentry]
      omega
    · simp [hparsed]
    · simp only [totalEvents_set hacc.nodup, hentry]
      omega

theorem sumRows_total (hu : PythonTables u) {propertyCount limit maxLength}
    (hlimit : componentLimit propertyCount maxLength = .ok limit) {rows}
    (harity : ∀ row ∈ rows, row.values.length = propertyCount) (hcounts : ∀ row ∈ rows, 0 ≤ row.events) :
    ∃ sums, sumRows u propertyCount limit rows = .ok (sums, parsedEvents u rows) ∧ Storable sums ∧
      totalEvents sums = parsedEvents u rows := by
  have hfold : ∀ (rows : List PwKeyedRow) (acc : Dict String PwSum × Int), Storable acc.1 →
      (∀ row ∈ rows, row.values.length = propertyCount) → (∀ row ∈ rows, 0 ≤ row.events) →
      ∃ acc', rows.foldlM (sumRow u propertyCount limit) acc = .ok acc' ∧ Storable acc'.1 ∧
        acc'.2 - acc.2 = parsedEvents u rows ∧ totalEvents acc'.1 - totalEvents acc.1 = acc'.2 - acc.2 := by
    intro rows
    induction rows with
    | nil => exact fun acc hacc _ _ => ⟨acc, rfl, hacc, by simp [parsedEvents], by simp⟩
    | cons row rows ih =>
      intro acc hacc harity hcounts
      obtain ⟨acc₁, hrow, hacc₁, hparsed, htotal⟩ := sumRow_total hu hlimit hacc
        (harity row List.mem_cons_self) (hcounts row List.mem_cons_self)
      obtain ⟨acc₂, hrows, hacc₂, hparsed', htotal'⟩ := ih acc₁ hacc₁
        (fun r hr => harity r (List.mem_cons_of_mem _ hr)) (fun r hr => hcounts r (List.mem_cons_of_mem _ hr))
      refine ⟨acc₂, by rw [List.foldlM_cons, hrow]; exact hrows, hacc₂, ?_, by omega⟩
      have hcons : parsedEvents u (row :: rows) = (if parsedRow u row then row.events else 0) + parsedEvents u rows := by
        by_cases hp : parsedRow u row <;> simp [parsedEvents, hp]
      omega
  obtain ⟨acc, hrows, hacc, hparsed, htotal⟩ := hfold rows ([], 0) Storable.nil harity hcounts
  have hempty : totalEvents ([] : Dict String PwSum) = 0 := rfl
  dsimp only at hparsed htotal
  refine ⟨acc.1, ?_, hacc, by omega⟩
  rw [sumRows, hrows, show parsedEvents u rows = acc.2 by omega]

end QRadarDashboard.PropertyWatch
