import QRadarDashboard.PropertyWatch.Fold

/-!
# What the fold keeps of a tracked or pinned value
-/

namespace QRadarDashboard.PropertyWatch
open Lib

variable {u : UnicodeTables} {limit propertyCount : Nat} {key : String}

/-! ## The rows of a key -/

def rowKey (u : UnicodeTables) (limit : Nat) (row : PwKeyedRow) : Option String :=
  (rowParts u limit row.values).map (fun parts =>
    String.intercalate (String.singleton tupleSeparator) (parts.map (fun part => part.1)))

def keyRows (u : UnicodeTables) (limit : Nat) (key : String) (rows : List PwKeyedRow) : List PwKeyedRow :=
  rows.filter (fun row => rowKey u limit row = some key)

def keyEvents (u : UnicodeTables) (limit : Nat) (key : String) (rows : List PwKeyedRow) : Int :=
  ((keyRows u limit key rows).map (fun row => row.events)).sum

def keyEvents? (u : UnicodeTables) (limit : Nat) (key : String) (rows : List PwKeyedRow) : Option Int :=
  if keyRows u limit key rows = [] then none else some (keyEvents u limit key rows)

theorem joinTupleKey_ok {components key} (h : joinTupleKey components = .ok key) :
    key = String.intercalate (String.singleton tupleSeparator) components := by
  unfold joinTupleKey at h
  split at h
  · cases h
  · split at h
    · cases h
    · cases h
      rfl

theorem rowKey_ne_of_keyEvents?_none {rows} (h : keyEvents? u limit key rows = none) :
    ∀ row ∈ rows, rowKey u limit row ≠ some key := by
  unfold keyEvents? at h
  split at h
  · rename_i hnil
    intro row hrow hkey
    have hmem : row ∈ keyRows u limit key rows := List.mem_filter.mpr ⟨hrow, decide_eq_true hkey⟩
    rw [hnil] at hmem
    cases hmem
  · cases h

theorem keyEvents_of_some {rows n} (h : keyEvents? u limit key rows = some n) : keyEvents u limit key rows = n := by
  unfold keyEvents? at h
  split at h
  · cases h
  · exact Option.some.inj h

theorem keyEvents_of_none {rows} (h : keyEvents? u limit key rows = none) : keyEvents u limit key rows = 0 := by
  unfold keyEvents? at h
  split at h
  · rename_i hnil
    simp [keyEvents, hnil]
  · cases h

/-! ## Adding rows up -/

theorem sumRow_get? {acc acc' row} (h : sumRow u propertyCount limit acc row = .ok acc') :
    (acc'.1.get? key).map (fun sum => sum.events) =
      if rowKey u limit row = some key then
        some (((acc.1.get? key).map (fun sum => sum.events)).getD 0 + row.events)
      else (acc.1.get? key).map (fun sum => sum.events) := by
  unfold sumRow at h
  split at h
  · cases h
  · cases hparts : rowParts u limit row.values with
    | none =>
      simp only [hparts, Except.ok.injEq] at h
      subst h
      simp [rowKey, hparts]
    | some parts =>
      simp only [hparts] at h
      obtain ⟨joined, hjoined, h⟩ := bind_ok h
      have hkey : rowKey u limit row = some joined := by
        rw [rowKey, hparts, joinTupleKey_ok hjoined]
        rfl
      cases h
      rw [Dict.get?_set, hkey]
      by_cases hk : key = joined
      · subst hk
        cases acc.1.get? key <;> simp
      · simp [hk, Ne.symm hk]

theorem sumRow_nodup {acc acc' row}
    (h : sumRow u propertyCount limit acc row = .ok acc') (hnodup : acc.1.keys.Nodup) : acc'.1.keys.Nodup := by
  unfold sumRow at h
  split at h
  · cases h
  · cases hparts : rowParts u limit row.values with
    | none =>
      simp only [hparts, Except.ok.injEq] at h
      subst h
      exact hnodup
    | some parts =>
      simp only [hparts] at h
      obtain ⟨joined, _, h⟩ := bind_ok h
      cases h
      exact Dict.nodup_keys_set hnodup _ _

theorem foldlM_sumRow {rows acc acc'}
    (h : rows.foldlM (sumRow u propertyCount limit) acc = .ok acc') (hnodup : acc.1.keys.Nodup) :
    acc'.1.keys.Nodup ∧ ∀ key, (acc'.1.get? key).map (fun sum => sum.events) =
      if keyRows u limit key rows = [] then (acc.1.get? key).map (fun sum => sum.events)
      else some (((acc.1.get? key).map (fun sum => sum.events)).getD 0 + keyEvents u limit key rows) := by
  induction rows generalizing acc with
  | nil =>
    cases h
    exact ⟨hnodup, fun key => rfl⟩
  | cons row rows ih =>
    rw [List.foldlM_cons] at h
    obtain ⟨acc₁, hrow, h⟩ := bind_ok h
    obtain ⟨hnodup', ih⟩ := ih h (sumRow_nodup hrow hnodup)
    refine ⟨hnodup', fun key => ?_⟩
    rw [ih key, sumRow_get? hrow]
    by_cases hkey : rowKey u limit row = some key
    · have hcons : keyRows u limit key (row :: rows) = row :: keyRows u limit key rows := by
        simp [keyRows, hkey]
      by_cases hrest : keyRows u limit key rows = []
      · simp [hkey, hcons, hrest, keyEvents]
      · simp [hkey, hcons, hrest, keyEvents, Int.add_assoc]
    · have hcons : keyRows u limit key (row :: rows) = keyRows u limit key rows := by
        simp [keyRows, hkey]
      simp only [hkey, if_false, keyEvents, hcons]

theorem sumRows_spec {rows sums parsed} (h : sumRows u propertyCount limit rows = .ok (sums, parsed)) :
    sums.keys.Nodup ∧ ∀ key, (sums.get? key).map (fun sum => sum.events) = keyEvents? u limit key rows := by
  obtain ⟨hnodup, hget⟩ := foldlM_sumRow h (by simp [Dict.keys])
  refine ⟨hnodup, fun key => ?_⟩
  rw [hget key]
  simp [keyEvents?]

/-! ## What is kept -/

theorem keptOfGrouped_get? {sums mustKeep maxValues}
    (hkey : key ∈ mustKeep) : (keptOfGrouped sums mustKeep maxValues).1.get? key = sums.get? key := by
  unfold keptOfGrouped
  rw [Dict.get?_foldl_set_of_ne (fun item : String × PwSum => item.1) (fun item => item.2)]
  · rw [Dict.get?_filter sums (fun k => decide (k ∈ mustKeep)) key]
    simp [hkey]
  · intro item hitem heq
    have hmem := List.mem_of_mem_take hitem
    rw [mem_sortOn, List.mem_filter] at hmem
    exact absurd (heq ▸ hkey) (by simpa using hmem.2)

theorem keptOfGrouped_some {sums} (h : sums.keys.Nodup) {mustKeep maxValues sum}
    (hget : (keptOfGrouped sums mustKeep maxValues).1.get? key = some sum) : sums.get? key = some sum := by
  by_cases hkey : key ∈ mustKeep
  · rwa [keptOfGrouped_get? hkey] at hget
  · unfold keptOfGrouped at hget
    have hfold := Dict.get?_foldl_set (fun item : String × PwSum => item.1) (fun item => item.2)
      ((sortOn byVolume (sums.filter (fun item => item.1 ∉ mustKeep))).take maxValues)
      (sums.filter (fun item => item.1 ∈ mustKeep)) key
    rw [hget] at hfold
    rcases hfold with ⟨item, hitem, rfl, hsum⟩ | hfilter
    · have hmem := List.mem_of_mem_take hitem
      rw [mem_sortOn, List.mem_filter] at hmem
      exact (Dict.get?_eq_some_iff h).mpr (hsum ▸ hmem.1)
    · rw [Dict.get?_filter sums (fun k => decide (k ∈ mustKeep)) key] at hfilter
      simp [hkey] at hfilter

theorem keptOfGrouped_nodup {sums} (h : sums.keys.Nodup) (mustKeep : List String)
    (maxValues : Nat) : (keptOfGrouped sums mustKeep maxValues).1.keys.Nodup :=
  Dict.nodup_keys_foldl_set _ _ _ (Dict.nodup_keys_filter h _)

def mergeEvents : Option Int → Option Int → Option Int
  | none, p => p
  | some g, none => some g
  | some g, some p => some (max g p)

theorem mergeEvents_eq_none {g p} (h : mergeEvents g p = none) : g = none ∧ p = none := by
  cases g <;> cases p <;> simp_all [mergeEvents]

theorem eq_max_of_mergeEvents {rows rows' n}
    (h : mergeEvents (keyEvents? u limit key rows) (keyEvents? u limit key rows') = some n) (hn : 0 ≤ n) :
    n = max (keyEvents u limit key rows) (keyEvents u limit key rows') := by
  cases hg : keyEvents? u limit key rows with
  | none =>
    rw [hg] at h
    rw [keyEvents_of_none hg, keyEvents_of_some h, max_eq_right hn]
  | some g =>
    cases hp : keyEvents? u limit key rows' with
    | none =>
      rw [hg, hp] at h
      cases h
      rw [keyEvents_of_some hg, keyEvents_of_none hp, max_eq_left hn]
    | some p =>
      rw [hg, hp] at h
      cases h
      rw [keyEvents_of_some hg, keyEvents_of_some hp]

theorem mergePinned_nodup {pins kept} (h : kept.keys.Nodup)
    (item : String × PwSum) : (mergePinned pins kept item).keys.Nodup := by
  unfold mergePinned
  split
  · exact h
  · split <;> exact Dict.nodup_keys_set h _ _

theorem mergePinned_get? (pins : List String) (kept : Dict String PwSum) (item : String × PwSum) :
    ((mergePinned pins kept item).get? key).map (fun sum => sum.events) =
      if item.1 = key ∧ key ∈ pins then
        mergeEvents ((kept.get? key).map (fun sum => sum.events)) (some item.2.events)
      else (kept.get? key).map (fun sum => sum.events) := by
  unfold mergePinned
  by_cases hpin : item.1 ∈ pins
  · by_cases hk : item.1 = key
    · subst hk
      cases kept.get? item.1 <;> simp [hpin, Dict.get?_set, mergeEvents]
    · cases kept.get? item.1 <;> simp [hpin, hk, Dict.get?_set, Ne.symm hk]
  · have hne : ¬ (item.1 = key ∧ key ∈ pins) := fun h => hpin (h.1 ▸ h.2)
    simp [hpin, hne]

theorem foldl_mergePinned (pins : List String) {sums kept : Dict String PwSum} (hsums : sums.keys.Nodup)
    (hkept : kept.keys.Nodup) :
    (sums.foldl (mergePinned pins) kept).keys.Nodup ∧
      ∀ key, ((sums.foldl (mergePinned pins) kept).get? key).map (fun sum => sum.events) =
        if key ∈ pins then mergeEvents ((kept.get? key).map (fun sum => sum.events))
          ((sums.get? key).map (fun sum => sum.events))
        else (kept.get? key).map (fun sum => sum.events) := by
  induction sums generalizing kept with
  | nil =>
    refine ⟨hkept, fun key => ?_⟩
    cases hget : kept.get? key <;> simp [hget, mergeEvents]
  | cons item sums ih =>
    have hnodup : item.1 ∉ Dict.keys sums ∧ (Dict.keys sums).Nodup := List.nodup_cons.mp hsums
    obtain ⟨hres, hget⟩ := ih hnodup.2 (mergePinned_nodup hkept item)
    refine ⟨hres, fun key => ?_⟩
    rw [List.foldl_cons, hget key, mergePinned_get?, Dict.get?_cons]
    by_cases hk : item.1 = key
    · have hnone : Dict.get? sums key = none := by
        cases hs : Dict.get? sums key with
        | none => rfl
        | some v =>
          have hmem := (Dict.get?_eq_some_iff hnodup.2).mp hs
          exact absurd (List.mem_map.mpr ⟨_, hmem, hk.symm⟩) hnodup.1
      by_cases hpin : key ∈ pins
      · cases kept.get? key <;> simp [hk, hpin, hnone, mergeEvents]
      · simp [hk, hpin]
    · simp [hk]

def keptEvents (u : UnicodeTables) (limit : Nat) (grouped : PwBucketOutcome)
    (pinnedOutcome : Option PwBucketOutcome) (pins : List String) (key : String) : Option Int :=
  match pinnedOutcome with
  | none => keyEvents? u limit key grouped.rows
  | some outcome =>
    if (outcome.measured ∧ grouped.state ≠ .complete) ∧ key ∈ pins then
      mergeEvents (keyEvents? u limit key grouped.rows) (keyEvents? u limit key outcome.rows)
    else keyEvents? u limit key grouped.rows

theorem withPinned_spec (key : String) {grouped : PwBucketOutcome} {pinnedOutcome pins kept kept' parsed parsed'}
    (h : withPinned u propertyCount limit grouped pinnedOutcome pins kept parsed = .ok (kept', parsed'))
    (hnodup : kept.keys.Nodup)
    (hget : (kept.get? key).map (fun sum => sum.events) = keyEvents? u limit key grouped.rows) :
    kept'.keys.Nodup ∧ (kept'.get? key).map (fun sum => sum.events) =
      keptEvents u limit grouped pinnedOutcome pins key := by
  unfold withPinned at h
  cases pinnedOutcome with
  | none =>
    cases h
    exact ⟨hnodup, hget⟩
  | some outcome =>
    by_cases hfill : outcome.measured ∧ grouped.state ≠ .complete
    · simp only [hfill, and_self, if_true, ne_eq, not_false_eq_true] at h
      obtain ⟨⟨sums, n⟩, hsums, h⟩ := bind_ok h
      cases h
      obtain ⟨hsn, hsums⟩ := sumRows_spec hsums
      obtain ⟨hn, hmerged⟩ := foldl_mergePinned pins hsn hnodup
      refine ⟨hn, ?_⟩
      rw [hmerged key, hsums key, hget]
      by_cases hpin : key ∈ pins <;> simp [keptEvents, hfill, hpin]
    · simp only [hfill, if_false, Except.ok.injEq, Prod.mk.injEq] at h
      obtain ⟨rfl, rfl⟩ := h
      refine ⟨hnodup, ?_⟩
      simp only [keptEvents, hfill, false_and, if_false]
      exact hget

/-! ## The fact -/

theorem PwBucketFact.of_ok {d fact} (h : PwBucketFact.of d = .ok fact) : fact.toPwBucketData = d := by
  unfold PwBucketFact.of at h
  split at h
  · cases h
    rfl
  · cases h

theorem PwValueFact.of_ok {valueKey events components truncated value}
    (h : PwValueFact.of valueKey events components truncated = .ok value) :
    value.valueKey = valueKey ∧ value.events = events := by
  unfold PwValueFact.of at h
  split at h
  · split at h
    · cases h
      exact ⟨rfl, rfl⟩
    · cases h
  · cases h

theorem values_of_mapM {items : Dict String PwSum} {values}
    (h : items.mapM (fun item => PwValueFact.of item.1 item.2.events item.2.components item.2.truncated) =
      .ok values) :
    values.map (fun value => (value.valueKey, value.events)) = items.map (fun item => (item.1, item.2.events)) := by
  induction items generalizing values with
  | nil =>
    cases h
    rfl
  | cons item items ih =>
    rw [List.mapM_cons] at h
    obtain ⟨value, hvalue, h⟩ := bind_ok h
    obtain ⟨rest, hrest, h⟩ := bind_ok h
    cases h
    obtain ⟨hk, he⟩ := PwValueFact.of_ok hvalue
    rw [List.map_cons, List.map_cons, ih hrest, hk, he]

theorem withPinned_of_notMem (key : String) {grouped pinnedOutcome pins} {kept kept' : Dict String PwSum} {parsed parsed'}
    (h : withPinned u propertyCount limit grouped pinnedOutcome pins kept parsed = .ok (kept', parsed'))
    (hnodup : kept.keys.Nodup) (hpin : key ∉ pins) :
    kept'.keys.Nodup ∧ (kept'.get? key).map (fun sum => sum.events) = (kept.get? key).map (fun sum => sum.events) := by
  unfold withPinned at h
  cases pinnedOutcome with
  | none =>
    cases h
    exact ⟨hnodup, rfl⟩
  | some outcome =>
    by_cases hfill : outcome.measured ∧ grouped.state ≠ .complete
    · simp only [hfill, and_self, if_true, ne_eq, not_false_eq_true] at h
      obtain ⟨⟨sums, n⟩, hsums, h⟩ := bind_ok h
      cases h
      obtain ⟨hn, hmerged⟩ := foldl_mergePinned pins (sumRows_spec hsums).1 hnodup
      exact ⟨hn, by rw [hmerged key, if_neg hpin]⟩
    · simp only [hfill, if_false, Except.ok.injEq, Prod.mk.injEq] at h
      obtain ⟨rfl, rfl⟩ := h
      exact ⟨hnodup, rfl⟩

theorem keptEvents_of_notMem {grouped pinnedOutcome pins}
    (hpin : key ∉ pins) : keptEvents u limit grouped pinnedOutcome pins key = keyEvents? u limit key grouped.rows := by
  unfold keptEvents
  cases pinnedOutcome with
  | none => rfl
  | some outcome => exact if_neg (fun h => hpin h.2)

structure Folded (u : UnicodeTables) (limit : Nat) (grouped : PwBucketOutcome)
    (pinnedOutcome : Option PwBucketOutcome) (pins tracked : List String) (fact : PwBucketFact) : Prop where
  valuesMeasurement : fact.valuesMeasurement = valuesMeasurementOf grouped
  pinnedMeasurement : fact.pinnedMeasurement = pinnedMeasurementOf pinnedOutcome
  values : grouped.measured = true → ∀ key, key ∈ tracked ∨ key ∈ pins → ∀ n,
    (∃ value ∈ fact.values, value.valueKey = key ∧ value.events = n) ↔
      keptEvents u limit grouped pinnedOutcome pins key = some n
  /-- Every value of the fact, tracked or not, has what was counted of it. -/
  counted : grouped.measured = true → ∀ value ∈ fact.values,
    keptEvents u limit grouped pinnedOutcome pins value.valueKey = some value.events

theorem foldBucket_folded {s : FoldSettings} {bucketStart grouped totals pinnedOutcome pinned tracked fact}
    (h : foldBucket u s bucketStart grouped totals pinnedOutcome pinned tracked = .ok fact) :
    ∃ limit pins, componentLimit s.propertyCount s.valueMaxLength = .ok limit ∧
      pinnedValueKeys u s.propertyCount limit pinned = .ok pins ∧
      Folded u limit grouped pinnedOutcome pins.keys tracked fact := by
  obtain ⟨_, _, h⟩ := bind_ok h
  obtain ⟨limit, hlimit, h⟩ := bind_ok h
  obtain ⟨_, _, h⟩ := bind_ok h
  obtain ⟨_, _, h⟩ := bind_ok h
  obtain ⟨pins, hpins, h⟩ := bind_ok h
  obtain ⟨_, _, h⟩ := bind_ok h
  obtain ⟨_, _, h⟩ := bind_ok h
  obtain ⟨sums, hsums, h⟩ := bind_ok h
  obtain ⟨filled, hfilled, h⟩ := bind_ok h
  obtain ⟨total, _, h⟩ := bind_ok h
  obtain ⟨values, hvalues, h⟩ := bind_ok h
  have hfact := PwBucketFact.of_ok h
  obtain ⟨hnodup, hget⟩ := sumRows_spec hsums
  have hkeptNodup := keptOfGrouped_nodup hnodup (tracked ++ pins.keys) s.maxValues.toNat
  have hitems := values_of_mapM hvalues
  have hvalue : ∀ key n, filled.1.keys.Nodup → ((∃ value ∈ values, value.valueKey = key ∧ value.events = n) ↔
      (filled.1.get? key).map (fun sum => sum.events) = some n) := by
    intro key n hfn
    calc (∃ value ∈ values, value.valueKey = key ∧ value.events = n)
        ↔ (key, n) ∈ values.map (fun value => (value.valueKey, value.events)) := by simp
      _ ↔ ∃ sum, (key, sum) ∈ filled.1 ∧ sum.events = n := by simp [hitems]
      _ ↔ (filled.1.get? key).map (fun sum => sum.events) = some n := by
          simp only [Option.map_eq_some_iff, Dict.get?_eq_some_iff hfn]
  refine ⟨limit, pins, hlimit, hpins, by rw [hfact], by rw [hfact], ?_, ?_⟩
  · intro hmeasured key hkey n
    simp only [hmeasured, if_true] at hfilled
    obtain ⟨hfn, hfget⟩ := withPinned_spec key hfilled hkeptNodup
      (by rw [keptOfGrouped_get? (List.mem_append.mpr hkey), hget key])
    rw [hfact, ← hfget]
    exact hvalue key n hfn
  · intro hmeasured value hmem
    rw [hfact] at hmem
    simp only [hmeasured, if_true] at hfilled
    by_cases hpin : value.valueKey ∈ pins.keys
    · obtain ⟨hfn, hfget⟩ := withPinned_spec value.valueKey hfilled hkeptNodup
        (by rw [keptOfGrouped_get? (List.mem_append_right _ hpin), hget])
      rw [← hfget]
      exact (hvalue _ _ hfn).mp ⟨value, hmem, rfl, rfl⟩
    · -- a value that is not pinned has the sum of its grouped rows, if the cut left it in
      obtain ⟨hfn, hfget⟩ := withPinned_of_notMem value.valueKey hfilled hkeptNodup hpin
      have hsum := (hvalue _ _ hfn).mp ⟨value, hmem, rfl, rfl⟩
      rw [hfget] at hsum
      obtain ⟨sum, hsum, hevents⟩ := Option.map_eq_some_iff.mp hsum
      rw [keptEvents_of_notMem hpin, ← hget, keptOfGrouped_some hnodup hsum, Option.map_some, hevents]

end QRadarDashboard.PropertyWatch
