import QRadarDashboard.PropertyWatch.Lemmas.Sums

/-!
# The fold conserves events
-/

namespace QRadarDashboard.PropertyWatch
open Lib

variable {u : UnicodeTables} {propertyCount limit : Nat} {maxLength : Int}

/-! ## The checks of a bucket -/

structure ValidBucket (d : PwBucketData) : Prop where
  width : 0 < d.bucketSeconds
  version : 1 ≤ d.watchVersion
  totals : ∀ n, d.totalEvents = some n → d.totalsComplete = true ∧ 0 ≤ n
  parsed : ∀ n, d.parsedEvents = some n → 0 ≤ n ∧ d.valuesMeasurement ≠ .notCollected
  untracked : ∀ n, d.untrackedEvents = some n → 0 ≤ n ∧ d.valuesMeasurement = .exact
  covered : ∀ t p, d.totalEvents = some t → d.parsedEvents = some p → p ≤ t
  collected : d.valuesMeasurement ≠ .notCollected → d.parsedEvents ≠ none
  kept : ∀ p, d.parsedEvents = some p →
    (d.values.map (fun value => value.events)).sum + d.untrackedEvents.getD 0 ≤ p

theorem check_eq_none {failed : Prop} [Decidable failed] {message} {rest : Option String} :
    (if failed then some message else rest) = none ↔ ¬ failed ∧ rest = none := by
  by_cases h : failed <;> simp [h]

theorem error?_eq_none_iff {d} : d.error? = none ↔ ValidBucket d := by
  unfold PwBucketData.error?
  simp only [check_eq_none, and_true]
  constructor
  · rintro ⟨hwidth, hversion, htotals, htotal, hparsed, huntracked, hcovered, hnone, hsome, hexact, hkept⟩
    refine ⟨not_le.mp hwidth, not_lt.mp hversion, ?_, ?_, ?_, ?_, ?_, ?_⟩
    · intro n hn
      exact ⟨by simpa [hn] using htotals, by simpa [hn] using htotal⟩
    · intro n hn
      exact ⟨by simpa [hn] using hparsed, by simpa [hn] using hnone⟩
    · intro n hn
      exact ⟨by simpa [hn] using huntracked, by simpa [hn] using hexact⟩
    · intro t p ht hp
      simpa [ht, hp] using hcovered
    · intro hcollected hp
      exact hsome ⟨hcollected, hp⟩
    · intro p hp
      simpa [hp] using hkept
  · intro h
    refine ⟨not_le.mpr h.width, not_lt.mpr h.version, ?_, ?_, ?_, ?_, ?_, ?_, ?_, ?_, ?_⟩
    · rintro ⟨hincomplete, hsome⟩
      obtain ⟨n, hn⟩ := Option.isSome_iff_exists.mp hsome
      exact hincomplete (h.totals n hn).1
    · cases ht : d.totalEvents with
      | none => simp
      | some n => simpa using (h.totals n ht).2
    · cases hp : d.parsedEvents with
      | none => simp
      | some n => simpa using (h.parsed n hp).1
    · cases hu : d.untrackedEvents with
      | none => simp
      | some n => simpa using (h.untracked n hu).1
    · cases ht : d.totalEvents with
      | none => simp
      | some t =>
        cases hp : d.parsedEvents with
        | none => simp
        | some p => simpa using h.covered t p ht hp
    · rintro ⟨hnone, hsome⟩
      rcases hsome with hsome | hsome
      · obtain ⟨n, hn⟩ := Option.isSome_iff_exists.mp hsome
        exact (h.parsed n hn).2 hnone
      · obtain ⟨n, hn⟩ := Option.isSome_iff_exists.mp hsome
        have hexact := (h.untracked n hn).2
        rw [hnone] at hexact
        cases hexact
    · rintro ⟨hcollected, hnone⟩
      exact h.collected hcollected hnone
    · rintro ⟨hsome, hexact⟩
      obtain ⟨n, hn⟩ := Option.isSome_iff_exists.mp hsome
      exact hexact (h.untracked n hn).2
    · cases hp : d.parsedEvents with
      | none => simp
      | some p => simpa using h.kept p hp

theorem PwBucketFact.of_valid {d} (h : ValidBucket d) :
    ∃ fact, PwBucketFact.of d = .ok fact ∧ fact.toPwBucketData = d := by
  have hnone := error?_eq_none_iff.mpr h
  refine ⟨⟨d, hnone⟩, ?_, rfl⟩
  unfold PwBucketFact.of
  split
  · rfl
  · rename_i msg hsome
    rw [hnone] at hsome
    cases hsome

theorem PwBucketFact.valid (fact : PwBucketFact) : ValidBucket fact.toPwBucketData :=
  error?_eq_none_iff.mp fact.ok

/-! ## What the fold keeps -/

theorem keptOfGrouped_total {sums} (h : Storable sums) (mustKeep : List String) (maxValues : Nat) :
    Storable (keptOfGrouped sums mustKeep maxValues).1 ∧ 0 ≤ (keptOfGrouped sums mustKeep maxValues).2 ∧
      totalEvents (keptOfGrouped sums mustKeep maxValues).1 + (keptOfGrouped sums mustKeep maxValues).2 =
        totalEvents sums := by
  have hnot : sums.filter (fun item => item.1 ∉ mustKeep) = sums.filter (fun item => !decide (item.1 ∈ mustKeep)) := by
    simp
  have hperm : (sums.filter (fun item => item.1 ∈ mustKeep) ++
      sortOn byVolume (sums.filter (fun item => item.1 ∉ mustKeep))).Perm sums := by
    rw [hnot]
    exact ((sortOn_perm _).append_left _).trans (List.filter_append_perm _ _)
  generalize hrest : sortOn byVolume (sums.filter (fun item => item.1 ∉ mustKeep)) = rest at hperm
  generalize hmust : sums.filter (fun item => item.1 ∈ mustKeep) = must at hperm
  have hsub : ∀ item ∈ must ++ rest, item ∈ sums := fun item hitem => hperm.mem_iff.mp hitem
  have hnodup : (Dict.keys (must ++ rest)).Nodup := ((hperm.map _).nodup_iff).mpr h.nodup
  have hsublist : List.Sublist (must ++ rest.take maxValues) (must ++ rest) :=
    (List.take_sublist maxValues rest).append_left must
  have hkept : (keptOfGrouped sums mustKeep maxValues).1 = must ++ rest.take maxValues := by
    unfold keptOfGrouped
    rw [hrest, hmust]
    refine (Dict.foldl_set_of_nodup (fun item : String × PwSum => item.1) (fun item => item.2) ?_).trans (by simp)
    have := hnodup.sublist (hsublist.map (fun item : String × PwSum => item.1))
    rwa [List.map_append] at this
  have htail : (keptOfGrouped sums mustKeep maxValues).2 = totalEvents (rest.drop maxValues) := by
    unfold keptOfGrouped
    rw [hrest]
    rfl
  rw [hkept, htail]
  refine ⟨⟨hnodup.sublist (hsublist.map _), ?_, ?_⟩, ?_, ?_⟩
  · exact fun item hitem => h.keys item (hsub item (hsublist.subset hitem))
  · exact fun item hitem => h.counts item (hsub item (hsublist.subset hitem))
  · exact totalEvents_nonneg (fun item hitem =>
      h.counts item (hsub item (List.mem_append_right _ (List.mem_of_mem_drop hitem))))
  · rw [← totalEvents_append, List.append_assoc, List.take_append_drop]
    exact totalEvents_perm hperm

theorem Storable.mergePinned {pins sums kept} (hsums : Storable sums)
    (hkept : Storable kept) : Storable (sums.foldl (PropertyWatch.mergePinned pins) kept) := by
  have hfold : ∀ (items kept : Dict String PwSum), (∀ item ∈ items, StorableKey item.1 ∧ 0 ≤ item.2.events) →
      Storable kept → Storable (items.foldl (PropertyWatch.mergePinned pins) kept) := by
    intro items
    induction items with
    | nil => exact fun _ _ hkept => hkept
    | cons item items ih =>
      intro kept hitems hkept
      obtain ⟨hkey, hevents⟩ := hitems item List.mem_cons_self
      refine ih _ (fun other hother => hitems other (List.mem_cons_of_mem _ hother)) ?_
      unfold PropertyWatch.mergePinned
      split
      · exact hkept
      · split
        · exact hkept.set hkey hevents
        · exact hkept.set hkey (le_trans hevents (le_max_right _ _))
  exact hfold sums kept (fun item hitem => ⟨hsums.keys item hitem, hsums.counts item hitem⟩) hkept

structure Filled (grouped : PwBucketOutcome) (kept : Dict String PwSum) (parsed : Option Int)
    (filled : Dict String PwSum × Option Int) : Prop where
  storable : Storable filled.1
  /-- A whole grouped search stays the one authority. -/
  whole : grouped.state = .complete → filled = (kept, parsed)
  unmeasured : parsed = none → filled.2 = none
  measured : ∀ n, parsed = some n → ∃ m, filled.2 = some m ∧ n ≤ m ∧ totalEvents filled.1 ≤ m

theorem withPinned_total (hu : PythonTables u) (hlimit : componentLimit propertyCount maxLength = .ok limit)
    (grouped : PwBucketOutcome) {pinnedOutcome} (pins : List String)
    (hpinned : ∀ o, pinnedOutcome = some o → Foldable .pinned propertyCount o) {kept}
    (hkept : Storable kept) (parsed : Option Int) (hparsed : ∀ n, parsed = some n → totalEvents kept ≤ n) :
    ∃ filled, withPinned u propertyCount limit grouped pinnedOutcome pins kept parsed = .ok filled ∧
      Filled grouped kept parsed filled := by
  have hasIs : Filled grouped kept parsed (kept, parsed) :=
    ⟨hkept, fun _ => rfl, fun h => h, fun n hn => ⟨n, hn, le_rfl, hparsed n hn⟩⟩
  unfold withPinned
  cases pinnedOutcome with
  | none => exact ⟨_, rfl, hasIs⟩
  | some o =>
    by_cases hfill : o.measured = true ∧ grouped.state ≠ .complete
    · have ho := hpinned o rfl
      obtain ⟨sums, hsums, hstorable, _⟩ := sumRows_total hu hlimit ho.arity ho.counts
      simp only [hfill, ne_eq, not_false_eq_true, and_self, if_true, hsums, bind, Except.bind, pure, Except.pure]
      refine ⟨_, rfl, hstorable.mergePinned hkept, fun hwhole => absurd hwhole hfill.2, ?_, ?_⟩
      · rintro rfl
        rfl
      · rintro n rfl
        exact ⟨_, rfl, le_max_left _ _, le_max_right _ _⟩
    · simp only [hfill, if_false]
      exact ⟨_, rfl, hasIs⟩

/-! ## Pins -/

theorem not_unparsed_of_validated {value checked} (h : validatePinnedValue u value = .ok checked) :
    isUnparsed u (some value) = false := by
  unfold validatePinnedValue at h
  dsimp only at h
  split at h
  · cases h
  · split at h
    · cases h
    · split at h
      · rename_i hne _ hchars
        obtain ⟨c, rest, hcons⟩ := List.exists_cons_of_ne_nil hne
        rw [hcons] at hchars
        simp only [Bool.and_eq_true, List.head?_cons, Option.any_some, Bool.not_eq_true'] at hchars
        have hspace : u.isspace c = false := hchars.1.1.2
        have hdrop : value.toList.dropWhile u.isspace = value.toList := by
          rw [hcons, List.dropWhile_cons_of_neg (by simp [hspace])]
        have hstrip : u.strip value.toList ≠ [] := by
          rw [UnicodeTables.strip, hdrop]
          exact UnicodeTables.rstrip_ne_nil (hcons ▸ List.mem_cons_self) hspace
        simp [isUnparsed, hstrip]
      · cases h

theorem pinnedValueKeys_total (hu : PythonTables u) (hlimit : componentLimit propertyCount maxLength = .ok limit)
    (pinned : List (List String)) (h : ∀ entry ∈ pinned, entry.length = propertyCount ∧
      ∀ value ∈ entry, ∃ checked, validatePinnedValue u value = .ok checked) :
    ∃ pins, pinnedValueKeys u propertyCount limit pinned = .ok pins ∧ pins.isEmpty = pinned.isEmpty := by
  have hentry : ∀ entry ∈ pinned, ∃ item, pinnedValueKey u propertyCount limit entry = .ok item := by
    intro entry hentry
    obtain ⟨hlength, hvalues⟩ := h entry hentry
    unfold pinnedValueKey
    rw [if_neg (not_not.mpr hlength)]
    have hsome : (rowParts u limit (entry.map some)).isSome = true := by
      rw [rowParts_isSome, List.all_map, List.all_eq_true]
      intro value hvalue
      obtain ⟨checked, hchecked⟩ := hvalues value hvalue
      simp [not_unparsed_of_validated hchecked]
    obtain ⟨parts, hparts⟩ := Option.isSome_iff_exists.mp hsome
    obtain ⟨hlen, hsanitized⟩ := rowParts_some hu (componentLimit_ok hlimit).1 hparts
    obtain ⟨key, hkey, _⟩ := joinTupleKey_total hlimit (parts.map (fun part => part.1))
      (by rw [List.length_map, hlen, List.length_map, hlength]) (fun text htext => by
        obtain ⟨part, hpart, rfl⟩ := List.mem_map.mp htext
        exact hsanitized part hpart)
    exact ⟨(key, parts.map (fun part => part.1)), by simp [hparts, hkey, bind, Except.bind, pure, Except.pure]⟩
  obtain ⟨items, hitems⟩ := mapM_total hentry
  refine ⟨_, by rw [pinnedValueKeys, hitems]; rfl, ?_⟩
  have hlength := length_of_mapM hitems
  cases hpinned : pinned with
  | nil =>
    rw [hpinned, List.length_nil, List.length_eq_zero_iff] at hlength
    rw [hlength]
    rfl
  | cons entry rest =>
    have hne : items ≠ [] := List.ne_nil_of_length_pos (by rw [hlength, hpinned]; exact Nat.succ_pos _)
    obtain ⟨item, others, rfl⟩ := List.exists_cons_of_ne_nil hne
    rw [List.isEmpty_cons, List.isEmpty_eq_false_iff]
    intro hnil
    have hget := Dict.get?_foldl_set (fun item : String × List String => item.1) (fun item => item.2)
      (item :: others) [] item.1
    rw [hnil] at hget
    exact hget.2 item List.mem_cons_self rfl

/-! ## The denominator -/

theorem totalOf_total {totals} (h : ∀ row ∈ totals.rows, 0 ≤ row.events) :
    ∃ total, totalOf totals = .ok total ∧ ∀ n, total = some n → 0 ≤ n := by
  have hsum : 0 ≤ (totals.rows.map (fun row => row.events)).sum := by
    refine List.sum_nonneg (fun n hn => ?_)
    obtain ⟨row, hrow, rfl⟩ := List.mem_map.mp hn
    exact h row hrow
  have hcount : ∀ (counts : Dict Int Int) (status : PwSearchStatus) (rowCount : Int), 0 ≤ rowCount →
      (∀ n, counts.get? totals.bucketStart = some n → 0 ≤ n) →
      ∃ count, countFromSearch counts totals.bucketStart status rowCount 1 = .ok count ∧
        ∀ n, count.events = some n → 0 ≤ n := by
    intro counts status rowCount hrows hcounts
    simp only [countFromSearch, isTruncated, Int.not_lt.mpr hrows, if_false, bind, Except.bind, pure, Except.pure]
    rw [if_neg (by decide)]
    by_cases hstatus : status = .completed
    · simp only [hstatus, ne_eq, not_true_eq_false, if_false]
      cases hget : counts.get? totals.bucketStart with
      | none =>
        dsimp only
        split
        · exact ⟨_, rfl, fun n hn => by cases hn⟩
        · exact ⟨_, rfl, fun n hn => by cases hn; exact le_rfl⟩
      | some raw =>
        have hraw := hcounts raw hget
        simp only [coerceCount, Int.not_lt.mpr hraw, if_false]
        exact ⟨_, rfl, fun n hn => by cases hn; exact hraw⟩
    · simp only [hstatus, ne_eq, not_false_eq_true, if_true]
      exact ⟨_, rfl, fun n hn => by cases hn⟩
  obtain ⟨count, hok, hevents⟩ := hcount
    (if totals.rows = [] then [] else [(totals.bucketStart, (totals.rows.map (fun row => row.events)).sum)])
    (if totals.measured then .completed else .failed) (if totals.state = .lowerBound then 2 else 0)
    (by split <;> decide) (by
      intro n hn
      split at hn
      · cases hn
      · rw [Dict.get?_cons, if_pos rfl] at hn
        cases hn
        exact hsum)
  refine ⟨_, by rw [totalOf, hok]; rfl, fun n hn => ?_⟩
  split at hn
  · exact hevents n hn
  · cases hn

theorem trustedTotal_some {total parsed n} (h : trustedTotal total parsed = some n) :
    total = some n ∧ ∀ p, parsed = some p → p ≤ n := by
  unfold trustedTotal at h
  split at h
  · cases h
  · rename_i hagree
    refine ⟨h, ?_⟩
    rintro p rfl
    rw [h] at hagree
    simpa using hagree

/-! ## The fact -/

/-- What the watch row and the settings of the installation promise the fold. -/
structure FoldSettings.Accepted (s : FoldSettings) : Prop where
  watchVersion : 1 ≤ s.watchVersion
  maxValues : 1 ≤ s.maxValues
  valueMaxLength : 1 ≤ s.valueMaxLength ∧ s.valueMaxLength ≤ valueKeyWidth

/-- The outcomes of one bucket of a watch, as the driver can return them. A pinned search runs exactly when values
are pinned. -/
structure DriverBucket (u : UnicodeTables) (s : FoldSettings) (bucketStart : Int)
    (properties : List (String × String)) (grouped totals : PwBucketOutcome)
    (pinnedOutcome : Option PwBucketOutcome) (pinned : List (List String)) : Prop where
  arity : properties.length = s.propertyCount
  grouped_returned : DriverOutcome u .grouped properties [] s.bucketSeconds grouped
  totals_returned : ∃ named, DriverOutcome u .totals named [] s.bucketSeconds totals
  pinned_returned : ∀ o, pinnedOutcome = some o → DriverOutcome u .pinned properties pinned s.bucketSeconds o
  pins : pinned = [] ↔ pinnedOutcome = none
  grouped_at : grouped.bucketStart = bucketStart
  totals_at : totals.bucketStart = bucketStart
  pinned_at : ∀ o, pinnedOutcome = some o → o.bucketStart = bucketStart

def keptTotal (values : List PwValueFact) : Int := (values.map (fun value => value.events)).sum

structure Conserved (u : UnicodeTables) (grouped : PwBucketOutcome) (fact : PwBucketFact) : Prop where
  keys : (fact.values.map (fun value => value.valueKey)).Nodup
  whole : fact.valuesMeasurement = .exact → ∃ untracked, fact.untrackedEvents = some untracked ∧
    fact.parsedEvents = some (parsedEvents u grouped.rows) ∧
    keptTotal fact.values + untracked = parsedEvents u grouped.rows

theorem checkOutcome_ok {search n o bucketStart}
    (h : Foldable search n o) (hat : o.bucketStart = bucketStart) : checkOutcome o search bucketStart = .ok () := by
  have hrows : o.rows.any (fun row => row.bucketStart ≠ bucketStart) = false := by
    rw [List.any_eq_false]
    intro row hrow
    simp [h.bucket row hrow, hat]
  simp only [checkOutcome, h.search_eq, hat, hrows, ne_eq, not_true_eq_false, if_false, Bool.false_eq_true]

theorem checkPinned_ok {n pinnedOutcome bucketStart} (h : ∀ o, pinnedOutcome = some o → Foldable .pinned n o)
    (hat : ∀ o, pinnedOutcome = some o → o.bucketStart = bucketStart) :
    checkPinned pinnedOutcome bucketStart = .ok () := by
  cases pinnedOutcome with
  | none => rfl
  | some o => exact checkOutcome_ok (h o rfl) (hat o rfl)

theorem valuesMeasurementOf_collected {grouped} :
    valuesMeasurementOf grouped ≠ .notCollected ↔ grouped.measured = true := by
  unfold valuesMeasurementOf PwBucketOutcome.measured PwCellState.measured
  cases grouped.state <;> simp

theorem values_total {items} (h : Storable items) :
    ∃ values, (sortOn byVolume items).mapM (fun item =>
        PwValueFact.of item.1 item.2.events item.2.components item.2.truncated) = .ok values ∧
      (values.map (fun value => value.valueKey)).Nodup ∧ keptTotal values = totalEvents items := by
  have hok : ∀ item ∈ sortOn byVolume items, ∃ value,
      PwValueFact.of item.1 item.2.events item.2.components item.2.truncated = .ok value := by
    intro item hitem
    have hkey := h.keys item (mem_sortOn.mp hitem)
    have hevents := h.counts item (mem_sortOn.mp hitem)
    unfold PwValueFact.of
    rw [dif_pos ⟨hkey.ne_empty, hkey.le_width⟩, dif_pos hevents]
    exact ⟨_, rfl⟩
  obtain ⟨values, hvalues⟩ := mapM_total hok
  have hlist := values_of_mapM hvalues
  refine ⟨values, hvalues, ?_, ?_⟩
  · have hkeys := congrArg (List.map (fun pair : String × Int => pair.1)) hlist
    simp only [List.map_map, Function.comp_def] at hkeys
    rw [hkeys]
    exact (((sortOn_perm items).map _).nodup_iff).mpr h.nodup
  · have hevents := congrArg (List.map (fun pair : String × Int => pair.2)) hlist
    simp only [List.map_map, Function.comp_def] at hevents
    rw [keptTotal, hevents]
    exact totalEvents_perm (sortOn_perm items)

theorem foldBucket_total (hu : PythonTables u) {s} (hs : s.Accepted) (hwidth : 3 ≤ s.valueMaxLength)
    {bucketStart properties grouped totals pinnedOutcome pinned}
    (h : DriverBucket u s bucketStart properties grouped totals pinnedOutcome pinned) (tracked : List String) :
    ∃ fact, foldBucket u s bucketStart grouped totals pinnedOutcome pinned tracked = .ok fact ∧
      Conserved u grouped fact := by
  obtain ⟨hgrouped, outcomes, hcall⟩ := h.grouped_returned.sound
  obtain ⟨named, htotals⟩ := h.totals_returned
  have htotals := htotals.sound.1
  have hpinned : ∀ o, pinnedOutcome = some o → Foldable .pinned s.propertyCount o := by
    intro o ho
    have hfold : Foldable .pinned properties.length o := (h.pinned_returned o ho).sound.1
    rwa [h.arity] at hfold
  have hgrouped : Foldable .grouped s.propertyCount grouped := by
    have hfold : Foldable .grouped properties.length grouped := hgrouped
    rwa [h.arity] at hfold
  have hcount : s.propertyCount = 1 ∨ s.propertyCount = 2 := by
    have hsome := List.length_pos_iff.mpr (hcall.named (by decide))
    have hfew : properties.length ≤ 2 := hcall.few
    rw [h.arity] at hsome hfew
    omega
  obtain ⟨limit, hlimit⟩ : ∃ limit, componentLimit s.propertyCount s.valueMaxLength = .ok limit := by
    unfold componentLimit
    rw [if_neg (not_not.mpr hcount), if_neg (not_not.mpr ⟨hwidth, hs.valueMaxLength.2⟩)]
    exact ⟨_, rfl⟩
  obtain ⟨pins, hpins, hempty⟩ := pinnedValueKeys_total hu hlimit pinned (fun entry hentry => by
    cases hpin : pinnedOutcome with
    | none =>
      rw [h.pins.mpr hpin] at hentry
      cases hentry
    | some o =>
      obtain ⟨_, _, hpinCall⟩ := (h.pinned_returned o hpin).sound
      rw [← h.arity]
      exact hpinCall.pinned entry hentry)
  have hgiven : pins.isEmpty ≠ pinnedOutcome.isSome := by
    rw [hempty]
    cases hpin : pinnedOutcome with
    | none =>
      rw [h.pins.mpr hpin]
      decide
    | some o =>
      have hne : pinned ≠ [] := fun hnil => by simpa [hpin] using h.pins.mp hnil
      simp [hne]
  obtain ⟨sums, hsums, hstorable, htotal⟩ := sumRows_total hu hlimit hgrouped.arity hgrouped.counts
  obtain ⟨hkept, htail, hsplit⟩ := keptOfGrouped_total hstorable (tracked ++ pins.keys) s.maxValues.toNat
  generalize hkeptEq : keptOfGrouped sums (tracked ++ pins.keys) s.maxValues.toNat = kept at hkept htail hsplit
  have hmeasured : Storable (if grouped.measured then kept.1 else []) := by
    split
    · exact hkept
    · exact Storable.nil
  obtain ⟨filled, hfilled, hfill⟩ := withPinned_total hu hlimit grouped pins.keys hpinned hmeasured
    (if grouped.measured then some (parsedEvents u grouped.rows) else none) (by
      intro n hn
      by_cases hm : grouped.measured = true
      · simp only [hm, if_true, Option.some.injEq] at hn ⊢
        omega
      · simp [hm] at hn)
  obtain ⟨total, htotalOf, htotalNonneg⟩ := totalOf_total htotals.counts
  obtain ⟨values, hvalues, hnodup, hvaluesTotal⟩ := values_total hfill.storable
  -- A whole grouped search is the one authority: what it kept and what it cut are its parsed events.
  have hwhole : grouped.state = .complete → filled = (kept.1, some (parsedEvents u grouped.rows)) := by
    intro hstate
    have hm : grouped.measured = true := by rw [PwBucketOutcome.measured, hstate]; rfl
    simpa [hm] using hfill.whole hstate
  have hexact : valuesMeasurementOf grouped = .exact → grouped.state = .complete := by
    unfold valuesMeasurementOf
    cases grouped.state <;> simp
  have hparsedNone : grouped.measured ≠ true → filled.2 = none := by
    intro hm
    exact hfill.unmeasured (by simp [hm])
  have hparsedSome : grouped.measured = true → ∃ m, filled.2 = some m ∧ totalEvents filled.1 ≤ m := by
    intro hm
    obtain ⟨m, hfm, _, hle⟩ := hfill.measured (parsedEvents u grouped.rows) (by simp [hm])
    exact ⟨m, hfm, hle⟩
  have hfact : ValidBucket {
      bucketStart := bucketStart
      bucketSeconds := s.bucketSeconds
      watchVersion := s.watchVersion
      totalsComplete := (trustedTotal total filled.2).isSome
      valuesMeasurement := valuesMeasurementOf grouped
      pinnedMeasurement := pinnedMeasurementOf pinnedOutcome
      totalEvents := trustedTotal total filled.2
      parsedEvents := filled.2
      untrackedEvents := if grouped.state = .complete then some kept.2 else none
      values := values
      observedValues := sums.length
      trackedValuesObserved := 0
      admittedValues := 0
      belowAdmissionThreshold := 0
      rejectedOverQuota := 0
      admissionTruncated := false } := by
    refine ⟨hcall.width, hs.watchVersion, ?_, ?_, ?_, ?_, ?_, ?_⟩
    · intro n hn
      exact ⟨Option.isSome_iff_exists.mpr ⟨n, hn⟩, htotalNonneg n (trustedTotal_some hn).1⟩
    · intro n hn
      have hm : grouped.measured = true := by
        by_contra hm
        rw [hparsedNone hm] at hn
        cases hn
      obtain ⟨m, hfm, hle⟩ := hparsedSome hm
      rw [hfm, Option.some.injEq] at hn
      have := totalEvents_nonneg hfill.storable.counts
      exact ⟨by omega, valuesMeasurementOf_collected.mpr hm⟩
    · intro n hn
      split at hn
      · rename_i hstate
        cases hn
        exact ⟨htail, by simp [valuesMeasurementOf, hstate]⟩
      · cases hn
    · intro t p ht hp
      exact (trustedTotal_some ht).2 p hp
    · intro hcollected hnone
      obtain ⟨m, hfm, _⟩ := hparsedSome (valuesMeasurementOf_collected.mp hcollected)
      rw [hfm] at hnone
      cases hnone
    · intro p hp
      have hvaluesTotal : (values.map (fun value => value.events)).sum = totalEvents filled.1 := hvaluesTotal
      rw [hvaluesTotal]
      by_cases hstate : grouped.state = .complete
      · have hf := hwhole hstate
        simp only [hf, Option.some.injEq] at hp
        simp only [hf, hstate, if_true, Option.getD_some]
        omega
      · simp only [hstate, if_false, Option.getD_none]
        have hm : grouped.measured = true := by
          by_contra hm
          rw [hparsedNone hm] at hp
          cases hp
        obtain ⟨m, hfm, hle⟩ := hparsedSome hm
        rw [hfm, Option.some.injEq] at hp
        omega
  obtain ⟨fact, hof, hdata⟩ := PwBucketFact.of_valid hfact
  refine ⟨fact, ?_, ?_, ?_⟩
  · unfold foldBucket
    simp only [require, hs.maxValues, hgiven, hlimit, checkOutcome_ok hgrouped h.grouped_at,
      checkOutcome_ok htotals h.totals_at, hpins, checkPinned_ok hpinned h.pinned_at, hsums, hkeptEq, hfilled,
      htotalOf, hvalues, if_true, ne_eq, not_false_eq_true, bind, Except.bind]
    exact hof
  · rw [hdata]
    exact hnodup
  · rw [hdata]
    intro hmeasure
    have hstate := hexact hmeasure
    have hf := hwhole hstate
    refine ⟨kept.2, by simp [hstate], by simp [hf], ?_⟩
    simp only [hvaluesTotal, hf]
    omega

end QRadarDashboard.PropertyWatch
