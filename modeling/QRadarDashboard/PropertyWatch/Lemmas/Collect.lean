import QRadarDashboard.Collectors.PwCollector
import QRadarDashboard.PropertyWatch.Lemmas.Fold

/-!
# From the chunks of a scope to the staged buckets
-/

namespace QRadarDashboard.PropertyWatch
open Lib Collectors

/-!
## What admission keeps

Admission writes every kept value that is active, never takes a pin or an active mark away, and pins nothing.
-/

variable {key : String} {values : TrackedValues}

def KeepsPins (values after : TrackedValues) : Prop :=
  ∀ key v', after.get? key = some v' → v'.pinned = true →
    ∃ v, values.get? key = some v ∧ v.pinned = true ∧ (v.active = true → v'.active = true)

theorem KeepsPins.refl (values : TrackedValues) : KeepsPins values values :=
  fun _ v' hget hpinned => ⟨v', hget, hpinned, fun h => h⟩

theorem KeepsPins.trans {a b c} (h₁ : KeepsPins a b) (h₂ : KeepsPins b c) : KeepsPins a c := by
  intro key v' hget hpinned
  obtain ⟨v, hv, hvp, hva⟩ := h₂ key v' hget hpinned
  obtain ⟨w, hw, hwp, hwa⟩ := h₁ key v hv hvp
  exact ⟨w, hw, hwp, fun h => hva (hwa h)⟩

theorem keepsPins_set {k v} (h : v.pinned = true → ∃ old, values.get? k = some old ∧ old.pinned = true ∧
      (old.active = true → v.active = true)) : KeepsPins values (values.set k v) := by
  intro key v' hget hpinned
  rw [Dict.get?_set] at hget
  by_cases hk : key = k
  · subst hk
    simp only [if_true, Option.some.injEq] at hget
    subst hget
    exact h hpinned
  · simp only [hk, if_false] at hget
    exact ⟨v', hget, hpinned, fun h => h⟩

theorem keepsPins_foldl {β : Type} {f : TrackedValues → β → TrackedValues}
    (h : ∀ values b, KeepsPins values (f values b)) (l : List β) (values : TrackedValues) :
    KeepsPins values (l.foldl f values) := by
  induction l generalizing values with
  | nil => exact KeepsPins.refl values
  | cons b l ih => exact (h values b).trans (ih (f values b))

theorem seenValue_flags (time : Int) (item : PwValueFact) (v : TrackedValue) :
    (seenValue time item v).pinned = v.pinned ∧ (seenValue time item v).active = v.active := by
  simp only [seenValue]
  split_ifs <;> exact ⟨rfl, rfl⟩

theorem keepsPins_noteSeen (time : Int) (values : TrackedValues) (item : PwValueFact) :
    KeepsPins values (noteSeen time values item) := by
  unfold noteSeen
  cases hget : values.get? item.valueKey with
  | none => exact KeepsPins.refl values
  | some v =>
    obtain ⟨hp, ha⟩ := seenValue_flags time item v
    exact keepsPins_set (fun hpinned => ⟨v, hget, hp ▸ hpinned, fun h => ha ▸ h⟩)

theorem keepsPins_noteAdmitted (propertyCount : Nat) (time : Int) (values : TrackedValues) (item : PwValueFact) :
    KeepsPins values (noteAdmitted propertyCount time values item) := by
  unfold noteAdmitted
  cases hget : values.get? item.valueKey with
  | none => exact keepsPins_set (fun hpinned => by simp [admittedValue, newValue] at hpinned)
  | some v => exact keepsPins_set (fun hpinned => ⟨v, hget, hpinned, fun _ => rfl⟩)

theorem metrics_of_tracked {items extra : List PwValueFact} {tracked : PwValueFact → Bool}
    (hextra : ∀ item ∈ extra, item ∈ items) (htracked : ∀ item, item.valueKey = key → tracked item = true) :
    (∀ n, Dict.get? ((items.filter tracked ++ extra).foldl
        (fun metrics item => metrics.set item.valueKey item.events) []) key = some n →
      ∃ item ∈ items, item.valueKey = key ∧ item.events = n) ∧
    (Dict.get? ((items.filter tracked ++ extra).foldl
        (fun metrics item => metrics.set item.valueKey item.events) []) key = none →
      ∀ item ∈ items, item.valueKey ≠ key) := by
  have hfold := Dict.get?_foldl_set (fun item : PwValueFact => item.valueKey) (fun item => item.events)
    (items.filter tracked ++ extra) ([] : Dict String Int) key
  constructor
  · intro n hn
    rw [hn] at hfold
    rcases hfold with ⟨item, hitem, hk, he⟩ | hfold
    · rcases List.mem_append.mp hitem with hitem | hitem
      · exact ⟨item, (List.mem_filter.mp hitem).1, hk, he⟩
      · exact ⟨item, hextra item hitem, hk, he⟩
    · cases hfold
  · intro hn item hitem hk
    rw [hn] at hfold
    exact hfold.2 item (List.mem_append_left _ (List.mem_filter.mpr ⟨hitem, htracked item hk⟩)) hk

structure Admitted (fact : PwBucketFact) (values : TrackedValues) (admitted : AdmittedBucket)
    (after : TrackedValues) : Prop where
  valuesMeasurement : admitted.fact.valuesMeasurement = fact.valuesMeasurement
  pinnedMeasurement : admitted.fact.pinnedMeasurement = fact.pinnedMeasurement
  keepsPins : KeepsPins values after
  /-- The metric row of an active value is what the fold kept of it. -/
  metrics : fact.valuesMeasurement ≠ .notCollected → ∀ key v, values.get? key = some v → v.active = true →
    (∀ n, admitted.metrics.get? key = some n → ∃ item ∈ fact.values, item.valueKey = key ∧ item.events = n) ∧
      (admitted.metrics.get? key = none → ∀ item ∈ fact.values, item.valueKey ≠ key)
  /-- A metric row is of a value of the fact, active or admitted. -/
  counted : ∀ key n, admitted.metrics.get? key = some n → ∃ item ∈ fact.values, item.valueKey = key ∧ item.events = n
  /-- A value without a metric row stays as it is. -/
  untouched : ∀ key, admitted.metrics.get? key = none → after.get? key = values.get? key

theorem get?_foldl_touching {f : TrackedValues → PwValueFact → TrackedValues}
    (h : ∀ values item, item.valueKey ≠ key → (f values item).get? key = values.get? key) {items : List PwValueFact}
    (hitems : ∀ item ∈ items, item.valueKey ≠ key) (values : TrackedValues) :
    (items.foldl f values).get? key = values.get? key := by
  induction items generalizing values with
  | nil => rfl
  | cons item items ih =>
    obtain ⟨hitem, hitems⟩ := List.forall_mem_cons.mp hitems
    rw [List.foldl_cons, ih hitems, h values item hitem]

theorem noteSeen_get? (time : Int) (values : TrackedValues) (item : PwValueFact) (hkey : item.valueKey ≠ key) :
    (noteSeen time values item).get? key = values.get? key := by
  unfold noteSeen
  split
  · rfl
  · rw [Dict.get?_set, if_neg hkey.symm]

theorem noteAdmitted_get? (propertyCount : Nat) (time : Int) (values : TrackedValues) (item : PwValueFact)
    (hkey : item.valueKey ≠ key) : (noteAdmitted propertyCount time values item).get? key = values.get? key := by
  rw [noteAdmitted, Dict.get?_set, if_neg hkey.symm]

theorem admitBucket_admitted {fact policy propertyCount admitted after}
    (h : admitBucket fact values policy propertyCount = .ok (admitted, after)) :
    Admitted fact values admitted after := by
  unfold admitBucket at h
  split at h
  · rename_i hnone
    cases h
    exact ⟨rfl, rfl, KeepsPins.refl _, fun hne => absurd hnone hne, fun key n hn => (by cases hn), fun _ _ => rfl⟩
  · obtain ⟨final, hfinal, h⟩ := bind_ok h
    cases h
    have hdata := PwBucketFact.of_ok hfinal
    generalize hadmitted : ((fact.values.filter (fun item => !isTracked values item)).filter
      (fun item => policy.minEvents ≤ item.events)).take _ = extra
    have hextra : ∀ item ∈ extra, item ∈ fact.values := by
      intro item hitem
      rw [← hadmitted] at hitem
      exact (List.mem_filter.mp (List.mem_filter.mp (List.mem_of_mem_take hitem)).1).1
    refine ⟨by rw [hdata], by rw [hdata], ?_, ?_, ?_, ?_⟩
    · exact (keepsPins_foldl (keepsPins_noteSeen _) _ _).trans
        (keepsPins_foldl (keepsPins_noteAdmitted _ _) _ _)
    · intro _ key v hv hactive
      have htracked : ∀ item : PwValueFact, item.valueKey = key → isTracked values item = true := by
        intro item hk
        simp [isTracked, hk, hv, hactive]
      exact metrics_of_tracked hextra htracked
    · intro key n hn
      have hfold := Dict.get?_foldl_set (fun item : PwValueFact => item.valueKey) (fun item => item.events)
        (fact.values.filter (isTracked values) ++ extra) ([] : Dict String Int) key
      rw [show Dict.get? _ key = some n from hn] at hfold
      rcases hfold with ⟨item, hitem, hk, he⟩ | hfold
      · rcases List.mem_append.mp hitem with hitem | hitem
        · exact ⟨item, (List.mem_filter.mp hitem).1, hk, he⟩
        · exact ⟨item, hextra item hitem, hk, he⟩
      · cases hfold
    · intro key hn
      have hfold := Dict.get?_foldl_set (fun item : PwValueFact => item.valueKey) (fun item => item.events)
        (fact.values.filter (isTracked values) ++ extra) ([] : Dict String Int) key
      rw [show Dict.get? _ key = none from hn] at hfold
      rw [get?_foldl_touching (noteAdmitted_get? _ _) (fun item hitem => hfold.2 item (List.mem_append_right _ hitem)),
        get?_foldl_touching (noteSeen_get? _) (fun item hitem => hfold.2 item (List.mem_append_left _ hitem))]

/-! ## Chunks -/

def Whole (chunks : List (List PwBucketOutcome)) (index : Nat) : Prop :=
  ∀ chunk ∈ chunks, ∃ outcome, chunk[index]? = some outcome ∧ outcome.state = .complete

def chunkRows (chunks : List (List PwBucketOutcome)) (index : Nat) : List PwKeyedRow :=
  (chunks.filterMap (fun chunk => chunk[index]?)).flatMap (fun outcome => outcome.rows)

theorem combinedState_eq_complete {states} :
    combinedState states = .complete ↔ ∀ state ∈ states, state = .complete := by
  unfold combinedState
  constructor
  · intro h state hstate
    split at h
    · cases h
    · split at h
      · cases h
      · split at h
        · cases h
        · cases state with
          | complete => rfl
          | lowerBound => contradiction
          | failed => contradiction
          | notCollected => contradiction
  · intro h
    have hnot : ∀ state, state ≠ .complete → state ∉ states := fun state hne hmem => hne (h state hmem)
    simp [hnot]

theorem combineChunks_getElem? {chunks combined}
    (h : combineChunks chunks = .ok combined) {index : Nat} {cell} (hcell : combined[index]? = some cell) :
    (∀ chunk ∈ chunks, ∃ outcome, chunk[index]? = some outcome) ∧
      ∃ lead, cell = combineCells lead (chunks.filterMap (fun chunk => chunk[index]?)) := by
  unfold combineChunks at h
  cases chunks with
  | nil => cases h
  | cons first rest =>
    simp only at h
    split at h
    · cases h
    · rename_i hsame
      cases h
      rw [List.getElem?_mapIdx, Option.map_eq_some_iff] at hcell
      obtain ⟨lead, hlead, rfl⟩ := hcell
      refine ⟨?_, lead, rfl⟩
      have hlen : index < first.length := (List.getElem?_eq_some_iff.mp hlead).1
      intro chunk hchunk
      have hchunkLen : chunk.length = first.length := by
        rcases List.mem_cons.mp hchunk with rfl | hchunk
        · rfl
        · by_contra hne
          apply hsame
          rw [List.any_eq_true]
          refine ⟨chunk, hchunk, decide_eq_true (fun heq => hne ?_)⟩
          have := congrArg List.length heq
          simpa using this
      exact ⟨_, List.getElem?_eq_getElem (by omega)⟩

theorem whole_iff_of_combine {chunks combined}
    (h : combineChunks chunks = .ok combined) {index : Nat} {cell}
    (hcell : combined[index]? = some cell) : cell.state = .complete ↔ Whole chunks index := by
  obtain ⟨hall, lead, rfl⟩ := combineChunks_getElem? h hcell
  have hstate : (combineCells lead (chunks.filterMap (fun chunk => chunk[index]?))).state =
      combinedState ((chunks.filterMap (fun chunk => chunk[index]?)).map (fun cell => cell.state)) := rfl
  rw [hstate, combinedState_eq_complete]
  constructor
  · intro hcomplete chunk hchunk
    obtain ⟨outcome, houtcome⟩ := hall chunk hchunk
    exact ⟨outcome, houtcome, hcomplete _ (List.mem_map.mpr
      ⟨outcome, List.mem_filterMap.mpr ⟨chunk, hchunk, houtcome⟩, rfl⟩)⟩
  · intro hwhole state hmem
    obtain ⟨outcome, houtcome, rfl⟩ := List.mem_map.mp hmem
    obtain ⟨chunk, hchunk, hget⟩ := List.mem_filterMap.mp houtcome
    obtain ⟨outcome', hget', hcomplete⟩ := hwhole chunk hchunk
    rw [hget, Option.some.injEq] at hget'
    rw [hget']
    exact hcomplete

theorem rows_of_combine {chunks combined}
    (h : combineChunks chunks = .ok combined) {index : Nat} {cell}
    (hcell : combined[index]? = some cell) (hmeasured : cell.measured = true) : cell.rows = chunkRows chunks index := by
  obtain ⟨_, lead, rfl⟩ := combineChunks_getElem? h hcell
  have hmeasured : (combinedState ((chunks.filterMap (fun chunk => chunk[index]?)).map
      (fun cell => cell.state))).measured = true := hmeasured
  simp only [combineCells, hmeasured, if_true]
  rfl

/-! ## The collected prefix -/

def pinnedOutcomeAt (pinned : Option (List PwBucketOutcome)) (index : Nat) : Option PwBucketOutcome :=
  pinned.bind (fun outcomes => outcomes[index]?)

theorem completed_of_prefix {grouped totals pinned count} (h : collectedPrefix grouped totals pinned = .ok count)
    {index} (hindex : index < count) :
    ∃ group total, grouped[index]? = some group ∧ totals[index]? = some total ∧
      completed group total (pinnedOutcomeAt pinned index) = true := by
  induction grouped generalizing totals pinned count index with
  | nil =>
    cases h
    omega
  | cons group grouped ih =>
    rw [collectedPrefix] at h
    obtain ⟨⟨total, rest⟩, htotal, h⟩ := bind_ok h
    obtain ⟨⟨pin, pins⟩, hpin, h⟩ := bind_ok h
    have htotals : totals = total :: rest := by
      cases totals with
      | nil => cases htotal
      | cons t ts =>
        cases htotal
        rfl
    have hpinned : pin = pinnedOutcomeAt pinned 0 ∧
        ∀ i, pinnedOutcomeAt pins i = pinnedOutcomeAt pinned (i + 1) := by
      cases pinned with
      | none =>
        cases hpin
        exact ⟨rfl, fun _ => rfl⟩
      | some outcomes =>
        cases outcomes with
        | nil => cases hpin
        | cons o os =>
          cases hpin
          exact ⟨rfl, fun _ => rfl⟩
    split at h
    · rename_i hdone
      obtain ⟨rest', hrest, h⟩ := bind_ok h
      cases h
      cases index with
      | zero => exact ⟨group, total, rfl, by rw [htotals]; rfl, hpinned.1 ▸ hdone⟩
      | succ index =>
        have hlt : index < rest' := by omega
        obtain ⟨g, t, hg, ht, hdone'⟩ := ih hrest hlt
        refine ⟨g, t, hg, by rw [htotals]; exact ht, ?_⟩
        rw [← hpinned.2 index]
        exact hdone'
    · cases h
      omega

/-! ## Pins along the loop -/

def PinsActive (pins : List String) (values : TrackedValues) : Prop :=
  ∀ key v, values.get? key = some v → v.pinned = true → key ∈ pins ∧ v.active = true

theorem PinsActive.keeps {pins values after} (h : PinsActive pins values)
    (hkeeps : KeepsPins values after) : PinsActive pins after := by
  intro key v' hget hpinned
  obtain ⟨v, hv, hvp, hactive⟩ := hkeeps key v' hget hpinned
  obtain ⟨hpin, hva⟩ := h key v hv hvp
  exact ⟨hpin, hactive hva⟩

def PinnedActive (values : TrackedValues) (key : String) : Prop :=
  ∃ v, values.get? key = some v ∧ v.pinned = true ∧ v.active = true

theorem pinValue_flags (v : TrackedValue) (time : Int) :
    (pinValue v time).pinned = true ∧ (pinValue v time).active = true := by
  unfold pinValue
  by_cases hp : v.pinned <;> by_cases ha : v.active <;> simp [hp, ha, startTracking]

theorem pinnedActive_syncPin (time : Int) (values : TrackedValues) (pin : String × List String) :
    PinnedActive (syncPin time values pin) pin.1 := by
  unfold syncPin PinnedActive
  cases values.get? pin.1 with
  | none => exact ⟨newValue pin.1 pin.2 true time false, by simp [Dict.get?_set], rfl, rfl⟩
  | some v => exact ⟨pinValue v time, by simp [Dict.get?_set], pinValue_flags v time⟩

theorem PinnedActive.syncPin {values key} (h : PinnedActive values key) (time : Int)
    (pin : String × List String) : PinnedActive (syncPin time values pin) key := by
  by_cases hk : key = pin.1
  · rw [hk]
    exact pinnedActive_syncPin time values pin
  · obtain ⟨v, hv, hflags⟩ := h
    refine ⟨v, ?_, hflags⟩
    unfold PropertyWatch.syncPin
    cases values.get? pin.1 <;> simp [Dict.get?_set, hk, hv]

theorem pinnedActive_foldl (time : Int) (pins : Dict String (List String)) (values : TrackedValues) {key}
    (h : key ∈ pins.keys ∨ PinnedActive values key) : PinnedActive (pins.foldl (syncPin time) values) key := by
  induction pins generalizing values with
  | nil =>
    rcases h with h | h
    · cases h
    · exact h
  | cons pin pins ih =>
    apply ih
    rcases h with h | h
    · rcases List.mem_cons.mp h with rfl | h
      · exact Or.inr (pinnedActive_syncPin time values pin)
      · exact Or.inl h
    · exact Or.inr (h.syncPin time pin)

theorem pinsActive_syncPins (values : TrackedValues) (pins : Dict String (List String)) (time : Int) :
    PinsActive pins.keys (syncPins values pins time) := by
  intro key v hget hpinned
  rw [syncPins, Dict.get?_mapValues, Option.map_eq_some_iff] at hget
  obtain ⟨w, hw, rfl⟩ := hget
  by_cases hpin : key ∈ pins.keys
  · obtain ⟨w', hw', hwp, hwa⟩ := pinnedActive_foldl time pins values (Or.inl hpin)
    rw [hw, Option.some.injEq] at hw'
    subst hw'
    refine ⟨hpin, ?_⟩
    simp [unpin, hpin, hwa]
  · by_cases hwp : w.pinned <;> simp [unpin, hpin, hwp] at hpinned

theorem keepsPins_retireStale (values : TrackedValues) (reference : Int) (policy : PwAdmissionPolicy) :
    KeepsPins values (retireStale values reference policy).1 := by
  intro key v' hget hpinned
  rw [retireStale, Dict.get?_mapValues values (fun _ v => retireValue reference policy v),
    Option.map_eq_some_iff] at hget
  obtain ⟨v, hv, rfl⟩ := hget
  by_cases hstale : isStale reference policy v
  · have hp : v.pinned = true := by simpa [retireValue, hstale] using hpinned
    simp [isStale, hp] at hstale
  · simp only [retireValue, hstale, Bool.false_eq_true, if_false] at hpinned ⊢
    exact ⟨v, hv, hpinned, fun h => h⟩

/-! ## The loop -/

structure Staged (u : UnicodeTables) (s : StageSettings) (grouped totals : List PwBucketOutcome)
    (pinnedOut : Option (List PwBucketOutcome)) (index : Nat) (group total : PwBucketOutcome)
    (fact : PwBucketFact) (values : TrackedValues) (st : StagedBucket) : Prop where
  group_eq : grouped[index]? = some group
  total_eq : totals[index]? = some total
  folded : foldBucket u s.fold group.bucketStart group total (pinnedOutcomeAt pinnedOut index) s.pinned
    (activeKeys values) = .ok fact
  before_eq : st.before = values
  admitted : ∃ after, Admitted fact values st.admitted after
  keepsPins : KeepsPins values st.after

theorem outcomeAt_ok {outcomes index outcome}
    (h : outcomeAt outcomes index = .ok outcome) : outcomes[index]? = some outcome := by
  unfold outcomeAt at h
  cases hget : outcomes[index]? with
  | none => simp [hget] at h
  | some o =>
    simp only [hget, Except.ok.injEq] at h
    rw [h]

theorem pinnedAt_ok {pinnedOut index pin}
    (h : pinnedAt pinnedOut index = .ok pin) : pin = pinnedOutcomeAt pinnedOut index := by
  unfold pinnedAt at h
  cases pinnedOut with
  | none =>
    cases h
    rfl
  | some outcomes =>
    cases hget : outcomeAt outcomes index with
    | error e => simp [hget, Except.map] at h
    | ok o =>
      simp only [hget, Except.map, Except.ok.injEq] at h
      rw [← h, pinnedOutcomeAt, Option.bind_some, outcomeAt_ok hget]

theorem stageBucket_staged {u s grouped totals pinnedOut values index st}
    (h : stageBucket u s grouped totals pinnedOut values index = .ok st) :
    ∃ group total fact, Staged u s grouped totals pinnedOut index group total fact values st := by
  obtain ⟨group, hgroup, h⟩ := bind_ok h
  obtain ⟨total, htotal, h⟩ := bind_ok h
  obtain ⟨pin, hpin, h⟩ := bind_ok h
  obtain ⟨fact, hfact, h⟩ := bind_ok h
  obtain ⟨⟨admitted, after⟩, hadmit, h⟩ := bind_ok h
  cases h
  have hadmitted := admitBucket_admitted hadmit
  refine ⟨group, total, fact, outcomeAt_ok hgroup, outcomeAt_ok htotal, pinnedAt_ok hpin ▸ hfact, rfl,
    ⟨after, hadmitted⟩, ?_⟩
  cases s.reading with
  | false => exact hadmitted.keepsPins
  | true => exact hadmitted.keepsPins.trans (keepsPins_retireStale _ _ _)

theorem staged_of_stageBuckets {u s grouped totals pinnedOut pins values first count staged}
    (h : stageBuckets u s grouped totals pinnedOut values first count = .ok staged) (hpins : PinsActive pins values)
    {i st} (hst : staged[i]? = some st) :
    i < count ∧ PinsActive pins st.before ∧
      ∃ group total fact, Staged u s grouped totals pinnedOut (first + i) group total fact st.before st := by
  induction count generalizing values first staged i with
  | zero =>
    cases h
    simp at hst
  | succ count ih =>
    rw [stageBuckets] at h
    obtain ⟨st₀, hst₀, h⟩ := bind_ok h
    obtain ⟨rest, hrest, h⟩ := bind_ok h
    cases h
    obtain ⟨group, total, fact, hstaged⟩ := stageBucket_staged hst₀
    cases i with
    | zero =>
      cases hst
      have hbefore := hstaged.before_eq
      subst hbefore
      exact ⟨Nat.succ_pos count, hpins, group, total, fact, hstaged⟩
    | succ i =>
      have hafter : PinsActive pins st₀.after := hpins.keeps hstaged.keepsPins
      obtain ⟨hlt, hactive, group, total, fact, hrest⟩ := ih hrest hafter (i := i) hst
      rw [Nat.add_assoc, Nat.add_comm 1 i] at hrest
      exact ⟨by omega, hactive, group, total, fact, hrest⟩

theorem mem_activeKeys {values key v}
    (h : values.get? key = some v) (hactive : v.active = true) : key ∈ activeKeys values :=
  List.mem_map.mpr ⟨(key, v), List.mem_filter.mpr ⟨Dict.mem_of_get? h, hactive⟩, rfl⟩

/-! ## Readings -/

theorem readingFor_ok {bucket pinned tracked metric reading}
    (h : readingFor (some bucket) pinned tracked metric = .ok reading) :
    (reading.kind = .measuredZero → metric = none ∧ valueMeasurement bucket pinned = some .exact) ∧
      (reading.kind = .count → metric = reading.events ∧ valueMeasurement bucket pinned = reading.measurement) := by
  unfold readingFor at h
  split at h
  · cases h
  · cases metric with
    | some n =>
      cases hm : valueMeasurement bucket pinned with
      | none =>
        simp only [hm, Except.ok.injEq] at h
        subst h
        exact ⟨nofun, nofun⟩
      | some m =>
        simp only [hm, Except.ok.injEq] at h
        subst h
        exact ⟨nofun, fun _ => ⟨rfl, rfl⟩⟩
    | none =>
      simp only at h
      split at h
      · cases h
        exact ⟨nofun, nofun⟩
      · split at h
        · cases h
          exact ⟨nofun, nofun⟩
        · split at h
          · rename_i hexact
            cases h
            exact ⟨fun _ => ⟨rfl, hexact⟩, nofun⟩
          · cases h
            exact ⟨nofun, nofun⟩

theorem valueMeasurement_exact {bucket pinned} (h : valueMeasurement bucket pinned = some .exact) :
    (pinned = true ∧ bucket.pinnedMeasurement = .exact) ∨ bucket.valuesMeasurement = .exact := by
  unfold valueMeasurement at h
  split at h
  · rename_i hpinned
    exact Or.inl hpinned
  · cases hm : bucket.valuesMeasurement with
    | exact => exact Or.inr rfl
    | lowerBound => simp [hm, wafOfBucket] at h
    | notCollected => simp [hm, wafOfBucket] at h

/-! ## A staged value -/

structure ExactFrom (u : UnicodeTables) (limit : Nat) (groupedChunks : List (List PwBucketOutcome))
    (pinnedChunks : Option (List (List PwBucketOutcome))) (index : Nat) (key : String) (pinned : Bool)
    (metric : Option Int) : Prop where
  cases : (Whole groupedChunks index ∧ metric = keyEvents? u limit key (chunkRows groupedChunks index)) ∨
    (¬ Whole groupedChunks index ∧ pinned = true ∧ ∃ chunks, pinnedChunks = some chunks ∧ Whole chunks index ∧
      metric = mergeEvents (keyEvents? u limit key (chunkRows groupedChunks index))
        (keyEvents? u limit key (chunkRows chunks index)))
  nonneg : ∀ n, metric = some n → 0 ≤ n

theorem metric_eq_keptEvents {u s grouped totals pinnedOut index limit group total fact pins st key v}
    (hst : Staged u s grouped totals pinnedOut index group total fact st.before st)
    (hlimit : componentLimit s.fold.propertyCount s.fold.valueMaxLength = .ok limit)
    (hpins : pinnedValueKeys u s.fold.propertyCount limit s.pinned = .ok pins)
    (hmeasured : group.measured = true) (hv : st.before.get? key = some v) (hactive : v.active = true) :
    st.admitted.metrics.get? key = keptEvents u limit group (pinnedOutcomeAt pinnedOut index) pins.keys key ∧
      ∀ n, st.admitted.metrics.get? key = some n → 0 ≤ n := by
  obtain ⟨limit', pins', hlimit', hpins', hfolded⟩ := foldBucket_folded hst.folded
  cases hlimit.symm.trans hlimit'
  cases hpins.symm.trans hpins'
  obtain ⟨after, hadmitted⟩ := hst.admitted
  have hkept := hfolded.values hmeasured key (Or.inl (mem_activeKeys hv hactive))
  have hcollected : fact.valuesMeasurement ≠ .notCollected := by
    rw [hfolded.valuesMeasurement]
    unfold PwBucketOutcome.measured at hmeasured
    cases hstate : group.state <;> simp [hstate, PwCellState.measured, valuesMeasurementOf] at hmeasured ⊢
  obtain ⟨hsome, hnone⟩ := hadmitted.metrics hcollected key v hv hactive
  cases hm : st.admitted.metrics.get? key with
  | none =>
    refine ⟨?_, fun n hn => by cases hn⟩
    cases hk : keptEvents u limit group (pinnedOutcomeAt pinnedOut index) pins.keys key with
    | none => rfl
    | some n =>
      obtain ⟨item, hitem, hkey, _⟩ := (hkept n).mpr hk
      exact absurd hkey (hnone hm item hitem)
  | some n =>
    obtain ⟨item, hitem, hkey, hn⟩ := hsome n hm
    refine ⟨((hkept n).mp ⟨item, hitem, hkey, hn⟩).symm, fun n' hn' => ?_⟩
    cases hn'
    rw [← hn]
    exact item.events_ok

theorem valuesMeasurementOf_exact {group} (h : valuesMeasurementOf group = .exact) : group.state = .complete := by
  unfold valuesMeasurementOf at h
  cases hstate : group.state <;> simp [hstate] at h ⊢

theorem pinnedMeasurementOf_exact {pin} (h : pinnedMeasurementOf pin = .exact) :
    ∃ outcome, pin = some outcome ∧ outcome.state = .complete := by
  unfold pinnedMeasurementOf at h
  cases pin with
  | none => cases h
  | some outcome =>
    refine ⟨outcome, rfl, ?_⟩
    cases hstate : outcome.state <;> simp [hstate] at h ⊢

theorem combinePinned_ok {pinnedChunks pinnedOut} (h : combinePinned pinnedChunks = .ok pinnedOut) {index outcome}
    (houtcome : pinnedOutcomeAt pinnedOut index = some outcome) :
    ∃ chunks combined, pinnedChunks = some chunks ∧ combineChunks chunks = .ok combined ∧
      combined[index]? = some outcome := by
  unfold combinePinned at h
  cases pinnedChunks with
  | none =>
    cases h
    cases houtcome
  | some chunks =>
    cases hc : combineChunks chunks with
    | error e => simp [hc, Except.map] at h
    | ok combined =>
      simp only [hc, Except.map, Except.ok.injEq] at h
      subst h
      exact ⟨chunks, combined, rfl, hc, houtcome⟩

theorem exactFrom_of_collect {u s groupedChunks totalsChunks pinnedChunks values staged}
    (h : collectWatch u s groupedChunks totalsChunks pinnedChunks values = .ok staged) {limit}
    (hlimit : componentLimit s.fold.propertyCount s.fold.valueMaxLength = .ok limit) {i st} (hst : staged[i]? = some st)
    {key v} (hv : st.before.get? key = some v) (hactive : v.active = true ∨ v.pinned = true)
    (hexact : valueMeasurement st.admitted.fact.toPwBucketData v.pinned = some .exact) :
    ExactFrom u limit groupedChunks pinnedChunks i key v.pinned (st.admitted.metrics.get? key) := by
  obtain ⟨grouped, hgrouped, h⟩ := bind_ok h
  obtain ⟨totals, htotals, h⟩ := bind_ok h
  obtain ⟨pinnedOut, hpinnedOut, h⟩ := bind_ok h
  obtain ⟨count, hcount, h⟩ := bind_ok h
  unfold foldAndStage at h
  split at h
  · cases h
    simp at hst
  · obtain ⟨limit', hlimit', h⟩ := bind_ok h
    cases hlimit.symm.trans hlimit'
    obtain ⟨pins, hpins, h⟩ := bind_ok h
    obtain ⟨first, _, h⟩ := bind_ok h
    obtain ⟨hi, hpinsActive, group, total, fact, hstaged⟩ :=
      staged_of_stageBuckets h (pinsActive_syncPins values pins first.bucketStart) hst
    rw [Nat.zero_add] at hstaged
    obtain ⟨group', total', hgroup', _, hdone⟩ := completed_of_prefix hcount hi
    cases hstaged.group_eq.symm.trans hgroup'
    simp only [completed, Bool.and_eq_true] at hdone
    have hmeasured := hdone.1.1
    have hvactive : v.active = true := by
      rcases hactive with hactive | hpinned
      · exact hactive
      · exact (hpinsActive key v hv hpinned).2
    obtain ⟨hmetric, hnonneg⟩ := metric_eq_keptEvents hstaged hlimit hpins hmeasured hv hvactive
    obtain ⟨_, _, _, _, hfolded⟩ := foldBucket_folded hstaged.folded
    obtain ⟨after, hadmitted⟩ := hstaged.admitted
    have hwhole := whole_iff_of_combine hgrouped hstaged.group_eq
    have hrows := rows_of_combine hgrouped hstaged.group_eq hmeasured
    refine ⟨?_, hnonneg⟩
    by_cases hcomplete : group.state = .complete
    · -- A whole grouped search is the one authority, whatever the pinned search says.
      refine Or.inl ⟨hwhole.mp hcomplete, ?_⟩
      rw [hmetric, ← hrows]
      unfold keptEvents
      cases pinnedOutcomeAt pinnedOut i <;> simp [hcomplete]
    · have hnot : ¬ Whole groupedChunks i := fun hw => hcomplete (hwhole.mpr hw)
      rcases valueMeasurement_exact hexact with ⟨hpinned, hpm⟩ | hvm
      · rw [hadmitted.pinnedMeasurement, hfolded.pinnedMeasurement] at hpm
        obtain ⟨outcome, houtcome, hstate⟩ := pinnedMeasurementOf_exact hpm
        obtain ⟨chunks, combined, hchunks, hcombined, hget⟩ := combinePinned_ok hpinnedOut houtcome
        have hom : outcome.measured = true := by simp [PwBucketOutcome.measured, hstate, PwCellState.measured]
        refine Or.inr ⟨hnot, hpinned, chunks, hchunks, (whole_iff_of_combine hcombined hget).mp hstate, ?_⟩
        rw [hmetric, ← hrows, ← rows_of_combine hcombined hget hom, houtcome]
        simp [keptEvents, hom, hcomplete, (hpinsActive key v hv hpinned).1]
      · rw [hadmitted.valuesMeasurement, hfolded.valuesMeasurement] at hvm
        exact absurd (valuesMeasurementOf_exact hvm) hcomplete

end QRadarDashboard.PropertyWatch
