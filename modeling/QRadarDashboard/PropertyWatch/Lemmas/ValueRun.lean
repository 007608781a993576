import QRadarDashboard.Lib.Run
import QRadarDashboard.PropertyWatch.Lemmas.Conservation

/-!
# The values of a watch along a run
-/

namespace QRadarDashboard.PropertyWatch
open Lib

variable {values : TrackedValues} {key : String}

/-! ## Active values -/

def ActiveAt (values : TrackedValues) (key : String) : Prop := ∃ v, values.get? key = some v ∧ v.active = true

theorem activeAt_set {k v} (h : ActiveAt values key) (hv : v.active = true) : ActiveAt (values.set k v) key := by
  by_cases hk : key = k
  · exact ⟨v, by simp [Dict.get?_set, hk], hv⟩
  · obtain ⟨w, hw, hactive⟩ := h
    exact ⟨w, by simp [Dict.get?_set, hk, hw], hactive⟩

theorem activeCount_eq_sum (values : TrackedValues) :
    activeCount values = (values.map (fun item => if item.2.active then 1 else 0)).sum := by
  unfold activeCount
  induction values with
  | nil => rfl
  | cons item values ih =>
    rw [List.countP_cons, List.map_cons, List.sum_cons, ← ih, Nat.add_comm]

theorem activeCount_set (h : values.keys.Nodup) (k : String) (v : TrackedValue) :
    activeCount (values.set k v) + ((values.get? k).map (fun v => if v.active then 1 else 0)).getD 0 =
      activeCount values + if v.active then 1 else 0 := by
  rw [activeCount_eq_sum, activeCount_eq_sum]
  exact Dict.sum_set (fun v : TrackedValue => if v.active then 1 else 0) h k v

theorem activeCount_set_le (h : values.keys.Nodup) (k : String) (v : TrackedValue) :
    activeCount (values.set k v) ≤ activeCount values + 1 := by
  have hset := activeCount_set h k v
  split at hset <;> omega

/-! ## Admission -/

theorem nodup_noteSeen (time : Int) (h : values.keys.Nodup) (item : PwValueFact) :
    (noteSeen time values item).keys.Nodup := by
  unfold noteSeen
  cases values.get? item.valueKey with
  | none => exact h
  | some v => exact Dict.nodup_keys_set h _ _

theorem activeCount_noteSeen (time : Int) (h : values.keys.Nodup) (item : PwValueFact) :
    activeCount (noteSeen time values item) = activeCount values := by
  unfold noteSeen
  cases hget : values.get? item.valueKey with
  | none => rfl
  | some v =>
    have hset := activeCount_set h item.valueKey (seenValue time item v)
    rw [hget, Option.map_some, Option.getD_some, (seenValue_flags time item v).2] at hset
    exact Nat.add_right_cancel hset

theorem activeAt_noteSeen (time : Int) (h : ActiveAt values key) (item : PwValueFact) :
    ActiveAt (noteSeen time values item) key := by
  unfold noteSeen
  cases hget : values.get? item.valueKey with
  | none => exact h
  | some v =>
    by_cases hk : key = item.valueKey
    · obtain ⟨w, hw, hactive⟩ := h
      rw [hk, hget, Option.some.injEq] at hw
      subst hw
      exact ⟨_, by simp [Dict.get?_set, hk], (seenValue_flags time item v).2.trans hactive⟩
    · obtain ⟨w, hw, hactive⟩ := h
      exact ⟨w, by simp [Dict.get?_set, hk, hw], hactive⟩

theorem admittedValue_active (propertyCount : Nat) (time : Int) (item : PwValueFact) (value : Option TrackedValue) :
    (admittedValue propertyCount time item value).active = true := by
  cases value <;> rfl

theorem foldl_noteSeen (time : Int) (items : List PwValueFact) (h : values.keys.Nodup) :
    (items.foldl (noteSeen time) values).keys.Nodup ∧
      activeCount (items.foldl (noteSeen time) values) = activeCount values ∧
      ∀ key, ActiveAt values key → ActiveAt (items.foldl (noteSeen time) values) key := by
  induction items generalizing values with
  | nil => exact ⟨h, rfl, fun _ hkey => hkey⟩
  | cons item items ih =>
    obtain ⟨hnodup, hcount, hactive⟩ := ih (nodup_noteSeen time h item)
    exact ⟨hnodup, hcount.trans (activeCount_noteSeen time h item),
      fun key hkey => hactive key (activeAt_noteSeen time hkey item)⟩

theorem foldl_noteAdmitted (propertyCount : Nat) (time : Int) (items : List PwValueFact) (h : values.keys.Nodup) :
    (items.foldl (noteAdmitted propertyCount time) values).keys.Nodup ∧
      activeCount (items.foldl (noteAdmitted propertyCount time) values) ≤ activeCount values + items.length ∧
      ∀ key, (ActiveAt values key ∨ ∃ item ∈ items, item.valueKey = key) →
        ActiveAt (items.foldl (noteAdmitted propertyCount time) values) key := by
  induction items generalizing values with
  | nil =>
    refine ⟨h, Nat.le_refl _, fun key hkey => ?_⟩
    rcases hkey with hkey | ⟨item, hitem, _⟩
    · exact hkey
    · cases hitem
  | cons item items ih =>
    have hset : (noteAdmitted propertyCount time values item).keys.Nodup := Dict.nodup_keys_set h _ _
    obtain ⟨hnodup, hcount, hactive⟩ := ih hset
    have hone : activeCount (noteAdmitted propertyCount time values item) ≤ activeCount values + 1 :=
      activeCount_set_le h _ _
    have hnew := admittedValue_active propertyCount time item (values.get? item.valueKey)
    refine ⟨hnodup, ?_, fun key hkey => hactive key ?_⟩
    · rw [List.foldl_cons, List.length_cons]
      omega
    · rcases hkey with hkey | ⟨other, hother, rfl⟩
      · exact Or.inl (activeAt_set hkey hnew)
      · rcases List.mem_cons.mp hother with rfl | hother
        · exact Or.inl ⟨_, by rw [noteAdmitted, Dict.get?_set, if_pos rfl], hnew⟩
        · exact Or.inr ⟨other, hother, rfl⟩

def metricsTotal (metrics : Dict String Int) : Int := (metrics.map (fun item => item.2)).sum

theorem metricsTotal_foldl {items} (h : (items.map (fun item => item.valueKey)).Nodup) :
    metricsTotal (items.foldl (fun metrics item => metrics.set item.valueKey item.events) []) = keptTotal items := by
  rw [Dict.foldl_set_of_nodup (fun item : PwValueFact => item.valueKey) (fun item => item.events)
    (by simpa [Dict.keys] using h)]
  simp [metricsTotal, keptTotal, Function.comp_def]

theorem keptTotal_append (items items' : List PwValueFact) :
    keptTotal (items ++ items') = keptTotal items + keptTotal items' := by
  simp [keptTotal]

theorem keptTotal_nonneg (items : List PwValueFact) : 0 ≤ keptTotal items := by
  refine List.sum_nonneg (fun n hn => ?_)
  obtain ⟨item, _, rfl⟩ := List.mem_map.mp hn
  exact item.events_ok

theorem keptTotal_perm {items items'} (h : items.Perm items') : keptTotal items = keptTotal items' := (h.map _).sum_eq

theorem keptTotal_split {items admitted} {tracked : PwValueFact → Bool}
    (h : (items.map (fun item => item.valueKey)).Nodup)
    (hadmitted : admitted.Sublist (items.filter (fun item => !tracked item))) :
    ((items.filter tracked ++ admitted).map (fun item => item.valueKey)).Nodup ∧
      keptTotal (items.filter tracked ++ admitted) +
        keptTotal ((items.filter (fun item => !tracked item)).filter (fun item =>
          item.valueKey ∉ (items.filter tracked ++ admitted).map (fun item => item.valueKey))) =
      keptTotal items := by
  have hperm : (items.filter tracked ++ items.filter (fun item => !tracked item)).Perm items :=
    List.filter_append_perm tracked items
  have hall : ((items.filter tracked ++ items.filter (fun item => !tracked item)).map
      (fun item => item.valueKey)).Nodup := ((hperm.map _).nodup_iff).mpr h
  have hsub : (items.filter tracked ++ admitted).Sublist
      (items.filter tracked ++ items.filter (fun item => !tracked item)) := hadmitted.append_left _
  generalize items.filter tracked = seen at hperm hall hsub ⊢
  generalize hcandidates : items.filter (fun item => !tracked item) = candidates at hadmitted hperm hall hsub ⊢
  refine ⟨hall.sublist (hsub.map _), ?_⟩
  -- A key of a candidate is a kept one exactly when the candidate was admitted.
  have hkey : ∀ item ∈ candidates, item.valueKey ∈ (seen ++ admitted).map (fun item => item.valueKey) ↔
      item ∈ admitted := by
    intro item hitem
    constructor
    · intro hmem
      obtain ⟨other, hother, heq⟩ := List.mem_map.mp hmem
      have hother' : other ∈ seen ++ candidates := hsub.subset hother
      have hsame : other = item :=
        List.inj_on_of_nodup_map hall hother' (List.mem_append_right _ hitem) heq
      rcases List.mem_append.mp hother with hseen | hadm
      · rw [List.map_append, List.nodup_append] at hall
        exact absurd rfl (hall.2.2 _ (List.mem_map.mpr ⟨other, hseen, rfl⟩) _
          (List.mem_map.mpr ⟨item, hitem, by rw [hsame]⟩))
      · exact hsame ▸ hadm
    · intro hadm
      exact List.mem_map.mpr ⟨item, List.mem_append_right _ hadm, rfl⟩
  have hcand : candidates.Nodup := (List.nodup_append.mp (List.Nodup.of_map _ hall)).2.1
  have hadm : (candidates.filter (fun item => item.valueKey ∈ (seen ++ admitted).map (fun item => item.valueKey))).Perm
      admitted := by
    refine (List.perm_ext_iff_of_nodup (hcand.filter _) (hcand.sublist hadmitted)).mpr (fun item => ?_)
    rw [List.mem_filter, decide_eq_true_eq]
    constructor
    · rintro ⟨hitem, hmem⟩
      exact (hkey item hitem).mp hmem
    · intro hmem
      have hitem := hadmitted.subset hmem
      exact ⟨hitem, (hkey item hitem).mpr hmem⟩
  have hsplit := List.filter_append_perm
    (fun item : PwValueFact => decide (item.valueKey ∈ (seen ++ admitted).map (fun item => item.valueKey))) candidates
  have htotal := keptTotal_perm hsplit
  rw [keptTotal_append, keptTotal_perm hadm] at htotal
  have hitems := keptTotal_perm hperm
  rw [keptTotal_append] at hitems ⊢
  simp only [← decide_not] at htotal
  omega

structure AdmitEffect (fact : PwBucketFact) (values : TrackedValues) (policy : PwAdmissionPolicy)
    (admitted : AdmittedBucket) (after : TrackedValues) : Prop where
  nodup : after.keys.Nodup
  /-- Admission that raises the count ends under the ceiling. -/
  ceiling : activeCount after ≤ activeCount values ∨ (activeCount after : Int) ≤ policy.maxActive
  metrics : ∀ key, key ∈ admitted.metrics.keys → ActiveAt after key
  parsed : admitted.fact.parsedEvents = fact.parsedEvents
  measurement : admitted.fact.valuesMeasurement = fact.valuesMeasurement
  conserved : (fact.values.map (fun value => value.valueKey)).Nodup → fact.valuesMeasurement ≠ .notCollected →
    ∀ n, fact.untrackedEvents = some n → ∃ m, admitted.fact.untrackedEvents = some m ∧
      metricsTotal admitted.metrics + m = keptTotal fact.values + n

theorem mem_keys_foldl {items : List PwValueFact}
    (h : key ∈ Dict.keys (items.foldl (fun metrics item => metrics.set item.valueKey item.events)
      ([] : Dict String Int))) : ∃ item ∈ items, item.valueKey = key := by
  obtain ⟨item, hitem, rfl⟩ := List.mem_map.mp h
  have hget := Dict.get?_foldl_set (fun item : PwValueFact => item.valueKey) (fun item => item.events)
    items ([] : Dict String Int) item.1
  cases hfound : Dict.get? (items.foldl (fun metrics item => metrics.set item.valueKey item.events)
      ([] : Dict String Int)) item.1 with
  | none => exact absurd (List.mem_map.mpr ⟨item, hitem, rfl⟩) (Dict.not_mem_keys_of_get? hfound)
  | some n =>
    rw [hfound] at hget
    rcases hget with ⟨source, hsource, hkey, _⟩ | hnil
    · exact ⟨source, hsource, hkey⟩
    · cases hnil

theorem admitBucket_effect {fact policy propertyCount admitted after} (hvalues : values.keys.Nodup)
    (h : admitBucket fact values policy propertyCount = .ok (admitted, after)) :
    AdmitEffect fact values policy admitted after := by
  unfold admitBucket at h
  split at h
  · rename_i hnone
    cases h
    exact ⟨hvalues, Or.inl (Nat.le_refl _), (fun key hkey => by cases hkey), rfl, rfl,
      fun _ hcollected => absurd hnone hcollected⟩
  · obtain ⟨final, hfinal, h⟩ := bind_ok h
    cases h
    have hdata := PwBucketFact.of_ok hfinal
    obtain ⟨hnodup, hcount, hactive⟩ := foldl_noteSeen fact.bucketStart
      (fact.values.filter (isTracked values)) hvalues
    generalize hseen : (fact.values.filter (isTracked values)).foldl (noteSeen fact.bucketStart) values = seen at *
    generalize hquota : min policy.maxNewPerBucket
      (max 0 (policy.maxActive - (seen.countP (fun item => item.2.active) : Int))).toNat = quota at *
    generalize hadmitted : ((fact.values.filter (fun item => !isTracked values item)).filter
      (fun item => policy.minEvents ≤ item.events)).take quota = admitted at *
    have hsub : admitted.Sublist (fact.values.filter (fun item => !isTracked values item)) := by
      rw [← hadmitted]
      exact (List.take_sublist _ _).trans List.filter_sublist
    obtain ⟨hnodup', hcount', hactive'⟩ := foldl_noteAdmitted propertyCount fact.bucketStart admitted hnodup
    refine ⟨hnodup', ?_, ?_, by rw [hdata], by rw [hdata], ?_⟩
    · have hlen : admitted.length ≤ quota := by
        rw [← hadmitted]
        exact List.length_take_le _ _
      have hroom : (seen.countP (fun item => item.2.active) : Int) = activeCount seen := rfl
      rw [hroom] at hquota
      omega
    · intro key hkey
      obtain ⟨item, hitem, rfl⟩ := mem_keys_foldl hkey
      apply hactive'
      rcases List.mem_append.mp hitem with hitem | hitem
      · refine Or.inl (hactive _ ?_)
        have htracked := (List.mem_filter.mp hitem).2
        unfold isTracked at htracked
        exact (Option.any_eq_true _ _).mp htracked
      · exact Or.inr ⟨item, hitem, rfl⟩
    · intro hkeys _ n hn
      obtain ⟨hkept, hsplit⟩ := keptTotal_split hkeys hsub
      refine ⟨_, by rw [hdata, hn]; rfl, ?_⟩
      dsimp only
      rw [metricsTotal_foldl hkept]
      unfold keptTotal at hsplit ⊢
      omega

theorem admitBucket_total (fact : PwBucketFact) (values : TrackedValues) (policy : PwAdmissionPolicy)
    (propertyCount : Nat) (hkeys : (fact.values.map (fun value => value.valueKey)).Nodup) :
    ∃ admitted after, admitBucket fact values policy propertyCount = .ok (admitted, after) := by
  unfold admitBucket
  split
  · exact ⟨_, _, rfl⟩
  · rename_i hcollected
    dsimp only
    generalize hquota : min policy.maxNewPerBucket _ = quota
    generalize hadmitted : ((fact.values.filter (fun item => !isTracked values item)).filter
      (fun item => policy.minEvents ≤ item.events)).take quota = admitted
    have hsub : admitted.Sublist (fact.values.filter (fun item => !isTracked values item)) := by
      rw [← hadmitted]
      exact (List.take_sublist _ _).trans List.filter_sublist
    obtain ⟨_, hsplit⟩ := keptTotal_split hkeys hsub
    have hvalid := fact.valid
    have hdropped := keptTotal_nonneg ((fact.values.filter (fun item => !isTracked values item)).filter (fun item =>
      item.valueKey ∉ (fact.values.filter (isTracked values) ++ admitted).map (fun item => item.valueKey)))
    unfold keptTotal at hsplit hdropped
    suffices hfinal : ValidBucket _ by
      obtain ⟨final, hof, _⟩ := PwBucketFact.of_valid hfinal
      exact ⟨_, _, by rw [hof]; rfl⟩
    refine ⟨hvalid.width, hvalid.version, hvalid.totals, hvalid.parsed, ?_, hvalid.covered, hvalid.collected, ?_⟩
    · intro n hn
      obtain ⟨m, hm, rfl⟩ := Option.map_eq_some_iff.mp hn
      obtain ⟨hnonneg, hexact⟩ := hvalid.untracked m hm
      exact ⟨by omega, hexact⟩
    · intro p hp
      have hkept := hvalid.kept p hp
      dsimp only
      cases hun : fact.untrackedEvents with
      | none =>
        simp only [hun, Option.getD_none, Option.map_none] at hkept ⊢
        omega
      | some m =>
        simp only [hun, Option.getD_some, Option.map_some] at hkept ⊢
        omega

/-! ## Pins and retirement -/

def PinnedLive (values : TrackedValues) : Prop :=
  ∀ key v, values.get? key = some v → v.pinned = true → v.active = true

theorem PinnedLive.keeps {after} (h : PinnedLive values) (hkeeps : KeepsPins values after) : PinnedLive after := by
  intro key v hget hpinned
  obtain ⟨w, hw, hwp, hactive⟩ := hkeeps key v hget hpinned
  exact hactive (h key w hw hwp)

def pinStarts (values : TrackedValues) (pins : Dict String (List String)) : Nat :=
  pins.countP (fun pin => !(values.get? pin.1).any (fun v => v.active))

theorem syncPin_effect (time : Int) (h : values.keys.Nodup) (pin : String × List String) :
    (syncPin time values pin).keys.Nodup ∧
      activeCount (syncPin time values pin) ≤
        activeCount values + (if (values.get? pin.1).any (fun v => v.active) then 0 else 1) ∧
      ∀ key, ActiveAt values key → ActiveAt (syncPin time values pin) key := by
  unfold syncPin
  cases hget : values.get? pin.1 with
  | none =>
    exact ⟨Dict.nodup_keys_set h _ _, activeCount_set_le h _ _, fun key hkey => activeAt_set hkey rfl⟩
  | some v =>
    have hactive := (pinValue_flags v time).2
    refine ⟨Dict.nodup_keys_set h _ _, ?_, fun key hkey => activeAt_set hkey hactive⟩
    have hset := activeCount_set h pin.1 (pinValue v time)
    rw [hget, hactive, Option.map_some, Option.getD_some, if_pos rfl] at hset
    rw [Option.any_some]
    dsimp only
    split at hset
    · rename_i hv
      rw [if_pos hv]
      omega
    · rename_i hv
      rw [if_neg hv]
      omega

theorem pinStarts_le {before after} (h : ∀ key, ActiveAt before key → ActiveAt after key)
    (pins : Dict String (List String)) : pinStarts after pins ≤ pinStarts before pins := by
  refine List.countP_mono_left (fun pin _ hstart => ?_)
  rw [Bool.not_eq_true', Option.any_eq_false] at hstart ⊢
  intro v hv
  by_contra hactive
  obtain ⟨w, hw, hwa⟩ := h pin.1 ⟨v, hv, by simpa using hactive⟩
  simp [hstart w hw] at hwa

theorem syncPins_effect (pins : Dict String (List String)) (firstBucket : Int) (h : values.keys.Nodup) :
    (syncPins values pins firstBucket).keys.Nodup ∧
      activeCount (syncPins values pins firstBucket) ≤ activeCount values + pinStarts values pins := by
  have hfold : ∀ (pins : Dict String (List String)) (values : TrackedValues), values.keys.Nodup →
      (pins.foldl (syncPin firstBucket) values).keys.Nodup ∧
        activeCount (pins.foldl (syncPin firstBucket) values) ≤ activeCount values + pinStarts values pins := by
    intro pins
    induction pins with
    | nil => exact fun values h => ⟨h, Nat.le_refl _⟩
    | cons pin pins ih =>
      intro values h
      obtain ⟨hnodup, hcount, hactive⟩ := syncPin_effect firstBucket h pin
      obtain ⟨hnodup', hcount'⟩ := ih (syncPin firstBucket values pin) hnodup
      refine ⟨hnodup', ?_⟩
      have hrest := pinStarts_le hactive pins
      have hcons : pinStarts values (pin :: pins) =
          pinStarts values pins + (if (values.get? pin.1).any (fun v => v.active) then 0 else 1) := by
        rw [pinStarts, List.countP_cons]
        cases (values.get? pin.1).any (fun v => v.active) <;> rfl
      rw [List.foldl_cons]
      omega
  obtain ⟨hnodup, hcount⟩ := hfold pins values h
  have hunpin : ∀ item : String × TrackedValue, (unpin pins item.1 item.2).active = item.2.active := by
    intro item
    unfold unpin
    split <;> rfl
  constructor
  · simpa [syncPins, Dict.keys, Function.comp_def] using hnodup
  · simpa [syncPins, activeCount, List.countP_map, Function.comp_def, hunpin] using hcount

theorem retireStale_effect (reference : Int) (policy : PwAdmissionPolicy) (h : values.keys.Nodup) :
    (retireStale values reference policy).1.keys.Nodup ∧
      activeCount (retireStale values reference policy).1 ≤ activeCount values ∧
      ∀ key ∈ (retireStale values reference policy).2, ∀ v, values.get? key = some v → v.pinned = false := by
  refine ⟨by simpa [retireStale, Dict.keys, Function.comp_def] using h, ?_, ?_⟩
  · unfold activeCount retireStale
    rw [List.countP_map]
    refine List.countP_mono_left (fun item _ hactive => ?_)
    by_cases hstale : isStale reference policy item.2 = true
    · simp [retireValue, hstale] at hactive
    · simpa [retireValue, hstale] using hactive
  · intro key hkey v hv
    obtain ⟨item, hitem, rfl⟩ := List.mem_map.mp hkey
    obtain ⟨hmem, hstale⟩ := List.mem_filter.mp hitem
    have hget := (Dict.get?_eq_some_iff h).mpr hmem
    rw [hv, Option.some.injEq] at hget
    subst hget
    simp only [isStale, Bool.and_eq_true, Bool.not_eq_true'] at hstale
    exact hstale.1.2

/-! ## Runs -/

def ValueOp.isSync : ValueOp → Bool
  | .syncPins _ _ => true
  | .admitBucket _ => false
  | .retireStale _ => false

def ValueOp.starts (values : TrackedValues) : ValueOp → Nat
  | .syncPins pins _ => pinStarts values pins
  | .admitBucket _ => 0
  | .retireStale _ => 0

structure ValueStepOk (policy : PwAdmissionPolicy) (values : TrackedValues) (op : ValueOp)
    (output : ValueOpOutput) : Prop where
  nodup : output.values.keys.Nodup
  /-- Only a pin that starts raises the count above the ceiling. -/
  ceiling : activeCount output.values ≤ activeCount values + op.starts values ∨
    (activeCount output.values : Int) ≤ policy.maxActive
  admitted : op.isSync = false → activeCount output.values ≤ activeCount values ∨
    (activeCount output.values : Int) ≤ policy.maxActive
  pinned : op.isSync = true ∨ PinnedLive values → PinnedLive output.values
  retired : ∀ key ∈ output.retired, ∀ v, values.get? key = some v → v.pinned = false
  metrics : ∀ key, key ∈ output.metrics.keys → ActiveAt output.values key

theorem valueStep_ok {policy propertyCount op output} (hvalues : values.keys.Nodup)
    (h : valueStep policy propertyCount values op = .ok output) : ValueStepOk policy values op output := by
  cases op with
  | syncPins pins firstBucket =>
    cases h
    obtain ⟨hnodup, hcount⟩ := syncPins_effect pins firstBucket hvalues
    refine ⟨hnodup, Or.inl hcount, (fun hsync => by cases hsync), fun _ => ?_, (fun key hkey => by cases hkey),
      (fun key hkey => by cases hkey)⟩
    exact fun key v hget hpinned => (pinsActive_syncPins values pins firstBucket key v hget hpinned).2
  | admitBucket fact =>
    obtain ⟨⟨admitted, after⟩, hadmit, rfl⟩ := map_eq_ok.mp h
    have heffect := admitBucket_effect hvalues hadmit
    refine ⟨heffect.nodup, heffect.ceiling, fun _ => heffect.ceiling, ?_, (fun key hkey => by cases hkey),
      heffect.metrics⟩
    rintro (hsync | hlive)
    · cases hsync
    · exact hlive.keeps (admitBucket_admitted hadmit).keepsPins
  | retireStale reference =>
    cases h
    obtain ⟨hnodup, hcount, hretired⟩ := retireStale_effect reference policy hvalues
    refine ⟨hnodup, Or.inl hcount, fun _ => Or.inl hcount, ?_, hretired, (fun key hkey => by cases hkey)⟩
    rintro (hsync | hlive)
    · cases hsync
    · exact hlive.keeps (keepsPins_retireStale values reference policy)

/-! ## Tracking windows -/

structure TrackedValue.SameTracking (v w : TrackedValue) : Prop where
  active : w.active = v.active
  since : w.trackedSince = v.trackedSince
  ended : w.trackedUntil = v.trackedUntil

theorem TrackedValue.SameTracking.trans {u v w : TrackedValue} (h : u.SameTracking v) (h' : v.SameTracking w) :
    u.SameTracking w :=
  ⟨h'.active.trans h.active, h'.since.trans h.since, h'.ended.trans h.ended⟩

/-- Each row is as it was, or its value is tracked from `time` on. -/
def RowsKept (time : Int) (values after : TrackedValues) : Prop :=
  ∀ key w, after.get? key = some w → (w.active = true ∧ w.trackedSince = some time) ∨
    ∃ v, values.get? key = some v ∧ v.SameTracking w

variable {time : Int}

theorem RowsKept.refl (values : TrackedValues) : RowsKept time values values :=
  fun _ w hget => Or.inr ⟨w, hget, rfl, rfl, rfl⟩

theorem RowsKept.trans {a b c} (h₁ : RowsKept time a b) (h₂ : RowsKept time b c) : RowsKept time a c := by
  intro key w hget
  rcases h₂ key w hget with hnew | ⟨v, hv, hsame⟩
  · exact Or.inl hnew
  · rcases h₁ key v hv with ⟨hactive, hsince⟩ | ⟨u, hu, hsame'⟩
    · exact Or.inl ⟨hsame.active.trans hactive, hsame.since.trans hsince⟩
    · exact Or.inr ⟨u, hu, hsame'.trans hsame⟩

theorem rowsKept_set {k w} (h : (w.active = true ∧ w.trackedSince = some time) ∨
    ∃ v, values.get? k = some v ∧ v.SameTracking w) : RowsKept time values (values.set k w) := by
  intro key w' hget
  rw [Dict.get?_set] at hget
  by_cases hk : key = k
  · subst hk
    rw [if_pos rfl, Option.some.injEq] at hget
    exact hget ▸ h
  · rw [if_neg hk] at hget
    exact Or.inr ⟨w', hget, rfl, rfl, rfl⟩

theorem rowsKept_foldl {β : Type} {f : TrackedValues → β → TrackedValues}
    (h : ∀ values b, RowsKept time values (f values b)) (l : List β) (values : TrackedValues) :
    RowsKept time values (l.foldl f values) := by
  induction l generalizing values with
  | nil => exact RowsKept.refl values
  | cons b l ih => exact (h values b).trans (ih (f values b))

theorem rowsKept_syncPin (values : TrackedValues) (pin : String × List String) :
    RowsKept time values (syncPin time values pin) := by
  unfold syncPin
  cases hget : values.get? pin.1 with
  | none => exact rowsKept_set (Or.inl ⟨rfl, rfl⟩)
  | some v =>
    refine rowsKept_set ?_
    cases hactive : v.active with
    | true =>
      refine Or.inr ⟨v, hget, ?_⟩
      unfold pinValue
      by_cases hp : v.pinned <;> simp only [hp, hactive, if_true] <;> exact ⟨hactive.symm ▸ rfl, rfl, rfl⟩
    | false =>
      refine Or.inl ?_
      unfold pinValue
      by_cases hp : v.pinned <;> simp [hp, hactive, startTracking]

theorem rowsKept_syncPins (values : TrackedValues) (pins : Dict String (List String)) :
    RowsKept time values (syncPins values pins time) := by
  refine (rowsKept_foldl rowsKept_syncPin pins values).trans (fun key w hget => ?_)
  rw [syncPins, Dict.get?_mapValues, Option.map_eq_some_iff] at hget
  obtain ⟨v, hv, rfl⟩ := hget
  refine Or.inr ⟨v, hv, ?_⟩
  unfold unpin
  split <;> exact ⟨rfl, rfl, rfl⟩

theorem rowsKept_noteSeen (values : TrackedValues) (item : PwValueFact) :
    RowsKept time values (noteSeen time values item) := by
  unfold noteSeen
  cases hget : values.get? item.valueKey with
  | none => exact RowsKept.refl values
  | some v =>
    refine rowsKept_set (Or.inr ⟨v, hget, ?_⟩)
    simp only [seenValue]
    split_ifs <;> exact ⟨rfl, rfl, rfl⟩

theorem rowsKept_noteAdmitted (propertyCount : Nat) (values : TrackedValues) (item : PwValueFact) :
    RowsKept time values (noteAdmitted propertyCount time values item) := by
  refine rowsKept_set (Or.inl ⟨admittedValue_active _ _ _ _, ?_⟩)
  cases values.get? item.valueKey <;> rfl

theorem rowsKept_admitBucket {fact policy propertyCount admitted after}
    (h : admitBucket fact values policy propertyCount = .ok (admitted, after)) :
    RowsKept fact.bucketStart values after := by
  unfold admitBucket at h
  split at h
  · cases h
    exact RowsKept.refl values
  · obtain ⟨final, -, h⟩ := bind_ok h
    cases h
    exact (rowsKept_foldl rowsKept_noteSeen _ _).trans (rowsKept_foldl (rowsKept_noteAdmitted _) _ _)

/-- When the values that an operation starts to track are tracked from. -/
def ValueOp.startsAt : ValueOp → Option Int
  | .syncPins _ firstBucket => some firstBucket
  | .admitBucket fact => some fact.bucketStart
  | .retireStale _ => none

/-- What an operation does to the row of a key. -/
inductive RowStep (op : ValueOp) (old : Option TrackedValue) (w : TrackedValue) : Prop
  | kept {v : TrackedValue} (hold : old = some v) (hsame : v.SameTracking w)
  | started {time : Int} (htime : op.startsAt = some time) (hactive : w.active = true)
      (hsince : w.trackedSince = some time)
  | retired {v : TrackedValue} {reference : Int} (hop : op = .retireStale reference) (hold : old = some v)
      (hwas : v.active = true) (hsince : w.trackedSince = v.trackedSince) (hended : w.trackedUntil = some reference)

theorem RowsKept.rowStep {op after w} (h : RowsKept time values after)
    (hop : op.startsAt = some time) (hget : after.get? key = some w) : RowStep op (values.get? key) w := by
  rcases h key w hget with ⟨hactive, hsince⟩ | ⟨v, hv, hsame⟩
  · exact .started hop hactive hsince
  · exact .kept hv hsame

theorem valueStep_row {policy propertyCount op output} (h : valueStep policy propertyCount values op = .ok output) {w}
    (hget : output.values.get? key = some w) : RowStep op (values.get? key) w := by
  cases op with
  | syncPins pins firstBucket =>
    cases h
    exact (rowsKept_syncPins values pins).rowStep rfl hget
  | admitBucket fact =>
    obtain ⟨⟨admitted, after⟩, hadmit, rfl⟩ := map_eq_ok.mp h
    exact (rowsKept_admitBucket hadmit).rowStep rfl hget
  | retireStale reference =>
    cases h
    dsimp only at hget
    rw [retireStale, Dict.get?_mapValues values (fun _ v => retireValue reference policy v),
      Option.map_eq_some_iff] at hget
    obtain ⟨v, hv, rfl⟩ := hget
    unfold retireValue
    split_ifs with hstale
    · have hwas : v.active = true := by
        simp only [isStale, Bool.and_eq_true] at hstale
        exact hstale.1.1
      exact .retired rfl hv hwas rfl rfl
    · exact .kept hv ⟨rfl, rfl, rfl⟩

/-- Every value that is not active was retired before `bucket`. -/
def RetiredBefore (bucket : Int) (values : TrackedValues) : Prop :=
  ∀ key v, values.get? key = some v → v.active = false → ∃ r < bucket, v.trackedUntil = some r

def NotTracked (bucket : Int) (v : TrackedValue) : Prop :=
  (v.active = false ∧ ∃ r < bucket, v.trackedUntil = some r) ∨ ∃ since, bucket < since ∧ v.trackedSince = some since

variable {bucket : Int} {policy : PwAdmissionPolicy} {propertyCount : Nat} {op : ValueOp} {output : ValueOpOutput}

theorem RetiredBefore.step (h : RetiredBefore bucket values) (hop : ∀ r, op = .retireStale r → r < bucket)
    (hstep : valueStep policy propertyCount values op = .ok output) : RetiredBefore bucket output.values := by
  intro key w hget hinactive
  cases valueStep_row hstep hget with
  | @kept v hold hsame =>
    obtain ⟨r, hr, hended⟩ := h key v hold (hsame.active ▸ hinactive)
    exact ⟨r, hr, hsame.ended.trans hended⟩
  | started _ hactive _ =>
    rw [hactive] at hinactive
    cases hinactive
  | @retired v reference hreference hold hwas hsince hended => exact ⟨reference, hop reference hreference, hended⟩

theorem notTracked_step (h : ∀ v, values.get? key = some v → NotTracked bucket v)
    (hop : ∀ time, op.startsAt = some time → bucket < time)
    (hstep : valueStep policy propertyCount values op = .ok output) :
    ∀ w, output.values.get? key = some w → NotTracked bucket w := by
  intro w hget
  cases valueStep_row hstep hget with
  | @kept v hold hsame =>
    rcases h v hold with ⟨hinactive, r, hr, hended⟩ | ⟨since, hlater, hsince⟩
    · exact Or.inl ⟨hsame.active.trans hinactive, r, hr, hsame.ended.trans hended⟩
    · exact Or.inr ⟨since, hlater, hsame.since.trans hsince⟩
  | started htime _ hsince => exact Or.inr ⟨_, hop _ htime, hsince⟩
  | @retired v _ _ hold hwas hsince _ =>
    -- only a value that is active, hence tracked since a later bucket, is retired
    rcases h v hold with ⟨hinactive, _⟩ | ⟨since, hlater, hsince'⟩
    · rw [hwas] at hinactive
      cases hinactive
    · exact Or.inr ⟨since, hlater, hsince.trans hsince'⟩

end QRadarDashboard.PropertyWatch
