import QRadarDashboard.CustomRules.Observation

/-!
# What a reading of a partial observation bounds
-/

namespace QRadarDashboard.CustomRules
open Lib Double Waf PropertyWatch History Ips Collectors

/-! ## Readings -/

section Readings

variable {metric : CustomRuleMetric} {facts truth : BucketFacts Rounded} {r t : InterpretedReading Rounded}

end Readings

/-! ## Rows -/

section Rows

def pwKnown (row : PwValueBucket) (events : Int) (measurement : PwBucketMeasurement) : BucketFacts Rounded where
  bucketStart := row.bucketStart
  present := true
  inMaintenance := row.inMaintenance
  events := some events
  dimensionMeasurement := some (pwMeasurementValue measurement)

theorem PwValueBucket.facts_cases {row coverageFloor facts} (h : row.facts coverageFloor = some facts) :
    (row.pinnedExact = true ∧ (row.events.isSome = true ∨ row.trackedAt = true ∧ row.coverageOk coverageFloor = true) ∧
        facts = pwKnown row (row.events.getD 0) .exact) ∨
      ∃ events, row.events = some events ∧ row.valuesMeasurement ≠ .notCollected ∧
        facts = pwKnown row events row.valuesMeasurement := by
  unfold PwValueBucket.facts at h
  cases hrow : row.events with
  | some events =>
    simp only [hrow] at h
    by_cases hpinned : row.pinnedExact = true
    · simp only [hpinned, if_true, Option.some.injEq] at h
      exact .inl ⟨hpinned, .inl rfl, h.symm⟩
    · by_cases hnone : row.valuesMeasurement = .notCollected
      · simp [hpinned, hnone] at h
      · simp only [hpinned, hnone, if_false, Bool.false_eq_true, Option.some.injEq] at h
        exact .inr ⟨events, rfl, hnone, h.symm⟩
  | none =>
    simp only [hrow] at h
    split at h
    next hmeasured =>
        simp only [Bool.and_eq_true] at hmeasured
        exact .inl ⟨hmeasured.1.1, .inr ⟨hmeasured.1.2, hmeasured.2⟩, (Option.some.inj h).symm⟩
    next => cases h

theorem PwValueBucket.facts_of_pinnedExact {row coverageFloor} (h : row.pinnedExact = true)
    (hread : row.events.isSome = true ∨ row.trackedAt = true ∧ row.coverageOk coverageFloor = true) :
    row.facts coverageFloor = some (pwKnown row (row.events.getD 0) .exact) := by
  unfold PwValueBucket.facts
  cases hrow : row.events with
  | some events =>
    simp only [h, if_true]
    rfl
  | none =>
    obtain ⟨htracked, hcovered⟩ := hread.resolve_left (by simp [hrow])
    simp only [h, htracked, hcovered, Bool.and_self, if_true]
    rfl

theorem PwValueBucket.Held.facts {row : PwValueBucket} (h : row.Held) (coverageFloor : Rounded) :
    row.facts coverageFloor = none := by
  cases hfacts : row.facts coverageFloor with
  | none => rfl
  | some facts =>
    rcases PwValueBucket.facts_cases hfacts with ⟨hpinned, _⟩ | ⟨_, hevents, _⟩
    · simp [PwValueBucket.pinnedExact, h.pinned] at hpinned
    · rw [h.events] at hevents
      cases hevents

end Rows

/-! ## Watched values -/

section Watched

variable {u : UnicodeTables} {limit : Nat} {key : String} {rows rows' : List PwKeyedRow}

theorem keyEvents_perm (h : rows.Perm rows') : keyEvents u limit key rows = keyEvents u limit key rows' :=
  ((h.filter _).map _).sum_eq

theorem keyEvents_subperm (hcounts : ∀ row ∈ rows', 0 ≤ row.events) (h : rows.Subperm rows') :
    keyEvents u limit key rows ≤ keyEvents u limit key rows' := by
  obtain ⟨part, hperm, hsub⟩ := h
  rw [← keyEvents_perm hperm]
  refine List.Sublist.sum_le_sum ((hsub.filter _).map _) (fun n hn => ?_)
  obtain ⟨row, hrow, rfl⟩ := List.mem_map.mp hn
  exact hcounts row (List.mem_of_mem_filter hrow)

theorem keyEvents_nonneg (hcounts : ∀ row ∈ rows, 0 ≤ row.events) : 0 ≤ keyEvents u limit key rows := by
  refine List.sum_nonneg (fun n hn => ?_)
  obtain ⟨row, hrow, rfl⟩ := List.mem_map.mp hn
  exact hcounts row (List.mem_of_mem_filter hrow)

theorem keyEvents?_getD (rows : List PwKeyedRow) : (keyEvents? u limit key rows).getD 0 = keyEvents u limit key rows := by
  cases h : keyEvents? u limit key rows with
  | none => exact (keyEvents_of_none h).symm
  | some n => exact (keyEvents_of_some h).symm

theorem mergeEvents_getD {g p} (hg : 0 ≤ g.getD 0) (hp : 0 ≤ p.getD 0) :
    (mergeEvents g p).getD 0 = max (g.getD 0) (p.getD 0) := by
  cases g with
  | none => exact (max_eq_right hp).symm
  | some g =>
    cases p with
    | none => exact (max_eq_left hg).symm
    | some p => rfl

namespace PwCollection

variable {c : PwCollection} {bucket : AdmittedBucket} {after : TrackedValues}

/-- What the fold counted of the value. -/
def kept (c : PwCollection) : Option Int := keptEvents c.tables c.limit c.grouped c.pinnedOutcome c.pins c.key

theorem admitted_ok (h : c.admitted = .ok (bucket, after)) : ∃ fact,
    Folded c.tables c.limit c.grouped c.pinnedOutcome c.pins (activeKeys c.before) fact ∧
      Admitted fact c.before bucket after := by
  obtain ⟨fact, hfact, hadmit⟩ := bind_ok h
  obtain ⟨limit, pins, hlimit, hpins, hfolded⟩ := foldBucket_folded hfact
  have hlimit : c.limit = limit := by rw [PwCollection.limit, hlimit]; rfl
  have hpins : c.pins = pins.keys := by rw [PwCollection.pins, hlimit, hpins]; rfl
  exact ⟨fact, by rw [hlimit, hpins]; exact hfolded, admitBucket_admitted hadmit⟩

theorem Stored.measured (h : c.Stored) : c.grouped.measured = true := by
  have hcompleted := h.completed
  simp only [Collectors.completed, Bool.and_eq_true] at hcompleted
  exact hcompleted.1.1

theorem valuesMeasurement_eq (h : c.admitted = .ok (bucket, after)) :
    (c.loaded bucket).valuesMeasurement = valuesMeasurementOf c.grouped := by
  obtain ⟨fact, hfolded, hadmitted⟩ := admitted_ok h
  exact hadmitted.valuesMeasurement.trans hfolded.valuesMeasurement

theorem pinnedExact_iff (h : c.admitted = .ok (bucket, after)) : (c.loaded bucket).pinnedExact = true ↔
    c.value.pinned = true ∧ ∃ o, c.pinnedOutcome = some o ∧ o.state = .complete := by
  obtain ⟨fact, hfolded, hadmitted⟩ := admitted_ok h
  have hpinned : (c.loaded bucket).pinnedMeasurement = pinnedMeasurementOf c.pinnedOutcome :=
    hadmitted.pinnedMeasurement.trans hfolded.pinnedMeasurement
  rw [PwValueBucket.pinnedExact, hpinned, Bool.and_eq_true, decide_eq_true_eq]
  refine and_congr Iff.rfl ⟨pinnedMeasurementOf_exact, ?_⟩
  rintro ⟨o, ho, hwhole⟩
  simp [ho, pinnedMeasurementOf, hwhole]

/-! ### The window of the value -/

theorem Stored.retiredBefore (h : c.Stored) : RetiredBefore c.bucketStart c.before := by
  obtain ⟨tr, hrun, hretired⟩ := h.before
  exact (hrun.reached (RetiredBefore c.bucketStart) (fun e => ∀ r, e.input.2 = .retireStale r → r < c.bucketStart)
    (fun key v hget => by cases hget) (fun hI hop hstep => hI.step hop hstep) hretired).2

theorem NotTracked.trackedAt (h : NotTracked c.bucketStart c.value) : (c.loaded bucket).trackedAt = false := by
  simp only [PwValueBucket.trackedAt, loaded]
  rcases h with ⟨-, r, hr, hended⟩ | ⟨since, hlater, hsince⟩
  · rw [hended]
    cases c.value.trackedSince with
    | none => rfl
    | some since =>
      simp only [Option.all_some, not_le.mpr hr, decide_false, ite_self]
  · simp [hsince, hlater]

/-- A value with a window at the bucket and no metric row in it was active when the bucket was folded. -/
theorem Stored.activeAt (h : c.Stored) (hadmitted : c.admitted = .ok (bucket, after))
    (hnone : bucket.metrics.get? c.key = none) (htracked : (c.loaded bucket).trackedAt = true) :
    ActiveAt c.before c.key := by
  by_contra hidle
  obtain ⟨bucket', after', tr, now, hadmitted', hrun, hlater, hvalue⟩ := h.after
  cases hadmitted.symm.trans hadmitted'
  obtain ⟨fact, -, heffect⟩ := admitted_ok hadmitted
  have hstart : ∀ v, after.get? c.key = some v → NotTracked c.bucketStart v := by
    intro v hv
    rw [heffect.untouched c.key hnone] at hv
    have hinactive : v.active = false := by
      by_contra hactive
      exact hidle ⟨v, hv, by simpa using hactive⟩
    exact Or.inl ⟨hinactive, h.retiredBefore c.key v hv hinactive⟩
  have hend := (hrun.reached (fun values => ∀ v, values.get? c.key = some v → NotTracked c.bucketStart v)
    (fun e => ∀ time, e.input.2.startsAt = some time → c.bucketStart < time) hstart
    (fun hI hop hstep => notTracked_step hI hop hstep) hlater).2 c.value hvalue
  rw [NotTracked.trackedAt hend] at htracked
  cases htracked

/-! ### The count of the value -/

theorem Stored.events_eq (h : c.Stored) (hadmitted : c.admitted = .ok (bucket, after))
    (hread : (c.loaded bucket).events.isSome = true ∨ (c.loaded bucket).trackedAt = true) :
    (c.loaded bucket).events.getD 0 = c.kept.getD 0 := by
  obtain ⟨fact, hfolded, heffect⟩ := admitted_ok hadmitted
  cases hmetric : bucket.metrics.get? c.key with
  | some n =>
    obtain ⟨item, hitem, hkey, rfl⟩ := heffect.counted c.key n hmetric
    have hcounted := hfolded.counted h.measured item hitem
    rw [kept, ← hkey, hcounted]
    simp [loaded, hmetric]
  | none =>
    have hevents : (c.loaded bucket).events = none := hmetric
    rw [hevents] at hread
    obtain ⟨v, hv, hactive⟩ := h.activeAt hadmitted hmetric (hread.resolve_left (by simp))
    have hcollected : fact.valuesMeasurement ≠ .notCollected := by
      have hmeasured := h.measured
      rw [hfolded.valuesMeasurement]
      unfold PwBucketOutcome.measured at hmeasured
      cases hstate : c.grouped.state <;> simp [hstate, PwCellState.measured, valuesMeasurementOf] at hmeasured ⊢
    have habsent := (heffect.metrics hcollected c.key v hv hactive).2 hmetric
    have hkept : c.kept = none := by
      rw [Option.eq_none_iff_forall_ne_some]
      intro n hn
      obtain ⟨item, hitem, hkey, -⟩ :=
        (hfolded.values h.measured c.key (Or.inl (mem_activeKeys hv hactive)) n).mpr hn
      exact habsent item hitem hkey
    rw [hevents, hkept]

theorem Searched.grouped_counts (h : c.Searched) : ∀ row ∈ c.grouped.rows, 0 ≤ row.events :=
  fun row hrow => h.counts row (h.grouped.subset hrow)

theorem Searched.asked_counts (h : c.Searched) : ∀ row ∈ c.rows.filter (askedFor c.pinned), 0 ≤ row.events :=
  fun row hrow => h.counts row (List.mem_of_mem_filter hrow)

theorem Searched.kept_whole (h : c.Searched) (hwhole : c.grouped.state = .complete) :
    c.kept.getD 0 = c.events c.rows := by
  have hkept : c.kept = keyEvents? c.tables c.limit c.key c.grouped.rows := by
    unfold kept keptEvents
    cases c.pinnedOutcome <;> simp [hwhole]
  rw [hkept, keyEvents?_getD]
  exact keyEvents_perm (h.groupedWhole hwhole)

theorem Searched.kept_found (h : c.Searched) (hcut : c.grouped.state ≠ .complete) {o}
    (ho : c.pinnedOutcome = some o) (hwhole : o.state = .complete) : c.kept.getD 0 = c.found := by
  have hmeasured : o.measured = true := by simp [PwBucketOutcome.measured, hwhole, PwCellState.measured]
  have hasked : c.events o.rows = c.events (c.rows.filter (askedFor c.pinned)) :=
    keyEvents_perm (h.pinnedWhole o ho hwhole)
  have hgrouped : 0 ≤ c.events c.grouped.rows := keyEvents_nonneg h.grouped_counts
  unfold kept found
  by_cases hpin : c.key ∈ c.pins
  · unfold keptEvents
    simp only [ho, hmeasured, hcut, hpin, ne_eq, not_false_eq_true, and_self, if_true]
    rw [mergeEvents_getD, keyEvents?_getD, keyEvents?_getD, ← hasked]
    · rfl
    · rw [keyEvents?_getD]
      exact hgrouped
    · rw [keyEvents?_getD]
      exact (keyEvents_nonneg h.asked_counts).trans_eq hasked.symm
  · rw [keptEvents_of_notMem hpin, keyEvents?_getD, if_neg hpin]
    exact (max_eq_left hgrouped).symm

theorem Searched.kept_le (h : c.Searched) : c.kept.getD 0 ≤ c.events c.rows := by
  have hgrouped : c.events c.grouped.rows ≤ c.events c.rows := keyEvents_subperm h.counts h.grouped
  unfold kept keptEvents
  cases ho : c.pinnedOutcome with
  | none =>
    simp only [keyEvents?_getD]
    exact hgrouped
  | some o =>
    dsimp only
    split_ifs
    · have hsub : o.rows.Subperm c.rows := (h.pinned o ho).trans List.filter_sublist.subperm
      have hcounts : ∀ row ∈ o.rows, 0 ≤ row.events := fun row hrow => h.counts row (hsub.subset hrow)
      rw [mergeEvents_getD, keyEvents?_getD, keyEvents?_getD]
      · exact max_le hgrouped (keyEvents_subperm h.counts hsub)
      · rw [keyEvents?_getD]
        exact keyEvents_nonneg h.grouped_counts
      · rw [keyEvents?_getD]
        exact keyEvents_nonneg hcounts
    · rw [keyEvents?_getD]
      exact hgrouped

/-- A reading counts the events of the value, or a part of them as a lower bound, or what the searches of a hidden one
found. -/
theorem PartialOf.facts_cases {whole} (h : c.PartialOf whole) {coverageFloor facts}
    (hfacts : c.facts coverageFloor = some facts) :
    ∃ row events measurement, facts = pwKnown row events measurement ∧
      ((measurement = .exact ∧ events = c.events c.rows) ∨
        (measurement = .lowerBound ∧ events ≤ c.events c.rows) ∨
        (measurement = .exact ∧ events = c.found ∧
          ((PyFloat.ofInt c.found : Rounded) ≠ PyFloat.ofInt (c.events c.rows) → c.Hides coverageFloor))) := by
  obtain ⟨⟨bucket, after⟩, hadmitted, hfacts⟩ := Option.bind_eq_some_iff.mp hfacts
  have hadmitted := ok_of_toOption hadmitted
  have hmeasured := h.stored.measured
  have hstate : c.grouped.state = .complete ∨ c.grouped.state = .lowerBound := by
    unfold PwBucketOutcome.measured at hmeasured
    cases hstate : c.grouped.state <;> simp [hstate, PwCellState.measured] at hmeasured ⊢
  rcases PwValueBucket.facts_cases hfacts with ⟨hexact, hread, rfl⟩ | ⟨events, hevents, -, rfl⟩
  · have hcount := h.stored.events_eq hadmitted (hread.imp id And.left)
    rw [hcount]
    rcases hstate with hwhole | hcut
    · exact ⟨_, _, _, rfl, .inl ⟨rfl, h.searched.kept_whole hwhole⟩⟩
    · obtain ⟨hpinned, o, ho, hwhole⟩ := (pinnedExact_iff hadmitted).mp hexact
      refine ⟨_, _, _, rfl, .inr (.inr ⟨rfl, h.searched.kept_found (by simp [hcut]) ho hwhole, fun hfewer => ?_⟩)⟩
      refine ⟨hpinned, by simp [ho, hwhole], hcut, fun result hresult => ?_, hfewer⟩
      rw [hadmitted] at hresult
      cases hresult
      exact hread
  · have hcount := h.stored.events_eq hadmitted (.inl (by simp [hevents]))
    rw [hevents, Option.getD_some] at hcount
    rw [valuesMeasurement_eq hadmitted, hcount]
    rcases hstate with hwhole | hcut
    · exact ⟨_, _, _, rfl, .inl ⟨by simp [valuesMeasurementOf, hwhole], h.searched.kept_whole hwhole⟩⟩
    · exact ⟨_, _, _, rfl, .inr (.inl ⟨by simp [valuesMeasurementOf, hcut], h.searched.kept_le⟩)⟩

theorem Hides.facts {coverageFloor} (h : c.Hides coverageFloor) (hsearched : c.Searched) (hstored : c.Stored) :
    ∃ row, c.facts coverageFloor = some (pwKnown row c.found .exact) := by
  obtain ⟨bucket, after, -, -, hadmitted, -, -, -⟩ := hstored.after
  obtain ⟨o, ho, hwhole⟩ := (Option.any_eq_true _ _).mp h.pinnedWhole
  have hwhole := of_decide_eq_true hwhole
  have hread := h.read (bucket, after) (by rw [hadmitted]; rfl)
  have hexact := (pinnedExact_iff hadmitted).mpr ⟨h.pinned, o, ho, hwhole⟩
  refine ⟨c.loaded bucket, ?_⟩
  rw [PwCollection.facts, hadmitted, ← hsearched.kept_found (by simp [h.cut]) ho hwhole,
    ← hstored.events_eq hadmitted (hread.imp id And.left)]
  exact PwValueBucket.facts_of_pinnedExact hexact hread

end PwCollection

end Watched

/-! ## Fleet classes -/

section Fleet

open List

variable {bucket whole : FleetBucket}

theorem mem_complete {m} :
    m ∈ bucket.complete ↔ m ∈ bucket.metrics ∧ m.bucketStart = bucket.bucketStart ∧
      (bucket.includeHistory = true ∨ m.isLive = true) ∧ (∃ s ∈ bucket.expected, s.id = m.logSourceId) ∧
      m.completeness = .complete := by
  simp only [FleetBucket.complete, completeRows, classRows, mem_filter, FleetBucket.expected, any_eq_true,
    Bool.and_eq_true, Bool.or_eq_true, decide_eq_true_eq, and_assoc]

theorem FleetBucket.WellFormed.complete_nodup (h : bucket.WellFormed) : bucket.complete.Nodup :=
  ((Nodup.of_map _ h.metrics).filter _).filter _

theorem FleetBucket.WellFormed.seconds_nonneg (h : bucket.WellFormed) {rows}
    (hrows : ∀ m ∈ rows, m ∈ bucket.metrics) : 0 ≤ rowSeconds rows := by
  refine List.sum_nonneg fun n hn => ?_
  obtain ⟨m, hm, rfl⟩ := mem_map.mp hn
  exact (h.seconds m (hrows m hm)).le

theorem FleetBucket.WellFormed.seconds_pos (h : bucket.WellFormed) (hne : bucket.complete ≠ []) :
    0 < rowSeconds bucket.complete := by
  obtain ⟨m, rows, hrows⟩ := exists_cons_of_ne_nil hne
  have hmem : ∀ m ∈ bucket.complete, m ∈ bucket.metrics := fun m hm => (mem_complete.mp hm).1
  rw [hrows] at hmem ⊢
  have hm := h.seconds m (hmem m mem_cons_self)
  have := h.seconds_nonneg (fun x hx => hmem x (mem_cons_of_mem m hx))
  simp only [rowSeconds, map_cons, sum_cons] at this ⊢
  omega

theorem FleetBucket.PartialOf.perm (h : bucket.PartialOf whole) :
    (bucket.complete ++ bucket.missing whole).Perm whole.complete := by
  have hsplit := filter_append_perm (fun m => decide (m ∈ bucket.complete)) whole.complete
  simp only [FleetBucket.missing, decide_not]
  refine .trans (.append_right _ ?_) hsplit
  refine (perm_ext_iff_of_nodup h.wellFormed.complete_nodup
    (h.wholeWellFormed.complete_nodup.filter _)).mpr fun m => ?_
  rw [mem_filter, decide_eq_true_eq]
  exact ⟨fun hm => ⟨h.stored m hm, hm⟩, fun hm => hm.2⟩

theorem FleetBucket.PartialOf.events (h : bucket.PartialOf whole) :
    rowEvents whole.complete = rowEvents bucket.complete + rowEvents (bucket.missing whole) := by
  rw [rowEvents, ← (h.perm.map _).sum_eq, map_append, sum_append]
  rfl

theorem FleetBucket.PartialOf.seconds (h : bucket.PartialOf whole) :
    rowSeconds whole.complete = rowSeconds bucket.complete + rowSeconds (bucket.missing whole) := by
  rw [rowSeconds, ← (h.perm.map _).sum_eq, map_append, sum_append]
  rfl

end Fleet

end QRadarDashboard.CustomRules
