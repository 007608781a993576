import QRadarDashboard.Catchall.Fold

/-!
# Senders admitted
-/

namespace QRadarDashboard.Catchall
open Lib Waf

variable {u : UnicodeTables} {rows rows' : List CatchallSenderRow} {ledger ledger' : SenderLedger}
  {measurement : CatchallMeasurement} {policy : AdmissionPolicy} {topN : Int} {fact : CatchallBucketFact}

/-! ## The merged senders -/

theorem nodup_mergedSenders (u : UnicodeTables) (rows : List CatchallSenderRow) : (mergedSenders u rows).keys.Nodup :=
  Dict.nodup_keys_foldl_file _ List.nodup_nil

theorem mergedSenders_perm (h : rows.Perm rows') : (mergedSenders u rows).Perm (mergedSenders u rows') := by
  refine Dict.perm_foldl_file (fun a b o _ => ?_) (h.filterMap _) List.nodup_nil
  simp only [Option.getD_some]
  omega

theorem sum_events (u : UnicodeTables) (rows : List CatchallSenderRow) : (rows.map (fun row => row.events)).sum =
    ((identified u rows).map (fun item => item.2.events)).sum +
      ((invalidRows u rows).map (fun row => row.events)).sum :=
  (Dict.sum_filterMap_add (fun row => sanitizeIdentifier u row.sender) (fun row => row.events) rows).symm

theorem sum_mergedSenders (u : UnicodeTables) (rows : List CatchallSenderRow) :
    ((mergedSenders u rows).map (fun item => item.2)).sum =
      ((identified u rows).map (fun item => item.2.events)).sum := by
  have h : ((mergedSenders u rows).map (fun item => item.2)).sum = (([] : Dict String Nat).map (fun item => item.2)).sum +
      ((identified u rows).map (fun item => item.2.events)).sum :=
    Dict.sum_foldl_file (fun events => events) _ (fun b o => by cases o <;> rfl) _ List.nodup_nil
  rwa [List.map_nil, List.sum_nil, zero_add] at h

/-! ## One bucket -/

def trackedSenders (u : UnicodeTables) (rows : List CatchallSenderRow) (ledger : SenderLedger) : Dict String Nat :=
  (mergedSenders u rows).filter (fun item => decide (item.1 ∈ ledger.active))

def unseenSenders (u : UnicodeTables) (rows : List CatchallSenderRow) (ledger : SenderLedger) : Dict String Nat :=
  (mergedSenders u rows).filter (fun item => decide (item.1 ∉ ledger.active))

def senderDecision (u : UnicodeTables) (rows : List CatchallSenderRow) (ledger : SenderLedger)
    (policy : AdmissionPolicy) : AdmissionDecision (String × Nat) :=
  decideAdmission senderCandidate (unseenSenders u rows ledger) ledger.active.card policy

theorem senders_untied {item other}
    (h : admissionOrderKey (senderCandidate item) = admissionOrderKey (senderCandidate other)) : item = other := by
  simp only [admissionOrderKey, senderCandidate, EmbeddingLike.apply_eq_iff_eq, Prod.mk.injEq] at h
  exact Prod.ext h.2.2.1 (by omega)

theorem senderDecision_perm (h : rows.Perm rows') (ledger : SenderLedger) (policy : AdmissionPolicy) :
    senderDecision u rows ledger policy = senderDecision u rows' ledger policy :=
  decideAdmission_perm ((mergedSenders_perm h).filter _) (fun _ _ _ _ htie => senders_untied htie)

theorem senderDecision_partition : ((senderDecision u rows ledger policy).admitted ++
    (senderDecision u rows ledger policy).untracked).Perm (unseenSenders u rows ledger) := decideAdmission_partition

theorem nodup_admitted : ((senderDecision u rows ledger policy).admitted.map (fun item => item.1)).Nodup :=
  nodup_map_admitted (Dict.nodup_keys_filter (nodup_mergedSenders u rows) _)

theorem not_tracked_of_admitted {item} (h : item ∈ (senderDecision u rows ledger policy).admitted) :
    item.1 ∉ ledger.active := of_decide_eq_true (List.mem_filter.mp (mem_unseen_of_admitted h)).2

theorem stored_eq : (senderDecision u rows ledger policy).admitted.foldl
    (fun (tracked : Dict String Nat) item => tracked.set item.1 item.2) (trackedSenders u rows ledger) =
      trackedSenders u rows ledger ++ (senderDecision u rows ledger policy).admitted := by
  rw [Dict.foldl_set_of_nodup (fun item : String × Nat => item.1) (fun item => item.2), List.map_id']
  refine List.nodup_append.mpr ⟨Dict.nodup_keys_filter (nodup_mergedSenders u rows) _, nodup_admitted, ?_⟩
  intro key hkey key' hkey' heq
  obtain ⟨item, hitem, rfl⟩ := List.mem_map.mp hkey
  obtain ⟨item', hitem', rfl⟩ := List.mem_map.mp hkey'
  exact not_tracked_of_admitted hitem' (heq ▸ of_decide_eq_true (List.mem_filter.mp hitem).2)

def storedSenders (u : UnicodeTables) (rows : List CatchallSenderRow) (ledger : SenderLedger)
    (policy : AdmissionPolicy) : Dict String Nat :=
  trackedSenders u rows ledger ++ (senderDecision u rows ledger policy).admitted

theorem foldSourceBucket_eq (htop : ¬ topN < 1) : foldSourceBucket u rows ledger measurement policy topN =
    .ok
      ({ measurement := measurement
         events := (rows.map (fun row => row.events)).sum
         records := (rows.map (fun row => row.records)).sum
         distinctSenders := (mergedSenders u rows).length + (invalidRows u rows).length
         distinctSendersLowerBound := measurement = .lowerBound
         topSenders := (sortOn topOrder (storedSenders u rows ledger policy)).take topN.toNat
         admitted := (sortOn id ((senderDecision u rows ledger policy).admitted.map (fun item => item.1))).length
         belowAdmissionThreshold := (senderDecision u rows ledger policy).belowThreshold.length
         rejectedOverQuota := (senderDecision u rows ledger policy).overQuota.length
         untrackedSenders := (senderDecision u rows ledger policy).untracked.length + (invalidRows u rows).length
         untrackedEvents := ((senderDecision u rows ledger policy).untracked.map (fun item => item.2)).sum +
           ((invalidRows u rows).map (fun row => row.events)).sum
         admittedIdentifiers := sortOn id ((senderDecision u rows ledger policy).admitted.map (fun item => item.1))
         trackedEvents := storedSenders u rows ledger policy },
        ⟨ledger.active ∪
          (sortOn id ((senderDecision u rows ledger policy).admitted.map (fun item => item.1))).toFinset⟩) := by
  rw [foldSourceBucket, if_neg htop, storedSenders, ← stored_eq]
  rfl

theorem top_pos_of_ok {after}
    (h : foldSourceBucket u rows ledger measurement policy topN = .ok (fact, after)) : ¬ topN < 1 := by
  intro htop
  rw [foldSourceBucket, if_pos htop] at h
  cases h

theorem storedSenders_perm (h : rows.Perm rows') (ledger : SenderLedger) (policy : AdmissionPolicy) :
    (storedSenders u rows ledger policy).Perm (storedSenders u rows' ledger policy) := by
  rw [storedSenders, storedSenders, senderDecision_perm h]
  exact ((mergedSenders_perm h).filter _).append_right _

theorem foldSourceBucket_perm (h : rows.Perm rows') {after}
    (hok : foldSourceBucket u rows ledger measurement policy topN = .ok (fact, after)) :
    ∃ stored, stored.Perm fact.trackedEvents ∧ foldSourceBucket u rows' ledger measurement policy topN =
      .ok ({ fact with trackedEvents := stored }, after) := by
  have htopN := top_pos_of_ok hok
  have hstored := storedSenders_perm (u := u) h ledger policy
  have htop : sortOn topOrder (storedSenders u rows' ledger policy) = sortOn topOrder (storedSenders u rows ledger policy) := by
    refine sortOn_eq_of_perm hstored.symm (fun a _ b _ htie => ?_)
    simp only [topOrder, EmbeddingLike.apply_eq_iff_eq, Prod.mk.injEq] at htie
    exact Prod.ext htie.2 (by omega)
  have hinvalid : (invalidRows u rows').Perm (invalidRows u rows) := h.symm.filter _
  rw [foldSourceBucket_eq htopN] at hok
  cases hok
  refine ⟨storedSenders u rows' ledger policy, hstored.symm, ?_⟩
  rw [foldSourceBucket_eq htopN, htop, ← senderDecision_perm h, (h.symm.map (fun row => row.events)).sum_eq,
    (h.symm.map (fun row => row.records)).sum_eq, (mergedSenders_perm h.symm).length_eq, hinvalid.length_eq,
    (hinvalid.map (fun row => row.events)).sum_eq]

theorem total_events {after} (hok : foldSourceBucket u rows ledger measurement policy topN = .ok (fact, after)) :
    fact.events = (rows.map (fun row => row.events)).sum := by
  rw [foldSourceBucket_eq (top_pos_of_ok hok)] at hok
  cases hok
  rfl

theorem events_conserved {after} (hok : foldSourceBucket u rows ledger measurement policy topN = .ok (fact, after)) :
    fact.events = (fact.trackedEvents.map (fun item => item.2)).sum + fact.untrackedEvents := by
  have hparts : ((senderDecision u rows ledger policy).admitted ++
      (senderDecision u rows ledger policy).untracked).Perm (unseenSenders u rows ledger) := senderDecision_partition
  have hpartition := (hparts.map (fun item => item.2)).sum_eq
  have hmerged : ((trackedSenders u rows ledger ++ unseenSenders u rows ledger).map (fun item => item.2)).sum =
      ((mergedSenders u rows).map (fun item => item.2)).sum := by
    refine List.Perm.sum_eq (List.Perm.map _ ?_)
    have hnot : unseenSenders u rows ledger =
        (mergedSenders u rows).filter (fun item => !decide (item.1 ∈ ledger.active)) := by
      simp only [unseenSenders, decide_not]
    rw [hnot]
    exact List.filter_append_perm _ _
  rw [sum_mergedSenders] at hmerged
  have hevents := sum_events u rows
  rw [foldSourceBucket_eq (top_pos_of_ok hok)] at hok
  cases hok
  simp only [storedSenders, List.map_append, List.sum_append] at hpartition hmerged ⊢
  omega

def senderEvents (u : UnicodeTables) (rows : List CatchallSenderRow) (name : String) : Nat :=
  ((rows.filter (fun row => sanitizeIdentifier u row.sender = some name)).map (fun row => row.events)).sum

theorem identified_of_name (u : UnicodeTables) (rows : List CatchallSenderRow) (name : String) :
    ((identified u rows).filter (fun item => item.1 = name)).map (fun item => item.2.events) =
      (rows.filter (fun row => sanitizeIdentifier u row.sender = some name)).map (fun row => row.events) := by
  induction rows with
  | nil => rfl
  | cons row rows ih =>
    simp only [identified] at ih ⊢
    cases hid : sanitizeIdentifier u row.sender with
    | none =>
      rw [List.filterMap_cons_none (by rw [hid]; rfl), ih, List.filter_cons_of_neg (by simp [hid])]
    | some identifier =>
      rw [List.filterMap_cons_some (b := (identifier, row)) (by rw [hid]; rfl), List.filter_cons, List.filter_cons]
      by_cases hname : identifier = name
      · simp [hid, hname, ih]
      · simp [hid, hname, ih]

theorem foldl_events (items : List (String × CatchallSenderRow)) (o : Option Nat) (h : o.isSome ∨ items ≠ []) :
    items.foldl (fun o item => some (o.getD 0 + item.2.events)) o =
      some (o.getD 0 + (items.map (fun item => item.2.events)).sum) := by
  induction items generalizing o with
  | nil =>
    obtain ⟨events, rfl⟩ := Option.isSome_iff_exists.mp (h.resolve_right (fun hne => hne rfl))
    rfl
  | cons item items ih =>
    rw [List.foldl_cons, ih _ (.inl rfl), List.map_cons, List.sum_cons, Option.getD_some, Nat.add_assoc]

theorem tracked_stored {after name} (hname : name ∈ ledger.active)
    (hrow : ∃ row ∈ rows, sanitizeIdentifier u row.sender = some name)
    (hok : foldSourceBucket u rows ledger measurement policy topN = .ok (fact, after)) :
    (name, senderEvents u rows name) ∈ fact.trackedEvents := by
  have hget : (mergedSenders u rows).get? name = some (senderEvents u rows name) := by
    rw [mergedSenders, Dict.get?_foldl_file, Dict.get?_nil, foldl_events, Option.getD_none, Nat.zero_add,
      identified_of_name]
    · rfl
    · right
      obtain ⟨row, hrow, hid⟩ := hrow
      refine List.ne_nil_of_mem (a := (name, row)) (List.mem_filter.mpr ⟨?_, decide_eq_true rfl⟩)
      exact List.mem_filterMap.mpr ⟨row, hrow, by rw [hid]; rfl⟩
  rw [foldSourceBucket_eq (top_pos_of_ok hok)] at hok
  cases hok
  refine List.mem_append_left _ (List.mem_filter.mpr ⟨Dict.mem_of_get? hget, decide_eq_true hname⟩)

theorem active_card_le {after} (hok : foldSourceBucket u rows ledger measurement policy topN = .ok (fact, after)) :
    (after.active.card : Int) ≤ max policy.maxActive ledger.active.card := by
  have hadmitted : (ledger.active.card : Int) + (senderDecision u rows ledger policy).admitted.length ≤
      max policy.maxActive ledger.active.card := active_add_admitted_le
  rw [foldSourceBucket_eq (top_pos_of_ok hok)] at hok
  cases hok
  set admitted := sortOn id ((senderDecision u rows ledger policy).admitted.map (fun item => item.1))
  have hcard : (ledger.active ∪ admitted.toFinset).card ≤ ledger.active.card + admitted.length :=
    (Finset.card_union_le _ _).trans (Nat.add_le_add_left (List.toFinset_card_le _) _)
  have hlength : admitted.length = (senderDecision u rows ledger policy).admitted.length := by
    rw [(sortOn_perm _).length_eq, List.length_map]
  have hle : ((ledger.active ∪ admitted.toFinset).card : Int) ≤ max policy.maxActive ledger.active.card := by omega
  exact hle

theorem foldSourceBuckets_card_le {buckets facts after}
    (hok : foldSourceBuckets u policy topN ledger buckets = .ok (facts, after)) :
    (after.active.card : Int) ≤ max policy.maxActive ledger.active.card := by
  induction buckets generalizing ledger facts with
  | nil =>
    cases hok
    exact le_max_right _ _
  | cons bucket buckets ih =>
    rw [foldSourceBuckets] at hok
    obtain ⟨⟨fact, middle⟩, hfirst, hok⟩ := bind_ok hok
    obtain ⟨⟨rest, last⟩, hrest, hok⟩ := bind_ok hok
    cases hok
    have hmiddle := active_card_le hfirst
    have hlast := ih hrest
    omega

end QRadarDashboard.Catchall
