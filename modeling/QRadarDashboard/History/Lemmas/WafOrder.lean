import QRadarDashboard.History.Lemmas.WafWindow

/-!
# The order of the groups
-/

namespace QRadarDashboard.History
open Lib Waf

variable {φ : Type} {normalizer : Normalizer} {a : WafHistoryArgs φ} {start : Int} {st : WafFoldState}

/-! ## Groups -/

def keyedGroups (normalizer : Normalizer) (groups : List WafRequestGroup) : List (EndpointKey × WafRequestGroup) :=
  groups.filterMap (fun group => (groupKey normalizer group).toOption.join.map (fun key => (key, group)))

def unusableGroups (normalizer : Normalizer) (groups : List WafRequestGroup) : List WafRequestGroup :=
  groups.filter (fun group => (groupKey normalizer group).toOption.join.isNone)

def fileGroup (item : EndpointKey × WafRequestGroup) (current : Option HistoryObservation) : HistoryObservation :=
  match current with
  | none => ⟨item.1.1, item.1.2.1, item.1.2.2, item.2.requestCount, item.2.distinctClientCount, item.2.recordCount⟩
  | some current =>
    { current with
      requestCount := current.requestCount + item.2.requestCount
      distinctClients := mergeClients current.distinctClients item.2.distinctClientCount
      recordCount := current.recordCount + item.2.recordCount }

def mergedGroups (normalizer : Normalizer) (groups : List WafRequestGroup) : Dict EndpointKey HistoryObservation :=
  (keyedGroups normalizer groups).foldl (Dict.file (fun item => item.1) fileGroup) []

def placeGroup (acc : Dict EndpointKey HistoryObservation × Nat) (group : WafRequestGroup) :
    Option EndpointKey → Dict EndpointKey HistoryObservation × Nat
  | none => (acc.1, acc.2 + 1)
  | some key => (Dict.file (fun item => item.1) fileGroup acc.1 (key, group), acc.2)

theorem mergeGroup_eq {group named}
    (h : groupKey normalizer group = .ok named) (acc : Dict EndpointKey HistoryObservation × Nat) :
    mergeGroup normalizer acc group = .ok (placeGroup acc group named) := by
  unfold mergeGroup
  rw [h]
  cases named with
  | none => rfl
  | some key =>
    simp only [bind, Except.bind, placeGroup, Dict.file, fileGroup]
    cases acc.1.get? key <;> rfl

theorem foldlM_mergeGroup_iff {groups acc acc'} :
    groups.foldlM (mergeGroup normalizer) acc = .ok acc' ↔
      (∀ group ∈ groups, ∃ named, groupKey normalizer group = .ok named) ∧
        acc' = ((keyedGroups normalizer groups).foldl (Dict.file (fun item => item.1) fileGroup) acc.1,
          acc.2 + (unusableGroups normalizer groups).length) := by
  induction groups generalizing acc with
  | nil =>
    constructor
    · intro h
      cases h
      exact ⟨by simp, rfl⟩
    · rintro ⟨-, rfl⟩
      rfl
  | cons group groups ih =>
    rw [List.foldlM_cons, List.forall_mem_cons]
    cases hkey : groupKey normalizer group with
    | error e =>
      refine ⟨fun h => ?_, fun h => ?_⟩
      · obtain ⟨_, hmerge, _⟩ := bind_ok h
        obtain ⟨_, hnamed, _⟩ := bind_ok hmerge
        rw [hkey] at hnamed
        cases hnamed
      · obtain ⟨_, hnamed⟩ := h.1.1
        cases hnamed
    | ok named =>
      have hjoin : (groupKey normalizer group).toOption.join = named := by
        rw [hkey]
        rfl
      rw [mergeGroup_eq hkey]
      refine Iff.trans (ih : groups.foldlM (mergeGroup normalizer) _ = .ok acc' ↔ _) ?_
      cases named with
      | none =>
        have hkeyed : keyedGroups normalizer (group :: groups) = keyedGroups normalizer groups :=
          List.filterMap_cons_none (by rw [hjoin]; rfl)
        have hunusable : unusableGroups normalizer (group :: groups) = group :: unusableGroups normalizer groups :=
          List.filter_cons_of_pos (by rw [hjoin]; rfl)
        rw [hkeyed, hunusable, List.length_cons, Nat.add_comm _ 1, ← Nat.add_assoc]
        exact ⟨fun h => ⟨⟨⟨none, rfl⟩, h.1⟩, h.2⟩, fun h => ⟨h.1.2, h.2⟩⟩
      | some key =>
        have hkeyed : keyedGroups normalizer (group :: groups) = (key, group) :: keyedGroups normalizer groups :=
          List.filterMap_cons_some (by rw [hjoin]; rfl)
        have hunusable : unusableGroups normalizer (group :: groups) = unusableGroups normalizer groups :=
          List.filter_cons_of_neg (by rw [hjoin]; exact Bool.false_ne_true)
        rw [hkeyed, hunusable, List.foldl_cons]
        exact ⟨fun h => ⟨⟨⟨some key, rfl⟩, h.1⟩, h.2⟩, fun h => ⟨h.1.2, h.2⟩⟩

theorem foldGroups_iff {batch observations unusable} :
    foldGroups normalizer batch = .ok (observations, unusable) ↔
      (∀ group ∈ batch.groups, ∃ named, groupKey normalizer group = .ok named) ∧
        observations = (mergedGroups normalizer batch.groups).map (fun item => item.2) ∧
        unusable = (unusableGroups normalizer batch.groups).length := by
  unfold foldGroups
  rw [bind_eq_ok]
  constructor
  · rintro ⟨acc, hacc, h⟩
    obtain ⟨hkeys, rfl⟩ := foldlM_mergeGroup_iff.mp hacc
    cases h
    exact ⟨hkeys, rfl, Nat.zero_add _⟩
  · rintro ⟨hkeys, rfl, rfl⟩
    refine ⟨_, foldlM_mergeGroup_iff.mpr ⟨hkeys, rfl⟩, ?_⟩
    rw [Nat.zero_add]
    rfl

theorem exists_group_of_mem {batch observations unusable}
    (h : foldGroups normalizer batch = .ok (observations, unusable)) {o} (ho : o ∈ observations) :
    ∃ group ∈ batch.groups, groupKey normalizer group = .ok (some o.key) := by
  have hnamed := (foldGroups_ok h).2 o.key
  have hmem : o ∈ observations.filter (fun other => other.key = o.key) :=
    List.mem_filter.mpr ⟨ho, decide_eq_true rfl⟩
  cases hgroups : batch.groups.filter (names normalizer o.key) with
  | nil =>
    have hnone : namedRequests normalizer batch.groups o.key = none := by rw [namedRequests, hgroups]
    rw [hnone, Option.toList_none, List.map_eq_nil_iff] at hnamed
    rw [hnamed] at hmem
    cases hmem
  | cons group rest =>
    obtain ⟨hgroup, hkey⟩ := List.mem_filter.mp (hgroups ▸ List.mem_cons_self : group ∈ batch.groups.filter _)
    exact ⟨group, hgroup, ok_of_toOption (of_decide_eq_true hkey)⟩

theorem sum_mergedGroups (normalizer : Normalizer) (groups : List WafRequestGroup) :
    (groups.map (fun group => group.requestCount)).sum =
      ((mergedGroups normalizer groups).map (fun item => item.2.requestCount)).sum +
        ((unusableGroups normalizer groups).map (fun group => group.requestCount)).sum := by
  have hmerged : ((mergedGroups normalizer groups).map (fun item => item.2.requestCount)).sum =
      (([] : Dict EndpointKey HistoryObservation).map (fun item => item.2.requestCount)).sum +
        ((keyedGroups normalizer groups).map (fun item => item.2.requestCount)).sum := by
    refine Dict.sum_foldl_file (fun o : HistoryObservation => o.requestCount) _ (fun b o => ?_) _ Dict.nodup_keys_nil
    cases o with
    | none => exact (Int.zero_add _).symm
    | some current => rfl
  rw [hmerged, List.map_nil, List.sum_nil, zero_add]
  exact (Dict.sum_filterMap_add (fun group => (groupKey normalizer group).toOption.join) _ groups).symm

/-! ## What is read of an observation -/

def withoutClients (o : HistoryObservation) : HistoryObservation := { o with distinctClients := none }

/-- No group of a key has a count of clients below zero beside a group of the key without a count. -/
def ClientsSound (normalizer : Normalizer) (groups : List WafRequestGroup) : Prop :=
  ∀ group ∈ groups, ∀ other ∈ groups, groupKey normalizer group = groupKey normalizer other →
    group.distinctClientCount = none → ∀ n, other.distinctClientCount = some n → 0 ≤ n

theorem mem_of_keyed {groups item}
    (h : item ∈ keyedGroups normalizer groups) : item.2 ∈ groups ∧ groupKey normalizer item.2 = .ok (some item.1) := by
  obtain ⟨group, hgroup, hitem⟩ := List.mem_filterMap.mp h
  obtain ⟨key, hkey, rfl⟩ := Option.map_eq_some_iff.mp hitem
  exact ⟨hgroup, ok_of_toOption (Option.join_eq_some_iff.mp hkey)⟩

theorem perm_withoutClients {groups groups'} (h : groups.Perm groups') :
    ((mergedGroups normalizer groups).map (fun item => withoutClients item.2)).Perm
      ((mergedGroups normalizer groups').map (fun item => withoutClients item.2)) := by
  have hperm : ((mergedGroups normalizer groups).map (fun item => (item.1, withoutClients item.2))).Perm
      ((mergedGroups normalizer groups').map (fun item => (item.1, withoutClients item.2))) := by
    refine Dict.perm_map_foldl_file withoutClients ?_ ?_ (h.filterMap _) Dict.nodup_keys_nil
    · intro b o
      cases o <;> rfl
    · intro b _ c _ hkey o
      cases o with
      | none => simp only [fileGroup, withoutClients, hkey, Int.add_comm]
      | some current => simp only [fileGroup, withoutClients, Int.add_right_comm]
  simpa only [List.map_map, Function.comp_def] using hperm.map (fun item => item.2)

theorem mergeClients_comm {b c} (hbc : b = none → ∀ n, c = some n → 0 ≤ n)
    (hcb : c = none → ∀ n, b = some n → 0 ≤ n) (clients : Option Int) :
    mergeClients b c = mergeClients c b ∧
      mergeClients (mergeClients clients b) c = mergeClients (mergeClients clients c) b := by
  cases b with
  | none =>
    cases c with
    | none => exact ⟨rfl, rfl⟩
    | some n => exact ⟨congrArg some (max_eq_right (hbc rfl n rfl)), rfl⟩
  | some m =>
    cases c with
    | none => exact ⟨congrArg some (max_eq_right (hcb rfl m rfl)).symm, rfl⟩
    | some n => exact ⟨congrArg some (max_comm m n), congrArg some (max_right_comm _ m n)⟩

theorem perm_of_clientsSound {groups groups'} (h : groups.Perm groups') (hsound : ClientsSound normalizer groups) :
    ((mergedGroups normalizer groups).map (fun item => item.2)).Perm
      ((mergedGroups normalizer groups').map (fun item => item.2)) := by
  have hperm : ((mergedGroups normalizer groups).map (fun item => (item.1, id item.2))).Perm
      ((mergedGroups normalizer groups').map (fun item => (item.1, id item.2))) := by
    refine Dict.perm_map_foldl_file id (fun b o => by simp) ?_ (h.filterMap _) Dict.nodup_keys_nil
    intro b hb c hc hkey o
    obtain ⟨hb, hbkey⟩ := mem_of_keyed hb
    obtain ⟨hc, hckey⟩ := mem_of_keyed hc
    have hsame : groupKey normalizer b.2 = groupKey normalizer c.2 := by rw [hbkey, hckey, hkey]
    have hclients := mergeClients_comm (hsound _ hb _ hc hsame) (hsound _ hc _ hb hsame.symm)
    cases o with
    | none => simp only [fileGroup, id_eq, hkey, Int.add_comm, (hclients none).1]
    | some current => simp only [fileGroup, id_eq, Int.add_right_comm, (hclients current.distinctClients).2]
  simpa only [List.map_map, Function.comp_def, id_eq] using hperm.map (fun item => item.2)

/-! ## The ledger -/

theorem noteTrackedEndpoint_congr {o o'} (h : o.key = o'.key) :
    noteTrackedEndpoint start st o = noteTrackedEndpoint start st o' := by
  unfold noteTrackedEndpoint
  rw [h]

theorem noteAdmittedEndpoint_congr {o o'} (h : o.key = o'.key) :
    noteAdmittedEndpoint a start st o = noteAdmittedEndpoint a start st o' := by
  have hnew : ∀ id, newEndpoint a start id o = newEndpoint a start id o' := by
    intro id
    simp only [HistoryObservation.key, Prod.mk.injEq] at h
    simp only [newEndpoint, h]
  unfold noteAdmittedEndpoint
  rw [h]
  simp only [hnew]

theorem noteTrackedEndpoint_comm (o o' : HistoryObservation) :
    noteTrackedEndpoint start (noteTrackedEndpoint start st o) o' =
      noteTrackedEndpoint start (noteTrackedEndpoint start st o') o := by
  by_cases hkey : o.key = o'.key
  · rw [noteTrackedEndpoint_congr hkey, noteTrackedEndpoint_congr hkey]
  · have hother : ∀ {o o' : HistoryObservation}, o.key ≠ o'.key →
        (noteTrackedEndpoint start st o).ledger.get? o'.key = st.ledger.get? o'.key := by
      intro o o' hne
      unfold noteTrackedEndpoint
      split
      · rfl
      · split
        · exact (Dict.get?_set _ _ _ _).trans (if_neg (Ne.symm hne))
        · rfl
    have h := hother hkey
    have h' := hother (Ne.symm hkey)
    cases hget : st.ledger.get? o.key with
    | none =>
      have hid : noteTrackedEndpoint start st o = st := by simp only [noteTrackedEndpoint, hget]
      rw [hid]
      conv_rhs => rw [noteTrackedEndpoint, h', hget]
    | some current =>
      cases hget' : st.ledger.get? o'.key with
      | none =>
        have hid : noteTrackedEndpoint start st o' = st := by simp only [noteTrackedEndpoint, hget']
        rw [hid]
        conv_lhs => rw [noteTrackedEndpoint, h, hget']
      | some current' =>
        conv_lhs => rw [noteTrackedEndpoint, h, hget']
        conv_rhs => rw [noteTrackedEndpoint, h', hget]
        simp only [noteTrackedEndpoint, hget, hget']
        by_cases hseen : current.lastSeenAt < start
        · by_cases hseen' : current'.lastSeenAt < start
          · simp only [hseen, hseen', if_true]
            rw [Dict.set_comm hkey (Dict.mem_keys_of_get? hget) (Dict.mem_keys_of_get? hget')]
          · simp only [hseen, hseen', if_true, if_false]
        · by_cases hseen' : current'.lastSeenAt < start
          · simp only [hseen, hseen', if_true, if_false]
          · simp only [hseen, hseen', if_false]

def KeepsIds (before after : WafLedger) : Prop :=
  ∀ key e, before.get? key = some e → ∃ e', after.get? key = some e' ∧ e'.id = e.id

theorem keepsIds_foldl {f : WafFoldState → HistoryObservation → WafFoldState}
    (h : ∀ st o, KeepsIds st.ledger (f st o).ledger) (l : List HistoryObservation) (st : WafFoldState) :
    KeepsIds st.ledger (l.foldl f st).ledger := by
  induction l generalizing st with
  | nil => exact fun key e hget => ⟨e, hget, rfl⟩
  | cons o l ih =>
    intro key e hget
    obtain ⟨middle, hmiddle, hid⟩ := h st o key e hget
    obtain ⟨last, hlast, hid'⟩ := ih (f st o) key middle hmiddle
    exact ⟨last, hlast, hid'.trans hid⟩

theorem keepsIds_set {ledger key e}
    (h : ∀ old, ledger.get? key = some old → e.id = old.id) : KeepsIds ledger (ledger.set key e) := by
  intro key' old hget
  rw [Dict.get?_set]
  by_cases hkey : key' = key
  · rw [if_pos hkey]
    exact ⟨e, rfl, h old (hkey ▸ hget)⟩
  · rw [if_neg hkey]
    exact ⟨old, hget, rfl⟩

theorem keepsIds_noteTrackedEndpoint (st : WafFoldState) (o : HistoryObservation) :
    KeepsIds st.ledger (noteTrackedEndpoint start st o).ledger := by
  unfold noteTrackedEndpoint
  split
  · exact fun key e hget => ⟨e, hget, rfl⟩
  · rename_i current hcurrent
    split
    · exact keepsIds_set (fun old hold => by rw [Option.some.inj (hcurrent.symm.trans hold)])
    · exact fun key e hget => ⟨e, hget, rfl⟩

theorem keepsIds_noteAdmittedEndpoint (st : WafFoldState) (o : HistoryObservation) :
    KeepsIds st.ledger (noteAdmittedEndpoint a start st o).ledger := by
  unfold noteAdmittedEndpoint
  split
  · rename_i hnone
    exact keepsIds_set (fun old hold => by cases hnone.symm.trans hold)
  · rename_i current hcurrent
    exact keepsIds_set (fun old hold => by rw [reactivate, Option.some.inj (hcurrent.symm.trans hold)])

/-! ## Active endpoints -/

def activeEndpoints (ledger : WafLedger) : Nat := ledger.countP (fun entry => entry.2.active)

theorem activeEndpoints_noteTrackedEndpoint (start : Int) (h : st.ledger.keys.Nodup) (o : HistoryObservation) :
    (noteTrackedEndpoint start st o).ledger.keys.Nodup ∧
      activeEndpoints (noteTrackedEndpoint start st o).ledger = activeEndpoints st.ledger := by
  unfold noteTrackedEndpoint
  split
  · exact ⟨h, rfl⟩
  · rename_i current hcurrent
    split
    · refine ⟨Dict.nodup_keys_set h _ _, ?_⟩
      have hcount := Dict.countP_set (fun e : HistoryEndpoint => e.active) h o.key { current with lastSeenAt := start }
      rw [hcurrent] at hcount
      exact Nat.add_right_cancel hcount
    · exact ⟨h, rfl⟩

theorem activeEndpoints_noteAdmittedEndpoint (a : WafHistoryArgs φ) (start : Int) (h : st.ledger.keys.Nodup)
    (o : HistoryObservation) :
    (noteAdmittedEndpoint a start st o).ledger.keys.Nodup ∧
      activeEndpoints (noteAdmittedEndpoint a start st o).ledger ≤ activeEndpoints st.ledger + 1 := by
  have hset : ∀ e : HistoryEndpoint, activeEndpoints (st.ledger.set o.key e) ≤ activeEndpoints st.ledger + 1 := by
    intro e
    have hcount := Dict.countP_set (fun e : HistoryEndpoint => e.active) h o.key e
    have hone := Bool.toNat_le e.active
    unfold activeEndpoints
    omega
  unfold noteAdmittedEndpoint
  split
  · exact ⟨Dict.nodup_keys_set h _ _, hset _⟩
  · exact ⟨Dict.nodup_keys_set h _ _, hset _⟩

theorem activeEndpoints_seen (start : Int) (seen : List HistoryObservation) (h : st.ledger.keys.Nodup) :
    (seen.foldl (noteTrackedEndpoint start) st).ledger.keys.Nodup ∧
      activeEndpoints (seen.foldl (noteTrackedEndpoint start) st).ledger = activeEndpoints st.ledger := by
  induction seen generalizing st with
  | nil => exact ⟨h, rfl⟩
  | cons o seen ih =>
    obtain ⟨hnodup, hcount⟩ := activeEndpoints_noteTrackedEndpoint start h o
    exact ⟨(ih hnodup).1, (ih hnodup).2.trans hcount⟩

theorem activeEndpoints_admitted (a : WafHistoryArgs φ) (start : Int) (admitted : List HistoryObservation)
    (h : st.ledger.keys.Nodup) :
    (admitted.foldl (noteAdmittedEndpoint a start) st).ledger.keys.Nodup ∧
      activeEndpoints (admitted.foldl (noteAdmittedEndpoint a start) st).ledger ≤
        activeEndpoints st.ledger + admitted.length := by
  induction admitted generalizing st with
  | nil => exact ⟨h, Nat.le_refl _⟩
  | cons o admitted ih =>
    obtain ⟨hnodup, hcount⟩ := activeEndpoints_noteAdmittedEndpoint a start h o
    obtain ⟨hnodup, hrest⟩ := ih hnodup
    refine ⟨hnodup, ?_⟩
    rw [List.foldl_cons, List.length_cons]
    omega

theorem activeEndpoints_retired (a : WafHistoryArgs φ) (start : Int) {ledger} (h : ledger.keys.Nodup) :
    (Dict.keys (ledger.map (fun entry => (entry.1, retire a start entry.2)))).Nodup ∧
      activeEndpoints (ledger.map (fun entry => (entry.1, retire a start entry.2))) ≤ activeEndpoints ledger := by
  refine ⟨?_, ?_⟩
  · simpa only [Dict.keys, List.map_map, Function.comp_def] using h
  rw [activeEndpoints, List.countP_map]
  refine List.countP_mono_left (fun entry _ hactive => ?_)
  simp only [Function.comp_apply, retire] at hactive
  split at hactive
  · cases hactive
  · exact hactive

/-! ## The decision -/

structure Reading (e : HistoryObservation → HistoryObservation) (r : WafMetricRow φ → WafMetricRow φ) : Prop where
  candidate : ∀ o, (e o).candidate = o.candidate
  row : ∀ {batch : WafObservationBatch} {coverage : φ} {completeness : BucketCompleteness} {ledger : WafLedger} o m,
    metricRow batch coverage completeness ledger o = .ok m →
      metricRow batch coverage completeness ledger (e o) = .ok (r m)

variable {e : HistoryObservation → HistoryObservation} {r : WafMetricRow φ → WafMetricRow φ}

theorem Reading.key (h : Reading e r) (o : HistoryObservation) : (e o).key = o.key :=
  congrArg (fun c : AdmissionCandidate => (c.virtualHost, c.endpoint, c.method)) (h.candidate o)

theorem Reading.requestCount (h : Reading e r) (o : HistoryObservation) : (e o).requestCount = o.requestCount :=
  congrArg (fun c : AdmissionCandidate => c.requestCount) (h.candidate o)

theorem reading_id : Reading id (id : WafMetricRow φ → WafMetricRow φ) := ⟨fun _ => rfl, fun _ _ h => h⟩

def WafMetricRow.withoutClients (m : WafMetricRow φ) : WafMetricRow φ := { m with distinctClientCount := none }

theorem reading_withoutClients : Reading withoutClients (WafMetricRow.withoutClients (φ := φ)) where
  candidate _ := rfl
  row := by
    intro batch coverage completeness ledger o m h
    unfold metricRow at h ⊢
    rw [show (withoutClients o).key = o.key from rfl]
    cases hget : ledger.get? o.key with
    | none =>
      rw [hget] at h
      cases h
    | some endpoint =>
      rw [hget] at h
      cases h
      rfl

theorem key_eq_of_tie {o o' : HistoryObservation} (ho : o.virtualHost ≠ some "") (ho' : o'.virtualHost ≠ some "")
    (h : admissionOrderKey o.candidate = admissionOrderKey o'.candidate) : o.key = o'.key := by
  have hhost : ∀ x y : Option String, x ≠ some "" → y ≠ some "" → x.getD "" = y.getD "" → x = y := by
    intro x y hx hy hxy
    cases x with
    | none =>
      cases y with
      | none => rfl
      | some y => exact absurd (congrArg some hxy.symm) hy
    | some x =>
      cases y with
      | none => exact absurd (congrArg some hxy) hx
      | some y => exact congrArg some hxy
  simp only [admissionOrderKey, HistoryObservation.candidate, EmbeddingLike.apply_eq_iff_eq, Prod.mk.injEq] at h
  obtain ⟨-, hhosts, hendpoint, hmethod⟩ := h
  exact Prod.ext (hhost _ _ ho ho' hhosts) (Prod.ext hendpoint hmethod)

theorem map_eq_of_map {β : Type} {g : HistoryObservation → β} (hg : ∀ o, g (e o) = g o)
    {l l' : List HistoryObservation} (h : l'.map e = l.map e) : l'.map g = l.map g := by
  have hmap : ∀ l : List HistoryObservation, (l.map e).map g = l.map g := by
    intro l
    rw [List.map_map]
    exact List.map_congr_left (fun o _ => hg o)
  rw [← hmap l', h, hmap]

theorem filter_reading {l l' : List HistoryObservation} (h : (l.map e).Perm (l'.map e)) {p : HistoryObservation → Bool}
    (hp : ∀ o, p (e o) = p o) : ((l.filter p).map e).Perm ((l'.filter p).map e) := by
  have hmap : ∀ l : List HistoryObservation, (l.filter p).map e = (l.map e).filter p := by
    intro l
    rw [List.filter_map]
    simp only [Function.comp_def, hp]
  rw [hmap, hmap]
  exact h.filter _

theorem foldl_noteTrackedEndpoint_reading (hr : Reading e r) {l l' : List HistoryObservation}
    (h : (l.map e).Perm (l'.map e)) (start : Int) (st : WafFoldState) :
    l'.foldl (noteTrackedEndpoint start) st = l.foldl (noteTrackedEndpoint start) st := by
  have hmap : ∀ l : List HistoryObservation,
      (l.map e).foldl (noteTrackedEndpoint start) st = l.foldl (noteTrackedEndpoint start) st := by
    intro l
    rw [List.foldl_map]
    exact List.foldl_ext _ _ _ (fun st o _ => noteTrackedEndpoint_congr (hr.key o))
  rw [← hmap l', ← hmap l]
  exact h.symm.foldl_eq' (fun o _ o' _ st => noteTrackedEndpoint_comm o o') st

theorem foldl_noteAdmittedEndpoint_reading (hr : Reading e r) {l l' : List HistoryObservation}
    (h : l'.map e = l.map e) (a : WafHistoryArgs φ) (start : Int) (st : WafFoldState) :
    l'.foldl (noteAdmittedEndpoint a start) st = l.foldl (noteAdmittedEndpoint a start) st := by
  have hmap : ∀ l : List HistoryObservation,
      (l.map e).foldl (noteAdmittedEndpoint a start) st = l.foldl (noteAdmittedEndpoint a start) st := by
    intro l
    rw [List.foldl_map]
    exact List.foldl_ext _ _ _ (fun st o _ => noteAdmittedEndpoint_congr (hr.key o))
  rw [← hmap l', h, hmap]

theorem decideAdmission_reading (hr : Reading e r) {unseen unseen' : List HistoryObservation}
    (hperm : (unseen.map e).Perm (unseen'.map e)) (hkeys : (unseen.map (fun o => o.key)).Nodup)
    (hhosts : ∀ o ∈ unseen, o.virtualHost ≠ some "") (activeCount : Int) (policy : AdmissionPolicy) :
    let d := decideAdmission HistoryObservation.candidate unseen activeCount policy
    let d' := decideAdmission HistoryObservation.candidate unseen' activeCount policy
    d'.admitted.map e = d.admitted.map e ∧ d'.belowThreshold.map e = d.belowThreshold.map e ∧
      d'.overQuota.map e = d.overQuota.map e := by
  intro d d'
  have hmap : ∀ l : List HistoryObservation, decideAdmission HistoryObservation.candidate (l.map e) activeCount policy =
      ⟨(decideAdmission HistoryObservation.candidate l activeCount policy).admitted.map e,
        (decideAdmission HistoryObservation.candidate l activeCount policy).belowThreshold.map e,
        (decideAdmission HistoryObservation.candidate l activeCount policy).overQuota.map e,
        (decideAdmission HistoryObservation.candidate l activeCount policy).quota⟩ := by
    intro l
    rw [decideAdmission_map]
    simp only [hr.candidate]
  have hsame : decideAdmission HistoryObservation.candidate (unseen.map e) activeCount policy =
      decideAdmission HistoryObservation.candidate (unseen'.map e) activeCount policy := by
    refine decideAdmission_perm hperm ?_
    intro x hx y hy htie
    obtain ⟨o, ho, rfl⟩ := List.mem_map.mp hx
    obtain ⟨o', ho', rfl⟩ := List.mem_map.mp hy
    rw [hr.candidate, hr.candidate] at htie
    rw [List.inj_on_of_nodup_map hkeys ho ho' (key_eq_of_tie (hhosts o ho) (hhosts o' ho') htie)]
  rw [hmap, hmap] at hsame
  simp only [AdmissionDecision.mk.injEq] at hsame
  exact ⟨hsame.1.symm, hsame.2.1.symm, hsame.2.2.1.symm⟩

/-! ## Rows -/

theorem metricRow_isOk {batch} {coverage : φ} {completeness ledger o} :
    (∃ m, metricRow batch coverage completeness ledger o = .ok m) ↔ ledger.get? o.key ≠ none := by
  unfold metricRow
  cases ledger.get? o.key with
  | none => exact ⟨fun ⟨_, h⟩ => (by cases h), fun h => absurd rfl h⟩
  | some endpoint => exact ⟨fun _ => nofun, fun _ => ⟨_, rfl⟩⟩

theorem metricRow_ok {batch coverage completeness ledger o} {m : WafMetricRow φ}
    (h : metricRow batch coverage completeness ledger o = .ok m) :
    m.requestCount = o.requestCount ∧ ∃ endpoint, ledger.get? o.key = some endpoint ∧ m.wafEndpointId = endpoint.id := by
  unfold metricRow at h
  split at h
  · cases h
  · rename_i endpoint hget
    cases h
    exact ⟨rfl, endpoint, hget, rfl⟩

theorem metrics_reading (hr : Reading e r) {batch} {coverage : φ}
    {completeness ledger} {stored stored' : List HistoryObservation}
    {metrics} (hperm : (stored.map e).Perm (stored'.map e))
    (h : stored.mapM (metricRow batch coverage completeness ledger) = .ok metrics) :
    ∃ metrics', stored'.mapM (metricRow batch coverage completeness ledger) = .ok metrics' ∧
      (metrics'.map r).Perm (metrics.map r) := by
  obtain ⟨read, hread, hrows⟩ := perm_of_mapM hperm (mapM_of_map hr.row h)
  have htotal : ∀ o ∈ stored', ∃ m, metricRow batch coverage completeness ledger o = .ok m := by
    intro o ho
    obtain ⟨m, hm⟩ := exists_ok_of_mapM hread (e o) (List.mem_map_of_mem ho)
    rw [metricRow_isOk, ← hr.key o, ← metricRow_isOk]
    exact ⟨m, hm⟩
  obtain ⟨metrics', hmetrics'⟩ := mapM_total htotal
  have hsame := (mapM_of_map hr.row hmetrics').symm.trans hread
  cases hsame
  exact ⟨metrics', hmetrics', hrows⟩

/-! ## One bucket -/

section Bucket

variable [PyFloat φ] {item : HistoryVolumeBucket φ} {f f' : FoldedVolume φ}

def HistoryVolumeBucket.withGroups (item : HistoryVolumeBucket φ) (groups : List WafRequestGroup) :
    HistoryVolumeBucket φ := { item with batch := { item.batch with groups := groups } }

/-- The same bucket row, endpoints and counts, and the same metric rows as far as they are read. -/
structure SameVolume (r : WafMetricRow φ → WafMetricRow φ) (f f' : FoldedVolume φ) : Prop where
  row : f'.row = f.row
  after : f'.after = f.after
  created : f'.created = f.created
  reactivated : f'.reactivated = f.reactivated
  retired : f'.retired = f.retired
  metrics : (f'.metrics.map r).Perm (f.metrics.map r)

theorem foldVolumeBucket_reading (hr : Reading e r) (hhost : ∀ raw, a.normalizer.virtualHost raw ≠ some "")
    {groups : List WafRequestGroup} (hperm : groups.Perm item.batch.groups)
    (hmerged : ((mergedGroups a.normalizer item.batch.groups).map (fun item => e item.2)).Perm
      ((mergedGroups a.normalizer groups).map (fun item => e item.2))) (h : foldVolumeBucket a st item = .ok f) :
    ∃ f', foldVolumeBucket a st (item.withGroups groups) = .ok f' ∧ SameVolume r f f' := by
  obtain ⟨⟨observations, unusable⟩, hgroups, h⟩ := bind_ok h
  obtain ⟨metrics, hrows, h⟩ := bind_ok h
  obtain ⟨hnodup, -⟩ := foldGroups_ok hgroups
  have hhosts : ∀ o ∈ observations, o.virtualHost ≠ some "" := by
    intro o ho
    obtain ⟨group, -, hkey⟩ := exists_group_of_mem hgroups ho
    obtain ⟨endpoint, _, hkey⟩ := bind_ok hkey
    split at hkey
    · have hname := congrArg (fun key : EndpointKey => key.1) (Option.some.inj (Except.ok.inj hkey))
      exact (show o.virtualHost = _ from hname.symm) ▸ hhost group.rawVirtualHost
    · cases hkey
  obtain ⟨hkeys, hobservations, hunusable⟩ := foldGroups_iff.mp hgroups
  set observations' := (mergedGroups a.normalizer groups).map (fun item => item.2)
  have hgroups' : foldGroups a.normalizer (item.withGroups groups).batch = .ok (observations', unusable) := by
    refine foldGroups_iff.mpr ⟨fun group hgroup => hkeys group (hperm.mem_iff.mp hgroup), rfl, ?_⟩
    rw [hunusable]
    exact (hperm.symm.filter _).length_eq
  have hread : (observations.map e).Perm (observations'.map e) := by
    rw [hobservations, List.map_map, List.map_map]
    exact hmerged
  have hparsed : (observations'.map (fun o => o.requestCount)).sum = (observations.map (fun o => o.requestCount)).sum := by
    have hsum := ((hread.map (fun o => o.requestCount)).sum_eq).symm
    simpa only [List.map_map, Function.comp_def, hr.requestCount] using hsum
  -- the observations split by what the ledger tracks of their keys
  have htest : ∀ o, isTracked st.ledger (e o) = isTracked st.ledger o := fun o => by simp only [isTracked, hr.key]
  have htracked := filter_reading hread htest
  have hunseen := filter_reading hread (p := fun o => !isTracked st.ledger o) (fun o => congrArg (!·) (htest o))
  have hseen := foldl_noteTrackedEndpoint_reading hr htracked item.batch.windowStart st
  have hdecision := decideAdmission_reading hr hunseen (hnodup.sublist (List.filter_sublist.map _))
    (fun o ho => hhosts o (List.mem_of_mem_filter ho)) (st.ledger.countP (fun entry => entry.2.active)) a.policy
  set d := decideAdmission HistoryObservation.candidate (observations.filter (fun o => !isTracked st.ledger o))
    (st.ledger.countP (fun entry => entry.2.active)) a.policy
  set d' := decideAdmission HistoryObservation.candidate (observations'.filter (fun o => !isTracked st.ledger o))
    (st.ledger.countP (fun entry => entry.2.active)) a.policy
  obtain ⟨hadmitted, hbelow, hover⟩ := hdecision
  set seen := (observations.filter (isTracked st.ledger)).foldl (noteTrackedEndpoint item.batch.windowStart) st
  have hstate := foldl_noteAdmittedEndpoint_reading hr hadmitted a item.batch.windowStart seen
  have hstored : ((observations.filter (isTracked st.ledger) ++ d.admitted).map e).Perm
      ((observations'.filter (isTracked st.ledger) ++ d'.admitted).map e) := by
    rw [List.map_append, List.map_append, hadmitted]
    exact htracked.append_right _
  obtain ⟨metrics', hmetrics', hsame⟩ := metrics_reading hr hstored hrows
  have huntracked : d'.untracked.map e = d.untracked.map e := by
    rw [AdmissionDecision.untracked, AdmissionDecision.untracked, List.map_append, List.map_append, hbelow, hover]
  have hlength : ∀ {l l' : List HistoryObservation}, l'.map e = l.map e → l'.length = l.length := by
    intro l l' hmap
    simpa only [List.length_map] using congrArg List.length hmap
  have hcount : ∀ {l l' : List HistoryObservation} {p : EndpointKey → Bool}, l'.map e = l.map e →
      l'.countP (fun o => p o.key) = l.countP (fun o => p o.key) := by
    intro l l' p hmap
    have hkeys := map_eq_of_map (g := fun o => p o.key) (fun o => congrArg p (hr.key o)) hmap
    simpa only [List.countP_map, Function.comp_def, id_eq] using congrArg (List.countP id) hkeys
  cases h
  refine ⟨_, bind_eq_ok.mpr ⟨_, hgroups', bind_eq_ok.mpr ⟨metrics', ?_, rfl⟩⟩, ?_⟩
  · simp only [HistoryVolumeBucket.withGroups, hparsed]
    rw [hseen, hstate]
    exact hmetrics'
  · refine ⟨?_, ?_, ?_, ?_, ?_, hsame⟩
    · have htruncated : d'.truncated = d.truncated := by
        have hover := congrArg List.isEmpty hover
        rw [List.isEmpty_map, List.isEmpty_map] at hover
        rw [AdmissionDecision.truncated, AdmissionDecision.truncated, hover]
      have hrequests := map_eq_of_map (g := fun o => o.requestCount) hr.requestCount huntracked
      have hobserved : observations'.length = observations.length := by
        simpa only [List.length_map] using hread.symm.length_eq
      have hseenLength : (observations'.filter (isTracked st.ledger)).length =
          (observations.filter (isTracked st.ledger)).length := by
        simpa only [List.length_map] using htracked.symm.length_eq
      simp only [HistoryVolumeBucket.withGroups, hparsed, hperm.length_eq, hobserved, hseenLength]
      rw [hlength hadmitted, hlength hbelow, hlength hover, hlength huntracked, hrequests, htruncated]
      rfl
    · dsimp only [HistoryVolumeBucket.withGroups]
      rw [hseen, hstate]
    · dsimp only [HistoryVolumeBucket.withGroups]
      rw [hseen]
      exact hcount (p := fun key => (seen.ledger.get? key).isNone) hadmitted
    · dsimp only [HistoryVolumeBucket.withGroups]
      rw [hseen]
      exact hcount (p := fun key => (seen.ledger.get? key).isSome) hadmitted
    · dsimp only [HistoryVolumeBucket.withGroups]
      rw [hseen, hstate]

/-! ## What a bucket stores -/

theorem requests_conserved (h : foldVolumeBucket a st item = .ok f) :
    (item.batch.groups.map (fun group => group.requestCount)).sum =
      (f.metrics.map (fun m => m.requestCount)).sum + f.row.untrackedRequests +
        ((unusableGroups a.normalizer item.batch.groups).map (fun group => group.requestCount)).sum := by
  obtain ⟨⟨observations, unusable⟩, hgroups, h⟩ := bind_ok h
  obtain ⟨metrics, hrows, h⟩ := bind_ok h
  obtain ⟨-, hobservations, -⟩ := foldGroups_iff.mp hgroups
  have hparts : ((observations.filter (isTracked st.ledger) ++
      observations.filter (fun o => !isTracked st.ledger o)).map (fun o => o.requestCount)).sum =
        (observations.map (fun o => o.requestCount)).sum :=
    ((List.filter_append_perm _ observations).map _).sum_eq
  have hdecided : ((decideAdmission HistoryObservation.candidate (observations.filter (fun o => !isTracked st.ledger o))
      (st.ledger.countP (fun entry => entry.2.active)) a.policy).admitted ++
      (decideAdmission HistoryObservation.candidate (observations.filter (fun o => !isTracked st.ledger o))
        (st.ledger.countP (fun entry => entry.2.active)) a.policy).untracked).Perm
          (observations.filter (fun o => !isTracked st.ledger o)) := decideAdmission_partition
  have hdecided := (hdecided.map (fun o => o.requestCount)).sum_eq
  have hstored := map_eq_of_mapM (fun o m hm => (metricRow_ok hm).1) hrows
  have hgroups := sum_mergedGroups a.normalizer item.batch.groups
  have hmerged : ((mergedGroups a.normalizer item.batch.groups).map (fun item => item.2.requestCount)).sum =
      (observations.map (fun o => o.requestCount)).sum := by
    rw [hobservations, List.map_map]
    rfl
  cases h
  rw [hgroups, hmerged, ← hparts, hstored]
  simp only [List.map_append, List.sum_append] at hdecided ⊢
  omega

theorem tracked_has_row (h : foldVolumeBucket a st item = .ok f) {key endpoint}
    (hget : st.ledger.get? key = some endpoint) (hactive : endpoint.active = true)
    (hnamed : ∃ group ∈ item.batch.groups, groupKey a.normalizer group = .ok (some key)) :
    ∃ m ∈ f.metrics, m.wafEndpointId = endpoint.id ∧
      namedRequests a.normalizer item.batch.groups key = some m.requestCount := by
  obtain ⟨⟨observations, unusable⟩, hgroups, h⟩ := bind_ok h
  obtain ⟨metrics, hrows, h⟩ := bind_ok h
  have hobserved := (foldGroups_ok hgroups).2 key
  obtain ⟨group, hgroup, hkey⟩ := hnamed
  have hmem : group ∈ item.batch.groups.filter (names a.normalizer key) := by
    refine List.mem_filter.mpr ⟨hgroup, decide_eq_true ?_⟩
    rw [hkey]
    rfl
  obtain ⟨n, hn⟩ : ∃ n, namedRequests a.normalizer item.batch.groups key = some n := by
    unfold namedRequests
    split
    · rename_i hnil
      rw [hnil] at hmem
      cases hmem
    · exact ⟨_, rfl⟩
  rw [hn, Option.toList_some] at hobserved
  obtain ⟨o, hone, rfl⟩ := List.map_eq_singleton_iff.mp hobserved
  obtain ⟨ho, hkey⟩ := List.mem_filter.mp (hone ▸ List.mem_singleton_self o : o ∈ observations.filter _)
  have hkey : o.key = key := of_decide_eq_true hkey
  have htracked : o ∈ observations.filter (isTracked st.ledger) := by
    refine List.mem_filter.mpr ⟨ho, ?_⟩
    rw [isTracked, hkey, hget]
    exact hactive
  obtain ⟨m, hmem, hm⟩ := exists_mem_of_mapM hrows o (List.mem_append_left _ htracked)
  obtain ⟨seen, hseen, hid⟩ := keepsIds_foldl keepsIds_noteTrackedEndpoint (observations.filter (isTracked st.ledger)) st
    key endpoint hget
  obtain ⟨hrequests, own, hown, hrow⟩ := metricRow_ok hm
  obtain ⟨last, hlast, hid'⟩ := keepsIds_foldl keepsIds_noteAdmittedEndpoint _ _ key seen hseen
  rw [hkey] at hown
  have hsame := Option.some.inj (hown.symm.trans hlast)
  cases h
  exact ⟨m, hmem, by rw [hrow, hsame, hid', hid], by rw [hn, hrequests]⟩

theorem foldVolumeBucket_active (hnodup : st.ledger.keys.Nodup) (h : foldVolumeBucket a st item = .ok f) :
    f.after.ledger.keys.Nodup ∧ (activeEndpoints f.after.ledger : Int) ≤ max a.policy.maxActive (activeEndpoints st.ledger) := by
  obtain ⟨⟨observations, unusable⟩, _, h⟩ := bind_ok h
  obtain ⟨metrics, _, h⟩ := bind_ok h
  have hroom : (activeEndpoints st.ledger : Int) + (decideAdmission HistoryObservation.candidate
      (observations.filter (fun o => !isTracked st.ledger o)) (activeEndpoints st.ledger) a.policy).admitted.length ≤
        max a.policy.maxActive (activeEndpoints st.ledger) := active_add_admitted_le
  obtain ⟨hseen, hcount⟩ := activeEndpoints_seen item.batch.windowStart
    (observations.filter (isTracked st.ledger)) hnodup
  obtain ⟨hadmitted, hle⟩ := activeEndpoints_admitted a item.batch.windowStart
    (decideAdmission HistoryObservation.candidate (observations.filter (fun o => !isTracked st.ledger o))
      (activeEndpoints st.ledger) a.policy).admitted hseen
  cases h
  obtain ⟨hkeys, hretired⟩ := activeEndpoints_retired a item.batch.windowStart hadmitted
  refine ⟨hkeys, (Int.ofNat_le.mpr hretired).trans ?_⟩
  omega

theorem foldVolumes_active {items previous folded st'} (hnodup : st.ledger.keys.Nodup)
    (h : foldVolumes a st previous items = .ok (folded, st')) :
    ∀ f ∈ folded, (activeEndpoints f.after.ledger : Int) ≤ max a.policy.maxActive (activeEndpoints st.ledger) := by
  induction items generalizing previous st folded with
  | nil =>
    cases h
    simp
  | cons item items ih =>
    obtain ⟨_, -, h⟩ := bind_ok h
    obtain ⟨f, hf, h⟩ := bind_ok h
    obtain ⟨⟨rest, st₁⟩, hrest, h⟩ := bind_ok h
    cases h
    obtain ⟨hkeys, hfirst⟩ := foldVolumeBucket_active hnodup hf
    refine List.forall_mem_cons.mpr ⟨hfirst, fun g hg => ?_⟩
    have hlater := ih hkeys hrest g hg
    omega

end Bucket

end QRadarDashboard.History
