import QRadarDashboard.Detectors.Novelty
import QRadarDashboard.History.Lemmas.WafRun
import QRadarDashboard.Ips.Lemmas.MeasuredZero
import QRadarDashboard.Lib.FirstSeen

/-!
# What a bucket says of the keys it did not admit
-/

namespace QRadarDashboard.Detectors
open Lib Waf Ips History

/-! ## Endpoints -/

section Endpoints

variable {φ : Type} {a : WafHistoryArgs φ} {start : Int} {ledger ledger' : WafLedger}

/-- A bucket whose record lost no group and no endpoint has fewer than `least` requests for the key. -/
def BelowAdmission (least : Int) (p : Normalizer × FoldedVolume φ) (key : EndpointKey) : Prop :=
  p.2.row.groupsTruncated = false → p.2.row.admissionTruncated = false →
    (namedRequests p.1 p.2.batch.groups key).getD 0 < least

def endpointFirstSeen (ledger : WafLedger) (key : EndpointKey) : Option Int :=
  (ledger.get? key).map (fun e => e.firstSeenAt)

structure WafLedgerNamed (ledger : WafLedger) : Prop where
  nodup : ledger.keys.Nodup
  named : ∀ key e, ledger.get? key = some e → e.key = key

theorem WafLedgerNamed.set (h : WafLedgerNamed ledger) {key e} (he : e.key = key) :
    WafLedgerNamed (ledger.set key e) := by
  refine ⟨Dict.nodup_keys_set h.nodup key e, fun key' e' hget => ?_⟩
  rw [Dict.get?_set] at hget
  split at hget
  · rename_i hkey
    rw [← Option.some.inj hget, he, hkey]
  · exact h.named key' e' hget

structure Appears (start : Int) (before after : WafLedger) : Prop where
  named : WafLedgerNamed before → WafLedgerNamed after
  kept : ∀ key, after.get? key = none → before.get? key = none
  added : ∀ key s, endpointFirstSeen after key = some s →
    endpointFirstSeen before key = some s ∨ (endpointFirstSeen before key = none ∧ start = s)

theorem Appears.refl (ledger : WafLedger) : Appears start ledger ledger :=
  ⟨fun h => h, fun _ h => h, fun _ _ h => Or.inl h⟩

theorem Appears.trans {l₁ l₂ l₃} (h₁ : Appears start l₁ l₂) (h₂ : Appears start l₂ l₃) : Appears start l₁ l₃  where
  named h := h₂.named (h₁.named h)
  kept key h := h₁.kept key (h₂.kept key h)
  added := by
    intro key s h
    rcases h₂.added key s h with hmid | ⟨hnone, hstart⟩
    · exact h₁.added key s hmid
    · exact Or.inr ⟨Option.map_eq_none_iff.mpr (h₁.kept key (Option.map_eq_none_iff.mp hnone)), hstart⟩

theorem appears_set {key e}
    (hold : ∀ old, ledger.get? key = some old → e.firstSeenAt = old.firstSeenAt ∧ (old.key = key → e.key = key))
    (hnew : ledger.get? key = none → start = e.firstSeenAt ∧ e.key = key) :
    Appears start ledger (ledger.set key e) where
  named h := by
    refine h.set ?_
    cases hget : ledger.get? key with
    | none => exact (hnew hget).2
    | some old => exact (hold old hget).2 (h.named key old hget)
  kept key' h := by
    rw [Dict.get?_set] at h
    split at h
    · cases h
    · exact h
  added := by
    intro key' s h
    unfold endpointFirstSeen at h ⊢
    rw [Dict.get?_set] at h
    split at h
    · rename_i hkey
      rw [hkey]
      have hs := Option.some.inj h
      cases hget : ledger.get? key with
      | none => exact Or.inr ⟨rfl, (hnew hget).1.trans hs⟩
      | some old => exact Or.inl (congrArg some ((hold old hget).1.symm.trans hs))
    · exact Or.inl h

theorem appears_noteTrackedEndpoint (start : Int) (st : WafFoldState) (o : HistoryObservation) :
    Appears start st.ledger (noteTrackedEndpoint start st o).ledger := by
  unfold noteTrackedEndpoint
  cases hget : st.ledger.get? o.key with
  | none => exact Appears.refl _
  | some current =>
    dsimp only
    split
    · refine appears_set (fun old hold => ?_) (fun hnone => ?_)
      · cases hget.symm.trans hold
        exact ⟨rfl, fun h => h⟩
      · cases hget.symm.trans hnone
    · exact Appears.refl _

theorem appears_noteAdmittedEndpoint (st : WafFoldState) (o : HistoryObservation) :
    Appears start st.ledger (noteAdmittedEndpoint a start st o).ledger := by
  unfold noteAdmittedEndpoint
  cases hget : st.ledger.get? o.key with
  | none =>
    refine appears_set (fun old hold => ?_) (fun _ => ⟨rfl, rfl⟩)
    cases hget.symm.trans hold
  | some current =>
    refine appears_set (fun old hold => ?_) (fun hnone => ?_)
    · cases hget.symm.trans hold
      exact ⟨rfl, fun h => h⟩
    · cases hget.symm.trans hnone

theorem appears_foldl {f : WafFoldState → HistoryObservation → WafFoldState}
    (h : ∀ st o, Appears start st.ledger (f st o).ledger) (l : List HistoryObservation) (st : WafFoldState) :
    Appears start st.ledger (l.foldl f st).ledger := by
  induction l generalizing st with
  | nil => exact Appears.refl _
  | cons o l ih => exact (h st o).trans (ih _)

theorem appears_retired (ledger : WafLedger) :
    Appears start ledger (ledger.map (fun entry => (entry.1, retire a start entry.2))) where
  named h := by
    refine ⟨?_, fun key e hget => ?_⟩
    · have hkeys : Dict.keys (ledger.map (fun entry => (entry.1, retire a start entry.2))) = ledger.keys := by
        simp [Dict.keys, Function.comp_def]
      rw [hkeys]
      exact h.nodup
    · rw [get?_retired, Option.map_eq_some_iff] at hget
      obtain ⟨old, hold, rfl⟩ := hget
      exact (retire_key old).trans (h.named key old hold)
  kept key h := by
    rw [get?_retired] at h
    exact Option.map_eq_none_iff.mp h
  added := by
    intro key s h
    have hfirst : ∀ e : HistoryEndpoint, (retire a start e).firstSeenAt = e.firstSeenAt := by
      intro e
      unfold retire
      split <;> rfl
    unfold endpointFirstSeen at h ⊢
    rw [get?_retired, Option.map_map] at h
    simp only [Function.comp_def, hfirst] at h
    exact Or.inl h

theorem admitted_in_ledger {admitted : List HistoryObservation} {o} (ho : o ∈ admitted)
    (st : WafFoldState) : (admitted.foldl (noteAdmittedEndpoint a start) st).ledger.get? o.key ≠ none := by
  induction admitted generalizing st with
  | nil => cases ho
  | cons first admitted ih =>
    rcases List.mem_cons.mp ho with rfl | ho
    · intro hnone
      have hbefore := (appears_foldl appears_noteAdmittedEndpoint admitted _).kept _ hnone
      unfold noteAdmittedEndpoint at hbefore
      split at hbefore
      · rw [Dict.get?_set, if_pos rfl] at hbefore
        cases hbefore
      · rw [Dict.get?_set, if_pos rfl] at hbefore
        cases hbefore
    · exact ih ho _

structure BucketAppears (a : WafHistoryArgs φ) (st : WafFoldState) (item : HistoryVolumeBucket φ)
    (f : FoldedVolume φ) : Prop where
  batch : f.batch = item.batch
  row : f.row.bucketStart = f.batch.windowStart
  appears : Appears f.batch.windowStart st.ledger f.after.ledger
  below : ∀ key, f.after.ledger.get? key = none → BelowAdmission a.policy.minRequests (a.normalizer, f) key

theorem foldVolumeBucket_appears [PyFloat φ] {st item f}
    (hleast : 1 ≤ a.policy.minRequests) (hfold : foldVolumeBucket a st item = .ok f) : BucketAppears a st item f := by
  obtain ⟨⟨observations, unusable⟩, hgroups, hfold⟩ := bind_ok hfold
  obtain ⟨metrics, hrows, hfold⟩ := bind_ok hfold
  cases hfold
  obtain ⟨hnodup, hnamed⟩ := foldGroups_ok hgroups
  have hseen := appears_foldl (appears_noteTrackedEndpoint item.batch.windowStart)
    (observations.filter (isTracked st.ledger)) st
  refine ⟨rfl, rfl, (hseen.trans (appears_foldl appears_noteAdmittedEndpoint _ _)).trans (appears_retired _), ?_⟩
  intro key hnone _ htruncated
  have hbefore := (appears_retired _).kept key hnone
  have hfree := hseen.kept key ((appears_foldl appears_noteAdmittedEndpoint _ _).kept key hbefore)
  cases hrequests : namedRequests a.normalizer item.batch.groups key with
  | none =>
    rw [Option.getD_none]
    omega
  | some n =>
    have hlist := hnamed key
    rw [hrequests, Option.toList_some] at hlist
    obtain ⟨o, hone, rfl⟩ := List.map_eq_singleton_iff.mp hlist
    obtain ⟨ho, hkey⟩ := List.mem_filter.mp (hone ▸ List.mem_singleton_self o : o ∈ observations.filter _)
    have hkey : o.key = key := of_decide_eq_true hkey
    have hunseen : o ∈ observations.filter (fun o => !isTracked st.ledger o) := by
      refine List.mem_filter.mpr ⟨ho, ?_⟩
      simp [isTracked, hkey, hfree]
    rcases decideAdmission_cases HistoryObservation.candidate
      (st.ledger.countP (fun entry => entry.2.active)) a.policy hunseen with hadmitted | hbelow | hover
    · exact absurd (hkey ▸ hbefore) (admitted_in_ledger hadmitted _)
    · exact hbelow
    · have hsome : AdmissionDecision.truncated _ = false := htruncated
      rw [AdmissionDecision.truncated, Bool.not_eq_false'] at hsome
      exact absurd (List.isEmpty_iff.mp hsome) (List.ne_nil_of_mem hover)

/-! ### Runs of calls -/

structure WafPast (least : Int) (past : List (Normalizer × FoldedVolume φ)) (ledger : WafLedger) : Prop where
  named : WafLedgerNamed ledger
  first : FirstSeen (fun p : Normalizer × FoldedVolume φ => p.2.batch.windowStart) (BelowAdmission least) past
    (endpointFirstSeen ledger)

theorem WafPast.step [PyFloat φ] {past st item f} (h : WafPast a.policy.minRequests past st.ledger)
    (hbucket : BucketAppears a st item f) :
    WafPast a.policy.minRequests (past ++ [(a.normalizer, f)]) f.after.ledger := by
  refine ⟨hbucket.appears.named h.named, h.first.step (fun key hnone => ?_) hbucket.appears.added⟩
  have habsent := Option.map_eq_none_iff.mp hnone
  exact ⟨Option.map_eq_none_iff.mpr (hbucket.appears.kept key habsent), hbucket.below key habsent⟩

theorem foldVolumes_first [PyFloat φ] (hleast : 1 ≤ a.policy.minRequests) {items past previous st st' folded}
    (h : WafPast a.policy.minRequests past st.ledger) (hfold : foldVolumes a st previous items = .ok (folded, st')) :
    WafPast a.policy.minRequests (past ++ withNormalizer a.normalizer folded) st'.ledger ∧
      folded.map (fun f => f.batch) = items.map (fun item => item.batch) ∧
      ∀ f ∈ folded, f.row.bucketStart = f.batch.windowStart := by
  induction items generalizing past previous st folded with
  | nil =>
    cases hfold
    exact ⟨by simpa [withNormalizer] using h, rfl, by simp⟩
  | cons item items ih =>
    obtain ⟨_, _, hfold⟩ := bind_ok hfold
    obtain ⟨f, hf, hfold⟩ := bind_ok hfold
    obtain ⟨⟨rest, st₁⟩, hrest, hfold⟩ := bind_ok hfold
    cases hfold
    have hbucket := foldVolumeBucket_appears hleast hf
    obtain ⟨hpast, hbatches, hrows⟩ := ih (h.step hbucket) hrest
    refine ⟨by simpa [withNormalizer] using hpast, ?_, List.forall_mem_cons.mpr ⟨hbucket.row, hrows⟩⟩
    rw [List.map_cons, List.map_cons, hbucket.batch, hbatches]

theorem wafRun_first [PyFloat φ] {policy : AdmissionPolicy} (hleast : 1 ≤ policy.minRequests) {tr : WafTrace φ}
    {s : WafStored} (h : Run (wafStep φ) wafNext ([], 0) tr s) (hpolicy : ∀ e ∈ tr, e.input.1.policy = policy) :
    (∃ ledger : WafLedger, s.1 = ledger.map (fun entry => entry.2) ∧ WafPast policy.minRequests (foldedOf tr) ledger) ∧
      (foldedOf tr).map (fun p => p.2.batch) = (tr.flatMap (fun e => e.input.2)).map (fun item => item.batch) ∧
      ∀ p ∈ foldedOf tr, p.2.row.bucketStart = p.2.batch.windowStart := by
  refine h.invariant (fun tr s => (∃ ledger : WafLedger, s.1 = ledger.map (fun entry => entry.2) ∧
      WafPast policy.minRequests (foldedOf tr) ledger) ∧
      (foldedOf tr).map (fun p => p.2.batch) = (tr.flatMap (fun e => e.input.2)).map (fun item => item.batch) ∧
      ∀ p ∈ foldedOf tr, p.2.row.bucketStart = p.2.batch.windowStart)
    (fun e => e.input.1.policy = policy) ?_ ?_ hpolicy
  · refine ⟨⟨[], rfl, ⟨⟨List.nodup_nil, by simp⟩, FirstSeen.nil⟩⟩, rfl, by simp [foldedOf]⟩
  · rintro tr ⟨existing, issued⟩ call out ⟨⟨ledger, hstored, hpast⟩, hbatches, hrows⟩ hcall hs
    obtain ⟨_, _, hs⟩ := bind_ok hs
    obtain ⟨⟨folded, st'⟩, hfold, hs⟩ := bind_ok hs
    cases hs
    cases hstored
    -- the stored endpoints build the ledger they came from
    have hledger : wafLedgerOf (ledger.map (fun entry => entry.2)) = ledger :=
      Dict.foldl_set_values hpast.named.nodup (fun item hitem =>
        hpast.named.named item.1 item.2 ((Dict.get?_eq_some_iff hpast.named.nodup).mpr hitem))
    rw [hledger] at hfold
    rw [← show call.1.policy = policy from hcall] at hpast hleast ⊢
    obtain ⟨hpast', hbatches', hrows'⟩ := foldVolumes_first hleast hpast hfold
    have hall : foldedOf (tr ++ [⟨(ledger.map (fun entry => entry.2), issued), call,
        ⟨folded, st'.ledger.map (fun entry => entry.2), st'.issued⟩⟩]) =
        foldedOf tr ++ withNormalizer call.1.normalizer folded := by
      simp [foldedOf]
    rw [hall]
    refine ⟨⟨st'.ledger, rfl, hpast'⟩, ?_, ?_⟩
    · rw [List.map_append, hbatches, List.flatMap_append, List.map_append]
      simp [withNormalizer, Function.comp_def, hbatches']
    · intro p hp
      rcases List.mem_append.mp hp with hp | hp
      · exact hrows p hp
      · obtain ⟨f, hf, rfl⟩ := List.mem_map.mp hp
        exact hrows' f hf

theorem WafLedgerNamed.firstSeen (h : WafLedgerNamed ledger) {e}
    (he : e ∈ ledger.map (fun entry => entry.2)) : endpointFirstSeen ledger e.key = some e.firstSeenAt := by
  obtain ⟨item, hitem, rfl⟩ := List.mem_map.mp he
  have hget := (Dict.get?_eq_some_iff h.nodup).mpr hitem
  rw [endpointFirstSeen, h.named item.1 item.2 hget, hget]
  rfl

end Endpoints

/-! ## Ports -/

section Ports

variable {φ : Type} {a : IpsHistoryArgs} {start : Int} {bucket : HistoryIpsBucket} {ledger : IpsLedger}

def portEvents (text : IpsText) (bucket : HistoryIpsBucket) (value : String) : Nat :=
  match bucket.outcomes.get? .destinationPort with
  | none => 0
  | some outcome => entityEvents text outcome.dimension value outcome.rows

/-- A bucket whose record is of an exact port search, admitted whole, has fewer than `least` events on the port. -/
def BelowPortAdmission (least : Int) (p : IpsHistoryArgs × FoldedBucket φ) (value : String) : Prop :=
  (PortHistoryBucket.of p.2.row).portsExact = true → (PortHistoryBucket.of p.2.row).portsAdmittedWhole = true →
    (portEvents p.1.text p.2.bucket value : Int) < least

def portFirstSeen (ledger : IpsLedger) (value : String) : Option Int :=
  (ledger.get? (.destinationPort, value)).map (fun entity => entity.firstSeenAt)

def Filed (st : IpsFoldState) : Prop := ∀ m ∈ st.metrics, st.ledger.get? m.entity ≠ none

theorem Filed.write {st} (h : Filed st) (row : IpsMetricRow) (entity : HistoryIpsEntity) (changed : List EntityKey) :
    Filed { st with
      ledger := st.ledger.set row.entity entity
      metrics := st.metrics ++ [row]
      changed := changed } := by
  intro m hm
  dsimp only at hm ⊢
  rw [Dict.get?_set]
  split
  · exact nofun
  · rename_i hkey
    rcases List.mem_append.mp hm with hm | hm
    · exact h m hm
    · exact absurd (congrArg (fun m => m.entity) (List.mem_singleton.mp hm)) hkey

theorem filed_foldl {β : Type} {f : IpsFoldState → β → IpsFoldState} (h : ∀ st b, Filed st → Filed (f st b))
    (l : List β) {st} (hst : Filed st) : Filed (l.foldl f st) := by
  induction l generalizing st with
  | nil => exact hst
  | cons b l ih => exact ih (h st b hst)

theorem filed_foldDimension {facts} {counts : IpsDimension → Int}
    (st : IpsFoldState) (d : IpsDimension) (h : Filed st) : Filed (foldDimension a start facts counts st d) := by
  unfold foldDimension
  split
  · unfold admitDimension
    have htracked : ∀ st e, Filed st → Filed (noteTracked a start d st e) := by
      intro st e hst
      unfold noteTracked
      split
      · exact hst
      · exact hst.write ⟨(d, e.valueKey), start, a.bucketSeconds, e.events⟩ _ _
    have hadmitted : ∀ st e, Filed st → Filed (noteAdmitted a start d st e) := fun st e hst =>
      hst.write ⟨(d, e.valueKey), start, a.bucketSeconds, e.events⟩ _ _
    exact filed_foldl hadmitted _ (filed_foldl htracked _ h)
  · exact h

structure PortBucket (a : IpsHistoryArgs) (ledger : IpsLedger) (bucket : HistoryIpsBucket) (f : FoldedBucket φ) :
    Prop where
  folded : BucketFolded a ledger bucket f
  kept : ∀ key, f.after.get? key = none → ledger.get? key = none
  below : ∀ value, f.after.get? (.destinationPort, value) = none → BelowPortAdmission a.policy.minRequests (a, f) value

theorem foldBucketHistory_port [PyFloat φ] {f : FoldedBucket φ} (hleast : 1 ≤ a.policy.minRequests)
    (h : foldBucketHistory a ledger bucket = .ok f) : PortBucket a ledger bucket f := by
  have hfolded := foldBucketHistory_folded h
  have hkept : (∀ key, f.after.get? key = none → ledger.get? key = none) ∧
      ∀ m ∈ f.metrics, f.after.get? m.entity ≠ none := by
    obtain ⟨totals, _, h⟩ := bind_ok h
    obtain ⟨facts, hfacts, h⟩ := bind_ok h
    cases h
    have hget : ∀ (l : IpsLedger) key, Dict.get? (l.map
        (fun item => (item.1, retireEntity a bucket.bucketStart item.2))) key =
          (l.get? key).map (retireEntity a bucket.bucketStart) := fun l key =>
      Dict.get?_mapValues l (fun _ entity => retireEntity a bucket.bucketStart entity) key
    have hgrow := grows_foldl (Q := fun _ => True) (l := entityDimensions)
      (f := foldDimension a bucket.bucketStart facts (activeCount ledger))
      (fun st b _ => ⟨(grows_foldDimension hfacts st b).ok, (grows_foldDimension hfacts st b).kept,
        (grows_foldDimension hfacts st b).admitted, (grows_foldDimension hfacts st b).metrics,
        fun _ _ => Or.inr trivial⟩) ⟨ledger, [], [], []⟩
    have hfiled : Filed (entityDimensions.foldl (foldDimension a bucket.bucketStart facts (activeCount ledger))
        ⟨ledger, [], [], []⟩) := filed_foldl filed_foldDimension entityDimensions (fun m hm => by cases hm)
    refine ⟨fun key hnone => hgrow.kept key ?_, fun m hm hnone => hfiled m hm ?_⟩
    · rw [hget] at hnone
      exact Option.map_eq_none_iff.mp hnone
    · rw [hget] at hnone
      exact Option.map_eq_none_iff.mp hnone
  refine ⟨hfolded, hkept.1, fun value hnone hexact hwhole => ?_⟩
  dsimp only
  rw [hfolded.bucket_eq]
  unfold portEvents
  cases ho : bucket.outcomes.get? .destinationPort with
  | none =>
    dsimp only
    omega
  | some outcome =>
    rcases Nat.eq_zero_or_pos (entityEvents a.text outcome.dimension value outcome.rows) with hzero | hpos
    · dsimp only
      omega
    · have hkey : isEntityDimension ((.destinationPort, value) : EntityKey).1 = true := rfl
      rcases foldBucketHistory_covers h hkey ho hpos with ⟨m, hm, hkey⟩ | htruncated | ⟨_, hbelow⟩
      · exact absurd (hkey ▸ hnone) (hkept.2 m hm)
      · refine absurd ?_ htruncated
        simpa [PortHistoryBucket.portsAdmittedWhole, PortHistoryBucket.destinationPort, PortHistoryBucket.of,
          facts_of_row (show isEntityDimension .destinationPort = true from rfl), dimensionFacts,
          isEntityDimension] using hwhole
      · exact hbelow

/-! ### Runs of calls -/

structure IpsPast (least : Int) (past : List (IpsHistoryArgs × FoldedBucket φ)) (ledger : IpsLedger) : Prop where
  ok : LedgerOk ledger
  first : FirstSeen (fun p : IpsHistoryArgs × FoldedBucket φ => p.2.bucket.bucketStart) (BelowPortAdmission least) past
    (portFirstSeen ledger)

theorem IpsPast.step {past} {f : FoldedBucket φ} (h : IpsPast a.policy.minRequests past ledger)
    (hbucket : PortBucket a ledger bucket f) : IpsPast a.policy.minRequests (past ++ [(a, f)]) f.after := by
  refine ⟨hbucket.folded.ok h.ok, h.first.step (fun value hnone => ?_) (fun value s hs => ?_)⟩
  · have habsent := Option.map_eq_none_iff.mp hnone
    exact ⟨Option.map_eq_none_iff.mpr (hbucket.kept _ habsent), hbucket.below value habsent⟩
  · obtain ⟨entity, hget, hfirst⟩ := Option.map_eq_some_iff.mp hs
    rcases hbucket.folded.admitted _ entity hget with ⟨old, hold, hsame⟩ | ⟨hnone, hstart, _⟩
    · exact Or.inl (by rw [portFirstSeen, hold, Option.map_some, hsame, hfirst])
    · exact Or.inr ⟨by rw [portFirstSeen, hnone, Option.map_none],
        by rw [hbucket.folded.bucket_eq, ← hstart, hfirst]⟩

def ipsFoldedOf (tr : IpsTrace φ) : List (IpsHistoryArgs × FoldedBucket φ) :=
  tr.flatMap (fun e => e.output.folded.map (fun f => (e.input.1, f)))

theorem foldBuckets_first [PyFloat φ] (hleast : 1 ≤ a.policy.minRequests) {buckets : List HistoryIpsBucket}
    {past} {r : List (FoldedBucket φ) × IpsLedger}
    (h : IpsPast a.policy.minRequests past ledger) (hfold : foldBuckets a ledger buckets = .ok r) :
    IpsPast a.policy.minRequests (past ++ r.1.map (fun f => (a, f))) r.2 ∧ r.1.map (fun f => f.bucket) = buckets ∧
      ∀ f ∈ r.1, f.row.bucketStart = f.bucket.bucketStart := by
  induction buckets generalizing past ledger r with
  | nil =>
    cases hfold
    exact ⟨by simpa using h, rfl, by simp⟩
  | cons bucket buckets ih =>
    obtain ⟨f, hf, hfold⟩ := bind_ok hfold
    obtain ⟨rest, hrest, hfold⟩ := bind_ok hfold
    cases hfold
    have hbucket := foldBucketHistory_port hleast hf
    obtain ⟨hpast, hbuckets, hrows⟩ := ih (h.step hbucket) hrest
    refine ⟨by simpa using hpast, by rw [List.map_cons, hbuckets, hbucket.folded.bucket_eq],
      List.forall_mem_cons.mpr ⟨?_, hrows⟩⟩
    rw [hbucket.folded.start_eq, hbucket.folded.bucket_eq]

theorem ipsRun_first [PyFloat φ] {policy : AdmissionPolicy} (hleast : 1 ≤ policy.minRequests) {tr : IpsTrace φ}
    {s : List HistoryIpsEntity} (h : Run (ipsStep φ) ipsNext [] tr s) (hpolicy : ∀ e ∈ tr, e.input.1.policy = policy) :
    (∃ ledger : IpsLedger, s = ledger.map (fun item => item.2) ∧ IpsPast policy.minRequests (ipsFoldedOf tr) ledger) ∧
      (ipsFoldedOf tr).map (fun p => p.2.bucket) = tr.flatMap (fun e => e.input.2) ∧
      ∀ p ∈ ipsFoldedOf tr, p.2.row.bucketStart = p.2.bucket.bucketStart := by
  refine h.invariant (fun tr s => (∃ ledger : IpsLedger, s = ledger.map (fun item => item.2) ∧
      IpsPast policy.minRequests (ipsFoldedOf tr) ledger) ∧
      (ipsFoldedOf tr).map (fun p => p.2.bucket) = tr.flatMap (fun e => e.input.2) ∧
      ∀ p ∈ ipsFoldedOf tr, p.2.row.bucketStart = p.2.bucket.bucketStart)
    (fun e => e.input.1.policy = policy) ?_ ?_ hpolicy
  · exact ⟨⟨[], rfl, ⟨⟨List.nodup_nil, by simp⟩, FirstSeen.nil⟩⟩, rfl, by simp [ipsFoldedOf]⟩
  · rintro tr existing call out ⟨⟨ledger, rfl, hpast⟩, hbuckets, hrows⟩ hcall hs
    obtain ⟨_, _, hs⟩ := bind_ok hs
    obtain ⟨_, _, hs⟩ := bind_ok hs
    obtain ⟨r, hfold, hs⟩ := bind_ok hs
    cases hs
    -- the stored entities build the ledger they came from
    have hledger : ledgerOf (ledger.map (fun item => item.2)) = ledger :=
      Dict.foldl_set_values hpast.ok.nodup (fun item hitem => hpast.ok.named item hitem)
    rw [hledger] at hfold
    rw [← show call.1.policy = policy from hcall] at hpast hleast ⊢
    obtain ⟨hpast', hbuckets', hrows'⟩ := foldBuckets_first hleast hpast hfold
    have hall : ipsFoldedOf (tr ++ [⟨ledger.map (fun item => item.2), call, ⟨r.1, r.2⟩⟩]) =
        ipsFoldedOf tr ++ r.1.map (fun f => (call.1, f)) := by
      simp [ipsFoldedOf]
    rw [hall]
    refine ⟨⟨r.2, rfl, hpast'⟩, ?_, ?_⟩
    · rw [List.map_append, hbuckets, List.flatMap_append, List.map_map]
      simp [Function.comp_def, hbuckets']
    · intro p hp
      rcases List.mem_append.mp hp with hp | hp
      · exact hrows p hp
      · obtain ⟨f, hf, rfl⟩ := List.mem_map.mp hp
        exact hrows' f hf

theorem portFirstSeen_of_mem (h : LedgerOk ledger) {entity} (he : entity ∈ ledger.map (fun item => item.2))
    (hport : entity.dimension = .destinationPort) : portFirstSeen ledger entity.valueKey = some entity.firstSeenAt := by
  obtain ⟨item, hitem, rfl⟩ := List.mem_map.mp he
  have hkey : item.1 = (.destinationPort, item.2.valueKey) := by
    rw [← h.named item hitem, HistoryIpsEntity.key, hport]
  rw [portFirstSeen, ← hkey, (Dict.get?_eq_some_iff h.nodup).mpr hitem]
  rfl

end Ports

/-! ## Verified histories -/

theorem historyFacts_complete {r facts} (h : historyFacts r = .ok facts)
    (hcomplete : facts.complete = true) : r = .ok () := by
  cases r with
  | ok _ => rfl
  | error exit =>
    cases exit with
    | incomplete reason =>
      cases h
      cases hcomplete
    | raised e => cases h

theorem requireEach_ok {β : Type} {start : β → Int} {ordered} {fine : β → Bool} {what : β → String} {u}
    (h : requireEach start ordered fine what = .ok u) : ∀ b ∈ ordered, fine b = true := by
  unfold requireEach at h
  split at h
  · rename_i hnone
    intro b hb
    simpa using List.find?_eq_none.mp hnone b hb
  · cases h

theorem requireWindow_ok {starts historyStart historyEnd bucketSeconds u}
    (h : requireWindow starts historyStart historyEnd bucketSeconds = .ok u) :
    ∀ start ∈ expectedStarts historyStart bucketSeconds ((historyEnd - historyStart).tdiv 1000000 / bucketSeconds),
      start ∈ starts ∧ start < historyEnd := by
  obtain ⟨_, hdivides, h⟩ := bind_ok h
  obtain ⟨_, hmissing, _⟩ := bind_ok h
  obtain ⟨hpos, _⟩ := require_eq_ok.mp hdivides
  have hmissing := require_eq_ok.mp hmissing
  intro start hstart
  constructor
  · by_contra hnot
    exact List.filter_eq_nil_iff.mp hmissing start hstart (decide_eq_true hnot)
  · obtain ⟨index, hindex, rfl⟩ := List.mem_map.mp hstart
    have hlt : (index : Int) < (historyEnd - historyStart).tdiv 1000000 / bucketSeconds := by
      have := List.mem_range.mp hindex
      omega
    have hbucket : bucketSeconds * (index : Int) < (historyEnd - historyStart).tdiv 1000000 := by
      have hle := Int.ediv_mul_le ((historyEnd - historyStart).tdiv 1000000) (ne_of_gt hpos)
      have hmul := mul_lt_mul_of_pos_left hlt hpos
      rw [mul_comm bucketSeconds (_ / _)] at hmul
      exact lt_of_lt_of_le hmul hle
    have hnonneg : 0 ≤ bucketSeconds * (index : Int) := Int.mul_nonneg (le_of_lt hpos) (Int.natCast_nonneg index)
    have hspan := Int.mul_tdiv_add_tmod (historyEnd - historyStart) 1000000
    have hover := Int.lt_tmod_of_pos (historyEnd - historyStart) (show (0 : Int) < 1000000 by decide)
    have hrest := Int.tmod_nonneg (b := 1000000) (show 0 ≤ historyEnd - historyStart by omega)
    unfold seconds
    omega

theorem verifyEndpointHistory_complete {φ : Type} [PyFloat φ] {t} {buckets : List (BucketFacts φ)}
    {historyStart historyEnd bucketSeconds profileVersion normalizerVersion facts}
    (h : verifyEndpointHistory t buckets historyStart historyEnd bucketSeconds profileVersion normalizerVersion =
      .ok facts) (hcomplete : facts.complete = true) :
    ∀ start ∈ expectedStarts historyStart bucketSeconds ((historyEnd - historyStart).tdiv 1000000 / bucketSeconds),
      start < historyEnd ∧
        ∃ b ∈ buckets, b.bucketStart = start ∧ b.groupsTruncated = false ∧ b.admissionTruncated = false := by
  have hok := historyFacts_complete h hcomplete
  obtain ⟨_, hwindow, hok⟩ := bind_ok hok
  obtain ⟨_, _, hok⟩ := bind_ok hok
  obtain ⟨_, hgroups, hok⟩ := bind_ok hok
  obtain ⟨_, hadmission, _⟩ := bind_ok hok
  intro start hstart
  obtain ⟨hmem, hlt⟩ := requireWindow_ok hwindow start hstart
  obtain ⟨b, hb, rfl⟩ := List.mem_map.mp hmem
  have hgroups := requireEach_ok hgroups b (mem_sortOn.mpr hb)
  have hadmission := requireEach_ok hadmission b (mem_sortOn.mpr hb)
  exact ⟨hlt, b, hb, rfl, by simpa using hgroups, by simpa using hadmission⟩

theorem verifyPortHistory_complete {φ : Type} [PyFloat φ] {buckets : List (PortHistoryBucket φ)}
    {historyStart historyEnd bucketSeconds profileVersion normalizerVersion minCoverage facts}
    (h : verifyPortHistory buckets historyStart historyEnd bucketSeconds profileVersion normalizerVersion minCoverage =
      .ok facts) (hcomplete : facts.complete = true) :
    ∀ start ∈ expectedStarts historyStart bucketSeconds ((historyEnd - historyStart).tdiv 1000000 / bucketSeconds),
      start < historyEnd ∧
        ∃ b ∈ buckets, b.bucketStart = start ∧ b.portsExact = true ∧ b.portsAdmittedWhole = true := by
  have hok := historyFacts_complete h hcomplete
  obtain ⟨_, _, hok⟩ := bind_ok hok
  obtain ⟨_, hwindow, hok⟩ := bind_ok hok
  obtain ⟨_, _, hok⟩ := bind_ok hok
  obtain ⟨_, hexact, hok⟩ := bind_ok hok
  obtain ⟨_, _, hok⟩ := bind_ok hok
  obtain ⟨_, hwhole, _⟩ := bind_ok hok
  intro start hstart
  obtain ⟨hmem, hlt⟩ := requireWindow_ok hwindow start hstart
  obtain ⟨b, hb, rfl⟩ := List.mem_map.mp hmem
  exact ⟨hlt, b, hb, rfl, requireEach_ok hexact b (mem_sortOn.mpr hb), requireEach_ok hwhole b (mem_sortOn.mpr hb)⟩

/-! ## Sentences -/

structure Cites (thr : NoveltyThresholds) (novelty : NoveltyFacts) (sentence : NoveltySentence) : Prop where
  historyStart : sentence.historyStart = novelty.historyStart
  historyEnd : sentence.historyEnd = novelty.historyEnd
  admissionMin : sentence.admissionMin = thr.admissionMin

theorem judgeNovelty_cites {thr novelty lowerBound sentence}
    (h : (judgeNovelty thr novelty lowerBound).sentence = some sentence) : Cites thr novelty sentence := by
  unfold judgeNovelty at h
  dsimp only at h
  split at h
  · split at h <;> cases h
  · cases h
    exact ⟨rfl, rfl, rfl⟩

theorem detectNewEndpointAccess_cites {ctx thr novelty sentence}
    (h : (detectNewEndpointAccess ctx thr (some novelty)).sentence = some sentence) : Cites thr novelty sentence := by
  unfold detectNewEndpointAccess at h
  dsimp only at h
  split at h
  · split at h <;> cases h
  · split at h
    · cases h
    · split at h
      · cases h
      · exact judgeNovelty_cites h

theorem sharedGuard_sentence {α : Type} {guard} {next : α → Except Exc NoveltyVerdict}
    {verdict sentence} (h : sharedGuard guard next = .ok verdict)
    (hsentence : verdict.sentence = some sentence) : ∃ a, guard = .ok a ∧ next a = .ok verdict := by
  unfold sharedGuard at h
  split at h
  · exact ⟨_, rfl, h⟩
  · cases h
    cases hsentence
  · cases h
    cases hsentence
  · cases h

/-- A sentence about a port is about the port of the observation, one that its key does not make unusable, and rests on
a whole history. -/
theorem detectNewDestinationPort_cites {ctx thr novelty verdict sentence}
    (h : detectNewDestinationPort ctx thr (some novelty) = .ok verdict) (hsentence : verdict.sentence = some sentence) :
    Cites thr novelty sentence ∧ novelty.history.complete = true := by
  obtain ⟨_, _, h⟩ := sharedGuard_sentence h hsentence
  dsimp only at h
  split at h
  · cases h
    cases hsentence
  · split at h
    · cases h
      cases hsentence
    · obtain ⟨_, _, h⟩ := sharedGuard_sentence h hsentence
      split at h
      · cases h
        cases hsentence
      · rename_i hcomplete
        split at h
        · cases h
          cases hsentence
        · split at h
          · cases h
            cases hsentence
          · cases h
            exact ⟨judgeNovelty_cites hsentence, by simpa using hcomplete⟩

end QRadarDashboard.Detectors
