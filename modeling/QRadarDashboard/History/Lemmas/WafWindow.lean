import QRadarDashboard.History.Waf
import QRadarDashboard.Lib.Run

/-!
# Tracking windows
-/

namespace QRadarDashboard.History
open Lib Waf

/-!
## Merged groups

The observations of a bucket: one per key that a usable group names, with the sum of their requests.
-/

variable {normalizer : Normalizer}

def names (normalizer : Normalizer) (key : EndpointKey) (group : WafRequestGroup) : Bool :=
  (groupKey normalizer group).toOption = some (some key)

def namedRequests (normalizer : Normalizer) (groups : List WafRequestGroup) (key : EndpointKey) : Option Int :=
  match groups.filter (names normalizer key) with
  | [] => none
  | named => some (named.map (fun group => group.requestCount)).sum

theorem namedRequests_concat (groups : List WafRequestGroup) (group : WafRequestGroup) (key : EndpointKey) :
    namedRequests normalizer (groups ++ [group]) key =
      if names normalizer key group then
        some ((namedRequests normalizer groups key).getD 0 + group.requestCount)
      else namedRequests normalizer groups key := by
  unfold namedRequests
  rw [List.filter_append]
  by_cases hgroup : names normalizer key group
  · cases hnamed : groups.filter (names normalizer key) with
    | nil => simp [hgroup]
    | cons first named => simp [hgroup, add_assoc]
  · simp [hgroup]

structure MergedOk (merged : Dict EndpointKey HistoryObservation) : Prop where
  nodup : merged.keys.Nodup
  named : ∀ key o, merged.get? key = some o → o.key = key

theorem MergedOk.set {merged} (h : MergedOk merged) {key o} (ho : o.key = key) : MergedOk (merged.set key o)  where
  nodup := Dict.nodup_keys_set h.nodup key o
  named := by
    intro key' o' hget
    rw [Dict.get?_set] at hget
    by_cases hkey : key' = key
    · simp only [hkey, if_true, Option.some.injEq] at hget
      rw [← hget, ho, hkey]
    · simp only [hkey, if_false] at hget
      exact h.named key' o' hget

theorem mergeGroup_ok {acc acc' group} (h : MergedOk acc.1) (hok : mergeGroup normalizer acc group = .ok acc') :
    MergedOk acc'.1 ∧ ∀ key, (acc'.1.get? key).map (fun o => o.requestCount) =
      if names normalizer key group then
        some (((acc.1.get? key).map (fun o => o.requestCount)).getD 0 + group.requestCount)
      else (acc.1.get? key).map (fun o => o.requestCount) := by
  obtain ⟨named, hnamed, hok⟩ := bind_ok hok
  have hnames : ∀ key, names normalizer key group = decide (named = some key) := by
    intro key
    simp [names, hnamed, Except.toOption]
  cases named with
  | none =>
    cases hok
    exact ⟨h, fun key => by simp [hnames]⟩
  | some own =>
    cases hget : acc.1.get? own with
    | none =>
      simp only [hget] at hok
      cases hok
      refine ⟨h.set rfl, fun key => ?_⟩
      rw [Dict.get?_set]
      by_cases hkey : key = own
      · simp [hnames, hkey, hget]
      · simp [hnames, hkey, Ne.symm hkey]
    | some current =>
      simp only [hget] at hok
      cases hok
      refine ⟨h.set (h.named own current hget), fun key => ?_⟩
      rw [Dict.get?_set]
      by_cases hkey : key = own
      · simp [hnames, hkey, hget]
      · simp [hnames, hkey, Ne.symm hkey]

theorem foldlM_mergeGroup_ok {groups acc} (hok : groups.foldlM (mergeGroup normalizer) ([], 0) = .ok acc) :
    MergedOk acc.1 ∧ ∀ key, (acc.1.get? key).map (fun o => o.requestCount) = namedRequests normalizer groups key := by
  induction groups using List.reverseRecOn generalizing acc with
  | nil =>
    cases hok
    exact ⟨⟨List.nodup_nil, by simp⟩, fun key => rfl⟩
  | append_singleton groups group ih =>
    rw [List.foldlM_append] at hok
    obtain ⟨before, hbefore, hok⟩ := bind_ok hok
    obtain ⟨after, hgroup, hok⟩ := bind_ok hok
    cases hok
    obtain ⟨hmerged, hrequests⟩ := ih hbefore
    obtain ⟨hmerged', hrequests'⟩ := mergeGroup_ok hmerged hgroup
    refine ⟨hmerged', fun key => ?_⟩
    rw [hrequests', hrequests, namedRequests_concat]

theorem MergedOk.filter_key {merged} (h : MergedOk merged) (key : EndpointKey) :
    (merged.map (fun item => item.2)).filter (fun o => o.key = key) = (merged.get? key).toList := by
  have hnamed : ∀ item ∈ merged, item.2.key = item.1 := fun item hitem =>
    h.named item.1 item.2 ((Dict.get?_eq_some_iff h.nodup).mpr hitem)
  have hnodup := h.nodup
  clear h
  induction merged with
  | nil => rfl
  | cons item merged ih =>
    obtain ⟨hitem, hnodup⟩ := List.nodup_cons.mp hnodup
    have hrest := ih (fun x hx => hnamed x (List.mem_cons_of_mem item hx)) hnodup
    rw [List.map_cons, List.filter_cons, hrest, Dict.get?_cons, hnamed item List.mem_cons_self]
    by_cases hkey : item.1 = key
    · have hnone : Dict.get? merged key = none := by
        refine Dict.get?_eq_none_of_any (fun hany => ?_)
        obtain ⟨x, hx, hxkey⟩ := List.any_eq_true.mp hany
        exact hitem (List.mem_map.mpr ⟨x, hx, (of_decide_eq_true hxkey).trans hkey.symm⟩)
      simp [hkey, hnone]
    · simp [hkey]

theorem foldGroups_ok {batch observations unusable} (hok : foldGroups normalizer batch = .ok (observations, unusable)) :
    (observations.map (fun o => o.key)).Nodup ∧ ∀ key,
      (observations.filter (fun o => o.key = key)).map (fun o => o.requestCount) =
        (namedRequests normalizer batch.groups key).toList := by
  obtain ⟨acc, hacc, hok⟩ := bind_ok hok
  cases hok
  obtain ⟨hmerged, hrequests⟩ := foldlM_mergeGroup_ok hacc
  constructor
  · have hkeys : (acc.1.map (fun item => item.2)).map (fun o => o.key) = acc.1.keys := by
      rw [List.map_map]
      refine List.map_congr_left (fun item hitem => ?_)
      exact hmerged.named item.1 item.2 ((Dict.get?_eq_some_iff hmerged.nodup).mpr hitem)
    rw [hkeys]
    exact hmerged.nodup
  · intro key
    rw [hmerged.filter_key, ← hrequests]
    cases acc.1.get? key <;> rfl

variable {φ : Type} {supply : Nat → String} {a : WafHistoryArgs φ} {st : WafFoldState} {start : Int}

/-! ## The ledger -/

structure WafLedgerOk (supply : Nat → String) (st : WafFoldState) : Prop where
  nodup : st.ledger.keys.Nodup
  named : ∀ key e, st.ledger.get? key = some e → e.key = key
  issued : ∀ key e, st.ledger.get? key = some e → ∃ n < st.issued, e.id = supply n
  apart : ∀ key key' e e', st.ledger.get? key = some e → st.ledger.get? key' = some e' → e.id = e'.id → key = key'

theorem WafLedgerOk.of_lookup (h : WafLedgerOk supply st) {ledger} (hnodup : ledger.keys.Nodup)
    (hcases : ∀ k x, ledger.get? k = some x → ∃ y, st.ledger.get? k = some y ∧ x.id = y.id ∧ x.key = y.key) :
    WafLedgerOk supply { st with ledger := ledger } := by
  refine ⟨hnodup, ?_, ?_, ?_⟩
  · intro k x hx
    obtain ⟨y, hy, -, hxy⟩ := hcases k x hx
    exact hxy.trans (h.named k y hy)
  · intro k x hx
    obtain ⟨y, hy, hxy, -⟩ := hcases k x hx
    obtain ⟨n, hn, hid⟩ := h.issued k y hy
    exact ⟨n, hn, hxy.trans hid⟩
  · intro k k' x x' hx hx' hsame
    obtain ⟨y, hy, hxy, -⟩ := hcases k x hx
    obtain ⟨y', hy', hxy', -⟩ := hcases k' x' hx'
    exact h.apart k k' y y' hy hy' (hxy.symm.trans (hsame.trans hxy'))

theorem WafLedgerOk.rewrite (h : WafLedgerOk supply st) {key e e'} (hget : st.ledger.get? key = some e)
    (hid : e'.id = e.id) (hkey : e'.key = e.key) : WafLedgerOk supply { st with ledger := st.ledger.set key e' } := by
  refine h.of_lookup (Dict.nodup_keys_set h.nodup _ _) (fun k x hx => ?_)
  rw [Dict.get?_set] at hx
  by_cases hk : k = key
  · simp only [hk, if_true, Option.some.injEq] at hx
    exact ⟨e, by rw [hk, hget], by rw [← hx, hid], by rw [← hx, hkey]⟩
  · simp only [hk, if_false] at hx
    exact ⟨x, hx, rfl, rfl⟩

theorem WafLedgerOk.add (hinj : Function.Injective supply) (h : WafLedgerOk supply st) {key e}
    (hid : e.id = supply st.issued) (hkey : e.key = key) : WafLedgerOk supply ⟨st.ledger.set key e, st.issued + 1⟩ := by
  have hfresh : ∀ k x, st.ledger.get? k = some x → x.id ≠ e.id := by
    intro k x hx heq
    obtain ⟨n, hn, hxid⟩ := h.issued k x hx
    exact absurd (hinj (hxid.symm.trans (heq.trans hid))) (Nat.ne_of_lt hn)
  refine ⟨Dict.nodup_keys_set h.nodup _ _, ?_, ?_, ?_⟩
  · intro k x hx
    rw [Dict.get?_set] at hx
    by_cases hk : k = key
    · simp only [hk, if_true, Option.some.injEq] at hx
      rw [← hx, hkey, hk]
    · simp only [hk, if_false] at hx
      exact h.named k x hx
  · intro k x hx
    rw [Dict.get?_set] at hx
    by_cases hk : k = key
    · simp only [hk, if_true, Option.some.injEq] at hx
      exact ⟨st.issued, Nat.lt_succ_self _, by rw [← hx, hid]⟩
    · simp only [hk, if_false] at hx
      obtain ⟨n, hn, hxid⟩ := h.issued k x hx
      exact ⟨n, Nat.lt_succ_of_lt hn, hxid⟩
  · intro k k' x x' hx hx' hsame
    rw [Dict.get?_set] at hx hx'
    by_cases hk : k = key
    · by_cases hk' : k' = key
      · rw [hk, hk']
      · simp only [hk, if_true, Option.some.injEq] at hx
        simp only [hk', if_false] at hx'
        exact absurd (hsame.symm.trans (by rw [← hx])) (hfresh k' x' hx')
    · by_cases hk' : k' = key
      · simp only [hk', if_true, Option.some.injEq] at hx'
        simp only [hk, if_false] at hx
        exact absurd (hsame.trans (by rw [← hx'])) (hfresh k x hx)
      · simp only [hk, hk', if_false] at hx hx'
        exact h.apart k k' x x' hx hx' hsame

theorem WafLedgerOk.noteTrackedEndpoint (h : WafLedgerOk supply st) (o : HistoryObservation) :
    WafLedgerOk supply (noteTrackedEndpoint start st o) := by
  unfold History.noteTrackedEndpoint
  cases hget : st.ledger.get? o.key with
  | none => exact h
  | some current =>
    by_cases hlt : current.lastSeenAt < start
    · simp only [hlt, if_true]
      exact h.rewrite hget rfl rfl
    · simp only [hlt, if_false]
      exact h

theorem WafLedgerOk.noteAdmittedEndpoint (hinj : Function.Injective supply) (hsupply : a.idFactory = supply)
    (h : WafLedgerOk supply st) (o : HistoryObservation) : WafLedgerOk supply (noteAdmittedEndpoint a start st o) := by
  unfold History.noteAdmittedEndpoint
  cases hget : st.ledger.get? o.key with
  | none => exact h.add hinj (by rw [← hsupply]; rfl) rfl
  | some current => exact h.rewrite hget rfl rfl

theorem retire_id (e : HistoryEndpoint) : (retire a start e).id = e.id := by
  unfold retire
  split <;> rfl

theorem retire_key (e : HistoryEndpoint) : (retire a start e).key = e.key := by
  unfold retire
  split <;> rfl

theorem get?_retired (ledger : WafLedger) (key : EndpointKey) :
    Dict.get? (ledger.map (fun entry => (entry.1, retire a start entry.2))) key =
      (ledger.get? key).map (retire a start) :=
  Dict.get?_mapValues ledger (fun _ e => retire a start e) key

theorem WafLedgerOk.retired (h : WafLedgerOk supply st) :
    WafLedgerOk supply { st with ledger := st.ledger.map (fun entry => (entry.1, retire a start entry.2)) } := by
  have hkeys : Dict.keys (st.ledger.map (fun entry => (entry.1, retire a start entry.2))) = st.ledger.keys := by
    simp [Dict.keys, Function.comp_def]
  refine h.of_lookup (by rw [hkeys]; exact h.nodup) (fun k x hx => ?_)
  rw [get?_retired, Option.map_eq_some_iff] at hx
  obtain ⟨y, hy, rfl⟩ := hx
  exact ⟨y, hy, retire_id y, retire_key y⟩

/-! ## One bucket's endpoints -/

def Kept (before after : WafLedger) : Prop :=
  ∀ key e', after.get? key = some e' → ∃ e t, before.get? key = some e ∧ e' = { e with lastSeenAt := t }

theorem Kept.refl (ledger : WafLedger) : Kept ledger ledger := fun _ e h => ⟨e, e.lastSeenAt, h, rfl⟩

theorem Kept.trans {l₁ l₂ l₃} (h₁ : Kept l₁ l₂) (h₂ : Kept l₂ l₃) : Kept l₁ l₃ := by
  intro key e'' h
  obtain ⟨e', t, he', rfl⟩ := h₂ key e'' h
  obtain ⟨e, t', he, rfl⟩ := h₁ key e' he'
  exact ⟨e, t, he, rfl⟩

/-- What was written for an endpoint in a bucket is what the bucket's groups say of its key. -/
def Reads (normalizer : Normalizer) (f : FoldedVolume φ) (e : HistoryEndpoint) : Prop :=
  (f.metrics.filter (fun m => m.wafEndpointId = e.id)).map (fun m => m.requestCount) =
    (namedRequests normalizer f.batch.groups e.key).toList

structure WindowOk (past : List (Normalizer × FoldedVolume φ)) (e : HistoryEndpoint) : Prop where
  reads : ∀ p ∈ past, e.trackedAt p.2.batch.windowStart = true → Reads p.1 p.2 e
  closed : e.active = false → ∃ p ∈ past, e.trackedUntil = some p.2.batch.windowStart
  opened : e.active = true → e.trackedUntil = none

theorem WindowOk.retire {past : List (Normalizer × FoldedVolume φ)} {p e} (h : WindowOk (past ++ [p]) e)
    (hp : p.2.batch.windowStart = start) : WindowOk (past ++ [p]) (retire a start e) := by
  unfold History.retire
  by_cases hstale : stale a start e
  · have hactive : e.active = true := by
      rw [stale, Bool.and_eq_true] at hstale
      exact hstale.1
    simp only [hstale, if_true]
    refine ⟨fun q hq htracked => h.reads q hq ?_, fun _ => ⟨p, by simp, by rw [hp]⟩, nofun⟩
    simp only [HistoryEndpoint.trackedAt, Bool.and_eq_true] at htracked
    simp only [HistoryEndpoint.trackedAt, htracked.1, h.opened hactive, Option.all_none, Bool.and_self]
  · simp only [hstale, Bool.false_eq_true, if_false]
    exact h

end QRadarDashboard.History
