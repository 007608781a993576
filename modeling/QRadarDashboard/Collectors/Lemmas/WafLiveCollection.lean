import QRadarDashboard.Collectors.WafLiveCollection
import QRadarDashboard.Collectors.Lemmas.CollectorLock

/-!
# The left-most searches of a WAF tick
-/

namespace QRadarDashboard.Collectors
open Lib History Waf

variable (cfg : WafCollectConfig) (provider : WafLiveProvider)

/-! ## The left-most path -/

def WafLiveProvider.truncates (k : Nat) (span : Span Int) : WafKind → Bool
  | none => match provider.volume.keyed k span with
      | .ok keyed => keyed.truncated
      | .error _ => false
  | some breakdown => match provider.breakdownBucketed k breakdown span with
      | .ok keyed => keyed.truncated
      | .error _ => false

def kindTruncated (k : Nat) (start : Int) (count : Nat) (kind : WafKind) : Bool :=
  count ≠ 1 && provider.truncates k (windowSpan cfg start count) kind

def truncatedKinds (start : Int) (count : Nat) : Nat → List WafKind → List WafKind
  | _, [] => []
  | k, kind :: pending =>
    let more := truncatedKinds start count (k + 1) pending
    if kindTruncated cfg provider k start count kind then kind :: more else more

def leftmostSearches (k : Nat) (pending : List WafKind) (start : Int) (count : Nat) : Nat :=
  let truncated := truncatedKinds cfg provider start count k pending
  if _h : truncated ≠ [] ∧ 2 ≤ count then
    pending.length + leftmostSearches (k + pending.length) truncated start (count / 2)
  else pending.length
termination_by count
decreasing_by omega

/-- The provider does not fail, and a search that is whole has every bucket of its window. -/
structure WafLiveProvider.Whole : Prop where
  one : ∀ k span, ∃ batch, provider.volume.one k span = .ok batch
  keyed : ∀ k span, ∃ keyed, provider.volume.keyed k span = .ok keyed
  volume_buckets : ∀ {k start count keyed}, provider.volume.keyed k (windowSpan cfg start count) = .ok keyed →
    keyed.truncated = false → ∀ bucket ∈ bucketStarts cfg start count, bucket ∈ keyed.buckets.keys
  breakdown_buckets : ∀ {k breakdown start count keyed},
    provider.breakdownBucketed k breakdown (windowSpan cfg start count) = .ok keyed →
    keyed.truncated = false → ∀ bucket ∈ bucketStarts cfg start count, bucket ∈ keyed.buckets.keys

def WafWindow.Done (w : WafWindow) (bucket : Int) : WafKind → Prop
  | none => (w.observations.get? bucket).isSome = true
  | some breakdown => (w.breakdowns.get? (breakdown, bucket)).isSome = true

variable {cfg provider} {w w' : WafWindow} {start : Int} {count depth : Nat} {pending truncated : List WafKind}
  {kind : WafKind}

theorem truncatedKinds_sublist {k} : (truncatedKinds cfg provider start count k pending).Sublist pending := by
  induction pending generalizing k with
  | nil => exact .slnil
  | cons kind pending ih =>
    simp only [truncatedKinds]
    split
    · exact ih.cons_cons kind
    · exact ih.cons kind

theorem start_mem_bucketStarts (h : 1 ≤ count) : start ∈ bucketStarts cfg start count :=
  List.mem_map.mpr ⟨0, List.mem_range.mpr h, by simp [seconds]⟩

theorem leftmostSearches_le {k} :
    leftmostSearches cfg provider k pending start count ≤ pending.length * (Nat.log2 count + 1) := by
  induction count using Nat.strong_induction_on generalizing k pending with
  | _ count ih =>
    rw [leftmostSearches]
    split
    · rename_i h
      have hnext : leftmostSearches cfg provider (k + pending.length) (truncatedKinds cfg provider start count k pending)
          start (count / 2) ≤ (truncatedKinds cfg provider start count k pending).length * (Nat.log2 (count / 2) + 1) :=
        ih (count / 2) (by omega)
      have hlog : Nat.log2 count = Nat.log2 (count / 2) + 1 := by
        rw [Nat.log2_def, if_pos h.2]
      have hlength : (truncatedKinds cfg provider start count k pending).length ≤ pending.length :=
        truncatedKinds_sublist.length_le
      rw [hlog]
      calc pending.length + leftmostSearches cfg provider (k + pending.length)
            (truncatedKinds cfg provider start count k pending) start (count / 2)
          ≤ pending.length + pending.length * (Nat.log2 (count / 2) + 1) :=
            Nat.add_le_add_left (hnext.trans (Nat.mul_le_mul_right _ hlength)) _
        _ = pending.length * (Nat.log2 (count / 2) + 1 + 1) := by rw [Nat.mul_succ _ (Nat.log2 _ + 1), Nat.add_comm]
    · exact Nat.le_mul_of_pos_right _ (Nat.succ_pos _)

/-! ## One search -/

/-- The window grows: a kind that has completed on a bucket stays so, and nothing fails. -/
structure WafWindow.Grows (w w' : WafWindow) : Prop where
  done : ∀ {bucket kind}, w.Done bucket kind → w'.Done bucket kind
  failure : w.failure = none → w'.failure = none

theorem WafWindow.Grows.refl (w : WafWindow) : w.Grows w := ⟨id, id⟩

theorem WafWindow.Grows.trans {w''} (h : w.Grows w') (h' : w'.Grows w'') : w.Grows w'' :=
  ⟨fun hdone => h'.done (h.done hdone), fun hfailure => h'.failure (h.failure hfailure)⟩

theorem isSome_foldl_set {κ α β : Type} [DecidableEq κ] (key : β → κ) (val : β → α) (l : List β) (d : Dict κ α) (k : κ) :
    ((l.foldl (fun d b => d.set (key b) (val b)) d).get? k).isSome = true ↔
      (d.get? k).isSome = true ∨ ∃ b ∈ l, key b = k := by
  have h := Dict.get?_foldl_set key val l d k
  split at h
  · rename_i v hv
    rw [hv]
    refine iff_of_true rfl ?_
    rcases h with ⟨b, hb, hkey, -⟩ | hget
    · exact .inr ⟨b, hb, hkey⟩
    · exact .inl (by rw [hget]; rfl)
  · rename_i hnone
    rw [hnone]
    refine iff_of_false (by simp) ?_
    rintro (hget | ⟨b, hb, hkey⟩)
    · rw [h.1] at hget
      cases hget
    · exact h.2 b hb hkey

theorem observationsSearch_spec (hwhole : provider.Whole cfg) (hcount : 1 ≤ count) (k : Nat) :
    ∃ buckets, observationsSearch cfg provider k start count = .ok (buckets, kindTruncated cfg provider k start count none) ∧
      (kindTruncated cfg provider k start count none = false → start ∈ buckets.keys) := by
  by_cases hone : count = 1
  · obtain ⟨batch, hbatch⟩ := hwhole.one k (windowSpan cfg start count)
    refine ⟨[(start, batch)], ?_, fun _ => by simp [Dict.keys]⟩
    have htruncated : kindTruncated cfg provider k start count none = false := by simp [kindTruncated, hone]
    rw [htruncated, observationsSearch, if_pos hone, hbatch]
    rfl
  · obtain ⟨keyed, hkeyed⟩ := hwhole.keyed k (windowSpan cfg start count)
    have htruncated : kindTruncated cfg provider k start count none = keyed.truncated := by
      simp [kindTruncated, WafLiveProvider.truncates, hone, hkeyed]
    rw [htruncated]
    refine ⟨keyed.buckets, ?_, fun hnot => hwhole.volume_buckets hkeyed hnot start (start_mem_bucketStarts hcount)⟩
    rw [observationsSearch, if_neg hone, hkeyed]
    rfl

theorem breakdownSearch_spec (hwhole : provider.Whole cfg) (hcount : 1 ≤ count) (k : Nat) (breakdown : WafBreakdown) :
    ∃ results, breakdownSearch cfg provider k start count breakdown =
        (results, kindTruncated cfg provider k start count (some breakdown)) ∧
      (kindTruncated cfg provider k start count (some breakdown) = false → start ∈ results.keys) := by
  by_cases hone : count = 1
  · have htruncated : kindTruncated cfg provider k start count (some breakdown) = false := by simp [kindTruncated, hone]
    rw [htruncated]
    simp only [breakdownSearch, if_pos hone]
    cases hanswer : provider.breakdown k breakdown (windowSpan cfg start count) with
    | error errorClass =>
      refine ⟨_, rfl, fun _ => ?_⟩
      rw [Dict.keys, List.map_map]
      exact List.mem_map.mpr ⟨start, start_mem_bucketStarts hcount, rfl⟩
    | ok batch => exact ⟨_, by simp only [Except.map]; rw [if_neg (by simp)], fun _ => by simp [Dict.keys]⟩
  · cases hanswer : provider.breakdownBucketed k breakdown (windowSpan cfg start count) with
    | error errorClass =>
      have htruncated : kindTruncated cfg provider k start count (some breakdown) = false := by
        simp [kindTruncated, WafLiveProvider.truncates, hanswer]
      rw [htruncated]
      simp only [breakdownSearch, if_neg hone, hanswer]
      refine ⟨_, rfl, fun _ => ?_⟩
      rw [Dict.keys, List.map_map]
      exact List.mem_map.mpr ⟨start, start_mem_bucketStarts hcount, rfl⟩
    | ok keyed =>
      have htruncated : kindTruncated cfg provider k start count (some breakdown) = keyed.truncated := by
        simp [kindTruncated, WafLiveProvider.truncates, hone, hanswer]
      rw [htruncated]
      simp only [breakdownSearch, if_neg hone, hanswer]
      cases hkeyed : keyed.truncated with
      | true => exact ⟨[], by rw [if_pos ⟨hone, rfl⟩], fun h => by cases h⟩
      | false =>
        refine ⟨_, by rw [if_neg (by simp)], fun _ => ?_⟩
        rw [Dict.keys, List.map_map]
        exact hwhole.breakdown_buckets hanswer hkeyed start (start_mem_bucketStarts hcount)

theorem searchKind_spec (hwhole : provider.Whole cfg) (hcount : 1 ≤ count) (w : WafWindow) :
    ∃ w', searchKind cfg provider w start count depth kind =
        (w', some (kindTruncated cfg provider w.searchesSent start count kind)) ∧
      w'.searchesSent = w.searchesSent + 1 ∧ w'.capped = w.capped ∧ w.Grows w' ∧
      ∀ other, w'.Done start other ↔
        w.Done start other ∨ other = kind ∧ kindTruncated cfg provider w.searchesSent start count kind = false := by
  cases kind with
  | none =>
    obtain ⟨buckets, hsearch, hstart⟩ := observationsSearch_spec hwhole hcount w.searchesSent
    cases htruncated : kindTruncated cfg provider w.searchesSent start count none with
    | true =>
      rw [htruncated] at hsearch
      simp only [searchKind, hsearch]
      exact ⟨_, rfl, rfl, rfl, ⟨id, id⟩, fun other => ⟨.inl, fun h => h.resolve_right (by simp)⟩⟩
    | false =>
      rw [htruncated] at hsearch
      simp only [searchKind, hsearch]
      have hset (bucket : Int) := isSome_foldl_set (fun (item : Int × WafObservationBatch) => item.1)
        (fun item => (item.2, (⟨start, (windowSpan cfg start count).stop, count, depth⟩ : WafSearchMeta))) buckets
        w.observations bucket
      refine ⟨_, rfl, rfl, rfl, ⟨fun {bucket other} hdone => ?_, id⟩, fun other => ?_⟩
      · cases other with
        | none => exact (hset bucket).mpr (.inl hdone)
        | some breakdown => exact hdone
      · cases other with
        | none =>
          obtain ⟨item, hitem, hkey⟩ := List.mem_map.mp (hstart htruncated)
          exact iff_of_true ((hset start).mpr (.inr ⟨item, hitem, hkey⟩)) (.inr ⟨rfl, trivial⟩)
        | some breakdown => exact ⟨.inl, fun h => h.resolve_right (by simp)⟩
  | some breakdown =>
    obtain ⟨results, hsearch, hstart⟩ := breakdownSearch_spec hwhole hcount w.searchesSent breakdown
    cases htruncated : kindTruncated cfg provider w.searchesSent start count (some breakdown) with
    | true =>
      rw [htruncated] at hsearch
      simp only [searchKind, hsearch]
      exact ⟨_, rfl, rfl, rfl, ⟨id, id⟩, fun other => ⟨.inl, fun h => h.resolve_right (by simp)⟩⟩
    | false =>
      rw [htruncated] at hsearch
      simp only [searchKind, hsearch]
      have hset (key : WafBreakdown × Int) := isSome_foldl_set (fun (item : Int × BreakdownResult) => (breakdown, item.1))
        (fun item => { item.2 with search := some (⟨start, (windowSpan cfg start count).stop, count, depth⟩ : WafSearchMeta) })
        results w.breakdowns key
      refine ⟨_, rfl, rfl, rfl, ⟨fun {bucket other} hdone => ?_, id⟩, fun other => ?_⟩
      · cases other with
        | none => exact hdone
        | some other => exact (hset (other, bucket)).mpr (.inl hdone)
      · cases other with
        | none => exact ⟨.inl, fun h => h.resolve_right (by simp)⟩
        | some other =>
          refine (hset (other, start)).trans (or_congr_right ?_)
          constructor
          · rintro ⟨item, -, hkey⟩
            exact ⟨congrArg some (Prod.mk.inj hkey).1.symm, trivial⟩
          · rintro ⟨hother, -⟩
            cases hother
            obtain ⟨item, hitem, hkey⟩ := List.mem_map.mp (hstart htruncated)
            exact ⟨item, hitem, congrArg (Prod.mk breakdown) hkey⟩

/-! ## The loop over the kinds -/

theorem searchKinds_fit (start : Int) (depth : Nat) (hwhole : provider.Whole cfg) (hcount : 1 ≤ count)
    (hfit : w.searchesSent + pending.length ≤ cfg.maxSearches) (hnodup : pending.Nodup) :
    ∃ w', searchKinds cfg provider start count depth pending w =
        (w', some (truncatedKinds cfg provider start count w.searchesSent pending)) ∧
      w'.searchesSent = w.searchesSent + pending.length ∧ w'.capped = w.capped ∧ w.Grows w' ∧
      ∀ other, w'.Done start other ↔
        w.Done start other ∨ other ∈ pending ∧ other ∉ truncatedKinds cfg provider start count w.searchesSent pending := by
  induction pending generalizing w with
  | nil => exact ⟨w, rfl, rfl, rfl, .refl w, by simp⟩
  | cons kind pending ih =>
    rw [List.length_cons] at hfit
    obtain ⟨hkind, hnodup⟩ := List.nodup_cons.mp hnodup
    obtain ⟨w₁, hsearch, hsent, hcapped, hgrows, hdone⟩ := searchKind_spec
      hwhole hcount w
    obtain ⟨w₂, hsearches, hsent', hcapped', hgrows', hdone'⟩ := ih (w := w₁) (by omega) hnodup
    rw [hsent] at hsearches hdone'
    have hmore : kind ∉ truncatedKinds cfg provider start count (w.searchesSent + 1) pending :=
      fun hmem => hkind (truncatedKinds_sublist.mem hmem)
    refine ⟨w₂, ?_, by rw [hsent', hsent, List.length_cons]; omega,
      hcapped'.trans hcapped, hgrows.trans hgrows', fun other => ?_⟩
    · simp only [searchKinds, truncatedKinds]
      rw [if_neg (by omega), hsearch]
      simp only [hsearches]
    · rw [hdone' other, hdone other]
      simp only [truncatedKinds, List.mem_cons]
      cases htruncated : kindTruncated cfg provider w.searchesSent start count kind with
      | true =>
        simp only [if_true, List.mem_cons, not_or, Bool.true_eq_false, and_false, or_false]
        refine or_congr_right ⟨fun ⟨hmem, hnot⟩ => ⟨.inr hmem, ?_, hnot⟩, fun ⟨hmem, hne, hnot⟩ => ⟨hmem.resolve_left hne, hnot⟩⟩
        rintro rfl
        exact hkind hmem
      | false =>
        simp only [Bool.false_eq_true, if_false, and_true]
        constructor
        · rintro ((hwas | rfl) | ⟨hmem, hnot⟩)
          · exact .inl hwas
          · exact .inr ⟨.inl rfl, hmore⟩
          · exact .inr ⟨.inr hmem, hnot⟩
        · rintro (hwas | ⟨rfl | hmem, hnot⟩)
          · exact .inl (.inl hwas)
          · exact .inl (.inr rfl)
          · exact .inr ⟨hmem, hnot⟩

theorem searchKinds_capped (start : Int) (depth : Nat) (hwhole : provider.Whole cfg) (hcount : 1 ≤ count)
    (hsent : w.searchesSent ≤ cfg.maxSearches) (hfit : cfg.maxSearches < w.searchesSent + pending.length)
    (hnodup : pending.Nodup) (hpending : ∀ kind ∈ pending, ¬ w.Done start kind) :
    ∃ w', searchKinds cfg provider start count depth pending w = (w', none) ∧ w'.capped = true ∧ w.Grows w' ∧
      ∃ kind ∈ pending, ¬ w'.Done start kind := by
  induction pending generalizing w with
  | nil =>
    rw [List.length_nil] at hfit
    omega
  | cons kind pending ih =>
    rw [List.length_cons] at hfit
    obtain ⟨hkind, hnodup⟩ := List.nodup_cons.mp hnodup
    by_cases hcap : cfg.maxSearches ≤ w.searchesSent
    · refine ⟨{ w with capped := true }, ?_, rfl, ⟨id, id⟩, kind, List.mem_cons_self, hpending kind List.mem_cons_self⟩
      simp only [searchKinds]
      rw [if_pos hcap]
    · obtain ⟨w₁, hsearch, hsent₁, -, hgrows, hdone⟩ := searchKind_spec
        hwhole hcount w
      have hpending' : ∀ other ∈ pending, ¬ w₁.Done start other := by
        intro other hmem hother
        rcases (hdone other).mp hother with hwas | ⟨rfl, -⟩
        · exact hpending other (List.mem_cons_of_mem kind hmem) hwas
        · exact hkind hmem
      obtain ⟨w₂, hsearches, hcapped', hgrows', other, hmem, hother⟩ := ih (w := w₁) (by omega) (by omega) hnodup hpending'
      refine ⟨w₂, ?_, hcapped', hgrows.trans hgrows', other, List.mem_cons_of_mem kind hmem, hother⟩
      simp only [searchKinds]
      rw [if_neg hcap, hsearch]
      simp only [hsearches]

theorem searchKinds_grows (hwhole : provider.Whole cfg) (hcount : 1 ≤ count) :
    w.Grows (searchKinds cfg provider start count depth pending w).1 := by
  induction pending generalizing w with
  | nil => exact .refl w
  | cons kind pending ih =>
    obtain ⟨w₁, hsearch, -, -, hgrows, -⟩ := searchKind_spec hwhole hcount w
    have hnext := ih (w := w₁)
    simp only [searchKinds]
    split
    · exact ⟨id, id⟩
    · rw [hsearch]
      simp only
      split <;> rename_i hsearches <;> rw [hsearches] at hnext <;> exact hgrows.trans hnext

/-! ## The window -/

theorem searchWafWindow_grows (hwhole : provider.Whole cfg) (hcount : 1 ≤ count) :
    w.Grows (searchWafWindow cfg provider pending start count depth w) := by
  induction count using Nat.strong_induction_on generalizing w start depth pending with
  | _ count ih =>
    have hkinds : w.Grows (searchKinds cfg provider start count depth pending w).1 := searchKinds_grows hwhole hcount
    rw [searchWafWindow]
    split
    · exact .refl w
    · split
      · rename_i hsearches
        rwa [hsearches] at hkinds
      · rename_i w₁ truncated hsearches
        rw [hsearches] at hkinds
        split
        · rename_i h
          have hleft : w₁.Grows (searchWafWindow cfg provider truncated start (count / 2) (depth + 1) w₁) :=
            ih (count / 2) (by omega) (by omega)
          dsimp only
          split
          · exact (hkinds.trans hleft).trans (ih (count - count / 2) (by omega) (by omega))
          · exact hkinds.trans hleft
        · exact hkinds

theorem truncatedKinds_single {k} : truncatedKinds cfg provider start 1 k pending = [] := by
  induction pending generalizing k with
  | nil => rfl
  | cons kind pending ih =>
    simp only [truncatedKinds, ih]
    rw [if_neg (by simp [kindTruncated])]

theorem length_le_leftmostSearches {k} : pending.length ≤ leftmostSearches cfg provider k pending start count := by
  rw [leftmostSearches]
  split <;> omega

theorem searchWafWindow_left (hwhole : provider.Whole cfg) (hcount : 1 ≤ count) {kinds : List WafKind}
    (hkinds : ∀ kind ∈ pending, kind ∈ kinds) (hnodup : pending.Nodup)
    (hdone : ∀ kind ∈ kinds, w.Done start kind ↔ kind ∉ pending) (hfailure : w.failure = none) (hcapped : w.capped = false)
    (hsent : w.searchesSent ≤ cfg.maxSearches) :
    let w' := searchWafWindow cfg provider pending start count depth w
    let fits := w.searchesSent + leftmostSearches cfg provider w.searchesSent pending start count ≤ cfg.maxSearches
    fits ∧ (∀ kind ∈ kinds, w'.Done start kind) ∨ ¬ fits ∧ w'.capped = true ∧ ∃ kind ∈ kinds, ¬ w'.Done start kind := by
  dsimp only
  induction count using Nat.strong_induction_on generalizing w depth pending with
  | _ count ih =>
    by_cases hfit : w.searchesSent + pending.length ≤ cfg.maxSearches
    · obtain ⟨w₁, hsearches, hsent₁, hcapped₁, hgrows₁, hdone₁⟩ := searchKinds_fit start depth hwhole hcount hfit hnodup
      have hsublist : (truncatedKinds cfg provider start count w.searchesSent pending).Sublist pending :=
        truncatedKinds_sublist
      have hnow : ∀ kind ∈ kinds, w₁.Done start kind ↔
          kind ∉ truncatedKinds cfg provider start count w.searchesSent pending := by
        intro kind hkind
        rw [hdone₁ kind, hdone kind hkind]
        constructor
        · rintro (hwas | ⟨-, hnot⟩) hmem
          · exact hwas (hsublist.mem hmem)
          · exact hnot hmem
        · intro hnot
          by_cases hmem : kind ∈ pending
          · exact .inr ⟨hmem, hnot⟩
          · exact .inl hmem
      have hfailure₁ := hgrows₁.failure hfailure
      rw [searchWafWindow, if_neg (by rw [hfailure]; simp), leftmostSearches]
      simp only [hsearches]
      by_cases h : truncatedKinds cfg provider start count w.searchesSent pending ≠ [] ∧ 2 ≤ count
      · rw [dif_pos h, dif_pos h]
        have hleft := @ih (count / 2) (by omega) w₁ (depth + 1) _ (by omega)
          (fun kind hmem => hkinds kind (hsublist.mem hmem)) (hnodup.sublist hsublist) hnow hfailure₁
          (hcapped₁.trans hcapped) (by omega)
        rw [hsent₁, Nat.add_assoc] at hleft
        rcases hleft with ⟨hfits, hall⟩ | ⟨hnot, hcap, hmissing⟩
        · refine .inl ⟨hfits, fun kind hkind => ?_⟩
          split
          · exact (searchWafWindow_grows hwhole (by omega)).done (hall kind hkind)
          · exact hall kind hkind
        · rw [hcap]
          exact .inr ⟨hnot, hcap, hmissing⟩
      · rw [dif_neg h, dif_neg h]
        have hnone : truncatedKinds cfg provider start count w.searchesSent pending = [] := by
          by_contra hsome
          have hlone : ¬ 2 ≤ count := fun hle => h ⟨hsome, hle⟩
          have hone : count = 1 := by omega
          rw [hone] at hsome
          exact hsome truncatedKinds_single
        exact .inl ⟨hfit, fun kind hkind => (hnow kind hkind).mpr (by simp [hnone])⟩
    · obtain ⟨w₁, hsearches, hcap, -, kind, hmem, hmissing⟩ := searchKinds_capped start depth hwhole hcount hsent
         (Nat.lt_of_not_le hfit) hnodup (fun kind hmem hwas => (hdone kind (hkinds kind hmem)).mp hwas hmem)
      have hlength : pending.length ≤ leftmostSearches cfg provider w.searchesSent pending start count :=
        length_le_leftmostSearches
      rw [searchWafWindow, if_neg (by rw [hfailure]; simp)]
      simp only [hsearches]
      exact .inr ⟨by omega, hcap, kind, hkinds kind hmem, hmissing⟩

/-! ## The tick -/

theorem kinds_nodup : cfg.kinds.Nodup := by
  have hbreakdowns : cfg.plannedBreakdowns.Nodup := List.Nodup.filter _ (by decide)
  exact List.nodup_cons.mpr ⟨by simp, hbreakdowns.map (fun _ _ h => Option.some.inj h)⟩

theorem mapM_isSome {α β : Type} (f : α → Option β) (l : List α) :
    (l.mapM f).isSome = true ↔ ∀ a ∈ l, (f a).isSome = true := by
  induction l with
  | nil => simp
  | cons a l ih =>
    rw [List.mapM_cons, List.forall_mem_cons, ← ih]
    cases f a <;> cases l.mapM f <;> simp

theorem fetched_isSome {bucket} : (w.fetched cfg bucket).isSome = true ↔ ∀ kind ∈ cfg.kinds, w.Done bucket kind := by
  have hbreakdowns := mapM_isSome
    (fun breakdown => (w.breakdowns.get? (breakdown, bucket)).map (fun result => (breakdown, result))) cfg.plannedBreakdowns
  simp only [Option.isSome_map] at hbreakdowns
  rw [WafCollectConfig.kinds, List.forall_mem_cons, List.forall_mem_map]
  simp only [WafWindow.Done, ← hbreakdowns, WafWindow.fetched]
  cases w.observations.get? bucket with
  | none => simp
  | some found =>
    cases hmap : cfg.plannedBreakdowns.mapM (fun breakdown =>
      (w.breakdowns.get? (breakdown, bucket)).map (fun result => (breakdown, result))) <;> simp

theorem get?_filterMap {κ α : Type} [DecidableEq κ] (l : List κ) (f : κ → Option α) {k} (h : k ∈ l) :
    Dict.get? (l.filterMap (fun k => (f k).map (fun v => (k, v)))) k = f k := by
  have hkeys := Dict.get?_filterMap_keys (l.map (fun k => (k, ()))) f k
  rw [List.filterMap_map, Dict.keys, List.map_map, if_pos (by simpa using h)] at hkeys
  exact hkeys

theorem fetchWafWindow_spec (hwhole : provider.Whole cfg) (first : Int) (rest : List Int) :
    ∃ found, fetchWafWindow cfg provider (first :: rest) = .ok found ∧ ((found.buckets.get? first).isSome = true ↔
      leftmostSearches cfg provider 0 cfg.kinds first (rest.length + 1) ≤ cfg.maxSearches) := by
  have hleft := @searchWafWindow_left cfg provider {} first (rest.length + 1) 0 cfg.kinds hwhole (by omega) cfg.kinds
    (fun kind hmem => hmem) kinds_nodup
    (by intro kind hkind; cases kind <;> simp [WafWindow.Done, hkind]) rfl rfl (Nat.zero_le _)
  have hgrows : WafWindow.Grows {} (searchWafWindow cfg provider cfg.kinds first (rest.length + 1) 0 {}) :=
    searchWafWindow_grows hwhole (by omega)
  have hfailure := hgrows.failure rfl
  simp only [fetchWafWindow, List.length_cons, hfailure]
  refine ⟨_, rfl, ?_⟩
  dsimp only
  rw [get?_filterMap _ _ List.mem_cons_self, fetched_isSome]
  simp only [Nat.zero_add] at hleft
  rcases hleft with ⟨hfits, hall⟩ | ⟨hnot, -, kind, hkind, hmissing⟩
  · exact iff_of_true hall hfits
  · exact iff_of_false (fun hall => hmissing (hall kind hkind)) hnot

def WafCollectTick.due (cfg : WafCollectConfig) (tick : WafCollectTick) (watermark : CollectionWatermark) : List Int :=
  intervalsToCollect (tick.run cfg []) watermark

def WafCollectTick.Fits (cfg : WafCollectConfig) (tick : WafCollectTick) (watermark : CollectionWatermark) : Prop :=
  match tick.due cfg watermark with
  | [] => True
  | first :: rest => leftmostSearches cfg tick.provider 0 cfg.kinds first (rest.length + 1) ≤ cfg.maxSearches

def WafCollectTaken.Advances (cfg : WafCollectConfig) (e : WafCollectTaken) : Prop :=
  ∃ watermarkAt, e.output.watermark.watermarkAt = some watermarkAt ∧
    ∀ old, e.before.watermarkAt = some old → old + seconds cfg.interval ≤ watermarkAt

theorem advanced_moves_iff (run : CollectRun) (watermark : CollectionWatermark) :
    (∃ watermarkAt, (advanced run watermark).watermarkAt = some watermarkAt ∧
      ∀ old, watermark.watermarkAt = some old → old + seconds run.interval ≤ watermarkAt) ↔
        bucketsWritten run watermark ≠ [] := by
  simp only [advanced]
  cases hlast : (bucketsWritten run watermark).getLast? with
  | none =>
    rw [List.getLast?_eq_none_iff.mp hlast]
    refine iff_of_false ?_ (by simp)
    rintro ⟨watermarkAt, hnew, hold⟩
    have hpos := run.interval_pos
    have hnext := hold watermarkAt hnew
    simp only [seconds] at hnext
    omega
  | some done =>
    have hmem : done ∈ bucketsWritten run watermark := List.mem_of_getLast? hlast
    refine iff_of_true ⟨done, rfl, fun old hold => ?_⟩ (List.ne_nil_of_mem hmem)
    exact next_le_of_mem_intervals hold ((List.takeWhile_prefix _).subset hmem)

theorem wafCollect_advances_iff {watermark tick report}
    (hwhole : tick.provider.Whole cfg) (h : wafCollect cfg watermark tick = .ok report) (hsearches : tick.searches = true)
    (hdue : tick.due cfg watermark ≠ []) :
    WafCollectTaken.Advances cfg ⟨watermark, tick, report⟩ ↔ tick.Fits cfg watermark := by
  simp only [WafCollectTick.searches, Bool.and_eq_true] at hsearches
  obtain ⟨⟨⟨henabled, hmonitored⟩, hacquired⟩, hpermit⟩ := hsearches
  cases hcases : tick.due cfg watermark with
  | nil => exact absurd hcases hdue
  | cons first rest =>
    obtain ⟨found, hfound, hfirst⟩ := fetchWafWindow_spec hwhole first rest
    have hcollect : intervalsToCollect (tick.run cfg []) watermark = first :: rest := hcases
    simp only [wafCollect, henabled, hmonitored, hacquired, hpermit, hcollect, hfound, Bool.not_true, Bool.or_self,
      Bool.false_eq_true, if_false, if_true] at h
    cases h
    refine (advanced_moves_iff (tick.run cfg found.buckets) watermark).trans ?_
    have hsame : intervalsToCollect (tick.run cfg found.buckets) watermark = first :: rest := hcollect
    simp only [WafCollectTick.Fits, hcases, bucketsWritten, hsame, ← hfirst]
    rw [List.takeWhile_cons]
    simp only [WafCollectTick.run]
    by_cases hgot : (found.buckets.get? first).isSome = true <;> simp [hgot]

end QRadarDashboard.Collectors
