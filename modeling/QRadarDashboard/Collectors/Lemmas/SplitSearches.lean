import QRadarDashboard.Collectors.Lemmas.WafLiveCollection

/-!
# What the split searches of a window return
-/

namespace QRadarDashboard.Collectors
open Lib History Waf

/-! ## One kind of search -/

section Metrics

variable {μ : Type} {a : WindowArgs μ} {start : Int} {m n count depth : Nat} {found : WindowSearch μ}
  {log : List WindowArgs.SentSearch}

def WindowArgs.Keyed (a : WindowArgs μ) : Prop :=
  ∀ k first count batch, a.provider.bucketed k first (a.bucketAt first count) = .ok batch → batch.truncated = false →
    batch.buckets.keys.Perm ((List.range count).map (fun index => a.bucketAt first index))

structure WindowArgs.OfWhole (a : WindowArgs μ) (e : WindowArgs.SentSearch) (b : Int) (bucket : CompletedBucket μ) :
    Prop where
  covers : ∃ index < e.count, b = a.bucketAt e.first index
  made : bucket.searchWindowStart = e.first ∧ bucket.searchWindowEnd = a.bucketAt e.first e.count ∧
    bucket.searchBucketCount = e.count ∧ bucket.splitDepth = e.depth
  answer : (e.count = 1 ∧ a.provider.metrics e.k e.first (a.bucketAt e.first e.count) = .ok bucket.samples) ∨
    1 < e.count ∧ ∃ batch, a.provider.bucketed e.k e.first (a.bucketAt e.first e.count) = .ok batch ∧
      batch.truncated = false ∧ batch.buckets.get? b = some bucket.samples

/-- The first `m` buckets of the window are completed, and no others. -/
structure WindowPrefix (a : WindowArgs μ) (start : Int) (m : Nat) (found : WindowSearch μ)
    (log : List WindowArgs.SentSearch) : Prop where
  keys : found.completed.keys = (List.range m).map (fun index => a.bucketAt start index)
  whole : ∀ b bucket, found.completed.get? b = some bucket → ∃ e ∈ log, a.OfWhole e b bucket
  searches : found.searches = log.length
  numbered : log.map WindowArgs.SentSearch.k = (List.range log.length).map (a.before + ·)
  capped : found.searches ≤ a.maxSearches

def WindowArgs.Raised (a : WindowArgs μ) (e : WindowArgs.SentSearch) (error : ProviderError) : Prop :=
  if 1 < e.count then a.provider.bucketed e.k e.first (a.bucketAt e.first e.count) = .error error
  else a.provider.metrics e.k e.first (a.bucketAt e.first e.count) = .error error

/-- How the search of the buckets up to `n` ended, after the first `m`. -/
inductive WindowEnd (a : WindowArgs μ) (start : Int) (m n : Nat) (found : WindowSearch μ)
    (log : List WindowArgs.SentSearch) : Prop
  | whole (hfailure : found.failure = none) (hfailed : found.failed = none) (hcapped : found.capped = false) (hall : m = n)
  | stopped (hfailure : found.failure = none) (hfailed : found.failed = none) (hcapped : found.capped = true) (hpart : m < n)
      (hstop : a.maxSearches ≤ found.searches ∨ a.late found.searches = true)
  | failed (error : ProviderError) (hfailure : found.failure = some error) (e : WindowArgs.SentSearch) (hsent : e ∈ log)
      (hraised : a.Raised e error) (hfirst : e.first = a.bucketAt start m) (hpos : 1 ≤ e.count) (hpart : m + e.count ≤ n)
      (hfailed : found.failed = some ⟨e.first, a.bucketAt e.first e.count⟩) (hcapped : found.capped = false)

theorem bucketAt_add (i : Nat) : a.bucketAt (a.bucketAt start m) i = a.bucketAt start (m + i) := by
  simp only [WindowArgs.bucketAt, seconds]
  push_cast
  ring

theorem bucketAt_injective (hinterval : 0 < a.interval) :
    Function.Injective (fun index : Nat => a.bucketAt start index) := by
  intro i j h
  simp only [WindowArgs.bucketAt, seconds] at h
  have hmul : a.interval * (i : Int) = a.interval * j := by omega
  exact_mod_cast Int.eq_of_mul_eq_mul_left (by omega) hmul

theorem WindowPrefix.complete (hinterval : 0 < a.interval) {samples : Int → List μ} (h : WindowPrefix a start m found log)
    (e : WindowArgs.SentSearch) (hfirst : e.first = a.bucketAt start m) (hk : e.k = a.before + found.searches)
    (hcap : found.searches < a.maxSearches)
    (hanswer : ∀ index < e.count, a.OfWhole e (a.bucketAt e.first index)
      ⟨samples (a.bucketAt e.first index), e.first, a.bucketAt e.first e.count, e.count, e.depth⟩) :
    WindowPrefix a start (m + e.count)
      (a.complete e.first e.count e.depth samples { found with searches := found.searches + 1 }) (log ++ [e]) := by
  have hnodup : (found.completed.keys ++ (List.range e.count).map (fun index => a.bucketAt e.first index)).Nodup := by
    rw [h.keys, hfirst]
    simp only [bucketAt_add]
    rw [← Function.comp_def (fun index => a.bucketAt start index) (m + ·), ← List.map_map, ← List.map_append,
      ← List.range_add]
    exact (List.nodup_range).map (bucketAt_injective hinterval)
  have hcompleted := Dict.foldl_set_of_nodup (fun index : Nat => a.bucketAt e.first index)
    (fun index => (⟨samples (a.bucketAt e.first index), e.first, a.bucketAt e.first e.count, e.count, e.depth⟩ :
      CompletedBucket μ)) hnodup
  refine ⟨?_, fun b bucket hget => ?_, ?_, ?_, hcap⟩
  · simp only [WindowArgs.complete, hcompleted]
    rw [Dict.keys, List.map_append, List.range_add, List.map_append, List.map_map, List.map_map]
    refine congrArg₂ (· ++ ·) h.keys (List.map_congr_left (fun index _ => ?_))
    simp only [Function.comp_apply, hfirst, bucketAt_add]
  · have hset := Dict.get?_foldl_set (fun index : Nat => a.bucketAt e.first index)
      (fun index => (⟨samples (a.bucketAt e.first index), e.first, a.bucketAt e.first e.count, e.count, e.depth⟩ :
        CompletedBucket μ)) (List.range e.count) found.completed b
    simp only [WindowArgs.complete] at hget
    rw [hget] at hset
    rcases hset with ⟨index, hindex, rfl, rfl⟩ | hold
    · exact ⟨e, by simp, hanswer index (List.mem_range.mp hindex)⟩
    · obtain ⟨e', he', hwhole⟩ := h.whole b bucket hold
      exact ⟨e', List.mem_append_left _ he', hwhole⟩
  · simp only [WindowArgs.complete, List.length_append, List.length_singleton, h.searches]
  · rw [List.map_append, h.numbered, List.length_append, List.length_singleton, List.range_succ, List.map_append,
      List.map_singleton, List.map_singleton, hk, h.searches]

theorem WindowPrefix.asked (h : WindowPrefix a start m found log) (e : WindowArgs.SentSearch)
    (hk : e.k = a.before + found.searches) (hcap : found.searches < a.maxSearches) {found'}
    (hcompleted : found'.completed = found.completed) (hsearches : found'.searches = found.searches + 1) :
    WindowPrefix a start m found' (log ++ [e]) where
  keys := by rw [hcompleted, h.keys]
  whole b bucket hget := by
    obtain ⟨e', he', hwhole⟩ := h.whole b bucket (by rwa [hcompleted] at hget)
    exact ⟨e', List.mem_append_left _ he', hwhole⟩
  searches := by rw [hsearches, h.searches, List.length_append, List.length_singleton]
  numbered := by
    rw [List.map_append, h.numbered, List.length_append, List.length_singleton, List.range_succ, List.map_append,
      List.map_singleton, List.map_singleton, hk, h.searches]
  capped := by omega

theorem search_completes (hinterval : 0 < a.interval) (hkeyed : a.Keyed) (hcount : 1 ≤ count)
    (h : WindowPrefix a start m found log) (hfailure : found.failure = none) (hfailed : found.failed = none)
    (hcapped : found.capped = false) :
    ∃ m', WindowPrefix a start m' (a.search (a.bucketAt start m) count depth found)
        (log ++ a.sent (a.bucketAt start m) count depth found) ∧
      WindowEnd a start m' (m + count) (a.search (a.bucketAt start m) count depth found)
        (log ++ a.sent (a.bucketAt start m) count depth found) := by
  induction count using Nat.strong_induction_on generalizing m depth found log with
  | _ count ih =>
    have hon : ¬ found.failure.isSome = true := by simp [hfailure]
    rw [WindowArgs.search, WindowArgs.sent, if_neg hon, if_neg hon]
    by_cases hstop : a.maxSearches ≤ found.searches ∨ a.late found.searches
    · rw [if_pos hstop, if_pos hstop, List.append_nil]
      exact ⟨m, ⟨h.keys, h.whole, h.searches, h.numbered, h.capped⟩, .stopped hfailure hfailed rfl (by omega) hstop⟩
    rw [if_neg hstop, if_neg hstop]
    have hcap : found.searches < a.maxSearches := not_le.mp (fun hle => hstop (.inl hle))
    let e : WindowArgs.SentSearch := ⟨a.before + found.searches, a.bucketAt start m, count, depth⟩
    have hask {found' : WindowSearch μ} (hcompleted : found'.completed = found.completed)
        (hsearches : found'.searches = found.searches + 1) : WindowPrefix a start m found' (log ++ [e]) :=
      h.asked e rfl hcap hcompleted hsearches
    by_cases hmany : 1 < count
    · simp only [if_pos hmany]
      cases hanswer : a.provider.bucketed (a.before + found.searches) (a.bucketAt start m)
          (a.bucketAt (a.bucketAt start m) count) with
      | error error =>
        refine ⟨m, hask rfl rfl, .failed error rfl e
          (List.mem_append_right log List.mem_cons_self) ?_ rfl hcount (le_refl _) rfl hcapped⟩
        rw [WindowArgs.Raised, if_pos hmany]
        exact hanswer
      | ok batch =>
        cases htruncated : batch.truncated with
        | false =>
          simp only [htruncated, Bool.false_eq_true, if_false]
          refine ⟨m + count, h.complete hinterval e rfl rfl hcap (fun index hindex => ?_),
            .whole hfailure hfailed hcapped rfl⟩
          have hkeys := hkeyed _ _ _ _ hanswer htruncated
          have hmem : a.bucketAt e.first index ∈ batch.buckets.keys :=
            hkeys.mem_iff.mpr (List.mem_map.mpr ⟨index, List.mem_range.mpr hindex, rfl⟩)
          obtain ⟨samples, hsamples⟩ := Option.ne_none_iff_exists'.mp
            (fun hnone => Dict.get?_eq_none_iff.mp hnone hmem)
          exact ⟨⟨index, hindex, rfl⟩, ⟨rfl, rfl, rfl, rfl⟩,
            .inr ⟨hmany, batch, hanswer, htruncated, by rw [hsamples]; rfl⟩⟩
        | true =>
          simp only [htruncated, if_true]
          obtain ⟨m₁, hleft, hend⟩ := @ih (count / 2) (by omega) m (depth + 1)
            { found with searches := found.searches + 1, splits := found.splits + 1 } (log ++ [e]) (by omega)
            (hask rfl rfl) hfailure hfailed hcapped
          generalize a.search (a.bucketAt start m) (count / 2) (depth + 1)
            { found with searches := found.searches + 1, splits := found.splits + 1 } = left at hleft hend ⊢
          have hlog (sent right : List WindowArgs.SentSearch) :
              log ++ e :: (sent ++ right) = log ++ [e] ++ sent ++ right := by simp
          rw [hlog]
          cases hend with
          | whole hfailure₁ hfailed₁ hcapped₁ hall =>
            have hgo : ¬ (left.capped = true ∨ left.failure.isSome = true) := by simp [hcapped₁, hfailure₁]
            rw [if_neg hgo, if_neg hgo, bucketAt_add, ← hall]
            have hright := @ih (count - count / 2) (by omega) m₁ (depth + 1) left _ (by omega) hleft hfailure₁
              hfailed₁ hcapped₁
            rwa [show m₁ + (count - count / 2) = m + count by omega] at hright
          | stopped hfailure₁ hfailed₁ hcapped₁ hpart hstop₁ =>
            rw [if_pos (.inl hcapped₁), if_pos (.inl hcapped₁), List.append_nil]
            exact ⟨m₁, hleft, .stopped hfailure₁ hfailed₁ hcapped₁ (by omega) hstop₁⟩
          | failed error hfailure₁ e₁ hsent hraised hfirst hpos hpart hfailed₁ hcapped₁ =>
            have hgo : left.capped = true ∨ left.failure.isSome = true := .inr (by simp [hfailure₁])
            rw [if_pos hgo, if_pos hgo, List.append_nil]
            exact ⟨m₁, hleft, .failed error hfailure₁ e₁ hsent hraised hfirst hpos (by omega) hfailed₁ hcapped₁⟩
    · obtain rfl : count = 1 := by omega
      simp only [if_neg hmany]
      cases hanswer : a.provider.metrics (a.before + found.searches) (a.bucketAt start m)
          (a.bucketAt (a.bucketAt start m) 1) with
      | error error =>
        refine ⟨m, hask rfl rfl, .failed error rfl e
          (List.mem_append_right log List.mem_cons_self) ?_ rfl (le_refl _) (le_refl _) rfl hcapped⟩
        rw [WindowArgs.Raised, if_neg hmany]
        exact hanswer
      | ok samples =>
        refine ⟨m + 1, h.complete hinterval e rfl rfl hcap (fun index hindex => ?_), .whole hfailure hfailed hcapped rfl⟩
        exact ⟨⟨index, hindex, rfl⟩, ⟨rfl, rfl, rfl, rfl⟩, .inl ⟨rfl, hanswer⟩⟩

theorem WindowEnd.le (h : WindowEnd a start m n found log) : m ≤ n := by
  cases h <;> omega

/-- A window of `count` buckets is halved less than `count` times. -/
theorem length_sent_le (first : Int) (hcount : 1 ≤ count) : (a.sent first count depth found).length ≤ 2 * count - 1 := by
  induction count using Nat.strong_induction_on generalizing first depth found with
  | _ count ih =>
    rw [WindowArgs.sent]
    split
    · exact Nat.zero_le _
    · split
      · exact Nat.zero_le _
      · rw [List.length_cons]
        dsimp only
        split
        · split
          · simp only [List.length_nil]
            omega
          · split
            · have hleft := @ih (count / 2) (by omega) (depth + 1)
                { found with searches := found.searches + 1, splits := found.splits + 1 } first (by omega)
              rw [List.length_append]
              split
              · rw [List.length_nil]
                omega
              · have hright := @ih (count - count / 2) (by omega) (depth + 1)
                  (a.search first (count / 2) (depth + 1)
                    { found with searches := found.searches + 1, splits := found.splits + 1 })
                  (a.bucketAt first (count / 2)) (by omega)
                omega
            · simp only [List.length_nil]
              omega
        · simp only [List.length_nil]
          omega

end Metrics

/-! ## Several kinds of search -/

section Waf

variable {cfg : WafCollectConfig} {provider : WafLiveProvider} {w w' : WafWindow} {log : List WafSentSearch} {start : Int}
  {count depth : Nat} {pending truncated : List WafKind}

structure WafLiveProvider.Keyed (cfg : WafCollectConfig) (provider : WafLiveProvider) : Prop where
  volume : ∀ k start count keyed, provider.volume.keyed k (windowSpan cfg start count) = .ok keyed →
    keyed.truncated = false → keyed.buckets.keys.Perm (bucketStarts cfg start count)
  breakdown : ∀ k breakdown start count keyed,
    provider.breakdownBucketed k breakdown (windowSpan cfg start count) = .ok keyed →
    keyed.truncated = false → keyed.buckets.keys.Perm (bucketStarts cfg start count)

structure VolumeAnswer (cfg : WafCollectConfig) (provider : WafLiveProvider) (e : WafSentSearch) (bucket : Int)
    (batch : WafObservationBatch) : Prop where
  covers : bucket ∈ bucketStarts cfg e.start e.count
  answer : (e.count = 1 ∧ provider.volume.one e.k (e.span cfg) = .ok batch) ∨
    e.count ≠ 1 ∧ ∃ keyed, provider.volume.keyed e.k (e.span cfg) = .ok keyed ∧ keyed.truncated = false ∧
      keyed.buckets.get? bucket = some batch

def BreakdownWhole (cfg : WafCollectConfig) (provider : WafLiveProvider) (e : WafSentSearch) (breakdown : WafBreakdown)
    (bucket : Int) (batch : WafBreakdownBatch) : Prop :=
  (e.count = 1 ∧ provider.breakdown e.k breakdown (e.span cfg) = .ok batch) ∨
    e.count ≠ 1 ∧ ∃ keyed, provider.breakdownBucketed e.k breakdown (e.span cfg) = .ok keyed ∧ keyed.truncated = false ∧
      keyed.buckets.get? bucket = some batch

def BreakdownFailed (cfg : WafCollectConfig) (provider : WafLiveProvider) (e : WafSentSearch) (breakdown : WafBreakdown)
    (errorClass : String) : Prop :=
  if e.count = 1 then provider.breakdown e.k breakdown (e.span cfg) = .error errorClass
  else provider.breakdownBucketed e.k breakdown (e.span cfg) = .error errorClass

structure BreakdownAnswer (cfg : WafCollectConfig) (provider : WafLiveProvider) (e : WafSentSearch)
    (breakdown : WafBreakdown) (bucket : Int) (result : BreakdownResult) : Prop where
  covers : bucket ∈ bucketStarts cfg e.start e.count
  answer : (∃ batch, BreakdownWhole cfg provider e breakdown bucket batch ∧
      result = ⟨if batch.truncated then .lowerBound else .exact, some batch, none, some (e.made cfg)⟩) ∨
    ∃ errorClass, BreakdownFailed cfg provider e breakdown errorClass ∧
      result = ⟨.failed, none, some errorClass, some (e.made cfg)⟩

/-- All that the window holds was answered by a search that was sent, and none was sent beyond the cap. -/
structure WafWindow.Honest (cfg : WafCollectConfig) (provider : WafLiveProvider) (w : WafWindow)
    (log : List WafSentSearch) : Prop where
  volume : ∀ bucket batch made, w.observations.get? bucket = some (batch, made) →
    ∃ e ∈ log, e.kind = none ∧ made = e.made cfg ∧ VolumeAnswer cfg provider e bucket batch
  breakdown : ∀ breakdown bucket result, w.breakdowns.get? (breakdown, bucket) = some result →
    ∃ e ∈ log, e.kind = some breakdown ∧ BreakdownAnswer cfg provider e breakdown bucket result
  sent : w.searchesSent = log.length
  numbered : log.map WafSentSearch.k = List.range log.length
  capped : w.searchesSent ≤ cfg.maxSearches

theorem bucketStarts_nodup : (bucketStarts cfg start count).Nodup := by
  refine (List.nodup_range).map (fun i j h => ?_)
  have hpos := cfg.interval_pos
  simp only [seconds] at h
  have hmul : cfg.interval * (i : Int) = cfg.interval * j := by omega
  exact_mod_cast Int.eq_of_mul_eq_mul_left (by omega) hmul

theorem observationsSearch_answer (hkeyed : provider.Keyed cfg) {e} (hpos : 1 ≤ e.count) {buckets}
    (h : observationsSearch cfg provider e.k e.start e.count = .ok (buckets, false)) {item} (hitem : item ∈ buckets) :
    VolumeAnswer cfg provider e item.1 item.2 := by
  unfold observationsSearch at h
  split at h
  · rename_i hone
    cases hanswer : provider.volume.one e.k (windowSpan cfg e.start e.count) with
    | error error =>
      rw [hanswer] at h
      cases h
    | ok batch =>
      rw [hanswer] at h
      cases h
      obtain rfl := List.mem_singleton.mp hitem
      exact ⟨start_mem_bucketStarts hpos, .inl ⟨hone, hanswer⟩⟩
  · rename_i hmany
    cases hanswer : provider.volume.keyed e.k (windowSpan cfg e.start e.count) with
    | error error =>
      rw [hanswer] at h
      cases h
    | ok keyed =>
      rw [hanswer] at h
      obtain ⟨rfl, htruncated⟩ := Prod.mk.inj (Except.ok.inj h)
      have hkeys := hkeyed.volume _ _ _ _ hanswer htruncated
      have hnodup : keyed.buckets.keys.Nodup := hkeys.nodup_iff.mpr bucketStarts_nodup
      exact ⟨hkeys.mem_iff.mp (List.mem_map.mpr ⟨item, hitem, rfl⟩),
        .inr ⟨hmany, keyed, hanswer, htruncated, (Dict.get?_eq_some_iff hnodup).mpr hitem⟩⟩

theorem breakdownSearch_answer (hkeyed : provider.Keyed cfg) {e} (hpos : 1 ≤ e.count)
    {breakdown results}
    (h : breakdownSearch cfg provider e.k e.start e.count breakdown = (results, false)) {item}
    (hitem : item ∈ results) :
    BreakdownAnswer cfg provider e breakdown item.1 { item.2 with search := some (e.made cfg) } := by
  simp only [breakdownSearch] at h
  split at h
  · rename_i errorClass hanswer
    cases h
    obtain ⟨bucket, hbucket, rfl⟩ := List.mem_map.mp hitem
    refine ⟨hbucket, .inr ⟨errorClass, ?_, rfl⟩⟩
    unfold BreakdownFailed
    split at hanswer
    · rename_i hone
      rw [if_pos hone]
      cases hone : provider.breakdown e.k breakdown (windowSpan cfg e.start e.count) with
      | error raised =>
        rw [hone] at hanswer
        cases hanswer
        exact hone
      | ok batch =>
        rw [hone] at hanswer
        cases hanswer
    · rename_i hmany
      rw [if_neg hmany]
      exact hanswer
  · rename_i keyed hanswer
    split at h
    · cases h
    rename_i hwhole
    cases h
    obtain ⟨⟨bucket, batch⟩, hbucket, rfl⟩ := List.mem_map.mp hitem
    split at hanswer
    · rename_i hone
      cases hsingle : provider.breakdown e.k breakdown (windowSpan cfg e.start e.count) with
      | error raised =>
        rw [hsingle] at hanswer
        cases hanswer
      | ok single =>
        rw [hsingle] at hanswer
        cases hanswer
        cases List.mem_singleton.mp hbucket
        exact ⟨start_mem_bucketStarts hpos, .inl ⟨batch, .inl ⟨hone, hsingle⟩, rfl⟩⟩
    · rename_i hmany
      have htruncated : keyed.truncated = false := by
        cases hcut : keyed.truncated with
        | false => rfl
        | true => exact absurd ⟨hmany, hcut⟩ hwhole
      have hkeys := hkeyed.breakdown _ _ _ _ _ hanswer htruncated
      have hnodup : keyed.buckets.keys.Nodup := hkeys.nodup_iff.mpr bucketStarts_nodup
      exact ⟨hkeys.mem_iff.mp (List.mem_map.mpr ⟨_, hbucket, rfl⟩),
        .inl ⟨batch, .inr ⟨hmany, keyed, hanswer, htruncated, (Dict.get?_eq_some_iff hnodup).mpr hbucket⟩, rfl⟩⟩

theorem WafWindow.Honest.extend (h : w.Honest cfg provider log) (e : WafSentSearch) (hk : e.k = w.searchesSent)
    (hcap : w.searchesSent < cfg.maxSearches) (hsent : w'.searchesSent = w.searchesSent + 1)
    (hvolume : ∀ bucket batch made, w'.observations.get? bucket = some (batch, made) →
      w.observations.get? bucket = some (batch, made) ∨
        (e.kind = none ∧ made = e.made cfg ∧ VolumeAnswer cfg provider e bucket batch))
    (hbreakdown : ∀ breakdown bucket result, w'.breakdowns.get? (breakdown, bucket) = some result →
      w.breakdowns.get? (breakdown, bucket) = some result ∨
        (e.kind = some breakdown ∧ BreakdownAnswer cfg provider e breakdown bucket result)) :
    w'.Honest cfg provider (log ++ [e]) where
  volume bucket batch made hget := by
    rcases hvolume bucket batch made hget with hold | hnew
    · obtain ⟨e', he', hanswer⟩ := h.volume bucket batch made hold
      exact ⟨e', List.mem_append_left _ he', hanswer⟩
    · exact ⟨e, List.mem_append_right _ List.mem_cons_self, hnew⟩
  breakdown breakdown bucket result hget := by
    rcases hbreakdown breakdown bucket result hget with hold | hnew
    · obtain ⟨e', he', hanswer⟩ := h.breakdown breakdown bucket result hold
      exact ⟨e', List.mem_append_left _ he', hanswer⟩
    · exact ⟨e, List.mem_append_right _ List.mem_cons_self, hnew⟩
  sent := by rw [hsent, h.sent, List.length_append, List.length_singleton]
  numbered := by
    rw [List.map_append, h.numbered, List.length_append, List.length_singleton, List.range_succ, List.map_singleton, hk,
      h.sent]
  capped := by omega

theorem searchKind_honest (hkeyed : provider.Keyed cfg) (hcount : 1 ≤ count) (h : w.Honest cfg provider log)
    (hcap : w.searchesSent < cfg.maxSearches) (kind : WafKind) :
    (searchKind cfg provider w start count depth kind).1.Honest cfg provider
      (log ++ [⟨w.searchesSent, kind, start, count, depth⟩]) := by
  let e : WafSentSearch := ⟨w.searchesSent, kind, start, count, depth⟩
  cases kind with
  | none =>
    cases hsearch : observationsSearch cfg provider w.searchesSent start count with
    | error error =>
      simp only [searchKind, hsearch]
      exact h.extend e rfl hcap rfl (fun _ _ _ hget => .inl hget) (fun _ _ _ hget => .inl hget)
    | ok found =>
      obtain ⟨buckets, truncated⟩ := found
      cases truncated with
      | true =>
        simp only [searchKind, hsearch]
        exact h.extend e rfl hcap rfl (fun _ _ _ hget => .inl hget) (fun _ _ _ hget => .inl hget)
      | false =>
        simp only [searchKind, hsearch]
        refine h.extend e rfl hcap rfl (fun bucket batch made hget => ?_) (fun _ _ _ hget => .inl hget)
        have hset := Dict.get?_foldl_set (fun item : Int × WafObservationBatch => item.1)
          (fun item => (item.2, e.made cfg)) buckets w.observations bucket
        dsimp only at hget
        rw [show WafSearchMeta.mk (windowSpan cfg start count).start (windowSpan cfg start count).stop count depth =
          e.made cfg from rfl] at hget
        rw [hget] at hset
        rcases hset with ⟨item, hitem, rfl, hval⟩ | hold
        · obtain ⟨rfl, rfl⟩ := Prod.mk.inj hval
          have hsearched : observationsSearch cfg provider e.k e.start e.count = .ok (buckets, false) := hsearch
          exact .inr ⟨rfl, rfl, observationsSearch_answer hkeyed hcount hsearched hitem⟩
        · exact .inl hold
  | some breakdown =>
    obtain ⟨⟨results, truncated⟩, hsearch⟩ : ∃ found, breakdownSearch cfg provider w.searchesSent start count breakdown =
        found := ⟨_, rfl⟩
    cases truncated with
    | true =>
      simp only [searchKind, hsearch]
      exact h.extend e rfl hcap rfl (fun _ _ _ hget => .inl hget) (fun _ _ _ hget => .inl hget)
    | false =>
      simp only [searchKind, hsearch]
      refine h.extend e rfl hcap rfl (fun _ _ _ hget => .inl hget) (fun other bucket result hget => ?_)
      have hset := Dict.get?_foldl_set (fun item : Int × BreakdownResult => (breakdown, item.1))
        (fun item => { item.2 with search := some (e.made cfg) }) results w.breakdowns (other, bucket)
      dsimp only at hget
      rw [show WafSearchMeta.mk (windowSpan cfg start count).start (windowSpan cfg start count).stop count depth =
        e.made cfg from rfl] at hget
      rw [hget] at hset
      rcases hset with ⟨item, hitem, hkey, rfl⟩ | hold
      · obtain ⟨rfl, rfl⟩ := Prod.mk.inj hkey
        have hsearched : breakdownSearch cfg provider e.k e.start e.count breakdown = (results, false) := hsearch
        exact .inr ⟨rfl, breakdownSearch_answer hkeyed hcount hsearched hitem⟩
      · exact .inl hold

theorem searchKinds_honest (hkeyed : provider.Keyed cfg) (hcount : 1 ≤ count) (h : w.Honest cfg provider log) :
    (searchKinds cfg provider start count depth pending w).1.Honest cfg provider
      (log ++ kindsSent cfg provider start count depth pending w) := by
  induction pending generalizing w log with
  | nil =>
    rw [kindsSent, List.append_nil]
    exact h
  | cons kind pending ih =>
    rw [searchKinds, kindsSent]
    by_cases hcap : cfg.maxSearches ≤ w.searchesSent
    · rw [if_pos hcap, if_pos hcap, List.append_nil]
      exact ⟨h.volume, h.breakdown, h.sent, h.numbered, h.capped⟩
    · rw [if_neg hcap, if_neg hcap]
      have hone := @searchKind_honest cfg provider w log start count depth hkeyed hcount h (Nat.lt_of_not_le hcap) kind
      rw [List.append_cons]
      generalize searchKind cfg provider w start count depth kind = searched at hone ⊢
      obtain ⟨w₁, _ | truncated⟩ := searched
      · rw [List.append_nil]
        exact hone
      · have hrest := ih hone
        dsimp only
        split <;> rename_i hsearches <;> rw [hsearches] at hrest <;> exact hrest

theorem searchWafWindow_honest (hkeyed : provider.Keyed cfg) (hcount : 1 ≤ count) (h : w.Honest cfg provider log) :
    (searchWafWindow cfg provider pending start count depth w).Honest cfg provider
      (log ++ windowSent cfg provider pending start count depth w) := by
  induction count using Nat.strong_induction_on generalizing pending start depth w log with
  | _ count ih =>
    rw [searchWafWindow, windowSent]
    by_cases hfailure : w.failure.isSome = true
    · rw [if_pos hfailure, if_pos hfailure, List.append_nil]
      exact h
    rw [if_neg hfailure, if_neg hfailure]
    have hkinds := @searchKinds_honest cfg provider w log start count depth pending hkeyed hcount h
    rw [← List.append_assoc]
    generalize log ++ kindsSent cfg provider start count depth pending w = log₁ at hkinds ⊢
    generalize searchKinds cfg provider start count depth pending w = searched at hkinds ⊢
    obtain ⟨w₁, _ | truncated⟩ := searched
    · rw [List.append_nil]
      exact hkinds
    · dsimp only
      by_cases hsplit : truncated ≠ [] ∧ 2 ≤ count
      · rw [dif_pos hsplit, dif_pos hsplit, ← List.append_assoc]
        have hleft := @ih (count / 2) (by omega) w₁ log₁ start (depth + 1) truncated (by omega) hkinds
        generalize searchWafWindow cfg provider truncated start (count / 2) (depth + 1) w₁ = left at hleft ⊢
        generalize log₁ ++ windowSent cfg provider truncated start (count / 2) (depth + 1) w₁ = log₂ at hleft ⊢
        by_cases hgo : (!left.capped && left.failure.isNone) = true
        · rw [if_pos hgo, if_pos hgo]
          exact ih (count - count / 2) (by omega) (by omega) hleft
        · rw [if_neg hgo, if_neg hgo, List.append_nil]
          exact hleft
      · rw [dif_neg hsplit, dif_neg hsplit, List.append_nil]
        exact hkinds

/-- A search of one bucket is never truncated as a whole. -/
theorem searchKind_lone (kind : WafKind) : (searchKind cfg provider w start 1 depth kind).2 ≠ some true := by
  cases kind with
  | none =>
    cases hone : provider.volume.one w.searchesSent (windowSpan cfg start 1) <;>
      simp [searchKind, observationsSearch, hone, Except.map]
  | some breakdown =>
    cases hone : provider.breakdown w.searchesSent breakdown (windowSpan cfg start 1) <;>
      simp [searchKind, breakdownSearch, hone, Except.map]

theorem searchKinds_lone (h : searchKinds cfg provider start 1 depth pending w = (w', some truncated)) :
    truncated = [] := by
  induction pending generalizing w truncated with
  | nil =>
    cases h
    rfl
  | cons kind pending ih =>
    rw [searchKinds] at h
    split at h
    · cases h
    · have hlone := @searchKind_lone cfg provider w start depth kind
      split at h
      · cases h
      · rename_i w₁ cut hsearch
        rw [hsearch] at hlone
        split at h
        · cases h
        · rename_i w₂ more hmore
          have hcut : cut = false := by simpa using hlone
          rw [hcut] at h
          cases h
          exact ih hmore

theorem searchKinds_sublist (h : searchKinds cfg provider start count depth pending w = (w', some truncated)) :
    truncated.Sublist pending := by
  induction pending generalizing w truncated with
  | nil =>
    cases h
    exact .slnil
  | cons kind pending ih =>
    rw [searchKinds] at h
    split at h
    · cases h
    · split at h
      · cases h
      · rename_i w₁ cut hsearch
        split at h
        · cases h
        · rename_i w₂ more hmore
          cases cut with
          | true =>
            cases h
            exact (ih hmore).cons_cons kind
          | false =>
            cases h
            exact (ih hmore).cons kind

theorem length_kindsSent_le : (kindsSent cfg provider start count depth pending w).length ≤ pending.length := by
  induction pending generalizing w with
  | nil => exact Nat.le_refl _
  | cons kind pending ih =>
    rw [kindsSent]
    split
    · exact Nat.zero_le _
    · rw [List.length_cons, List.length_cons]
      split
      · exact Nat.succ_le_succ (Nat.zero_le _)
      · exact Nat.succ_le_succ ih

theorem length_windowSent_le (hcount : 1 ≤ count) :
    (windowSent cfg provider pending start count depth w).length ≤ pending.length * (2 * count - 1) := by
  induction count using Nat.strong_induction_on generalizing pending start depth w with
  | _ count ih =>
    have hkinds := @length_kindsSent_le cfg provider w start count depth pending
    rw [windowSent]
    split
    · exact Nat.zero_le _
    rw [List.length_append]
    split
    · rw [List.length_nil]
      exact hkinds.trans (Nat.le_mul_of_pos_right _ (by omega))
    · rename_i w₁ truncated hsearches
      have htruncated : truncated.length ≤ pending.length := (searchKinds_sublist hsearches).length_le
      split
      · rename_i hsplit
        have hleft := @ih (count / 2) (by omega) w₁ start (depth + 1) truncated (by omega)
        have hleft' := hleft.trans (Nat.mul_le_mul_right _ htruncated)
        have hright := @ih (count - count / 2) (by omega)
          (searchWafWindow cfg provider truncated start (count / 2) (depth + 1) w₁)
          (start + seconds (cfg.interval * (count / 2 : Nat))) (depth + 1) truncated (by omega)
        have hright' := hright.trans (Nat.mul_le_mul_right _ htruncated)
        have hsum : pending.length + pending.length * (2 * (count / 2) - 1) +
            pending.length * (2 * (count - count / 2) - 1) = pending.length * (2 * count - 1) := by
          have htwo : 2 * count - 1 = 1 + (2 * (count / 2) - 1) + (2 * (count - count / 2) - 1) := by omega
          rw [htwo, Nat.mul_add, Nat.mul_add, Nat.mul_one]
        dsimp only
        rw [List.length_append]
        split
        · omega
        · rw [List.length_nil]
          omega
      · rw [List.length_nil]
        exact hkinds.trans (Nat.le_mul_of_pos_right _ (by omega))

theorem get?_mapM {κ α : Type} [DecidableEq κ] {l : List κ} {f : κ → Option α} {d : Dict κ α}
    (h : l.mapM (fun k => (f k).map (fun v => (k, v))) = some d) {k} (hk : k ∈ l) :
    ∃ v, f k = some v ∧ d.get? k = some v := by
  induction l generalizing d with
  | nil => cases hk
  | cons k₀ l ih =>
    rw [List.mapM_cons] at h
    obtain ⟨item, hitem, h⟩ := Option.bind_eq_some_iff.mp h
    obtain ⟨rest, hrest, h⟩ := Option.bind_eq_some_iff.mp h
    obtain ⟨v, hv, rfl⟩ := Option.map_eq_some_iff.mp hitem
    cases h
    by_cases hsame : k₀ = k
    · subst hsame
      exact ⟨v, hv, by simp [Dict.get?_cons]⟩
    · obtain ⟨v', hv', hget⟩ := ih hrest ((List.mem_cons.mp hk).resolve_left (fun heq => hsame heq.symm))
      exact ⟨v', hv', by simp [Dict.get?_cons, hsame, hget]⟩

theorem fetched_spec {bucket} {fetched : WafFetched} (h : w.fetched cfg bucket = some fetched) :
    w.observations.get? bucket = some (fetched.batch, fetched.search) ∧
      ∀ breakdown ∈ cfg.plannedBreakdowns, ∃ result, w.breakdowns.get? (breakdown, bucket) = some result ∧
        fetched.breakdowns.get? breakdown = some result := by
  obtain ⟨⟨batch, made⟩, hfound, h⟩ := Option.bind_eq_some_iff.mp h
  obtain ⟨breakdowns, hbreakdowns, h⟩ := Option.bind_eq_some_iff.mp h
  cases h
  exact ⟨hfound, fun breakdown hplanned => get?_mapM hbreakdowns hplanned⟩

structure FetchedHonest (cfg : WafCollectConfig) (provider : WafLiveProvider) (log : List WafSentSearch) (bucket : Int)
    (fetched : WafFetched) : Prop where
  volume : ∃ e ∈ log, e.kind = none ∧ fetched.search = e.made cfg ∧ VolumeAnswer cfg provider e bucket fetched.batch
  breakdown : ∀ breakdown ∈ cfg.plannedBreakdowns, ∃ result, fetched.breakdowns.get? breakdown = some result ∧
    ∃ e ∈ log, e.kind = some breakdown ∧ BreakdownAnswer cfg provider e breakdown bucket result

theorem WafWindow.Honest.fetched (h : w.Honest cfg provider log) {bucket fetched}
    (hfetched : w.fetched cfg bucket = some fetched) : FetchedHonest cfg provider log bucket fetched := by
  obtain ⟨hvolume, hbreakdowns⟩ := fetched_spec hfetched
  refine ⟨h.volume bucket _ _ hvolume, fun breakdown hplanned => ?_⟩
  obtain ⟨result, hresult, hget⟩ := hbreakdowns breakdown hplanned
  exact ⟨result, hget, h.breakdown breakdown bucket result hresult⟩

/-- What `_fetch_window` sends and returns. -/
structure FetchHonest (cfg : WafCollectConfig) (provider : WafLiveProvider) (intervals : List Int) : Prop where
  few : (fetchSent cfg provider intervals).length ≤ cfg.kinds.length * (2 * intervals.length - 1)
  numbered : (fetchSent cfg provider intervals).map WafSentSearch.k = List.range (fetchSent cfg provider intervals).length
  capped : ∀ e ∈ fetchSent cfg provider intervals, e.k < cfg.maxSearches
  sent : ∀ found, fetchWafWindow cfg provider intervals = .ok found →
    found.window.searchesSent = (fetchSent cfg provider intervals).length
  returned : ∀ found, fetchWafWindow cfg provider intervals = .ok found → ∀ bucket fetched,
    found.buckets.get? bucket = some fetched → FetchedHonest cfg provider (fetchSent cfg provider intervals) bucket fetched

theorem fetchWafWindow_honest (hkeyed : provider.Keyed cfg) (intervals : List Int) :
    FetchHonest cfg provider intervals := by
  cases intervals with
  | nil =>
    refine ⟨Nat.zero_le _, rfl, (fun e he => by cases he), fun found h => ?_, fun found h bucket fetched hget => ?_⟩
    · cases h
      rfl
    · cases h
      cases hget
  | cons first rest =>
    have hempty : WafWindow.Honest cfg provider {} [] :=
      ⟨fun _ _ _ hget => (by cases hget), fun _ _ _ hget => (by cases hget), rfl, rfl, Nat.zero_le _⟩
    have hcount : 1 ≤ (first :: rest).length := Nat.succ_le_succ (Nat.zero_le _)
    have hhonest := @searchWafWindow_honest cfg provider {} [] first (first :: rest).length 0 cfg.kinds hkeyed hcount
      hempty
    rw [List.nil_append, ← fetchSent] at hhonest
    have hwindow : ∀ found, fetchWafWindow cfg provider (first :: rest) = .ok found →
        found.window = searchWafWindow cfg provider cfg.kinds first (first :: rest).length 0 {} ∧
          found.buckets = (first :: rest).filterMap (fun start =>
            (found.window.fetched cfg start).map (fun fetched => (start, fetched))) := by
      intro found h
      simp only [fetchWafWindow] at h
      split at h
      · cases h
      · cases h
        exact ⟨rfl, rfl⟩
    refine ⟨length_windowSent_le hcount, hhonest.numbered, fun e he => ?_, fun found h => ?_,
      fun found h bucket fetched hget => ?_⟩
    · have hk : e.k ∈ (fetchSent cfg provider (first :: rest)).map WafSentSearch.k := List.mem_map.mpr ⟨e, he, rfl⟩
      rw [hhonest.numbered, List.mem_range] at hk
      exact hk.trans_le (hhonest.sent ▸ hhonest.capped)
    · rw [(hwindow found h).1, hhonest.sent]
    · obtain ⟨hsame, hbuckets⟩ := hwindow found h
      rw [hbuckets] at hget
      obtain ⟨start, -, hitem⟩ := List.mem_filterMap.mp (Dict.mem_of_get? hget)
      obtain ⟨fetched', hfetched, heq⟩ := Option.map_eq_some_iff.mp hitem
      cases heq
      rw [hsame] at hfetched
      exact hhonest.fetched hfetched

end Waf

end QRadarDashboard.Collectors
