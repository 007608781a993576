import QRadarDashboard.Collectors.Lemmas.BucketedMetrics
import QRadarDashboard.Waf.Bucketed

/-!
# Keyed WAF rows and their buckets
-/

namespace QRadarDashboard.Waf
open Lib Providers Collectors History

variable {t : TextTables} {firstKey : Int} {n : Nat} {row : KeyedRow} {rows : List KeyedRow} {what : String}

/-! ## Indices -/

theorem namesBucket_unique {i j} (hi : namesBucket t firstKey i row = true)
    (hj : namesBucket t firstKey j row = true) : i = j := by
  have h := (of_decide_eq_true hi).symm.trans (of_decide_eq_true hj)
  simp only [Option.some.injEq] at h
  omega

theorem bucketIndex_cases (what : String) (hkey : KeyReadable t (column row "k")) :
    FailsClosed (∃ i < n, namesBucket t firstKey i row) (bucketIndex t firstKey n what row)
      (fun i => i < n ∧ namesBucket t firstKey i row) := by
  obtain ⟨key, hkey⟩ := integerBucketKey_isOk hkey
  have hnames : ∀ i : Nat, namesBucket t firstKey i row = decide (key = some (firstKey + i)) := by
    intro i
    rw [namesBucket, hkey]
    simp [Except.toOption]
  unfold bucketIndex
  rw [hkey]
  cases key with
  | none =>
    refine Or.inr ⟨?_, _, rfl⟩
    rintro ⟨i, -, hname⟩
    rw [hnames] at hname
    cases hname
  | some key =>
    simp only [Except.mapError, bind, Except.bind]
    split
    · rename_i hin
      have hlt : (key - firstKey).toNat < n := by omega
      have hname : namesBucket t firstKey (key - firstKey).toNat row = true := by
        rw [hnames, decide_eq_true_eq, Option.some.injEq]
        omega
      exact Or.inl ⟨⟨_, hlt, hname⟩, _, rfl, hlt, hname⟩
    · rename_i hout
      refine Or.inr ⟨?_, _, rfl⟩
      rintro ⟨i, hi, hname⟩
      rw [hnames, decide_eq_true_eq, Option.some.injEq] at hname
      omega

theorem indexRows_cases (firstKey : Int) (n : Nat) (what : String)
    (hkeys : ∀ row ∈ rows, KeyReadable t (column row "k")) :
    FailsClosed (∀ row ∈ rows, ∃ i < n, namesBucket t firstKey i row) (indexRows t firstKey n what rows)
      (fun indexed => ∀ i, rowsAt indexed i = rows.filter (namesBucket t firstKey i)) := by
  induction rows with
  | nil => exact Or.inl ⟨by simp, [], rfl, fun i => rfl⟩
  | cons row rows ih =>
    obtain ⟨hkey, hkeys⟩ := List.forall_mem_cons.mp hkeys
    unfold indexRows
    rw [List.mapM_cons]
    rcases bucketIndex_cases what hkey with ⟨hname, i, hindex, -, hi⟩ | ⟨hname, message, hfail⟩
    · rw [hindex]
      rcases ih hkeys with ⟨hnames, indexed, hindexed, hrows⟩ | ⟨hnames, message, hfail⟩
      · unfold indexRows at hindexed
        refine Or.inl ⟨List.forall_mem_cons.mpr ⟨hname, hnames⟩, (i, row) :: indexed, ?_, fun j => ?_⟩
        · rw [hindexed]
          rfl
        · rw [rowsAt, List.filter_cons, List.filter_cons, ← hrows j]
          by_cases hij : i = j
          · rw [if_pos (decide_eq_true hij), if_pos (hij ▸ hi)]
            rfl
          · rw [if_neg (by simpa using hij), if_neg (fun hj => hij (namesBucket_unique hi hj))]
            rfl
      · unfold indexRows at hfail
        refine Or.inr ⟨fun h => hnames (List.forall_mem_cons.mp h).2, message, ?_⟩
        rw [hfail]
        rfl
    · refine Or.inr ⟨fun h => hname (List.forall_mem_cons.mp h).1, message, ?_⟩
      rw [hfail]
      rfl

/-! ## Totals -/

structure TotalRowReadable (t : TextTables) (row : KeyedRow) : Prop where
  key : KeyReadable t (column row "k")
  total : NumberReadable (column row "total_events")

def totalEvents (t : TextTables) (row : KeyedRow) : Int :=
  ((asInt t (column row "total_events")).toOption.join).getD 0

def OneRowEach (t : TextTables) (firstKey : Int) (rows : List KeyedRow) : Prop :=
  rows.Pairwise (fun left right => ∀ i, ¬ (namesBucket t firstKey i left = true ∧ namesBucket t firstKey i right = true))

theorem foldlM_addTotal (firstKey : Int) (n : Nat) (totals : Dict Nat Int)
    (hrows : ∀ row ∈ rows, TotalRowReadable t row) :
    FailsClosed ((∀ row ∈ rows, ∃ i < n, namesBucket t firstKey i row) ∧ OneRowEach t firstKey rows ∧
        ∀ row ∈ rows, ∀ i, namesBucket t firstKey i row = true → totals.get? i = none)
      (rows.foldlM (addTotal t firstKey n) totals)
      (fun after => ∀ i, after.get? i =
        (totals.get? i).or (((rows.filter (namesBucket t firstKey i)).head?).map (totalEvents t))) := by
  induction rows generalizing totals with
  | nil => exact Or.inl ⟨⟨by simp, List.Pairwise.nil, by simp⟩, totals, rfl, fun i => by simp⟩
  | cons row rows ih =>
    obtain ⟨hrow, hrows⟩ := List.forall_mem_cons.mp hrows
    rw [List.foldlM_cons]
    unfold addTotal
    rcases bucketIndex_cases "total" hrow.key with ⟨hname, i, hindex, -, hi⟩ | ⟨hname, message, hfail⟩
    · rw [hindex]
      cases hget : totals.get? i with
      | some total =>
        refine Or.inr ⟨?_, "QRadar Ariel WAF total returned two rows for one bucket", ?_⟩
        · rintro ⟨-, -, hfresh⟩
          rw [hfresh row List.mem_cons_self i hi] at hget
          cases hget
        · simp [bind, Except.bind, hget]
      | none =>
        obtain ⟨total, htotal⟩ := asInt_isOk (t := t) hrow.total
        have hset : totalEvents t row = total.getD 0 := by
          rw [totalEvents, htotal]
          rfl
        have hstep : ∀ j, (totals.set i (total.getD 0)).get? j =
            if j = i then some (totalEvents t row) else totals.get? j := by
          intro j
          rw [Dict.get?_set, hset]
        simp only [bind, Except.bind, hget, Option.isSome_none, Bool.false_eq_true, if_false, htotal, Except.mapError]
        rcases ih (totals.set i (total.getD 0)) hrows with ⟨⟨hnames, hone, hfresh⟩, after, hafter, hreads⟩ |
            ⟨hnot, message, hfail⟩
        · refine Or.inl ⟨⟨List.forall_mem_cons.mpr ⟨hname, hnames⟩, List.pairwise_cons.mpr ⟨?_, hone⟩,
            List.forall_mem_cons.mpr ⟨?_, ?_⟩⟩, after, hafter, fun j => ?_⟩
          · rintro other hother j ⟨hj, hj'⟩
            have hnone := hfresh other hother j hj'
            rw [hstep, if_pos (namesBucket_unique hj hi)] at hnone
            cases hnone
          · intro j hj
            rw [namesBucket_unique hj hi, hget]
          · intro other hother j hj
            have hnone := hfresh other hother j hj
            rw [hstep] at hnone
            split at hnone
            · cases hnone
            · exact hnone
          · rw [hreads, hstep, List.filter_cons]
            by_cases hij : j = i
            · rw [if_pos hij, hij, if_pos hi, hget]
              rfl
            · rw [if_neg hij, if_neg (fun hj => hij (namesBucket_unique hj hi))]
        · refine Or.inr ⟨?_, message, hfail⟩
          rintro ⟨hnames, hone, hfresh⟩
          obtain ⟨hapart, hone⟩ := List.pairwise_cons.mp hone
          refine hnot ⟨(List.forall_mem_cons.mp hnames).2, hone, fun other hother j hj => ?_⟩
          rw [hstep, if_neg (fun hij : j = i => hapart other hother i ⟨hi, hij ▸ hj⟩)]
          exact hfresh other (List.mem_cons_of_mem row hother) j hj
    · refine Or.inr ⟨fun h => hname (List.forall_mem_cons.mp h.1).1, message, ?_⟩
      rw [hfail]
      rfl

/-! ## Groups -/

structure GroupRowReadable (t : TextTables) (row : KeyedRow) : Prop where
  key : KeyReadable t (column row "k")
  requestCount : NumberReadable (column row "request_count")
  rawUrl : TextReadable t (column row "raw_url")
  rawMethod : TextReadable t (column row "raw_method")
  rawVirtualHost : TextReadable t (column row "raw_virtual_host")
  recordCount : NumberReadable (column row "record_count")
  distinctClients : NumberReadable (column row "distinct_clients")

structure BreakdownRowReadable (t : TextTables) (row : KeyedRow) : Prop where
  key : KeyReadable t (column row "k")
  requestCount : NumberReadable (column row "request_count")
  rawUrl : TextReadable t (column row "raw_url")
  rawMethod : TextReadable t (column row "raw_method")
  rawVirtualHost : TextReadable t (column row "raw_virtual_host")
  rawValue : TextReadable t (column row "raw_value")

theorem parseGroupRow_isOk (h : GroupRowReadable t row) :
    ∃ group, parseGroupRow t row = .ok group ∧ ∀ g ∈ group, 0 ≤ g.requestCount := by
  obtain ⟨count, hcount⟩ := asInt_isOk (t := t) h.requestCount
  obtain ⟨rawUrl, hurl⟩ := asText_isOk h.rawUrl 2048
  obtain ⟨rawMethod, hmethod⟩ := asText_isOk h.rawMethod 32
  obtain ⟨rawVirtualHost, hhost⟩ := asText_isOk h.rawVirtualHost 255
  obtain ⟨recordCount, hrecords⟩ := asInt_isOk (t := t) h.recordCount
  obtain ⟨distinctClients, hclients⟩ := asInt_isOk (t := t) h.distinctClients
  unfold parseGroupRow
  rw [hcount]
  cases count with
  | none => exact ⟨none, rfl, by simp⟩
  | some count =>
    simp only [bind, Except.bind, hurl, hmethod, hhost, hrecords, hclients]
    split
    · exact ⟨none, rfl, by simp⟩
    · rename_i hnonneg
      refine ⟨_, rfl, fun g hg => ?_⟩
      cases hg
      exact not_lt.mp hnonneg

theorem parseBreakdownRow_isOk (h : BreakdownRowReadable t row) :
    ∃ group, parseBreakdownRow t row = .ok group ∧ ∀ g ∈ group, 0 ≤ g.requestCount := by
  obtain ⟨count, hcount⟩ := asInt_isOk (t := t) h.requestCount
  obtain ⟨rawUrl, hurl⟩ := asText_isOk h.rawUrl 2048
  obtain ⟨rawMethod, hmethod⟩ := asText_isOk h.rawMethod 32
  obtain ⟨rawVirtualHost, hhost⟩ := asText_isOk h.rawVirtualHost 255
  obtain ⟨rawValue, hvalue⟩ := asText_isOk h.rawValue 255
  unfold parseBreakdownRow
  rw [hcount]
  cases count with
  | none => exact ⟨none, rfl, by simp⟩
  | some count =>
    simp only [bind, Except.bind, hurl, hmethod, hhost, hvalue]
    split
    · exact ⟨none, rfl, by simp⟩
    · rename_i hnonneg
      refine ⟨_, rfl, fun g hg => ?_⟩
      cases hg
      exact not_lt.mp hnonneg

theorem observationSortKey_lt {group} (h : 0 ≤ group.requestCount) :
    observationSortKey (some group) < observationSortKey none :=
  Prod.Lex.toLex_lt_toLex.mpr (Or.inl (show -group.requestCount < 1 by omega))

theorem breakdownSortKey_lt {group} (h : 0 ≤ group.requestCount) :
    breakdownSortKey (some group) < breakdownSortKey none :=
  Prod.Lex.toLex_lt_toLex.mpr (Or.inl (show -group.requestCount < 1 by omega))

/-- `kept` is, in the order of the key, the first `maxGroups` of the usable groups: what is cut comes no earlier, and
nothing is cut while there is room. -/
structure KeepsFirst {γ κ : Type} [LE κ] (key : Option γ → κ) (maxGroups : Nat) (usable kept : List γ) : Prop where
  bounded : kept.length ≤ maxGroups
  sorted : kept.Pairwise (fun g h => key (some g) ≤ key (some h))
  first : ∃ cut, (kept ++ cut).Perm usable ∧ (cut ≠ [] → kept.length = maxGroups) ∧
    ∀ g ∈ kept, ∀ c ∈ cut, key (some g) ≤ key (some c)

def usableGroups {γ : Type} (t : TextTables) (parse : KeyedRow → Except Exc (Option γ)) (firstKey : Int) (i : Nat)
    (rows : List KeyedRow) : List γ :=
  (rows.filter (namesBucket t firstKey i)).filterMap (fun row => (parse row).toOption.join)

theorem mapM_parse {γ : Type} {parse : KeyedRow → Except Exc (Option γ)} {indexed i}
    (hindexed : rowsAt indexed i = rows.filter (namesBucket t firstKey i))
    (hrows : ∀ row ∈ rows, ∃ group, parse row = .ok group) :
    (rowsAt indexed i).mapM parse =
      .ok ((rows.filter (namesBucket t firstKey i)).map (fun row => (parse row).toOption.join)) := by
  rw [hindexed]
  refine mapM_ok (fun row hrow => ?_)
  obtain ⟨group, hgroup⟩ := hrows row (List.mem_of_mem_filter hrow)
  rw [hgroup]
  rfl

theorem keepsFirst_take {γ κ : Type} [LinearOrder κ] {key : Option γ → κ} {parse : KeyedRow → Except Exc (Option γ)}
    (hlast : ∀ row ∈ rows, ∀ g, parse row = .ok (some g) → key (some g) < key none) (maxGroups i : Nat) :
    KeepsFirst key maxGroups (usableGroups t parse firstKey i rows)
      (((sortOn key ((rows.filter (namesBucket t firstKey i)).map (fun row => (parse row).toOption.join))).take
        maxGroups).filterMap id) := by
  set parsed := (rows.filter (namesBucket t firstKey i)).map (fun row => (parse row).toOption.join) with hparsed
  have hfirst : ∀ g, some g ∈ parsed → key (some g) < key none := by
    intro g hg
    obtain ⟨row, hrow, hparse⟩ := List.mem_map.mp hg
    exact hlast row (List.mem_of_mem_filter hrow) g (ok_of_toOption (Option.join_eq_some_iff.mp hparse))
  obtain ⟨hbounded, hsorted, hperm, hfull, hle⟩ := take_sortOn (n := maxGroups) hfirst
  refine ⟨hbounded, hsorted, ((sortOn key parsed).drop maxGroups).filterMap id, hperm.trans ?_, hfull, hle⟩
  rw [hparsed, List.filterMap_map]
  exact .refl _

/-! ## Buckets -/

section Buckets

variable {windowStart windowEnd bucketSeconds start stop : Int}

theorem mapM_buckets {β : Type} (hwidth : 0 < bucketSeconds) (haligned : start = seconds (firstKey * bucketSeconds))
    {bucket : Nat → Except KeyedRowError (Int × β)} {P : Nat → β → Prop}
    (h : ∀ i, ∃ batch, bucket i = .ok (bucketStartAt start bucketSeconds i, batch) ∧ P i batch) :
    ∃ batches : Dict Int β, (List.range n).mapM bucket = .ok batches ∧
      batches.keys = windowStarts bucketSeconds firstKey n ∧
      ∀ i < n, ∃ batch, batches.get? (seconds ((firstKey + i) * bucketSeconds)) = some batch ∧ P i batch := by
  have htotal : ∀ i ∈ List.range n, ∃ item, bucket i = .ok item := fun i _ =>
    (h i).elim (fun batch hbatch => ⟨_, hbatch.1⟩)
  obtain ⟨batches, hbatches⟩ := mapM_total htotal
  have hkeys : Dict.keys batches = windowStarts bucketSeconds firstKey n := by
    refine map_eq_of_mapM (fun i item hitem => ?_) hbatches
    obtain ⟨batch, hbatch, _⟩ := h i
    cases hbatch.symm.trans hitem
    exact bucketStartAt_eq haligned i
  refine ⟨batches, hbatches, hkeys, fun i hi => ?_⟩
  obtain ⟨batch, hbatch, hP⟩ := h i
  obtain ⟨item, hitem, hsame⟩ := exists_mem_of_mapM hbatches i (List.mem_range.mpr hi)
  cases hbatch.symm.trans hsame
  rw [← bucketStartAt_eq haligned]
  exact ⟨batch, (Dict.get?_eq_some_iff (hkeys ▸ nodup_windowStarts hwidth)).mpr hitem, hP⟩

/-- A batch of a bucket: its window, the first of its groups and the total of its row. -/
structure ObservationOf (t : TextTables) (firstKey bucketSeconds : Int) (maxGroups : Nat)
    (groupRows totalRows : List KeyedRow) (i : Nat) (batch : WafObservationBatch) : Prop where
  windowStart : batch.windowStart = seconds ((firstKey + i) * bucketSeconds)
  windowEnd : batch.windowEnd = seconds ((firstKey + i) * bucketSeconds) + seconds bucketSeconds
  groups : KeepsFirst observationSortKey maxGroups (usableGroups t (parseGroupRow t) firstKey i groupRows) batch.groups
  totalEvents : batch.totalEvents =
    (((totalRows.filter (namesBucket t firstKey i)).head?).map (totalEvents t)).getD 0

structure BreakdownOf (t : TextTables) (firstKey bucketSeconds : Int) (maxGroups : Nat) (rows : List KeyedRow)
    (i : Nat) (batch : WafBreakdownBatch) : Prop where
  windowStart : batch.windowStart = seconds ((firstKey + i) * bucketSeconds)
  windowEnd : batch.windowEnd = seconds ((firstKey + i) * bucketSeconds) + seconds bucketSeconds
  groups : KeepsFirst breakdownSortKey maxGroups (usableGroups t (parseBreakdownRow t) firstKey i rows) batch.groups

theorem foldObservationBuckets_failsClosed
    (hwindow : validateBucketedMetricWindow windowStart windowEnd bucketSeconds = .ok (start, stop))
    {groupRows totalRows} (hgroups : ∀ row ∈ groupRows, GroupRowReadable t row)
    (htotals : ∀ row ∈ totalRows, TotalRowReadable t row) (maxGroups : Nat) (query totalQuery : Option String) :
    let firstKey := start / 1000000 / bucketSeconds
    let n := ((stop - start) / 1000000 / bucketSeconds).toNat
    FailsClosed ((∀ row ∈ groupRows, ∃ i < n, namesBucket t firstKey i row) ∧
        (∀ row ∈ totalRows, ∃ i < n, namesBucket t firstKey i row) ∧ OneRowEach t firstKey totalRows)
      (foldObservationBuckets t groupRows totalRows windowStart windowEnd bucketSeconds maxGroups query totalQuery)
      (fun batches => batches.keys = windowStarts bucketSeconds firstKey n ∧
        ∀ i < n, ∃ batch, batches.get? (seconds ((firstKey + i) * bucketSeconds)) = some batch ∧
          ObservationOf t firstKey bucketSeconds maxGroups groupRows totalRows i batch) := by
  intro firstKey n
  obtain ⟨_, -, hwidth, -, -⟩ := exists_count_of_validate hwindow
  obtain ⟨-, -, haligned⟩ := start_of_validate hwindow
  have hstarts : bucketStarts windowStart windowEnd bucketSeconds = .ok (start, firstKey, n) := by
    rw [bucketStarts, hwindow]
    rfl
  unfold foldObservationBuckets
  rw [hstarts]
  simp only [bind, Except.bind]
  rcases indexRows_cases firstKey n "volume" (fun row hrow => (hgroups row hrow).key) with
    ⟨hnames, indexed, hindexed, hrowsAt⟩ | ⟨hnames, message, hfail⟩
  · rw [hindexed]
    rcases foldlM_addTotal firstKey n [] htotals with
      ⟨⟨htotalNames, hone, -⟩, totals, hfold, hreads⟩ | ⟨hnot, message, hfail⟩
    · simp only [hfold]
      refine Or.inl ⟨⟨hnames, htotalNames, hone⟩, mapM_buckets hwidth haligned (fun i => ?_)⟩
      have hparsed := mapM_parse (hrowsAt i)
        (fun row hrow => (parseGroupRow_isOk (hgroups row hrow)).imp (fun _ h => h.1))
      rw [observationBucket, hparsed]
      refine ⟨_, rfl, bucketStartAt_eq haligned i, congrArg (· + _) (bucketStartAt_eq haligned i), ?_, ?_⟩
      · refine keepsFirst_take (fun row hrow g hg => ?_) maxGroups i
        obtain ⟨group, hgroup, hnonneg⟩ := parseGroupRow_isOk (hgroups row hrow)
        cases hg.symm.trans hgroup
        exact observationSortKey_lt (hnonneg g rfl)
      · rw [hreads i, Dict.get?_nil, Option.none_or]
    · simp only [hfail]
      exact Or.inr ⟨fun h => hnot ⟨h.2.1, h.2.2, by simp⟩, message, rfl⟩
  · simp only [hfail]
    exact Or.inr ⟨fun h => hnames h.1, message, rfl⟩

theorem foldBreakdownBuckets_failsClosed
    (hwindow : validateBucketedMetricWindow windowStart windowEnd bucketSeconds = .ok (start, stop))
    (hrows : ∀ row ∈ rows, BreakdownRowReadable t row) (breakdown : String) (maxGroups : Nat) (query : Option String) :
    let firstKey := start / 1000000 / bucketSeconds
    let n := ((stop - start) / 1000000 / bucketSeconds).toNat
    FailsClosed (∀ row ∈ rows, ∃ i < n, namesBucket t firstKey i row)
      (foldBreakdownBuckets t rows breakdown windowStart windowEnd bucketSeconds maxGroups query)
      (fun batches => batches.keys = windowStarts bucketSeconds firstKey n ∧
        ∀ i < n, ∃ batch, batches.get? (seconds ((firstKey + i) * bucketSeconds)) = some batch ∧
          BreakdownOf t firstKey bucketSeconds maxGroups rows i batch) := by
  intro firstKey n
  obtain ⟨_, -, hwidth, -, -⟩ := exists_count_of_validate hwindow
  obtain ⟨-, -, haligned⟩ := start_of_validate hwindow
  have hstarts : bucketStarts windowStart windowEnd bucketSeconds = .ok (start, firstKey, n) := by
    rw [bucketStarts, hwindow]
    rfl
  unfold foldBreakdownBuckets
  rw [hstarts]
  simp only [bind, Except.bind]
  rcases indexRows_cases firstKey n "breakdown" (fun row hrow => (hrows row hrow).key) with
    ⟨hnames, indexed, hindexed, hrowsAt⟩ | ⟨hnames, message, hfail⟩
  · rw [hindexed]
    refine Or.inl ⟨hnames, mapM_buckets hwidth haligned (fun i => ?_)⟩
    have hparsed := mapM_parse (hrowsAt i)
      (fun row hrow => (parseBreakdownRow_isOk (hrows row hrow)).imp (fun _ h => h.1))
    rw [breakdownBucket, hparsed]
    refine ⟨_, rfl, bucketStartAt_eq haligned i, congrArg (· + _) (bucketStartAt_eq haligned i), ?_⟩
    refine keepsFirst_take (fun row hrow g hg => ?_) maxGroups i
    obtain ⟨group, hgroup, hnonneg⟩ := parseBreakdownRow_isOk (hrows row hrow)
    cases hg.symm.trans hgroup
    exact breakdownSortKey_lt (hnonneg g rfl)
  · simp only [hfail]
    exact Or.inr ⟨hnames, message, rfl⟩

end Buckets

end QRadarDashboard.Waf
