import QRadarDashboard.Collectors.BucketedMetrics

/-!
# Windows and their keyed rows
-/

namespace QRadarDashboard.Providers
open Lib

/-! ## Times -/

theorem towardsZero_intCast (n : Int) : towardsZero (n : ℚ) = n := by
  unfold towardsZero
  split
  · exact Int.floor_intCast n
  · exact Int.ceil_intCast n

theorem abs_sub_towardsZero (x : ℚ) : |x - towardsZero x| ≤ 1 := by
  unfold towardsZero
  rw [abs_le]
  split
  · constructor <;> linarith [Int.floor_le x, Int.lt_floor_add_one x]
  · constructor <;> linarith [Int.le_ceil x, Int.ceil_lt_add_one x]

theorem fromTimestamp_intCast (n : Int) : fromTimestamp (n : ℚ) =
    if seconds (-62135596800) ≤ seconds n ∧ seconds n < seconds 253402300800 then some (seconds n) else none := by
  have hmicros : roundHalfEven (Double.round (((n : ℚ) - towardsZero (n : ℚ)) * 1000000)) = 0 := by
    rw [towardsZero_intCast, sub_self, zero_mul]
    exact (congrArg roundHalfEven (Double.round_intCast (n := 0) (by decide))).trans (Double.roundHalfEven_intCast 0)
  unfold fromTimestamp
  dsimp only
  rw [hmicros, towardsZero_intCast, add_zero]

theorem abs_fromTimestamp_sub {x instant} (h : fromTimestamp x = some instant) :
    |(instant : ℚ) - x * 1000000| ≤ 1 ∧ seconds (-62135596800) ≤ instant ∧ instant < seconds 253402300800 := by
  unfold fromTimestamp at h
  dsimp only at h
  split at h
  · rename_i hrange
    cases h
    refine ⟨?_, hrange⟩
    set z := (x - towardsZero x) * 1000000
    have hz : |z| ≤ 1000000 := by
      rw [abs_mul, abs_of_pos (by norm_num : (0 : ℚ) < 1000000)]
      linarith [abs_sub_towardsZero x]
    have hround := Double.abs_round_sub z
    have hhalf := Double.abs_roundHalfEven_sub (Double.round z)
    have hsum : ((seconds (towardsZero x) + roundHalfEven (Double.round z) : Int) : ℚ) - x * 1000000 =
        (roundHalfEven (Double.round z) - Double.round z) + (Double.round z - z) := by
      simp only [seconds, z]
      push_cast
      ring
    rw [hsum]
    refine (abs_add_le _ _).trans ?_
    have hsmall : |z| / 2 ^ 53 ≤ 1 / 2 := by
      rw [div_le_iff₀ (by norm_num)]
      linarith
    linarith
  · cases h

end QRadarDashboard.Providers

namespace QRadarDashboard.Collectors
open Lib Providers

/-! ## Buckets of a window -/

theorem exists_count_of_validate {windowStart windowEnd bucketSeconds start stop}
    (h : validateBucketedMetricWindow windowStart windowEnd bucketSeconds = .ok (start, stop)) :
    ∃ n : Nat, 0 < n ∧ 0 < bucketSeconds ∧ stop = start + seconds (bucketSeconds * n) ∧
      ((stop - start) / 1000000 / bucketSeconds).toNat = n := by
  unfold validateBucketedMetricWindow at h
  split at h
  · cases h
  · rename_i hwidth
    split at h
    · cases h
    · rename_i hpos
      split at h
      · cases h
      · split at h
        · cases h
        · rename_i haligned
          push Not at haligned
          cases h
          obtain ⟨_, _, _, _, hmicro, hwhole⟩ := haligned
          obtain ⟨s, hs⟩ := Int.dvd_of_emod_eq_zero hmicro
          rw [hs, Int.mul_ediv_cancel_left s (by decide)] at hwhole
          obtain ⟨k, hk⟩ := Int.dvd_of_emod_eq_zero hwhole
          have hkpos : 0 < k := by
            by_contra hneg
            have := Int.mul_le_mul_of_nonneg_left (show k ≤ 0 by omega) (show 0 ≤ bucketSeconds by omega)
            omega
          refine ⟨k.toNat, by omega, by omega, ?_, ?_⟩
          · rw [Int.toNat_of_nonneg (Int.le_of_lt hkpos), ← hk, seconds]
            omega
          · rw [hs, Int.mul_ediv_cancel_left s (by decide), hk, Int.mul_ediv_cancel_left k (by omega)]

theorem start_of_validate {windowStart windowEnd bucketSeconds start stop}
    (h : validateBucketedMetricWindow windowStart windowEnd bucketSeconds = .ok (start, stop)) :
    start = windowStart ∧ stop = windowEnd ∧ start = seconds (start / 1000000 / bucketSeconds * bucketSeconds) := by
  unfold validateBucketedMetricWindow at h
  split_ifs at h with hwidth hpos hlong haligned
  cases h
  push Not at haligned
  obtain ⟨hmicro, -, hwhole, -⟩ := haligned
  rw [Int.ediv_mul_cancel (Int.dvd_of_emod_eq_zero hwhole), seconds, Int.ediv_mul_cancel (Int.dvd_of_emod_eq_zero hmicro)]
  exact ⟨rfl, rfl, rfl⟩

variable {start bucketSeconds : Int}

theorem bucketStartAt_lt (hwidth : 0 < bucketSeconds) {i j} (h : i < j) :
    bucketStartAt start bucketSeconds i < bucketStartAt start bucketSeconds j := by
  have hij : (i : Int) < j := by exact_mod_cast h
  have := Int.mul_lt_mul_of_pos_left hij hwidth
  simp only [bucketStartAt, seconds]
  omega

theorem bucketStartAt_le (hwidth : 0 < bucketSeconds) {i j} (h : i ≤ j) :
    bucketStartAt start bucketSeconds i ≤ bucketStartAt start bucketSeconds j := by
  rcases Nat.eq_or_lt_of_le h with rfl | hlt
  · exact Int.le_refl _
  · exact Int.le_of_lt (bucketStartAt_lt hwidth hlt)

theorem bucketStartAt_inj (hwidth : 0 < bucketSeconds) {i j}
    (h : bucketStartAt start bucketSeconds i = bucketStartAt start bucketSeconds j) : i = j := by
  rcases Nat.lt_trichotomy i j with hlt | heq | hlt
  · have := @bucketStartAt_lt start _ hwidth _ _ hlt
    omega
  · exact heq
  · have := @bucketStartAt_lt start _ hwidth _ _ hlt
    omega

theorem bucketStartAt_succ (i : Nat) :
    bucketStartAt start bucketSeconds (i + 1) = bucketStartAt start bucketSeconds i + seconds bucketSeconds := by
  simp only [bucketStartAt, seconds, Nat.cast_add, Nat.cast_one, Int.mul_add, Int.mul_one]
  omega

/-! ## Reading the key -/

section Reading

variable {t : TextTables} {cell : Cell} {row : KeyedRow} {bucketSeconds : Int}

/-- A text of digits is read by `int`: it has at most one minus, and not too many digits. -/
def KeyReadable (t : TextTables) (cell : Cell) : Prop :=
  ∀ s, cell = some (.str s) → isKeyText (t.unicode.strip s.toList) = true →
    ((t.unicode.strip s.toList).takeWhile (fun c => c = '-')).length ≤ 1 ∧
      ((t.unicode.strip s.toList).dropWhile (fun c => c = '-')).length ≤ maxStrDigits

/-- A float that `int` takes. -/
def NumberReadable (cell : Cell) : Prop := ∀ x, cell = some (.float x) → ∃ q, x = .finite q

/-- A value that `str` writes. -/
def TextReadable (t : TextTables) (cell : Cell) : Prop := ∀ value, cell = some value → ∃ text, t.str value = .ok text

theorem asInt_isOk (h : NumberReadable cell) : ∃ n, asInt t cell = .ok n := by
  unfold asInt
  split
  · exact ⟨_, rfl⟩
  · rename_i x
    obtain ⟨q, rfl⟩ := h x rfl
    exact ⟨_, rfl⟩
  · exact ⟨_, rfl⟩
  · exact ⟨_, rfl⟩

theorem asText_isOk (h : TextReadable t cell) (limit : Nat) : ∃ text, asText t limit cell = .ok text := by
  unfold asText
  split
  · exact ⟨_, rfl⟩
  · exact ⟨_, rfl⟩
  · exact ⟨_, rfl⟩
  · exact ⟨_, rfl⟩
  · rename_i value _ _ _
    obtain ⟨text, htext⟩ := h value rfl
    rw [htext]
    exact ⟨_, rfl⟩

theorem integerBucketKey_isOk (h : KeyReadable t cell) : ∃ key, integerBucketKey t cell = .ok key := by
  unfold integerBucketKey
  split
  · exact ⟨_, rfl⟩
  · split
    · rename_i x hinteger
      cases x with
      | finite q => exact ⟨_, rfl⟩
      | infinite negative => cases hinteger
      | nan => cases hinteger
    · exact ⟨_, rfl⟩
  · rename_i s
    dsimp only
    split
    · rename_i hkey
      obtain ⟨hone, hlength⟩ := h s rfl hkey
      set stripped := t.unicode.strip s.toList
      obtain ⟨hne, hdigits⟩ : stripped.dropWhile (fun c => c = '-') ≠ [] ∧
          (stripped.dropWhile (fun c => c = '-')).all Char.isDigit = true := by
        simpa [isKeyText] using hkey
      have hminus : stripped.takeWhile (fun c => c = '-') = [] ∨ stripped.takeWhile (fun c => c = '-') = ['-'] := by
        have hall := List.all_takeWhile (p := fun c : Char => decide (c = '-')) (l := stripped)
        cases hfront : stripped.takeWhile (fun c => c = '-') with
        | nil => exact Or.inl rfl
        | cons c rest =>
          rw [hfront] at hall hone
          have hrest : rest = [] := List.length_eq_zero_iff.mp (by simpa using hone)
          subst hrest
          have hc : c = '-' := by simpa using hall
          exact Or.inr (by rw [hc])
      obtain ⟨n, hn⟩ := readSigned_digits (u := t.unicode) hminus hne hdigits hlength
      rw [List.takeWhile_append_dropWhile] at hn
      rw [hn]
      exact ⟨_, rfl⟩
    · exact ⟨_, rfl⟩
  · exact ⟨_, rfl⟩

end Reading

/-! ## The bucket a key names -/

theorem keyStart_eq (bucketSeconds key : Int) : keyStart bucketSeconds key =
    if seconds (-62135596800) ≤ seconds (key * bucketSeconds) ∧ seconds (key * bucketSeconds) < seconds 253402300800 then
      some (seconds (key * bucketSeconds))
    else none := by
  set n := key * bucketSeconds
  have hquotient : ((key * (bucketSeconds * 1000) : Int) : ℚ) / 1000 = (n : ℚ) := by
    rw [show key * (bucketSeconds * 1000) = n * 1000 by ring]
    push_cast
    ring
  unfold keyStart
  rw [hquotient]
  by_cases hsmall : |n| < 2 ^ 53
  · have hround := Double.round_intCast hsmall
    have hfits : ¬ Double.Overflows (n : ℚ) := by
      rw [Double.Overflows, hround, not_le]
      calc |(n : ℚ)| < 2 ^ 53 := by exact_mod_cast hsmall
        _ ≤ 2 ^ 1024 := pow_le_pow_right₀ (by norm_num) (by norm_num)
    rw [if_neg hfits, hround, fromTimestamp_intCast]
  · rw [not_lt] at hsmall
    have hrange : ¬ (seconds (-62135596800) ≤ seconds n ∧ seconds n < seconds 253402300800) := by
      simp only [seconds]
      rw [le_abs] at hsmall
      omega
    rw [if_neg hrange]
    dsimp only
    split
    · rfl
    · cases htime : fromTimestamp (Double.round (n : ℚ)) with
      | none => rfl
      | some instant =>
        -- a rounded number that large is no time
        obtain ⟨hnear, hlow, hhigh⟩ := abs_fromTimestamp_sub htime
        have hround := Double.abs_round_sub (n : ℚ)
        have hn : (2 : ℚ) ^ 53 ≤ |(n : ℚ)| := by exact_mod_cast hsmall
        have hx : |(n : ℚ)| - |(n : ℚ)| / 2 ^ 53 ≤ |Double.round (n : ℚ)| := by
          have := abs_sub_abs_le_abs_sub (n : ℚ) (Double.round n)
          rw [abs_sub_comm] at this
          linarith
        have hlarge : (2 : ℚ) ^ 53 - 1 ≤ |Double.round (n : ℚ)| := by
          have : |(n : ℚ)| * (1 - 1 / 2 ^ 53) ≥ 2 ^ 53 * (1 - 1 / 2 ^ 53) :=
            mul_le_mul_of_nonneg_right hn (by norm_num)
          linarith
        have hinstant : |(instant : ℚ)| ≤ 253402300800 * 1000000 := by
          rw [abs_le]
          simp only [seconds] at hlow hhigh
          constructor
          · have : (-(62135596800 * 1000000) : ℚ) ≤ instant := by
              exact_mod_cast (by omega : (-(62135596800 * 1000000) : Int) ≤ instant)
            linarith
          · exact_mod_cast (by omega : instant ≤ 253402300800 * 1000000)
        have hscaled : |Double.round (n : ℚ) * 1000000| ≤ |(instant : ℚ)| + 1 := by
          have := abs_sub_abs_le_abs_sub (Double.round (n : ℚ) * 1000000) instant
          rw [abs_sub_comm] at this
          linarith
        rw [abs_mul, abs_of_pos (by norm_num : (0 : ℚ) < 1000000)] at hscaled
        linarith

def namesBucket (t : TextTables) (firstKey : Int) (i : Nat) (row : KeyedRow) : Bool :=
  (integerBucketKey t (column row "k")).toOption = some (some (firstKey + i))

def FailsClosed {β : Type} (whole : Prop) (r : Except KeyedRowError β) (P : β → Prop) : Prop :=
  (whole ∧ ∃ b, r = .ok b ∧ P b) ∨ (¬ whole ∧ ∃ message, r = .error (.provider message))

/-! ## Samples by bucket -/

section Samples

variable {t : TextTables} {bucketSeconds firstKey : Int} {n : Nat} {row : KeyedRow} {rows : List KeyedRow}

structure MetricRowReadable (t : TextTables) (bucketSeconds : Int) (row : KeyedRow) : Prop where
  key : KeyReadable t (column row "k")
  qradarId : NumberReadable (column row "qradar_id")
  count : NumberReadable (column row "event_count")
  rate : ∀ count : Int, asInt t (column row "event_count") = .ok (some count) →
    ¬ Double.Overflows (count / bucketSeconds)

theorem metricSample_isOk (h : MetricRowReadable t bucketSeconds row) (bucketStart : Int) :
    ∃ sample, metricSample t bucketSeconds bucketStart row = .ok sample := by
  obtain ⟨qradarId, hid⟩ := asInt_isOk (t := t) h.qradarId
  obtain ⟨count, hcount⟩ := asInt_isOk (t := t) h.count
  unfold metricSample
  rw [hid, hcount]
  cases qradarId with
  | none => exact ⟨none, rfl⟩
  | some qradarId =>
    cases count with
    | none => exact ⟨none, rfl⟩
    | some count =>
      by_cases hneg : count < 0
      · exact ⟨none, by simp only [bind, Except.bind, hneg, if_true]; rfl⟩
      · simp only [bind, Except.bind, hneg, if_false, h.rate count hcount]
        exact ⟨_, rfl⟩

def sampleAt (t : TextTables) (bucketSeconds firstKey : Int) (i : Nat) (row : KeyedRow) : Option LogSourceMetricSample :=
  if namesBucket t firstKey i row then
    (metricSample t bucketSeconds (seconds ((firstKey + i) * bucketSeconds)) row).toOption.join
  else none

def windowStarts (bucketSeconds firstKey : Int) (n : Nat) : List Int :=
  (List.range n).map (fun i : Nat => seconds ((firstKey + i) * bucketSeconds))

theorem seconds_mul_inj (hwidth : 0 < bucketSeconds) {a b}
    (h : seconds (a * bucketSeconds) = seconds (b * bucketSeconds)) : a = b := by
  simp only [seconds] at h
  exact Int.eq_of_mul_eq_mul_right hwidth.ne' (by omega)

theorem nodup_windowStarts (hwidth : 0 < bucketSeconds) : (windowStarts bucketSeconds firstKey n).Nodup := by
  refine List.nodup_range.map (fun i j hij => ?_)
  have := seconds_mul_inj hwidth hij
  omega

theorem bucketStartAt_eq {start} (haligned : start = seconds (firstKey * bucketSeconds)) (i : Nat) :
    bucketStartAt start bucketSeconds i = seconds ((firstKey + i) * bucketSeconds) := by
  rw [bucketStartAt, haligned]
  simp only [seconds]
  ring

theorem foldMetricRow_cases (hwidth : 0 < bucketSeconds)
    (hrange : ∀ i < n, seconds (-62135596800) ≤ seconds ((firstKey + i) * bucketSeconds) ∧
      seconds ((firstKey + i) * bucketSeconds) < seconds 253402300800)
    {buckets} (hkeys : buckets.keys = windowStarts bucketSeconds firstKey n)
    (hrow : MetricRowReadable t bucketSeconds row) :
    FailsClosed (∃ i < n, namesBucket t firstKey i row) (foldMetricRow t bucketSeconds buckets row) (fun after =>
      after.keys = windowStarts bucketSeconds firstKey n ∧ ∀ i < n, after.get? (seconds ((firstKey + i) * bucketSeconds)) =
        (buckets.get? (seconds ((firstKey + i) * bucketSeconds))).map
          (fun samples => samples ++ (sampleAt t bucketSeconds firstKey i row).toList)) := by
  obtain ⟨key, hkey⟩ := integerBucketKey_isOk hrow.key
  have hnames : ∀ i : Nat, namesBucket t firstKey i row = decide (key = some (firstKey + i)) := by
    intro i
    rw [namesBucket, hkey]
    simp [Except.toOption]
  unfold foldMetricRow
  rw [hkey]
  cases key with
  | none =>
    refine Or.inr ⟨?_, _, rfl⟩
    rintro ⟨i, -, hname⟩
    rw [hnames] at hname
    cases hname
  | some key =>
    by_cases hin : ∃ i < n, key = firstKey + i
    · obtain ⟨i, hi, rfl⟩ := hin
      obtain ⟨sample, hsample⟩ := metricSample_isOk hrow (seconds ((firstKey + i) * bucketSeconds))
      have hstart : keyStart bucketSeconds (firstKey + i) = some (seconds ((firstKey + i) * bucketSeconds)) := by
        rw [keyStart_eq, if_pos (hrange i hi)]
      have hmem : seconds ((firstKey + i) * bucketSeconds) ∈ buckets.keys := by
        rw [hkeys]
        exact List.mem_map.mpr ⟨i, List.mem_range.mpr hi, rfl⟩
      obtain ⟨samples, hget⟩ := Option.ne_none_iff_exists'.mp (fun hnone => Dict.get?_eq_none_iff.mp hnone hmem)
      refine Or.inl ⟨⟨i, hi, by simp [hnames]⟩,
        buckets.set (seconds ((firstKey + i) * bucketSeconds)) (samples ++ sample.toList), ?_, ?_, ?_⟩
      · simp only [Except.mapError, bind, Except.bind, hstart, Option.bind_some, hget, Option.map_some, hsample]
        rfl
      · rw [Dict.keys_set, if_pos hmem, hkeys]
      · intro j hj
        rw [Dict.get?_set]
        by_cases hij : j = i
        · rw [hij, if_pos rfl, hget, sampleAt, hnames, hsample]
          simp [Except.toOption]
        · have hne : seconds ((firstKey + j) * bucketSeconds) ≠ seconds ((firstKey + i) * bucketSeconds) :=
            fun h => hij (by have := seconds_mul_inj hwidth h; omega)
          have hother : namesBucket t firstKey j row = false := by
            rw [hnames]
            simp [Ne.symm hij]
          rw [if_neg hne, sampleAt, hother]
          simp
    · have hout : (keyStart bucketSeconds key).bind
          (fun start => (buckets.get? start).map (fun samples => (start, samples))) = none := by
        rw [keyStart_eq]
        split
        · rw [Option.bind_some, Option.map_eq_none_iff]
          refine Dict.get?_eq_none_iff.mpr (fun hmem => ?_)
          rw [hkeys] at hmem
          obtain ⟨i, hi, heq⟩ := List.mem_map.mp hmem
          exact hin ⟨i, List.mem_range.mp hi, (seconds_mul_inj hwidth heq).symm⟩
        · rfl
      refine Or.inr ⟨?_, "QRadar Ariel metric row had a bucket key outside the window", ?_⟩
      · rintro ⟨i, hi, hname⟩
        rw [hnames] at hname
        exact hin ⟨i, hi, Option.some.inj (of_decide_eq_true hname)⟩
      · simp only [Except.mapError, bind, Except.bind, hout]

theorem foldlM_foldMetricRow (hwidth : 0 < bucketSeconds)
    (hrange : ∀ i < n, seconds (-62135596800) ≤ seconds ((firstKey + i) * bucketSeconds) ∧
      seconds ((firstKey + i) * bucketSeconds) < seconds 253402300800)
    {buckets} (hkeys : buckets.keys = windowStarts bucketSeconds firstKey n)
    (hrows : ∀ row ∈ rows, MetricRowReadable t bucketSeconds row) :
    FailsClosed (∀ row ∈ rows, ∃ i < n, namesBucket t firstKey i row)
      (rows.foldlM (foldMetricRow t bucketSeconds) buckets) (fun after =>
        after.keys = windowStarts bucketSeconds firstKey n ∧
          ∀ i < n, after.get? (seconds ((firstKey + i) * bucketSeconds)) =
            (buckets.get? (seconds ((firstKey + i) * bucketSeconds))).map
              (fun samples => samples ++ rows.filterMap (sampleAt t bucketSeconds firstKey i))) := by
  induction rows generalizing buckets with
  | nil => exact Or.inl ⟨by simp, buckets, rfl, hkeys, fun i _ => by simp⟩
  | cons row rows ih =>
    obtain ⟨hrow, hrows⟩ := List.forall_mem_cons.mp hrows
    rw [List.foldlM_cons]
    rcases foldMetricRow_cases hwidth hrange hkeys hrow with ⟨hname, after, hafter, hkeys', hget⟩ | ⟨hname, message, hfail⟩
    · rw [hafter]
      rcases ih hkeys' hrows with ⟨hnames, last, hlast, hkeys'', hget'⟩ | ⟨hnames, message, hfail⟩
      · refine Or.inl ⟨List.forall_mem_cons.mpr ⟨hname, hnames⟩, last, hlast, hkeys'', fun i hi => ?_⟩
        rw [hget' i hi, hget i hi, Option.map_map]
        congr 1
        funext samples
        rw [Function.comp_apply, List.append_assoc]
        cases hsample : sampleAt t bucketSeconds firstKey i row with
        | none => rw [List.filterMap_cons_none hsample, Option.toList_none, List.nil_append]
        | some sample => rw [List.filterMap_cons_some hsample, Option.toList_some, List.singleton_append]
      · exact Or.inr ⟨fun h => hnames (List.forall_mem_cons.mp h).2, message, hfail⟩
    · refine Or.inr ⟨fun h => hname (List.forall_mem_cons.mp h).1, message, ?_⟩
      rw [hfail]
      rfl

/-- Rows that are read: each is in the bucket of its key, or the provider's error is raised because a key is no
bucket's. -/
theorem foldLogSourceMetricBuckets_failsClosed {windowStart windowEnd start stop}
    (hwindow : validateBucketedMetricWindow windowStart windowEnd bucketSeconds = .ok (start, stop))
    (hstart : seconds (-62135596800) ≤ windowStart) (hstop : windowEnd < seconds 253402300800)
    (hrows : ∀ row ∈ rows, MetricRowReadable t bucketSeconds row) :
    let firstKey := start / 1000000 / bucketSeconds
    let n := ((stop - start) / 1000000 / bucketSeconds).toNat
    FailsClosed (∀ row ∈ rows, ∃ i < n, namesBucket t firstKey i row)
      (foldLogSourceMetricBuckets t rows windowStart windowEnd bucketSeconds) (fun buckets =>
        buckets.keys = windowStarts bucketSeconds firstKey n ∧
          ∀ i < n, buckets.get? (seconds ((firstKey + i) * bucketSeconds)) =
            some (rows.filterMap (sampleAt t bucketSeconds firstKey i))) := by
  intro firstKey n
  obtain ⟨count, hpos, hwidth, hspan, hcount⟩ := exists_count_of_validate hwindow
  obtain ⟨rfl, rfl, haligned⟩ := start_of_validate hwindow
  have hn : n = count := hcount
  have hat := bucketStartAt_eq haligned
  have hrange : ∀ i < n, seconds (-62135596800) ≤ seconds ((firstKey + i) * bucketSeconds) ∧
      seconds ((firstKey + i) * bucketSeconds) < seconds 253402300800 := by
    intro i hi
    have hlow : bucketStartAt start bucketSeconds 0 ≤ bucketStartAt start bucketSeconds i :=
      bucketStartAt_le hwidth (Nat.zero_le i)
    have hhigh : bucketStartAt start bucketSeconds i < bucketStartAt start bucketSeconds count :=
      bucketStartAt_lt hwidth (hn ▸ hi)
    rw [← hat]
    simp only [bucketStartAt, Nat.cast_zero, mul_zero, seconds] at hlow hhigh hspan hstart hstop ⊢
    omega
  set buckets : Dict Int (List LogSourceMetricSample) :=
    (List.range n).map (fun i => (bucketStartAt start bucketSeconds i, [])) with hbuckets
  have hkeys : buckets.keys = windowStarts bucketSeconds firstKey n := by
    rw [hbuckets, Dict.keys, List.map_map, windowStarts]
    exact List.map_congr_left (fun i _ => hat i)
  have hempty : ∀ i < n, buckets.get? (seconds ((firstKey + i) * bucketSeconds)) = some [] := by
    intro i hi
    rw [Dict.get?_eq_some_iff (hkeys ▸ nodup_windowStarts hwidth), hbuckets, ← hat]
    exact List.mem_map.mpr ⟨i, List.mem_range.mpr hi, rfl⟩
  have hfold : foldLogSourceMetricBuckets t rows start stop bucketSeconds =
      rows.foldlM (foldMetricRow t bucketSeconds) buckets := by
    rw [foldLogSourceMetricBuckets, hwindow]
    rfl
  rw [hfold]
  rcases foldlM_foldMetricRow hwidth hrange hkeys hrows with ⟨hnames, after, hafter, hkeys', hget⟩ | hfail
  · refine Or.inl ⟨hnames, after, hafter, hkeys', fun i hi => ?_⟩
    rw [hget i hi, hempty i hi, Option.map_some, List.nil_append]
  · exact Or.inr hfail

end Samples

end QRadarDashboard.Collectors
