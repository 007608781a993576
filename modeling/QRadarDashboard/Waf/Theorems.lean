import QRadarDashboard.Catchall.Lemmas.Fold
import QRadarDashboard.History.Lemmas.WafOrder
import QRadarDashboard.History.Lemmas.WafRun
import QRadarDashboard.Waf.Lemmas.Bucketed
import QRadarDashboard.Waf.Lemmas.Normalization

/-!
# Results about WAF endpoints
-/

namespace QRadarDashboard.Waf
open Lib QRadarDashboard.Catchall Collectors History
  Providers

/-! ## Tracking windows -/

section Windows

variable {φ : Type} [PyFloat φ] {supply : Nat → String}

end Windows

def plainNormalizer : Normalizer where
  endpoint raw := .ok ⟨raw, [], false⟩
  method raw := raw
  virtualHost raw := raw

def fiveRequests : WafHistoryArgs ℚ where
  normalizer := plainNormalizer
  instanceId := "lab"
  logSourceId := "waf"
  profileVersion := 1
  metricSemantics := "requests"
  collectionSource := "ariel_history"
  floor := 0
  policy := ⟨10, 100, 5⟩
  minCoverage := 9 / 10
  activeDays := 1
  maintenance := fun _ => false
  idFactory := fun n => String.ofList (List.replicate n 'a')

def loginBucket (start : Int) (requests : Int) : HistoryVolumeBucket ℚ where
  batch :=
    { windowStart := start
      windowEnd := start + seconds 300
      groups := if requests = 0 then [] else
        [{ rawUrl := some "/login", rawMethod := some "GET", requestCount := requests }]
      totalEvents := requests }
  collectedAt := start

section Normalization

def plainTables : NormalizeTables where
  toUnicodeTables := asciiTables
  nfkc s := s
  ipVersion host := .error ("'" ++ String.ofList host ++ "' does not appear to be an IPv4 or IPv6 address")
  isdecimal := Char.isDigit
  upper := List.map Char.toUpper
  lower := List.map Char.toLower
  nfc s := s
  log2 x := Int.log 2 x

/-- Two targets that differ in the query alone have the endpoint of the path exactly when neither query holds `://`, or
what `urlsplit` makes of the path does not matter, as of a path without tab, line feed and carriage return that does not
begin with two slashes. -/
theorem query_ignored_iff (t : NormalizeTables) (hmark : t.isspace '?' = false) {p q₁ q₂ : String}
    (hp : OriginForm t p) (h₁ : t.strip q₁.toList = q₁.toList) (h₂ : t.strip q₂.toList = q₂.toList) :
    ((∃ e e₁ e₂, normalizeEndpoint t (some p) = .ok e ∧ normalizeEndpoint t (some (p ++ "?" ++ q₁)) = .ok e₁ ∧
        normalizeEndpoint t (some (p ++ "?" ++ q₂)) = .ok e₂ ∧ SameEndpoint e₁ e₂ ∧ SameEndpoint e₁ e) ↔
      (¬ schemeSeparator <:+: q₁.toList ∧ ¬ schemeSeparator <:+: q₂.toList) ∨ UrlsplitHarmless t p) ∧
    ((∀ c ∈ p.toList, unsafeUrlByte c = false) ∧ ¬ ['/', '/'] <+: p.toList → UrlsplitHarmless t p) := by
  have hsame₁ := hp.same_iff hmark h₁
  have hsame₂ := hp.same_iff hmark h₂
  refine ⟨?_, fun hsafe => harmless_of_safe hp hsafe.1 hsafe.2⟩
  rw [hp.endpoint]
  constructor
  · rintro ⟨e, e₁, e₂, he, he₁, he₂, h₁₂, h₁⟩
    cases he
    rcases hsame₁.mp ⟨e₁, he₁, h₁⟩ with hno₁ | hharmless
    · rcases hsame₂.mp ⟨e₂, he₂, h₁₂.symm.trans h₁⟩ with hno₂ | hharmless
      · exact Or.inl ⟨hno₁, hno₂⟩
      · exact Or.inr hharmless
    · exact Or.inr hharmless
  · intro hcond
    obtain ⟨e₁, he₁, h₁⟩ := hsame₁.mpr (hcond.imp (fun hno => hno.1) (fun hharmless => hharmless))
    obtain ⟨e₂, he₂, h₂⟩ := hsame₂.mpr (hcond.imp (fun hno => hno.2) (fun hharmless => hharmless))
    exact ⟨_, e₁, e₂, rfl, he₁, he₂, h₁.trans h₂.symm, h₁⟩

theorem query_ignored_iff_login : ∃ e e₁ e₂, normalizeEndpoint plainTables (some "/login") = .ok e ∧
    normalizeEndpoint plainTables (some "/login?next=http://a//b#c") = .ok e₁ ∧
    normalizeEndpoint plainTables (some "/login?id=1") = .ok e₂ ∧ SameEndpoint e₁ e₂ ∧ SameEndpoint e₁ e := by
  have hp : OriginForm plainTables "/login" := ⟨by decide, by decide, by decide, by decide, by decide⟩
  obtain ⟨hiff, hsafe⟩ := @query_ignored_iff plainTables (by decide) "/login" "next=http://a//b#c" "id=1" hp
    (by decide) (by decide)
  have hplain : ∀ c ∈ "/login".toList, unsafeUrlByte c = false := by
    simpa using (by decide : "/login".toList.all (fun c => !unsafeUrlByte c) = true)
  exact hiff.mpr (Or.inr (hsafe ⟨hplain, by decide⟩))

/-- A query with `://` sends a target that begins with two slashes through `urlsplit`, which drops a segment. -/
theorem query_moves_endpoint : OriginForm plainTables "//evil.example/x" ∧
    (normalizeEndpoint plainTables (some "//evil.example/x?u=http://a")).toOption.map (fun e => e.value) =
      some (some "/x") ∧
    (normalizeEndpoint plainTables (some "//evil.example/x?u=a")).toOption.map (fun e => e.value) =
      some (some "/evil.example/x") := by
  exact ⟨⟨by decide, by decide, by decide, by decide, by decide⟩, by decide, by decide⟩

/-- An endpoint is the overlong mark, or joins at most twelve segments and a truncation mark: no segment is empty, a dot
or an identifier, none holds a slash or a control, and only an API version is longer than the bound. The traversal mark
says that some prefix of the parts has more parents than other segments. -/
theorem endpoint_canonical (t : NormalizeTables) (ht : AsciiDecimals t) {raw : Option String} {e : NormalizedEndpoint}
    {v : String} (h : normalizeEndpoint t raw = .ok e) (hv : e.value = some v) :
    (v.toList = overlongEndpoint ∨ ∃ segments, CanonicalEndpoint t v.toList segments) ∧
      ∃ text path rules, raw = some text ∧ stripTarget t (t.strip text.toList) = .ok (path, rules) ∧
        (e.traversalAttempt = true ↔ Climbs 0 (pathParts (withoutControls (decodeOnce t path).1))) := by
  cases raw with
  | none =>
    cases h
    cases hv
  | some text =>
    unfold normalizeEndpoint at h
    dsimp only at h
    split at h
    · cases h
      cases hv
    · obtain ⟨target, htarget, rfl⟩ := map_eq_ok.mp h
      obtain ⟨hshape, htraversal⟩ := normalizePath_canonical ht hv
      exact ⟨hshape, text, target.1, target.2, rfl, htarget, htraversal⟩

theorem plainTables_asciiDecimals : AsciiDecimals plainTables := fun _ _ => rfl

theorem endpoint_canonical_report : ∃ e, normalizeEndpoint plainTables (some "/api/v1/../users/12345") = .ok e ∧
    e.value = some "/api/users/\x7bid\x7d" ∧
    ∃ segments, CanonicalEndpoint plainTables "/api/users/\x7bid\x7d".toList segments := by
  obtain ⟨e, he, hv⟩ := exists_ok_of_toOption (x := normalizeEndpoint plainTables (some "/api/v1/../users/12345"))
    (f := fun e => e.value) (b := some "/api/users/\x7bid\x7d") (by decide)
  refine ⟨e, he, hv, ?_⟩
  rcases (endpoint_canonical plainTables plainTables_asciiDecimals he hv).1 with hover | hsegments
  · exact absurd hover (by decide)
  · exact hsegments

def longVersion : String := "/v" ++ String.ofList (List.replicate 64 '1')

set_option maxRecDepth 4000 in
theorem long_version_kept : (normalizeEndpoint plainTables (some longVersion)).toOption.map (fun e => e.value) =
      some (some longVersion) ∧ longVersion.toList ≠ overlongEndpoint ∧
    ¬ ∃ segments, longVersion.toList = joinSegments segments ∧
      ∀ segment ∈ segments, '/' ∉ segment ∧ segment.length ≤ maxSegmentLength := by
  refine ⟨by decide, by decide, ?_⟩
  rintro ⟨segments, hjoin, hsegments⟩
  cases segments with
  | nil => exact absurd hjoin (by decide)
  | cons segment rest =>
    obtain ⟨_, hlength⟩ := hsegments segment List.mem_cons_self
    have hcons : longVersion.toList = '/' :: (segment ++ rest.flatMap (fun segment => '/' :: segment)) := by
      rw [hjoin, joinSegments, if_neg (List.cons_ne_nil _ _), List.flatMap_cons]
      rfl
    have htail : '/' ∉ longVersion.toList.tail := by decide
    rw [hcons, List.tail_cons] at htail
    cases rest with
    | nil =>
      have htotal := congrArg List.length hcons
      have hversion : longVersion.toList.length = 66 := by decide
      rw [hversion, List.flatMap_nil, List.append_nil, List.length_cons] at htotal
      have hbound : segment.length ≤ 64 := hlength
      omega
    | cons other rest => exact htail (by simp)

/-- An endpoint is read exactly when `urlsplit` accepts the authority of a target with a scheme separator, and a code
exactly when it is no run of digits that `int` refuses. A method read is a supported one, and a host fits its column. -/
theorem normalizers_total_iff (t : NormalizeTables) :
    (∀ raw, (∃ e, normalizeEndpoint t raw = .ok e) ↔
      ∀ text, raw = some text → schemeSeparator <:+: t.strip text.toList →
        authorityError? t.toUrlTables (authorityAndRest (t.strip text.toList)).1 = none) ∧
    (∀ raw, (∃ code, normalizeResponseCode t raw = .ok code) ↔
      ∀ text, raw = .text text → (t.strip text.toList).all Char.isDigit = true →
        (t.strip text.toList).length ≤ intMaxStrDigits) ∧
    (∀ raw method, normalizeMethod t raw = some method → method ∈ supportedMethods) ∧
    ∀ raw host, normalizeVirtualHost t raw = some host → host ≠ "" ∧ host.length ≤ 255 := by
  refine ⟨?_, ?_, ?_, fun _ _ => normalizeVirtualHost_some⟩
  · intro raw
    cases raw with
    | none => exact ⟨fun _ text htext => (by cases htext), fun _ => ⟨_, rfl⟩⟩
    | some text =>
      constructor
      · rintro ⟨e, he⟩ _ ⟨rfl⟩ hscheme
        unfold normalizeEndpoint at he
        dsimp only at he
        split at he
        · rename_i hempty
          rw [hempty] at hscheme
          exact absurd hscheme (by decide)
        · obtain ⟨target, htarget, _⟩ := map_eq_ok.mp he
          unfold stripTarget urlsplit at htarget
          rw [if_pos hscheme] at htarget
          cases hauthority : authorityError? t.toUrlTables (authorityAndRest (t.strip text.toList)).1 with
          | none => rfl
          | some message =>
            rw [hauthority] at htarget
            cases htarget
      · intro hread
        unfold normalizeEndpoint
        dsimp only
        split
        · exact ⟨_, rfl⟩
        · unfold stripTarget urlsplit
          split
          · rename_i hscheme
            rw [hread text rfl hscheme]
            exact ⟨_, rfl⟩
          · exact ⟨_, rfl⟩
  · intro raw
    cases raw with
    | absent => exact ⟨fun _ text htext => (by cases htext), fun _ => ⟨_, rfl⟩⟩
    | bool b => exact ⟨fun _ text htext => (by cases htext), fun _ => ⟨_, rfl⟩⟩
    | int n => exact ⟨fun _ text htext => (by cases htext), fun _ => ⟨_, rfl⟩⟩
    | text s =>
      unfold normalizeResponseCode
      dsimp only
      constructor
      · rintro ⟨code, hcode⟩ _ ⟨rfl⟩ hdigits
        split at hcode
        · obtain ⟨value, hvalue, _⟩ := map_eq_ok.mp hcode
          unfold parseInt at hvalue
          split at hvalue
          · cases hvalue
          · rename_i hlength
            exact not_lt.mp hlength
        · rename_i hnot
          have hempty : t.strip s.toList = [] := by
            by_contra hne
            exact hnot ⟨hne, hdigits⟩
          rw [hempty]
          exact Nat.zero_le _
      · intro hlength
        split
        · rename_i hdigits
          rw [parseInt, if_neg (not_lt.mpr (hlength s rfl hdigits.2))]
          exact ⟨_, rfl⟩
        · exact ⟨_, rfl⟩
  · intro raw method h
    cases raw with
    | none => cases h
    | some text =>
      unfold normalizeMethod at h
      dsimp only at h
      split at h
      · rename_i hmem
        cases h
        exact hmem
      · cases h

/-- An authority with an opened bracket is refused, and so is a code of 4301 digits. -/
theorem bracket_and_digits_raise :
    normalizeEndpoint plainTables (some "//[x?u=http://a") = .error (.value "Invalid IPv6 URL") ∧
    ¬ ∃ code, normalizeResponseCode plainTables (.text (String.ofList (List.replicate 4301 '2'))) = .ok code := by
  suffices hlong : ∀ n, intMaxStrDigits < n →
      ¬ ∃ code, normalizeResponseCode plainTables (.text (String.ofList (List.replicate n '2'))) = .ok code from
    ⟨by decide, hlong 4301 (by decide)⟩
  rintro n hn ⟨code, hcode⟩
  have hpos : n ≠ 0 := by
    rintro rfl
    cases hn
  have hstrip : plainTables.strip (List.replicate n '2') = List.replicate n '2' :=
    UnicodeTables.strip_eq_self (c := '2') (d := '2') (by simp [List.head?_replicate, hpos]) (by decide)
      (by simp [List.getLast?_replicate, hpos]) (by decide)
  unfold normalizeResponseCode at hcode
  dsimp only at hcode
  rw [String.toList_ofList, hstrip, if_pos ⟨by simp [hpos], by simp⟩] at hcode
  obtain ⟨value, hvalue, _⟩ := map_eq_ok.mp hcode
  rw [parseInt, if_pos (by simpa using hn)] at hvalue
  cases hvalue

end Normalization

/-! ## Admission -/

section Admission

/-- The admission of the senders of a source does not depend on the order of the rows, but for that in which the stored
senders are listed; a tracked sender is stored, no event is lost, and the ledger stays under its ceiling. -/
structure SenderAdmission (u : UnicodeTables) (policy : AdmissionPolicy) (topN : Int) : Prop where
  orderFree : ∀ rows rows' ledger measurement fact after, rows.Perm rows' →
    foldSourceBucket u rows ledger measurement policy topN = .ok (fact, after) →
      ∃ stored, stored.Perm fact.trackedEvents ∧
        foldSourceBucket u rows' ledger measurement policy topN = .ok ({ fact with trackedEvents := stored }, after)
  tracked : ∀ rows (ledger : SenderLedger) measurement fact after name, name ∈ ledger.active →
    (∃ row ∈ rows, sanitizeIdentifier u row.sender = some name) →
    foldSourceBucket u rows ledger measurement policy topN = .ok (fact, after) →
      (name, senderEvents u rows name) ∈ fact.trackedEvents
  conserved : ∀ rows ledger measurement fact after,
    foldSourceBucket u rows ledger measurement policy topN = .ok (fact, after) →
      (rows.map (fun row => row.events)).sum = fact.events ∧
        fact.events = (fact.trackedEvents.map (fun item => item.2)).sum + fact.untrackedEvents
  bounded : ∀ ledger buckets facts after, foldSourceBuckets u policy topN ledger buckets = .ok (facts, after) →
    (after.active.card : Int) ≤ max policy.maxActive ledger.active.card

/-- The admission of endpoints. The counts of clients are the same in every order where a negative one does not stand
beside a group of its key without one. -/
structure EndpointAdmission {φ : Type} [PyFloat φ] (a : WafHistoryArgs φ) : Prop where
  orderFree : ∀ st item f groups, groups.Perm item.batch.groups → foldVolumeBucket a st item = .ok f →
    ∃ f', foldVolumeBucket a st (item.withGroups groups) = .ok f' ∧ SameVolume WafMetricRow.withoutClients f f' ∧
      (ClientsSound a.normalizer item.batch.groups → SameVolume id f f')
  tracked : ∀ st item f key endpoint, foldVolumeBucket a st item = .ok f → st.ledger.get? key = some endpoint →
    endpoint.active = true → (∃ group ∈ item.batch.groups, groupKey a.normalizer group = .ok (some key)) →
      ∃ m ∈ f.metrics, m.wafEndpointId = endpoint.id ∧
        namedRequests a.normalizer item.batch.groups key = some m.requestCount
  conserved : ∀ st item f, foldVolumeBucket a st item = .ok f →
    (item.batch.groups.map (fun group => group.requestCount)).sum =
      (f.metrics.map (fun m => m.requestCount)).sum + f.row.untrackedRequests +
        ((unusableGroups a.normalizer item.batch.groups).map (fun group => group.requestCount)).sum
  bounded : ∀ buckets existing issued fold, foldVolumeHistory a buckets existing issued = .ok fold →
    ∀ f ∈ fold.folded,
      (activeEndpoints f.after.ledger : Int) ≤ max a.policy.maxActive (activeEndpoints (wafLedgerOf existing))

/-- The order in which QRadar answers decides neither what is admitted nor what is stored, and no event is lost. -/
theorem admission_not_gamed {φ : Type} [PyFloat φ] (u : UnicodeTables) (policy : AdmissionPolicy) (topN : Int)
    (t : NormalizeTables) (a : WafHistoryArgs φ) :
    SenderAdmission u policy topN ∧ EndpointAdmission { a with normalizer := normalizer t } := by
  have hhost : ∀ raw, (normalizer t).virtualHost raw ≠ some "" := by
    intro raw h
    exact (normalizeVirtualHost_some h).1 rfl
  refine ⟨⟨?_, ?_, ?_, ?_⟩, ⟨?_, ?_, ?_, ?_⟩⟩
  · intro rows rows' ledger measurement fact after hperm h
    exact foldSourceBucket_perm hperm h
  · intro rows ledger measurement fact after name hname hrow h
    exact tracked_stored hname hrow h
  · intro rows ledger measurement fact after h
    exact ⟨(total_events h).symm, events_conserved h⟩
  · intro ledger buckets facts after h
    exact foldSourceBuckets_card_le h
  · intro st item f groups hperm h
    obtain ⟨f', hf', hsame⟩ := foldVolumeBucket_reading reading_withoutClients hhost hperm
      (perm_withoutClients hperm.symm) h
    refine ⟨f', hf', hsame, fun hsound => ?_⟩
    obtain ⟨g, hg, hsame⟩ := foldVolumeBucket_reading reading_id hhost hperm
      (perm_of_clientsSound hperm.symm hsound) h
    cases hg.symm.trans hf'
    exact hsame
  · intro st item f key endpoint h hget hactive hnamed
    exact tracked_has_row h hget hactive hnamed
  · intro st item f h
    exact requests_conserved h
  · intro buckets existing issued fold h
    obtain ⟨_, -, h⟩ := bind_ok h
    obtain ⟨⟨folded, st⟩, hfolded, h⟩ := bind_ok h
    cases h
    exact foldVolumes_active (Dict.nodup_keys_foldl_set _ _ _ Dict.nodup_keys_nil) hfolded

def oddClients : List WafRequestGroup := [
  { rawUrl := some "/login", rawMethod := some "GET", requestCount := 10, distinctClientCount := some (-1) },
  { rawUrl := some "/login", rawMethod := some "GET", requestCount := 5 }]

/-- The count of clients that is stored follows the order of the two groups. -/
theorem negative_clients_follow_order :
    oddClients.reverse.Perm oddClients ∧
    ((foldVolumeBucket { fiveRequests with normalizer := normalizer plainTables } ⟨[], 0⟩
        ((loginBucket (seconds 0) 15).withGroups oddClients)).toOption.map
          (fun f => f.metrics.map (fun m => (m.requestCount, m.distinctClientCount)))) = some [(15, some (-1))] ∧
    ((foldVolumeBucket { fiveRequests with normalizer := normalizer plainTables } ⟨[], 0⟩
        ((loginBucket (seconds 0) 15).withGroups oddClients.reverse)).toOption.map
          (fun f => f.metrics.map (fun m => (m.requestCount, m.distinctClientCount)))) = some [(15, some 0)] :=
  ⟨List.reverse_perm _, by with_unfolding_all decide, by with_unfolding_all decide⟩

end Admission

/-! ## Keyed rows -/

section KeyedRows

variable {windowStart windowEnd bucketSeconds start stop : Int}

/-- A fold of rows that are read returns one entry for each bucket of the window when every key is that of a bucket, and
raises the error of the provider otherwise. A sample is in the bucket of its row's key alone; of the groups of a bucket
the largest are kept. -/
theorem keyed_rows_fail_closed (t : TextTables)
    (hwindow : validateBucketedMetricWindow windowStart windowEnd bucketSeconds = .ok (start, stop))
    (hstart : seconds (-62135596800) ≤ windowStart) (hstop : windowEnd < seconds 253402300800) (maxGroups : Nat) :
    let firstKey := start / 1000000 / bucketSeconds
    let n := ((stop - start) / 1000000 / bucketSeconds).toNat
    (∀ rows, (∀ row ∈ rows, MetricRowReadable t bucketSeconds row) →
      FailsClosed (∀ row ∈ rows, ∃ i < n, namesBucket t firstKey i row)
        (foldLogSourceMetricBuckets t rows windowStart windowEnd bucketSeconds)
        (fun buckets => buckets.keys = windowStarts bucketSeconds firstKey n ∧
          ∀ i < n, buckets.get? (seconds ((firstKey + i) * bucketSeconds)) =
            some (rows.filterMap (sampleAt t bucketSeconds firstKey i)))) ∧
    (∀ groupRows totalRows query totalQuery, (∀ row ∈ groupRows, GroupRowReadable t row) →
      (∀ row ∈ totalRows, TotalRowReadable t row) →
      FailsClosed ((∀ row ∈ groupRows, ∃ i < n, namesBucket t firstKey i row) ∧
          (∀ row ∈ totalRows, ∃ i < n, namesBucket t firstKey i row) ∧ OneRowEach t firstKey totalRows)
        (foldObservationBuckets t groupRows totalRows windowStart windowEnd bucketSeconds maxGroups query totalQuery)
        (fun batches => batches.keys = windowStarts bucketSeconds firstKey n ∧
          ∀ i < n, ∃ batch, batches.get? (seconds ((firstKey + i) * bucketSeconds)) = some batch ∧
            ObservationOf t firstKey bucketSeconds maxGroups groupRows totalRows i batch)) ∧
    ∀ rows breakdown query, (∀ row ∈ rows, BreakdownRowReadable t row) →
      FailsClosed (∀ row ∈ rows, ∃ i < n, namesBucket t firstKey i row)
        (foldBreakdownBuckets t rows breakdown windowStart windowEnd bucketSeconds maxGroups query)
        (fun batches => batches.keys = windowStarts bucketSeconds firstKey n ∧
          ∀ i < n, ∃ batch, batches.get? (seconds ((firstKey + i) * bucketSeconds)) = some batch ∧
            BreakdownOf t firstKey bucketSeconds maxGroups rows i batch) := by
  intro firstKey n
  refine ⟨?_, ?_, ?_⟩
  · intro rows hrows
    exact foldLogSourceMetricBuckets_failsClosed hwindow hstart hstop hrows
  · intro groupRows totalRows query totalQuery hgroups htotals
    exact foldObservationBuckets_failsClosed hwindow hgroups htotals maxGroups query totalQuery
  · intro rows breakdown query hrows
    exact foldBreakdownBuckets_failsClosed hwindow hrows breakdown maxGroups query

def asciiText : TextTables where
  unicode := asciiTables
  digits := asciiDigits
  str
    | .int n => .ok (toString n)
    | .str s => .ok s
    | _ => .ok ""

def pageRow (key : Json PyDouble) (requests : Int) : KeyedRow := [
  ("k", key), ("qradar_id", .int 7), ("event_count", .int requests), ("request_count", .int requests),
  ("total_events", .int requests), ("raw_url", .str "/login"), ("raw_method", .str "GET")]

theorem pageRow_readable {key} {requests : Int} (hkey : KeyReadable asciiText (some key))
    (hrate : ¬ Double.Overflows (requests / (300 : Int))) :
    MetricRowReadable asciiText 300 (pageRow key requests) where
  key := hkey
  qradarId := fun _ h => (by cases h)
  count := fun _ h => (by cases h)
  rate := by
    intro count h
    cases h
    exact hrate

theorem textReadable_str (cell : Cell) (h : ∀ value, cell = some value → ∃ s, value = .str s) :
    TextReadable asciiText cell := by
  intro value hvalue
  obtain ⟨s, rfl⟩ := h value hvalue
  exact ⟨s, rfl⟩

theorem pageRow_groupReadable {key requests} (hkey : KeyReadable asciiText (some key)) :
    GroupRowReadable asciiText (pageRow key requests) where
  key := hkey
  requestCount := fun _ h => (by cases h)
  rawUrl := textReadable_str _ (fun value h => (by cases h; exact ⟨_, rfl⟩))
  rawMethod := textReadable_str _ (fun value h => (by cases h; exact ⟨_, rfl⟩))
  rawVirtualHost := textReadable_str _ (fun value h => (by cases h))
  recordCount := fun _ h => (by cases h)
  distinctClients := fun _ h => (by cases h)

theorem pageRow_totalReadable {key requests} (hkey : KeyReadable asciiText (some key)) :
    TotalRowReadable asciiText (pageRow key requests) where
  key := hkey
  total := fun _ h => (by cases h)

theorem pageRow_breakdownReadable {key requests} (hkey : KeyReadable asciiText (some key)) :
    BreakdownRowReadable asciiText (pageRow key requests) where
  key := hkey
  requestCount := fun _ h => (by cases h)
  rawUrl := textReadable_str _ (fun value h => (by cases h; exact ⟨_, rfl⟩))
  rawMethod := textReadable_str _ (fun value h => (by cases h; exact ⟨_, rfl⟩))
  rawVirtualHost := textReadable_str _ (fun value h => (by cases h))
  rawValue := textReadable_str _ (fun value h => (by cases h))

def twoBuckets : List KeyedRow := [pageRow (.str "-1") 600, pageRow (.int 0) 300, pageRow (.int 0) 900]

theorem forall_twoBuckets {P : KeyedRow → Prop} (htext : P (pageRow (.str "-1") 600))
    (hint : ∀ n : Int, |n| ≤ 3 → P (pageRow (.int 0) (n * 300))) : ∀ row ∈ twoBuckets, P row := by
  intro row hrow
  simp only [twoBuckets, List.mem_cons, List.not_mem_nil, or_false] at hrow
  rcases hrow with rfl | rfl | rfl
  · exact htext
  · exact hint 1 (by decide)
  · exact hint 3 (by decide)

theorem keyed_rows_fail_closed_two :
    FailsClosed (∀ row ∈ twoBuckets, ∃ i < 2, namesBucket asciiText (-1) i row)
      (foldLogSourceMetricBuckets asciiText twoBuckets (seconds (-300)) (seconds 300) 300)
      (fun buckets => buckets.keys = windowStarts 300 (-1) 2 ∧
        ∀ i < 2, buckets.get? (seconds ((-1 + (i : Nat)) * 300)) =
          some (twoBuckets.filterMap (sampleAt asciiText 300 (-1) i))) ∧
    FailsClosed ((∀ row ∈ twoBuckets, ∃ i < 2, namesBucket asciiText (-1) i row) ∧
        (∀ row ∈ twoBuckets.take 2, ∃ i < 2, namesBucket asciiText (-1) i row) ∧
        OneRowEach asciiText (-1) (twoBuckets.take 2))
      (foldObservationBuckets asciiText twoBuckets (twoBuckets.take 2) (seconds (-300)) (seconds 300) 300 1 none none)
      (fun batches => batches.keys = windowStarts 300 (-1) 2 ∧
        ∀ i < 2, ∃ batch, batches.get? (seconds ((-1 + (i : Nat)) * 300)) = some batch ∧
          ObservationOf asciiText (-1) 300 1 twoBuckets (twoBuckets.take 2) i batch) ∧
    FailsClosed (∀ row ∈ twoBuckets, ∃ i < 2, namesBucket asciiText (-1) i row)
      (foldBreakdownBuckets asciiText twoBuckets "method" (seconds (-300)) (seconds 300) 300 1 none)
      (fun batches => batches.keys = windowStarts 300 (-1) 2 ∧
        ∀ i < 2, ∃ batch, batches.get? (seconds ((-1 + (i : Nat)) * 300)) = some batch ∧
          BreakdownOf asciiText (-1) 300 1 twoBuckets i batch) := by
  have hwindow : validateBucketedMetricWindow (seconds (-300)) (seconds 300) 300 =
      .ok (seconds (-300), seconds 300) := by decide
  have hwhole : ∀ n : Int, |n| ≤ 3 → ¬ Double.Overflows ((n * 300 : Int) / (300 : Int)) := by
    intro n hn
    have hquotient : ((n * 300 : Int) : ℚ) / (300 : Int) = n := by
      push_cast
      exact mul_div_cancel_right₀ _ (by norm_num)
    rw [hquotient, Double.Overflows, Double.round_intCast (by omega), not_le]
    calc |(n : ℚ)| < 2 ^ 2 := by exact_mod_cast (by omega : |n| < 2 ^ 2)
      _ ≤ 2 ^ 1024 := pow_le_pow_right₀ (by norm_num) (by norm_num)
  have htext : KeyReadable asciiText (some (.str "-1")) := by
    intro s hs _
    cases hs
    decide
  have hint : KeyReadable asciiText (some (.int 0)) := fun _ hs => (by cases hs)
  obtain ⟨hmetric, hvolume, hbreakdown⟩ := keyed_rows_fail_closed asciiText hwindow (by decide) (by decide) 1
  refine ⟨hmetric twoBuckets ?_, hvolume twoBuckets (twoBuckets.take 2) none none ?_ ?_,
    hbreakdown twoBuckets "method" none ?_⟩
  · exact forall_twoBuckets (pageRow_readable htext (hwhole 2 (by decide)))
      (fun n hn => pageRow_readable hint (hwhole n hn))
  · exact forall_twoBuckets (pageRow_groupReadable htext) (fun n _ => pageRow_groupReadable hint)
  · exact fun row hrow => forall_twoBuckets (pageRow_totalReadable htext) (fun n _ => pageRow_totalReadable hint) row
      (List.mem_of_mem_take hrow)
  · exact forall_twoBuckets (pageRow_breakdownReadable htext) (fun n _ => pageRow_breakdownReadable hint)

/-- Of two pages the larger is kept where one group may be, and a key with two minuses is an error of `int`. -/
theorem keyed_rows_cut_and_raise :
    ((foldObservationBuckets asciiText [pageRow (.int 0) 2, pageRow (.int 0) 1] [] 0 (seconds 300) 300 1 none
        none).toOption.map (fun batches => batches.map (fun item => item.2.groups.map (fun g => g.requestCount)))) =
      some [[2]] ∧
    foldObservationBuckets asciiText [pageRow (.str "--5") 1] [] 0 (seconds 300) 300 1 none none =
      .error (.other (.value "invalid literal for int() with base 10: '--5'")) :=
  ⟨by decide, rfl⟩

end KeyedRows

end QRadarDashboard.Waf
