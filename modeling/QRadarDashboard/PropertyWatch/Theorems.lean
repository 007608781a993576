import QRadarDashboard.Alerts.Theorems
import QRadarDashboard.History.Theorems
import QRadarDashboard.PropertyWatch.Lemmas.AlertRounds
import QRadarDashboard.PropertyWatch.Lemmas.Bootstrap
import QRadarDashboard.PropertyWatch.Lemmas.Engine
import QRadarDashboard.PropertyWatch.Lemmas.KeyedSearch
import QRadarDashboard.PropertyWatch.Lemmas.Scope
import QRadarDashboard.PropertyWatch.Lemmas.Update
import QRadarDashboard.PropertyWatch.Lemmas.ValueRun

/-!
# Results about property watches
-/

namespace QRadarDashboard.PropertyWatch
open Lib Lib.ReadCommitted Collectors Waf
open Services (lexPieces)

/-! ## The split driver -/

def samplePlan : PwSearchPlan where
  search := .grouped
  scopeKind := .logSource
  scopeIds := [12]
  properties := [("NORMALIZED", "username")]

def sampleBudget : PwSearchBudget where
  maxSearches := 3
  maxPerWatch := some 2
  used := 0
  byWatch := []

/-- For every provider, a search returns one outcome per bucket of its window, in order, within the budget and `2n - 1`
calls, and each says what the calls established. -/
theorem runSearch_honest (u : UnicodeTables) (provider : PwProvider) (plan : PwSearchPlan) (window : Int × Int)
    (bucketSeconds maxRows : Int) (budget : PwSearchBudget) (maxSources : Nat) (watch : Option Int) {start stop : Int}
    {spec : PwQuerySpec} (hwindow : validateBucketedMetricWindow window.1 window.2 bucketSeconds = .ok (start, stop))
    (hrows : 1 ≤ maxRows) (hspec : validateQueryInputs u plan maxSources = .ok spec) :
    ∃ report n, runSearch u provider plan window bucketSeconds maxRows budget maxSources watch = .ok report ∧
      0 < n ∧ stop = start + seconds (bucketSeconds * (n : Nat)) ∧
      report.outcomes.map (fun cell => cell.bucketStart) =
        (List.range n).map (fun i => start + seconds (bucketSeconds * (i : Nat))) ∧
      (∀ i call, report.calls[i]? = some call → call.answer = provider i call.request) ∧
      report.calls.length ≤ 2 * n - 1 ∧ budget.Spent watch report.calls.length report.budget ∧
      ∀ cell ∈ report.outcomes,
        Honest bucketSeconds (propertyCount spec) report.calls cell := by
  obtain ⟨n, hn, hwidth, hstop, hcount⟩ := exists_count_of_validate hwindow
  let a : SearchArgs := ⟨provider, spec, start, bucketSeconds, maxRows, watch⟩
  obtain ⟨calls, cells, hs, hlen, hhonest⟩ := SearchArgs.covered_search (a := a) hwidth 0 n 0 hn
    (show SearchArgs.Before a 0 ⟨budget, [], []⟩ from rfl)
  have hcells : (a.search 0 n 0 ⟨budget, [], []⟩).cells = cells.map (fun cell => (cell.bucketStart, cell)) :=
    hs.cells_eq
  have hcalls : (a.search 0 n 0 ⟨budget, [], []⟩).calls = calls := hs.calls_eq
  refine ⟨⟨cells, (a.search 0 n 0 ⟨budget, [], []⟩).budget, calls⟩, n, ?_, hn, hstop, ?_, ?_, hlen, hs.spent,
    hhonest⟩
  · rw [← SearchArgs.outcomes_eq hwidth hs.buckets, ← hcells, ← hcalls]
    simp only [runSearch, hwindow, hspec, hcount, Int.not_lt.mpr hrows, if_false, bind, Except.bind, pure,
      Except.pure]
    rfl
  · exact hs.buckets.trans (by rw [← List.range_eq_range']; rfl)
  · intro i call hcall
    simpa using hs.answered i call hcall

theorem runSearch_honest_twoBuckets :
    ∃ report, runSearch asciiTables (fun _ _ => some ⟨[⟨seconds 300, 7, [some "root"]⟩], true, "q"⟩) samplePlan
        (seconds 0, seconds 600) 300 10 sampleBudget 20 (some 1) = .ok report ∧
      report.outcomes.map (fun cell => cell.bucketStart) = [seconds 0, seconds 300] ∧
      report.calls.length ≤ 2 ∧
      ∀ cell ∈ report.outcomes, Honest 300 1 report.calls cell := by
  have hspec : validateQueryInputs asciiTables samplePlan 20 =
      .ok ⟨.grouped, .logSource, [12], [⟨.normalized, "username"⟩], []⟩ := by decide
  have hwindow : validateBucketedMetricWindow (seconds 0) (seconds 600) 300 = .ok (seconds 0, seconds 600) := by
    decide
  obtain ⟨report, n, hrun, _, hstop, hbuckets, _, _, hspent, hhonest⟩ :=
    runSearch_honest asciiTables (fun _ _ => some ⟨[⟨seconds 300, 7, [some "root"]⟩], true, "q"⟩) samplePlan
      (seconds 0, seconds 600) 300 10 sampleBudget 20 (some 1) hwindow (by decide) hspec
  have hn : n = 2 := by
    simp only [seconds] at hstop
    omega
  subst hn
  exact ⟨report, hrun, hbuckets, hspent.share 1 rfl 2 rfl, hhonest⟩

/-- A row in the asked bucket that does not carry the bucket's start is contained and dropped: the cell is not
the rows of the search. -/
theorem offGrid_row_dropped :
    ∃ report, runSearch asciiTables (fun _ _ => some ⟨[⟨seconds 150, 7, [some "root"]⟩], true, "q"⟩) samplePlan
        (seconds 0, seconds 300) 300 10 sampleBudget 20 (some 1) = .ok report ∧
      ∃ cell ∈ report.outcomes, cell.state = .lowerBound ∧
        ∀ call ∈ report.calls, ∀ result, call.answer = some result → cell.rows ≠ result.rows := by
  obtain ⟨report, hrun, hreport⟩ := exists_ok_of_toOption
    (x := runSearch asciiTables (fun _ _ => some ⟨[⟨seconds 150, 7, [some "root"]⟩], true, "q"⟩) samplePlan
      (seconds 0, seconds 300) 300 10 sampleBudget 20 (some 1))
    (f := fun report => (report.outcomes.map (fun cell => (cell.state, cell.rows)),
      report.calls.map (fun call => call.answer.map (fun result => result.rows))))
    (b := ([(.lowerBound, [])], [some [⟨seconds 150, 7, [some "root"]⟩]])) (by with_unfolding_all decide)
  obtain ⟨houtcomes, hcalls⟩ := Prod.mk.inj hreport
  obtain ⟨cell, hcells, hcell⟩ := List.map_eq_singleton_iff.mp houtcomes
  obtain ⟨hstate, hrows⟩ := Prod.mk.inj hcell
  refine ⟨report, hrun, cell, by simp [hcells], hstate, ?_⟩
  intro call hcall result hanswer
  have hmem : call.answer.map (fun result => result.rows) ∈ [some [⟨seconds 150, 7, [some "root"]⟩]] := by
    rw [← hcalls]
    exact List.mem_map.mpr ⟨call, hcall, rfl⟩
  simp only [hanswer, Option.map_some, List.mem_singleton, Option.some.injEq] at hmem
  simp [hrows, hmem]

/-! ## The text of a search -/

section Query

/-- Two searches of the same kind, over the same sources, with as many properties and as many components of each. -/
structure SameShape (spec spec' : PwQuerySpec) : Prop where
  search : spec.search = spec'.search
  scopeKind : spec.scopeKind = spec'.scopeKind
  scopeIds : spec.scopeIds = spec'.scopeIds
  properties : spec.properties.length = spec'.properties.length
  components : (pinnedComponents spec).map List.length = (pinnedComponents spec').map List.length

theorem SameShape.names {spec spec'} (h : SameShape spec spec') :
    (searchNames spec).map (fun _ => "") = (searchNames spec').map (fun _ => "") := by
  unfold searchNames
  rw [h.search]
  split
  · rfl
  · rw [List.map_const', List.map_const', List.length_map, List.length_map, h.properties]

theorem SameShape.lists {spec spec'} (h : SameShape spec spec') :
    (inLists spec).map (fun l => l.map (fun _ => "")) = (inLists spec').map (fun l => l.map (fun _ => "")) := by
  unfold inLists
  rw [h.search]
  split
  · have hcounts := congrArg (fun counts => counts.map (fun n => List.replicate n "")) h.components
    simpa [List.map_const', Function.comp_def] using hcounts
  · rfl

/-- What operators have typed is in the quotes of a search, which the lexer finds closed: outside them two searches of
one shape are the same. The conditions of a pinned search admit its pinned tuples, and as many as it counts. -/
theorem query_structure_fixed (u : UnicodeTables) {plan : PwSearchPlan} {maxSources : Nat} {spec : PwQuerySpec}
    (h : validateQueryInputs u plan maxSources = .ok spec) (startMs endMs bucketMs limit : Int) :
    (∀ plan' maxSources' spec', validateQueryInputs u plan' maxSources' = .ok spec' → SameShape spec spec' →
      (buildQuery spec startMs endMs bucketMs limit).map (fun text => skeleton text.toList) =
        (buildQuery spec' startMs endMs bucketMs limit).map (fun text => skeleton text.toList)) ∧
    (∀ text, buildQuery spec startMs endMs bucketMs limit = .ok text → Closed (lexPieces text.toList) ∧
      singleBodies (lexPieces text.toList) = (inLists spec).flatten.map String.toList) ∧
    (spec.search = .pinned → (∀ entry ∈ spec.pinned, entry ∈ satisfying spec) ∧
      (satisfying spec).encard = pinnedRowsPerBucket spec) := by
  have haccepted := validateQueryInputs_ok h
  refine ⟨?_, fun text htext => ?_, fun hpinned => ⟨fun entry hentry => ?_, ?_⟩⟩
  · intro plan' maxSources' spec' h' hshape
    rcases buildQuery_cases spec spec' startMs endMs bucketMs limit with ⟨e, he, he'⟩ | ⟨text, text', htext, htext'⟩
    · rw [he, he']
    · have hpieces := (lexPieces_buildQuery haccepted htext).1
      have hpieces' := (lexPieces_buildQuery (validateQueryInputs_ok h') htext').1
      have hbounds : searchBounds spec startMs endMs = searchBounds spec' startMs endMs := by
        rw [searchBounds, searchBounds, hshape.scopeKind, hshape.scopeIds]
      rw [htext, htext']
      refine congrArg Except.ok (show skeleton text.toList = skeleton text'.toList from ?_)
      rw [skeleton, skeleton, hpieces, hpieces', hollow_queryPieces, hollow_queryPieces _ _ _ (searchNames spec'),
        hshape.names, hshape.lists, hbounds]
  · obtain ⟨hpieces, hclosed⟩ := lexPieces_buildQuery haccepted htext
    refine ⟨hclosed, ?_⟩
    rw [hpieces, singleBodies_queryPieces _ _ _ (length_inLists_le spec)]
  · obtain ⟨raw, hcount, hraw⟩ := haccepted.pinned entry hentry
    exact pinned_satisfying hpinned hentry ((length_of_mapM hraw).trans hcount)
  · rw [satisfying_pinned hpinned, encard_forall₂ (fun _ => nodup_pinnedComponents)]
    rfl

def commentPlan (pin : String) : PwSearchPlan :=
  ⟨.pinned, .logSourceGroup, [7, 3], [("NORMALIZED", "username"), ("CUSTOM_PROPERTY", "Zone")],
    [["root", pin], ["bob", pin]]⟩

def commentSpec (pin : String) : PwQuerySpec :=
  ⟨.pinned, .logSourceGroup, [3, 7], [⟨.normalized, "username"⟩, ⟨.customProperty, "Zone"⟩],
    [["root", pin], ["bob", pin]]⟩

theorem query_structure_fixed_comment :
    (buildQuery (commentSpec "/*--)") 1000 2000 300 11).map (fun text => skeleton text.toList) =
      (buildQuery (commentSpec "dmz") 1000 2000 300 11).map (fun text => skeleton text.toList) ∧
    (satisfying (commentSpec "/*--)")).encard = 2 := by
  have h : validateQueryInputs asciiTables (commentPlan "/*--)") 20 = .ok (commentSpec "/*--)") := by decide
  have h' : validateQueryInputs asciiTables (commentPlan "dmz") 20 = .ok (commentSpec "dmz") := by decide
  obtain ⟨hsame, _, hpinned⟩ := query_structure_fixed asciiTables h 1000 2000 300 11
  have hrows : pinnedRowsPerBucket (commentSpec "/*--)") = 2 := by decide
  exact ⟨hsame _ _ _ h' ⟨rfl, rfl, rfl, rfl, by decide⟩, by rw [(hpinned rfl).2, hrows]; rfl⟩

theorem grouped_counts_no_row : ∃ spec, validateQueryInputs asciiTables samplePlan 20 = .ok spec ∧
    (satisfying spec).encard ≠ pinnedRowsPerBucket spec := by
  refine ⟨⟨.grouped, .logSource, [12], [⟨.normalized, "username"⟩], []⟩, by decide, fun hcard => ?_⟩
  have hrows : pinnedRowsPerBucket ⟨.grouped, .logSource, [12], [⟨.normalized, "username"⟩], []⟩ = 0 := by decide
  rw [hrows, Nat.cast_zero, Set.encard_eq_zero] at hcard
  have hroot : ["root"] ∈ satisfying ⟨.grouped, .logSource, [12], [⟨.normalized, "username"⟩], []⟩ := by
    refine ⟨rfl, fun item hitem => absurd hitem ?_⟩
    simp [inLists]
  rw [hcard] at hroot
  exact hroot

end Query

/-! ## Measured zeros -/

def sampleStage : StageSettings where
  fold := {
    bucketSeconds := 300
    watchVersion := 1
    propertyCount := 1
    maxValues := 1
    valueMaxLength := 64 }
  policy := {
    minEvents := 5
    maxNewPerBucket := 1
    maxActive := 3
    activeDays := 7
    minEvents_ok := by decide
    maxActive_ok := by decide
    activeDays_ok := by decide }
  pinned := [["root"]]
  reading := false

def sampleOutcome (search : PwSearchKind) (state : PwCellState) (rows : List PwKeyedRow)
    (h : state.measured = true) : PwBucketOutcome where
  search := search
  bucketStart := seconds 300
  state := state
  rows := rows
  provenance := none
  rows_ok := fun hno => by simp [h] at hno

def sampleGrouped : List (List PwBucketOutcome) :=
  [[sampleOutcome .grouped .lowerBound [⟨seconds 300, 9, [some "alice "]⟩] rfl]]

def sampleTotals : List (List PwBucketOutcome) :=
  [[sampleOutcome .totals .complete [⟨seconds 300, 40, []⟩] rfl]]

def samplePinned : List (List PwBucketOutcome) := [[sampleOutcome .pinned .complete [] rfl]]

/-- A measured zero and an exact count of a value that is active or pinned when its bucket is folded rest on whole
searches. -/
theorem exact_reading_of_whole_search (u : UnicodeTables) (s : StageSettings)
    (groupedChunks totalsChunks : List (List PwBucketOutcome))
    (pinnedChunks : Option (List (List PwBucketOutcome))) (values : TrackedValues) {staged : List StagedBucket}
    (h : collectWatch u s groupedChunks totalsChunks pinnedChunks values = .ok staged) {limit : Nat}
    (hlimit : componentLimit s.fold.propertyCount s.fold.valueMaxLength = .ok limit) {i : Nat} {st : StagedBucket}
    (hst : staged[i]? = some st) {key : String} {v : TrackedValue} (hv : st.before.get? key = some v)
    (hactive : v.active = true ∨ v.pinned = true) (trackedAtBucket : Bool) {reading : PwReading}
    (hreading : readingFor (some st.admitted.fact.toPwBucketData) v.pinned trackedAtBucket
      (st.admitted.metrics.get? key) = .ok reading) :
    (reading.kind = .measuredZero →
      (Whole groupedChunks i ∧ ∀ row ∈ chunkRows groupedChunks i, rowKey u limit row ≠ some key) ∨
      (v.pinned = true ∧ ∃ chunks, pinnedChunks = some chunks ∧ Whole chunks i ∧
        ∀ row ∈ chunkRows chunks i ++ chunkRows groupedChunks i, rowKey u limit row ≠ some key)) ∧
    ∀ n, reading = ⟨.count, some n, some .exact⟩ →
      (Whole groupedChunks i ∧ n = keyEvents u limit key (chunkRows groupedChunks i)) ∨
      (¬ Whole groupedChunks i ∧ v.pinned = true ∧ ∃ chunks, pinnedChunks = some chunks ∧ Whole chunks i ∧
        n = max (keyEvents u limit key (chunkRows groupedChunks i))
          (keyEvents u limit key (chunkRows chunks i))) := by
  constructor
  · intro hkind
    obtain ⟨hmetric, hexact⟩ := (readingFor_ok hreading).1 hkind
    have hfrom := exactFrom_of_collect h hlimit hst hv hactive hexact
    rcases hfrom.cases with ⟨hwhole, hrows⟩ | ⟨_, hpinned, chunks, hchunks, hwhole, hrows⟩
    · rw [hmetric] at hrows
      exact Or.inl ⟨hwhole, rowKey_ne_of_keyEvents?_none hrows.symm⟩
    · rw [hmetric] at hrows
      obtain ⟨hg, hp⟩ := mergeEvents_eq_none hrows.symm
      refine Or.inr ⟨hpinned, chunks, hchunks, hwhole, ?_⟩
      intro row hrow
      rcases List.mem_append.mp hrow with hrow | hrow
      · exact rowKey_ne_of_keyEvents?_none hp row hrow
      · exact rowKey_ne_of_keyEvents?_none hg row hrow
  · rintro n rfl
    obtain ⟨hmetric, hexact⟩ := (readingFor_ok hreading).2 rfl
    have hfrom := exactFrom_of_collect h hlimit hst hv hactive hexact
    have hn := hfrom.nonneg n hmetric
    rcases hfrom.cases with ⟨hwhole, hrows⟩ | ⟨hnot, hpinned, chunks, hchunks, hwhole, hrows⟩
    · rw [hmetric] at hrows
      exact Or.inl ⟨hwhole, (keyEvents_of_some hrows.symm).symm⟩
    · rw [hmetric] at hrows
      exact Or.inr ⟨hnot, hpinned, chunks, hchunks, hwhole, eq_max_of_mergeEvents hrows.symm hn⟩

theorem exact_reading_of_whole_search_pinned :
    ∃ staged st, collectWatch asciiTables sampleStage sampleGrouped sampleTotals (some samplePinned) [] =
        .ok staged ∧ staged[0]? = some st ∧ ∃ v, st.before.get? "root" = some v ∧ v.pinned = true ∧
      readingFor (some st.admitted.fact.toPwBucketData) true true (st.admitted.metrics.get? "root") =
        .ok ⟨.measuredZero, some 0, some .exact⟩ ∧
      ((Whole sampleGrouped 0 ∧ ∀ row ∈ chunkRows sampleGrouped 0, rowKey asciiTables 64 row ≠ some "root") ∨
        (v.pinned = true ∧ ∃ chunks, some samplePinned = some chunks ∧ Whole chunks 0 ∧
          ∀ row ∈ chunkRows chunks 0 ++ chunkRows sampleGrouped 0,
            rowKey asciiTables 64 row ≠ some "root")) := by
  obtain ⟨staged, hrun, hstaged⟩ := exists_ok_of_toOption
    (x := collectWatch asciiTables sampleStage sampleGrouped sampleTotals (some samplePinned) [])
    (f := fun staged => staged.map (fun st => ((st.before.get? "root").map (fun v => (v.active, v.pinned)),
      (readingFor (some st.admitted.fact.toPwBucketData) true true (st.admitted.metrics.get? "root")).toOption)))
    (b := [(some (true, true), some ⟨.measuredZero, some 0, some .exact⟩)]) (by decide)
  obtain ⟨st, rfl, hst⟩ := List.map_eq_singleton_iff.mp hstaged
  obtain ⟨hbefore, hreading⟩ := Prod.mk.inj hst
  obtain ⟨v, hv, hflags⟩ := Option.map_eq_some_iff.mp hbefore
  obtain ⟨hactive, hpinned⟩ := Prod.mk.inj hflags
  have hread : readingFor (some st.admitted.fact.toPwBucketData) true true (st.admitted.metrics.get? "root") =
      .ok ⟨.measuredZero, some 0, some .exact⟩ := by
    cases hr : readingFor (some st.admitted.fact.toPwBucketData) true true (st.admitted.metrics.get? "root") with
    | error e => simp [hr, Except.toOption] at hreading
    | ok r =>
      simp only [hr, Except.toOption, Option.some.injEq] at hreading
      rw [hreading]
  have hlimit : componentLimit sampleStage.fold.propertyCount sampleStage.fold.valueMaxLength = .ok 64 := by
    decide
  refine ⟨[st], st, hrun, rfl, v, hv, hpinned, hread, ?_⟩
  exact (exact_reading_of_whole_search asciiTables sampleStage sampleGrouped sampleTotals (some samplePinned) []
    hrun hlimit (i := 0) rfl hv (Or.inl hactive) true (by rw [hpinned]; exact hread)).1 rfl

/-! ## Conservation -/

section Conservation

def loginRows : List PwKeyedRow :=
  [⟨seconds 300, 7, [some "root"]⟩, ⟨seconds 300, 2, [some "alice"]⟩, ⟨seconds 300, 1, [none]⟩]

theorem asciiTables_python : PythonTables asciiTables := ⟨by decide, by decide⟩

/-- The driver returns the bucket of the logins to every watch of one property over five minutes. -/
theorem loginBucket : ∃ grouped totals, grouped.state = .complete ∧ grouped.rows = loginRows ∧
    ∀ s : FoldSettings, s.bucketSeconds = 300 → s.propertyCount = 1 →
      DriverBucket asciiTables s (seconds 300) [("NORMALIZED", "username")] grouped totals none [] := by
  obtain ⟨report, hrun, hreport⟩ := exists_ok_of_toOption
    (x := runSearch asciiTables (fun _ _ => some ⟨loginRows, false, "q"⟩) samplePlan
      (seconds 300, seconds 600) 300 10 sampleBudget 20 (some 1))
    (f := fun report => report.outcomes.map (fun cell => (cell.state, cell.bucketStart, cell.rows)))
    (b := [(.complete, seconds 300, loginRows)]) (by with_unfolding_all decide)
  obtain ⟨report', hrun', hreport'⟩ := exists_ok_of_toOption
    (x := runSearch asciiTables (fun _ _ => some ⟨[⟨seconds 300, 10, []⟩], false, "q"⟩)
      { samplePlan with search := .totals, properties := [] } (seconds 300, seconds 600) 300 10 sampleBudget 20 (some 1))
    (f := fun report => report.outcomes.map (fun cell => cell.bucketStart))
    (b := [seconds 300]) (by with_unfolding_all decide)
  obtain ⟨grouped, hgrouped, hcell⟩ := List.map_eq_singleton_iff.mp hreport
  obtain ⟨totals, htotals, hat⟩ := List.map_eq_singleton_iff.mp hreport'
  simp only [Prod.mk.injEq] at hcell
  obtain ⟨hstate, hbucket, hrows⟩ := hcell
  refine ⟨grouped, totals, hstate, hrows, ?_⟩
  intro s hwidth harity
  refine ⟨harity.symm, ?_, ⟨[], ?_⟩, (fun o ho => by cases ho), ⟨fun _ => rfl, fun _ => rfl⟩, hbucket, hat,
    (fun o ho => by cases ho)⟩
  · rw [hwidth]
    refine .searched ⟨_, _, _, _, _, _, _, report, ?_, rfl, rfl, rfl, hrun, rfl⟩ (by simp [hgrouped])
    intro k request result hanswer row hrow
    cases hanswer
    revert row
    decide
  · rw [hwidth]
    refine .searched ⟨_, _, _, _, _, _, _, report', ?_, rfl, rfl, rfl, hrun', rfl⟩ (by simp [htotals])
    intro k request result hanswer row hrow
    cases hanswer
    revert row
    decide

/-- Every bucket the driver can return is folded and admitted, and a whole one's metric rows and untracked events are
the events of its rows, exactly when a value may be three characters long. Admission never raises the active values
above the ceiling, a pinned value is active, and a metric row is of an active value. -/
theorem bucket_conserved_iff (u : UnicodeTables) (hu : PythonTables u) (s : FoldSettings) (hs : s.Accepted)
    (policy : PwAdmissionPolicy) :
    (∀ (bucketStart : Int) (properties : List (String × String)) (grouped totals : PwBucketOutcome)
        (pinnedOutcome : Option PwBucketOutcome) (pinned : List (List String)) (tracked : List String)
        (values : TrackedValues),
      DriverBucket u s bucketStart properties grouped totals pinnedOutcome pinned → values.keys.Nodup →
      ((∃ fact admitted after, foldBucket u s bucketStart grouped totals pinnedOutcome pinned tracked = .ok fact ∧
          admitBucket fact values policy s.propertyCount = .ok (admitted, after) ∧
          (fact.valuesMeasurement = .exact → fact.parsedEvents = some (parsedEvents u grouped.rows) ∧
            admitted.fact.parsedEvents = some (parsedEvents u grouped.rows) ∧
            ∃ untracked, admitted.fact.untrackedEvents = some untracked ∧
              metricsTotal admitted.metrics + untracked = parsedEvents u grouped.rows)) ↔
        3 ≤ s.valueMaxLength)) ∧
    ∀ (start : TrackedValues) (tr : List (Taken TrackedValues ValueOp ValueOpOutput)) (last : TrackedValues),
      start.keys.Nodup → Run (valueStep policy s.propertyCount) (fun output => output.values) start tr last →
      (activeCount last : Int) ≤ max policy.maxActive (activeCount start) +
          ((tr.map (fun e => e.input.starts e.before)).sum : Nat) ∧
        (∀ e ∈ tr, e.input.isSync = false → activeCount e.output.values ≤ activeCount e.before ∨
          (activeCount e.output.values : Int) ≤ policy.maxActive) ∧
        (PinnedLive start ∨ (∃ e ∈ tr, e.input.isSync = true) → PinnedLive last) ∧
        (∀ e ∈ tr, ∀ key ∈ e.output.retired, ∀ v, e.before.get? key = some v → v.pinned = false) ∧
        ∀ e ∈ tr, ∀ key, key ∈ e.output.metrics.keys → ActiveAt e.output.values key := by
  constructor
  · intro bucketStart properties grouped totals pinnedOutcome pinned tracked values hbucket hvalues
    constructor
    · rintro ⟨fact, _, _, hfact, _, _⟩
      by_contra hnarrow
      obtain ⟨_, _, hfact⟩ := bind_ok hfact
      obtain ⟨limit, hlimit, _⟩ := bind_ok hfact
      unfold componentLimit at hlimit
      split at hlimit
      · cases hlimit
      · rw [if_pos (fun hrange => hnarrow hrange.1)] at hlimit
        cases hlimit
    · intro hwidth
      obtain ⟨fact, hfact, hconserved⟩ := foldBucket_total hu hs hwidth hbucket tracked
      obtain ⟨admitted, after, hadmit⟩ := admitBucket_total fact values policy s.propertyCount hconserved.keys
      have heffect := admitBucket_effect hvalues hadmit
      refine ⟨fact, admitted, after, hfact, hadmit, fun hexact => ?_⟩
      obtain ⟨n, hn, hparsed, hsum⟩ := hconserved.whole hexact
      obtain ⟨m, hm, hmetrics⟩ := heffect.conserved hconserved.keys (by simp [hexact]) n hn
      exact ⟨hparsed, heffect.parsed.trans hparsed, m, hm, hmetrics.trans hsum⟩
  · intro start tr last hstart hrun
    have hinv := hrun.invariant' (fun tr last => last.keys.Nodup ∧
      (activeCount last : Int) ≤ max policy.maxActive (activeCount start) +
          ((tr.map (fun e => e.input.starts e.before)).sum : Nat) ∧
        (∀ e ∈ tr, ValueStepOk policy e.before e.input e.output) ∧
        (PinnedLive start ∨ (∃ e ∈ tr, e.input.isSync = true) → PinnedLive last)) ?_ ?_
    · obtain ⟨_, hcount, hsteps, hpinned⟩ := hinv
      exact ⟨hcount, fun e he => (hsteps e he).admitted, hpinned, fun e he => (hsteps e he).retired,
        fun e he => (hsteps e he).metrics⟩
    · refine ⟨hstart, by simp, by simp, fun hlive => ?_⟩
      rcases hlive with hlive | ⟨e, he, _⟩
      · exact hlive
      · cases he
    · intro tr values op output hinv hstep
      obtain ⟨hnodup, hcount, hsteps, hpinned⟩ := hinv
      have hok := valueStep_ok hnodup hstep
      refine ⟨hok.nodup, ?_, ?_, ?_⟩
      · have hceiling := hok.ceiling
        rw [List.map_append, List.sum_append]
        simp only [List.map_cons, List.map_nil, List.sum_cons, List.sum_nil]
        omega
      · intro e he
        rcases List.mem_append.mp he with he | he
        · exact hsteps e he
        · rw [List.mem_singleton.mp he]
          exact hok
      · intro hlive
        apply hok.pinned
        by_cases hsync : op.isSync = true
        · exact Or.inl hsync
        · refine Or.inr (hpinned ?_)
          rcases hlive with hlive | ⟨e, he, hesync⟩
          · exact Or.inl hlive
          · rcases List.mem_append.mp he with he | he
            · exact Or.inr ⟨e, he, hesync⟩
            · rw [List.mem_singleton.mp he] at hesync
              exact absurd hesync hsync

theorem sampleFold_accepted : sampleStage.fold.Accepted := ⟨by decide, by decide, by decide⟩

theorem bucket_conserved_iff_login : ∃ fact admitted after,
    admitBucket fact [] sampleStage.policy 1 = .ok (admitted, after) ∧
      fact.parsedEvents = some 9 ∧ ∃ untracked, admitted.fact.untrackedEvents = some untracked ∧
        metricsTotal admitted.metrics + untracked = 9 ∧
        (activeCount (retireStale after (seconds 900) sampleStage.policy).1 : Int) ≤ 3 := by
  obtain ⟨grouped, totals, hstate, hrows, hbucket⟩ := loginBucket
  have hparsed : parsedEvents asciiTables grouped.rows = 9 := by
    rw [hrows]
    decide
  obtain ⟨hfacts, hruns⟩ := bucket_conserved_iff asciiTables asciiTables_python sampleStage.fold sampleFold_accepted
    sampleStage.policy
  obtain ⟨fact, admitted, after, hfact, hadmit, hexact⟩ := (hfacts _ _ grouped totals none [] [] []
    (hbucket sampleStage.fold rfl rfl) List.nodup_nil).mpr (by decide)
  have hwhole : fact.valuesMeasurement = .exact := by
    obtain ⟨_, _, _, _, hfolded⟩ := foldBucket_folded hfact
    rw [hfolded.valuesMeasurement, valuesMeasurementOf, hstate]
  obtain ⟨hfactParsed, _, untracked, huntracked, hsum⟩ := hexact hwhole
  rw [hparsed] at hfactParsed hsum
  -- The run: the pins of a watch without pins, the bucket, and the retirement after it.
  have hsync : Run (valueStep sampleStage.policy 1) (fun output => output.values) [] _ _ :=
    Run.nil.snoc (i := .syncPins [] (seconds 300)) rfl
  have hstep : valueStep sampleStage.policy 1 [] (.admitBucket fact) = .ok ⟨after, admitted.metrics, []⟩ :=
    map_eq_ok.mpr ⟨(admitted, after), hadmit, rfl⟩
  have hadmitted := hsync.snoc hstep
  have hretired := hadmitted.snoc (i := .retireStale (seconds 900)) rfl
  obtain ⟨hcount, _⟩ := hruns [] _ _ List.nodup_nil hretired
  exact ⟨fact, admitted, after, hadmit, hfactParsed, untracked, huntracked, hsum, hcount⟩

/-- A width of two characters is accepted by the settings, and no bucket is folded under it. -/
theorem narrow_width_never_folds : ∃ grouped totals, { sampleStage.fold with valueMaxLength := 2 }.Accepted ∧
    DriverBucket asciiTables { sampleStage.fold with valueMaxLength := 2 } (seconds 300)
      [("NORMALIZED", "username")] grouped totals none [] ∧
    foldBucket asciiTables { sampleStage.fold with valueMaxLength := 2 } (seconds 300) grouped totals none [] [] =
      .error (.pwFold "a value is at most 255 characters, and at least 3") := by
  obtain ⟨grouped, totals, _, _, hbucket⟩ := loginBucket
  exact ⟨grouped, totals, ⟨by decide, by decide, by decide⟩, hbucket _ rfl rfl, rfl⟩

end Conservation

/-! ## One (value, detector) -/

section Lifecycle
open Alerts Anomaly

variable {φ : Type}

/-- In every run from a fresh state, with alerting enabled, the detector state, its incident and its alert are coupled,
and every event that names its actor is accepted. -/
theorem pw_pair_coupled {engine : PwAnomalyEngine} {svc : Service} {qradar : QRadarInstance} {value : PwValue}
    {detector : PwAnomalyType} {p₀ p : PwPair φ} {tr : List (PwPairTaken value detector φ)}
    (halerting : engine.alerting = true) (hids : Function.Injective engine.uuid4)
    (halertIds : Function.Injective svc.uuid4) (hfresh : p₀.Fresh engine svc qradar value detector)
    (hrun : Run (pairStep engine svc qradar value detector) id p₀ tr p) :
    -- the state is live exactly when it tracks an incident, one of the pair in the same state, and no other is live
    (p.state.state.active = true ↔ ∃ id, p.state.activeAnomalyId = some id) ∧
    (∀ id, p.state.activeAnomalyId = some id → ∃ i, p.run.incidents.get? id = some i ∧
      OfPair value detector i.row ∧ i.row.state = p.state.state) ∧
    (∀ id i, p.run.incidents.get? id = some i → OfPair value detector i.row → i.row.state.active = true →
      p.state.activeAnomalyId = some id) ∧
    -- a closed incident of the pair is never changed again
    (∀ e ∈ tr, ∀ id i, e.before.run.incidents.get? id = some i → OfPair value detector i.row →
      i.row.state = .resolved ∨ i.row.state = .normal → p.run.incidents.get? id = some i) ∧
    -- the alert is active only while the incident is open, and from the first bucket that pages for it
    (ActiveIn p.alerts (pairFingerprint engine qradar value detector) →
      p.state.state = .opened ∨ p.state.state = .recovering) ∧
    (∀ e ∈ tr, ∀ id, e.Pages id → p.state.activeAnomalyId = some id →
      ActiveIn p.alerts (pairFingerprint engine qradar value detector)) ∧
    (∀ e ∈ tr, e.InMaintenance → e.output.alerts = e.before.alerts) ∧
    (∀ e ∈ tr, e.Processed → e.output = e.before) ∧
    (∀ event : PwPairEvent value detector φ, event.Named engine.digest.toUnicodeTables →
      ∃ p', pairStep engine svc qradar value detector p event = .ok p') := by
  have h := pairRun halerting hids halertIds hfresh hrun
  refine ⟨⟨fun hlive => ?_, fun ⟨id, hid⟩ => ?_⟩, fun id hid => ?_, h.ok.coupled.only, h.frozen, h.ok.paged.paged,
    h.pages, h.maintenance, h.skipped, fun event hnamed => ?_⟩
  · obtain ⟨id, i, hid, -⟩ := h.ok.coupled.live hlive
    exact ⟨id, hid⟩
  · by_contra hidle
    rw [h.ok.coupled.idle (by simpa using hidle)] at hid
    cases hid
  · have hlive : p.state.state.active = true := by
      by_contra hidle
      rw [h.ok.coupled.idle (by simpa using hidle)] at hid
      cases hid
    obtain ⟨id', i, hid', hget, howned, hrow⟩ := h.ok.coupled.live hlive
    cases hid.symm.trans hid'
    exact ⟨i, hget, howned.ofPair, hrow⟩
  · obtain ⟨p', hok, -⟩ := h.ok.step halerting hids halertIds event hnamed
    exact ⟨p', hok⟩

def sampleEngine : PwAnomalyEngine where
  clock n := seconds n
  uuid4 n := String.ofList (List.replicate n 'i')
  digest := { asciiTables with sha256 := fun text => text, lower := List.map Char.toLower }
  pwAlertingEnabled := true
  pwCollectionEnabled := true
  anomalyOpenAfterIntervals := 1
  anomalyResolveAfterIntervals := 1
  anomalyPolicyVersion := 1

theorem sampleEngine_uuid4 : Function.Injective sampleEngine.uuid4 := by
  intro m n h
  simpa [sampleEngine] using congrArg String.length h

def sampleInstance : QRadarInstance := ⟨"qradar", "QRadar"⟩

def rootWatch : PropertyWatchRow where
  id := "watch"
  instanceId := "qradar"
  name := "admins"
  scopeKind := .logSource
  logSourceId := some "source"
  properties := [⟨.normalized, "username"⟩]
  detectors := ["PW_VALUE_SPIKE"]
  enabled := true
  updatedAt := 0

def rootValue : PwValue where
  id := "value"
  watchId := "watch"
  watchVersion := 1
  valueKey := "root"
  valueKey_ne := by decide

def wholeBucket (n : Int) : PwBucketData where
  bucketStart := seconds (300 * n)
  bucketSeconds := 300
  watchVersion := 1
  totalsComplete := false
  valuesMeasurement := .notCollected
  pinnedMeasurement := .notRequested
  totalEvents := none
  parsedEvents := none
  untrackedEvents := none
  values := []
  observedValues := 0
  trackedValuesObserved := 0
  admittedValues := 0
  belowAdmissionThreshold := 0
  rejectedOverQuota := 0
  admissionTruncated := false

theorem wholeBucket_ok (n : Int) : (wholeBucket n).error? = none := by
  rfl

def spikeEvidence (signal : DetectorSignal) : PwEvidence Unit where
  anomalyType := .valueSpike
  signal := signal
  severity := .medium
  observedValue := none
  expectedValue := none
  baselineLow := none
  baselineHigh := none
  deviationScore := none
  threshold := none
  sampleCount := 0
  intervalStart := 0
  intervalEnd := 0
  confidence := ()
  reason := "spike"

def rootBucket (n : Int) (inMaintenance : Bool) (signal : DetectorSignal) : PwPairEvent rootValue .valueSpike Unit :=
  .bucket rootWatch ⟨⟨wholeBucket n, wholeBucket_ok n⟩, inMaintenance⟩ (spikeEvidence signal) (fun _ => none) rfl rfl

def freshPair : PwPair Unit where
  state := { id := "state", watchId := "watch", valueId := "value", detector := .valueSpike, valueVersion := 1 }
  run := { incidents := [] }
  alerts := { alerts := [] }

theorem freshPair_fresh : freshPair.Fresh sampleEngine letters sampleInstance rootValue .valueSpike where
  state := ⟨"state", false, rfl⟩
  dead := fun _ _ h => by cases h
  fresh := fun _ _ => rfl
  alertIds := ⟨by decide, fun _ _ _ h => by cases h⟩
  oneActive := fun _ h => by cases h
  quiet := fun _ h => by cases h

theorem pw_pair_coupled_maintenance : ∃ (tr : List (PwPairTaken rootValue .valueSpike Unit)) (p : PwPair Unit),
    Run (pairStep sampleEngine letters sampleInstance rootValue .valueSpike) id freshPair tr p ∧
      tr.map (fun e => (e.output.state.state, (e.output.alerts.alerts.map (fun a => a.active)))) =
        [(.opened, []), (.opened, [true]), (.opened, [true]), (.resolved, [false])] ∧
      (p.state.state.active = true ↔ ∃ id, p.state.activeAnomalyId = some id) ∧
      (∀ e ∈ tr, e.InMaintenance → e.output.alerts = e.before.alerts) := by
  obtain ⟨tr, p, hrun, hstates⟩ := exists_run_of_replay
    (pairStep sampleEngine letters sampleInstance rootValue .valueSpike) id freshPair
    [rootBucket 0 true .anomalous, rootBucket 1 false .anomalous, rootBucket 2 true .healthy,
      rootBucket 3 false .healthy]
    (fun (r : List (PwPairTaken rootValue .valueSpike Unit) × PwPair Unit) =>
      r.1.map (fun e => (e.output.state.state, (e.output.alerts.alerts.map (fun a => a.active)))))
    [(.opened, []), (.opened, [true]), (.opened, [true]), (.resolved, [false])] (by decide)
  have h := pw_pair_coupled rfl sampleEngine_uuid4 letters_injective freshPair_fresh hrun
  exact ⟨tr, p, hrun, hstates, h.1, h.2.2.2.2.2.2.1⟩

/-- The rounds leave each condition as the actions one by one leave it, with the same transitions. A condition whose
last action opens has an active alert. -/
theorem alert_rounds_keep_order {svc : Service} {s : Session φ} (hinj : Function.Injective svc.uuid4)
    (h : WellFormed svc s) (digest : Digest) (qradar : QRadarInstance) (scopes : String → Option String)
    (actions : List (PwAlertAction φ)) :
    ∃ each s₁ bulk s₂, doEach svc s (actions.map (PwAlertAction.work digest qradar scopes)) = .ok (each, s₁) ∧
      applyActions svc digest qradar scopes s actions = .ok s₁ ∧
      applyAlertActions svc digest qradar scopes s actions = (bulk, s₂) ∧ WellFormed svc s₂ ∧
      (∀ fp, s₂.condition fp bulk = s₁.condition fp each) ∧
      ∀ before item after, actions = before ++ item :: after →
        (∃ data, item.work digest qradar scopes = .openOrUpdate data) →
        (∀ later ∈ after, later.fingerprint digest qradar.id ≠ item.fingerprint digest qradar.id) →
        (s₂.findActive (item.fingerprint digest qradar.id)).isSome := by
  obtain ⟨each, s₁, heach, happly, -⟩ := applyActions_doEach hinj h digest qradar scopes actions
  have hnames : s.Names [] := by simp [Session.Names]
  obtain ⟨each', s', hdo, -, -, hcondition⟩ :=
    doEach_condition hinj h hnames (actions.map (PwAlertAction.work digest qradar scopes))
  obtain ⟨rfl, rfl⟩ := Prod.mk.inj (Except.ok.inj (heach.symm.trans hdo))
  obtain ⟨bulk, s₂, hbulk, hwf, hrounds⟩ := applyAlertActions_condition hinj h digest qradar scopes actions
  refine ⟨each, s₁, bulk, s₂, heach, happly, hbulk, hwf, fun fp => (hrounds fp).trans (hcondition fp).symm, ?_⟩
  rintro before item after rfl ⟨data, hwork⟩ hlater
  have hothers : ∀ w ∈ after.map (PwAlertAction.work digest qradar scopes),
      w.fingerprint ≠ item.fingerprint digest qradar.id := by
    intro w hw
    obtain ⟨later, hmem, rfl⟩ := List.mem_map.mp hw
    exact (work_fingerprint later).trans_ne (hlater later hmem)
  have hactive := congrArg Condition.active (hrounds (item.fingerprint digest qradar.id))
  rw [List.map_append, List.map_cons, List.foldl_append, List.foldl_cons, AlertWork.foldl_on_ne hothers,
    AlertWork.on_eq (work_fingerprint item), hwork] at hactive
  rw [← Option.isSome_map (f := Alert.shown)]
  exact (congrArg Option.isSome hactive).trans (Condition.openOrUpdate_active data _)

def openRoot (n : Int) : PwAlertAction Unit :=
  .openOrUpdate rootWatch "root" none "PW_VALUE_SPIKE" (spikeEvidence .anomalous)
    ⟨⟨wholeBucket n, wholeBucket_ok n⟩, false⟩ "one"

def resolveValue (valueKey : String) : PwAlertAction Unit := .resolve "watch" valueKey "PW_VALUE_SPIKE" "recovered"

def reopening : List (PwAlertAction Unit) := [openRoot 1, resolveValue "root", openRoot 2, resolveValue "guest"]

theorem alert_rounds_keep_order_reopening : ∃ each s₁ bulk s₂,
    doEach letters { alerts := [] } (reopening.map (PwAlertAction.work sampleEngine.digest sampleInstance (fun _ => none))) =
        .ok (each, s₁) ∧
    applyAlertActions letters sampleEngine.digest sampleInstance (fun _ => none) { alerts := [] } reopening = (bulk, s₂) ∧
    (rounds sampleEngine.digest "qradar" reopening).length = 2 ∧ (∀ fp, s₂.condition fp bulk = s₁.condition fp each) ∧
    (s₂.findActive ((openRoot 2).fingerprint sampleEngine.digest "qradar")).isSome := by
  obtain ⟨each, s₁, bulk, s₂, heach, -, hbulk, -, hsame, hlast⟩ := alert_rounds_keep_order letters_injective
    (s := { alerts := [] }) ⟨by decide, by simp, by simp⟩ sampleEngine.digest sampleInstance (fun _ => none)
    reopening
  refine ⟨each, s₁, bulk, s₂, heach, hbulk, by decide, hsame, ?_⟩
  exact hlast [openRoot 1, resolveValue "root"] (openRoot 2) [resolveValue "guest"] rfl ⟨_, rfl⟩ (by decide)

end Lifecycle

section History

open History

variable {φ : Type} [PyFloat φ] {st : PlannerSettings φ}

/-! ## A planned history step is well formed and affordable -/

end History

section Edits

variable {τ : Type} [DecidableEq τ] {φ : Type} [PyFloat φ]

/-! ## Concurrent edits -/

def PatchTaken.Forward (e : PatchTaken τ) (w : PatchWrite) : Prop :=
  ∃ before after, e.before.committed.get? w.request.watchId = some before ∧
    e.output.committed.get? w.request.watchId = some after ∧ before.updatedAt < after.updatedAt

/-- Of concurrent patches, in any order of their statements: the enabled watches stay under both caps. An accepted patch
moves its token forward exactly if the clock has passed the stored one where the row is written again, and then no two
of one watch have named one token. -/
theorem concurrent_patches (u : UnicodeTables) (s : AuthoringSettings φ) {table : WatchTable}
    (hkeys : table.keys.Nodup) {tr : List (PatchTaken τ)} {db : PatchDb τ} (h : PatchRun u s table tr db) :
    ((enabledWatches table).length ≤ s.pwMaxEnabledWatches →
      ∀ e ∈ tr, (enabledWatches e.output.committed).length ≤ s.pwMaxEnabledWatches) ∧
    (∀ inventory, (∀ e ∈ tr, ∀ w, e.accepted = some w → w.request.inventory = inventory) →
      (enabledCostTotal s.toPwSettings inventory table).2 ≤ s.pwMaxSearchesPerTick →
      ∀ e ∈ tr, (enabledCostTotal s.toPwSettings inventory e.output.committed).2 ≤ s.pwMaxSearchesPerTick) ∧
    (∀ e ∈ tr, ∀ w, e.accepted = some w →
      (e.Forward w ↔ (w.WritesAgain → w.loaded.updatedAt < w.request.writtenAt))) ∧
    ((∀ e ∈ tr, e.ClockPassed) → (∀ e ∈ tr, ∀ w, e.accepted = some w → e.Forward w) ∧
      tr.Pairwise (fun e e' => ∀ w w', e.accepted = some w → e'.accepted = some w' →
        w.request.watchId = w'.request.watchId →
          w.request.payload.expectedUpdatedAt ≠ w'.request.payload.expectedUpdatedAt)) := by
  have hreplaces := replaces_run hkeys h
  have hforward : ∀ e ∈ tr, ∀ w, e.accepted = some w →
      (e.Forward w ↔ (w.WritesAgain → w.loaded.updatedAt < w.request.writtenAt)) := by
    intro e he w hw
    obtain ⟨_, hbefore, hafter⟩ := hreplaces e he w hw
    rw [← settled_forward_iff]
    constructor
    · rintro ⟨before, after, hbefore', hafter', hlt⟩
      cases hbefore.symm.trans hbefore'
      cases hafter.symm.trans hafter'
      exact hlt
    · exact fun hlt => ⟨_, _, hbefore, hafter, hlt⟩
  refine ⟨fun hcap e he => ?_, fun inventory hinventory hcap => ?_, hforward, fun hclock => ⟨?_, ?_⟩⟩
  · have hrun := weight_run (weighs_number s) hkeys h (fun _ _ _ _ => trivial) (by simpa using hcap) e he
    simpa using hrun
  · exact weight_run (weighs_cost s inventory) hkeys h hinventory hcap
  · exact fun e he w hw => (hforward e he w hw).mpr (hclock e he w hw)
  · refine (tokens_run hkeys h hclock).2.imp_of_mem (fun {e e'} he he' hlt w w' hw hw' hid => ?_)
    rw [(hreplaces e he w hw).token, (hreplaces e' he' w' hw').token]
    exact (hlt w w' hw hw' hid).ne

def oneSlot : AuthoringSettings ℚ where
  pwMaxEnabledWatches := 1
  sources_pos := by decide
  chunks_pos := defaultChunks_pos
  admission_pos := defaultAdmission_pos

def restingWatch (id : String) : PropertyWatchRow where
  id := id
  instanceId := "qradar"
  name := id
  scopeKind := .logSource
  logSourceId := some "source"
  properties := [⟨.normalized, "username"⟩]
  detectors := ["PW_VALUE_SPIKE"]
  collectedThrough := some 0
  lastStatus := some .disabled
  updatedAt := 100

def restingWatches : WatchTable := [("logins", restingWatch "logins"), ("hosts", restingWatch "hosts")]

def noInventory : Inventory := ⟨fun _ => none, fun _ _ => none, fun _ _ => none⟩

def enableAt (id : String) (now writtenAt : Int) : PatchRequest where
  watchId := id
  payload := { expectedUpdatedAt := 100, enabled := some (some true) }
  subject := "ana"
  now := now
  writtenAt := writtenAt
  inventory := noInventory

theorem concurrent_patches_oneSlot : ∃ (tr : List (PatchTaken Bool)) (db : PatchDb Bool),
    PatchRun asciiTables oneSlot restingWatches tr db ∧
    tr.filterMap (fun e => e.accepted.map (fun w => (w.request.watchId, w.settled.updatedAt))) = [("logins", 201)] ∧
    ∀ e ∈ tr, (enabledWatches e.output.committed).length ≤ 1 := by
  obtain ⟨tr, db, h, hv⟩ := exists_run_of_replay
    (fun (db : PatchDb Bool) (move : Move Bool PatchRequest) =>
      db.step lockable enterPatch (patchNext asciiTables oneSlot) move) (fun db => db) (Db.quiet restingWatches)
    [.start true (enableAt "logins" 200 201), .start false (enableAt "hosts" 200 201), .advance true, .advance false,
      .advance true, .advance true, .advance true, .advance true, .advance false, .advance false, .advance false,
      .advance false]
    (fun r => r.1.filterMap (fun e => (PatchTaken.accepted e).map (fun w => (w.request.watchId, w.settled.updatedAt))))
    [("logins", 201)] (by decide)
  exact ⟨tr, db, h, hv, (concurrent_patches asciiTables oneSlot (by decide) h).1 (by decide)⟩

def describeAt (id : String) (text : String) (now : Int) : PatchRequest where
  watchId := id
  payload := { expectedUpdatedAt := 100, description := some (some text) }
  subject := "ben"
  now := now
  writtenAt := now
  inventory := noInventory

/-- The second UPDATE writes the stored token again, and another patch that names it is accepted. -/
theorem token_accepted_twice : ∃ (tr : List (PatchTaken Bool)) (db : PatchDb Bool),
    PatchRun asciiTables oneSlot restingWatches tr db ∧
    tr.filterMap (fun e => e.accepted.map (fun w => (w.request.watchId, w.request.payload.expectedUpdatedAt,
      (e.before.committed.get? w.request.watchId).map PropertyWatchRow.updatedAt,
      (e.output.committed.get? w.request.watchId).map PropertyWatchRow.updatedAt))) =
      [("logins", 100, some 100, some 100), ("logins", 100, some 100, some 101)] := by
  obtain ⟨tr, db, h, hv⟩ := exists_run_of_replay
    (fun (db : PatchDb Bool) (move : Move Bool PatchRequest) =>
      db.step lockable enterPatch (patchNext asciiTables oneSlot) move) (fun db => db) (Db.quiet restingWatches)
    [.start true (enableAt "logins" 100 100), .advance true, .advance true, .advance true, .advance true, .advance true,
      .start false (describeAt "logins" "who logs in" 100), .advance false, .advance false, .advance false]
    (fun r => r.1.filterMap (fun e => (PatchTaken.accepted e).map (fun w =>
      (w.request.watchId, w.request.payload.expectedUpdatedAt,
        (e.before.committed.get? w.request.watchId).map PropertyWatchRow.updatedAt,
        (e.output.committed.get? w.request.watchId).map PropertyWatchRow.updatedAt))))
    [("logins", 100, some 100, some 100), ("logins", 100, some 100, some 101)] (by decide)
  exact ⟨tr, db, h, hv⟩

end Edits

/-! ## The scope -/

section Scope

/-- The walk meets each group that can be reached, once; a scope that resolves holds the sources of these groups, in
chunks within the limits; a bucket is flagged exactly if a change of the fingerprint is at most the grace before it. -/
theorem group_scope_complete (sha256 : String → String) (args : ScopeArgs) (groupId : Int)
    (hgroup : args.groupId = some groupId) :
    ((groupAndDescendants groupId args.groups).Nodup ∧
      ∀ g, g ∈ groupAndDescendants groupId args.groups ↔ Relation.ReflTransGen (ChildOf args.groups) groupId g) ∧
    (∀ scope, resolveScope sha256 .logSourceGroup args = .ok scope → scope.status = none →
      GroupResolved sha256 args groupId scope) ∧
    ∀ (grace : Nat) (ticks : List ScopeTick), ∃ stored, ticks.foldlM (flagTick grace) [] = .ok stored ∧
      stored.reverse.map ScopeRecord.fingerprint =
        ticks.flatMap (fun tick => List.replicate tick.buckets tick.fingerprint) ∧
      ∀ i record, stored.reverse[i]? = some record → (record.scopeChanged = true ↔
        ∃ j ≤ i, i - j ≤ grace ∧ ChangedAt (stored.reverse.map ScopeRecord.fingerprint) j) := by
  refine ⟨groupAndDescendants_spec groupId args.groups, fun scope h hstatus => resolveScope_group hgroup h hstatus,
    fun grace ticks => ?_⟩
  obtain ⟨stored, hrun, hflagged, hfps⟩ := flagTicks_flaggedAsDue ticks (show FlaggedAsDue grace [] from trivial)
  refine ⟨stored, hrun, ?_, fun i record hrecord => ?_⟩
  · rw [List.map_reverse, hfps, List.map_nil, List.append_nil, List.reverse_reverse]
  · have hi : i < (stored.reverse.map ScopeRecord.fingerprint).length := by
      rw [List.length_map]
      exact (List.getElem?_eq_some_iff.mp hrecord).1
    rw [flaggedAsDue_get hflagged hrecord, due_take_iff hi]

def cyclicScope : ScopeArgs where
  groupId := some 1
  groups := [(0, ⟨0, some 1, 0⟩), (1, ⟨1, some 0, 0⟩)]
  sources := [⟨"a", 12, none, [0], false, none⟩, ⟨"b", 7, none, [1, 5], false, none⟩]
  now := 0
  staleAfter := 3600000000
  maxSources := 1
  maxChunks := 2

theorem group_scope_complete_cyclic : (groupAndDescendants 1 cyclicScope.groups).Nodup ∧
    ∃ stored, [⟨some "a", 2⟩, ⟨some "b", 1⟩, ⟨some "a", 1⟩, ⟨some "a", 3⟩].foldlM (flagTick 1) [] = .ok stored ∧
      stored.reverse.map ScopeRecord.scopeChanged = [false, false, true, true, true, false, false] := by
  have h := group_scope_complete (fun text => text) cyclicScope 1 rfl
  obtain ⟨⟨hnodup, -⟩, -, hticks⟩ := h
  obtain ⟨stored, hrun, -⟩ := hticks 1 [⟨some "a", 2⟩, ⟨some "b", 1⟩, ⟨some "a", 1⟩, ⟨some "a", 3⟩]
  refine ⟨hnodup, stored, hrun, ?_⟩
  have heval : [⟨some "a", 2⟩, ⟨some "b", 1⟩, ⟨some "a", 1⟩, ⟨some "a", 3⟩].foldlM (flagTick 1) [] =
      .ok [⟨some "a", false⟩, ⟨some "a", false⟩, ⟨some "a", true⟩, ⟨some "a", true⟩, ⟨some "b", true⟩,
        ⟨some "a", false⟩, ⟨some "a", false⟩] := by decide
  rw [heval] at hrun
  cases hrun
  rfl

end Scope

end QRadarDashboard.PropertyWatch
