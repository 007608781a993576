import QRadarDashboard.Collectors.Lemmas.BucketedMetrics
import QRadarDashboard.PropertyWatch.Lemmas.Collect
import QRadarDashboard.PropertyWatch.Lemmas.Query

/-!
# What the driver can return
-/

namespace QRadarDashboard.PropertyWatch
open Lib Collectors

variable {u : UnicodeTables}

/-! ## The inputs of a search -/

structure ValidPlan (u : UnicodeTables) (plan : PwSearchPlan) (spec : PwQuerySpec) : Prop where
  search : spec.search = plan.search
  properties : spec.properties.length = plan.properties.length
  few : plan.properties.length ≤ maxProperties
  named : plan.search ≠ .totals → plan.properties ≠ []
  pins : plan.search = .pinned → plan.pinned ≠ []
  pinned : ∀ entry ∈ plan.pinned, entry.length = plan.properties.length ∧
    ∀ value ∈ entry, ∃ checked, validatePinnedValue u value = .ok checked

theorem validPlan_of_ok {plan maxSources spec}
    (h : validateQueryInputs u plan maxSources = .ok spec) : ValidPlan u plan spec := by
  have haccepted := validateQueryInputs_ok h
  have hlength := length_of_mapM haccepted.references
  refine ⟨haccepted.search, hlength, haccepted.few, fun hsearch hnil => ?_, fun hsearch => (haccepted.pins hsearch).1,
    fun entry hentry => ?_⟩
  · rw [hnil, List.length_nil, List.length_eq_zero_iff] at hlength
    exact haccepted.named hsearch hlength
  · obtain ⟨hcount, checked, hchecked⟩ := haccepted.checked entry hentry
    exact ⟨hcount.trans hlength, exists_ok_of_mapM hchecked⟩

/-! ## The cells of a search -/

structure Foldable (search : PwSearchKind) (propertyCount : Nat) (o : PwBucketOutcome) : Prop where
  search_eq : o.search = search
  bucket : ∀ row ∈ o.rows, row.bucketStart = o.bucketStart
  arity : ∀ row ∈ o.rows, row.values.length = propertyCount
  counts : ∀ row ∈ o.rows, 0 ≤ row.events

namespace SearchArgs

variable {a : SearchArgs}

def CellsFoldable (a : SearchArgs) (st : SearchState) : Prop :=
  ∀ item ∈ st.cells, Foldable a.spec.search (propertyCount a.spec) item.2

theorem cellsFoldable_emit {first count state rows} {h : state.measured = false → rows = []} {provenance st}
    (hst : CellsFoldable a st) (hrows : ∀ row ∈ rows, row.values.length = propertyCount a.spec ∧ 0 ≤ row.events) :
    CellsFoldable a (a.emit first count state rows h provenance st) := by
  have hcell : ∀ index, Foldable a.spec.search (propertyCount a.spec) (a.cell state rows h provenance index) := by
    intro index
    refine ⟨rfl, ?_, ?_, ?_⟩
    · intro row hrow
      exact of_decide_eq_true (List.mem_filter.mp hrow).2
    · intro row hrow
      exact (hrows row (List.mem_filter.mp hrow).1).1
    · intro row hrow
      exact (hrows row (List.mem_filter.mp hrow).1).2
  have hfold : ∀ (indices : List Nat) (cells : Dict Int PwBucketOutcome),
      (∀ item ∈ cells, Foldable a.spec.search (propertyCount a.spec) item.2) →
      ∀ item ∈ indices.foldl
          (fun cells index => cells.set (a.bucketAt index) (a.cell state rows h provenance index)) cells,
        Foldable a.spec.search (propertyCount a.spec) item.2 := by
    intro indices
    induction indices with
    | nil => exact fun _ hcells => hcells
    | cons index indices ih =>
      intro cells hcells
      refine ih _ (fun item hitem => ?_)
      rcases Dict.mem_set hitem with hitem | rfl
      · exact hcells item hitem
      · exact hcell index
  exact hfold _ _ hst

theorem cellsFoldable_search (hprovider : a.provider.Counts) (first count depth : Nat) {st}
    (hst : CellsFoldable a st) : CellsFoldable a (a.search first count depth st) := by
  induction count using Nat.strongRecOn generalizing first depth st with
  | ind count ih =>
    rw [search]
    cases htake : st.budget.tryTake a.watch with
    | none => exact cellsFoldable_emit hst (fun row hrow => by cases hrow)
    | some budget =>
      have hask : CellsFoldable a (a.ask first count budget st) := hst
      simp only
      cases hanswer : a.provider st.calls.length (a.request first count) with
      | none => exact cellsFoldable_emit hask (fun row hrow => by cases hrow)
      | some result =>
        simp only
        by_cases hcontained : contained (a.request first count) (propertyCount a.spec) result = true
        · have hrows : ∀ row ∈ result.rows, row.values.length = propertyCount a.spec ∧ 0 ≤ row.events := by
            intro row hrow
            refine ⟨?_, hprovider _ _ _ hanswer row hrow⟩
            simp only [contained, Bool.and_eq_true, List.all_eq_true, decide_eq_true_eq] at hcontained
            exact (hcontained.2 row hrow).2
          by_cases htruncated : result.truncated = true
          · by_cases hmany : 1 < count
            · simp only [hcontained, htruncated, hmany, not_true_eq_false, if_false, if_true]
              exact ih (count - count / 2) (by omega) _ _ (ih (count / 2) (by omega) _ _ hask)
            · simp only [hcontained, htruncated, hmany, not_true_eq_false, if_false]
              exact cellsFoldable_emit hask hrows
          · simp only [hcontained, htruncated, not_true_eq_false, if_false]
            exact cellsFoldable_emit hask hrows
        · simp only [hcontained]
          exact cellsFoldable_emit hask (fun row hrow => by cases hrow)

end SearchArgs

def rowArity (search : PwSearchKind) (properties : List (String × String)) : Nat :=
  match search with
  | .totals => 0
  | .grouped => properties.length
  | .pinned => properties.length

variable {search : PwSearchKind} {properties : List (String × String)} {pinned : List (List String)}
  {bucketSeconds : Int}

structure SoundCall (u : UnicodeTables) (search : PwSearchKind) (properties : List (String × String))
    (pinned : List (List String)) (bucketSeconds : Int) (outcomes : List PwBucketOutcome) : Prop where
  width : 0 < bucketSeconds
  few : properties.length ≤ maxProperties
  named : search ≠ .totals → properties ≠ []
  pins : search = .pinned → pinned ≠ []
  pinned : ∀ entry ∈ pinned, entry.length = properties.length ∧
    ∀ value ∈ entry, ∃ checked, validatePinnedValue u value = .ok checked
  cells : ∀ o ∈ outcomes, Foldable search (rowArity search properties) o

theorem DriverCall.sound {outcomes} (h : DriverCall u search properties pinned bucketSeconds outcomes) :
    SoundCall u search properties pinned bucketSeconds outcomes := by
  obtain ⟨provider, plan, window, maxRows, budget, maxSources, watch, report, hprovider, rfl, rfl, rfl, hrun, rfl⟩ := h
  unfold runSearch at hrun
  obtain ⟨⟨start, stop⟩, hwindow, hrun⟩ := bind_ok hrun
  obtain ⟨_, _, hwidth, _, _⟩ := exists_count_of_validate hwindow
  dsimp only at hrun
  split at hrun
  · cases hrun
  · obtain ⟨spec, hspec, hrun⟩ := bind_ok hrun
    cases hrun
    have hplan := validPlan_of_ok hspec
    refine ⟨hwidth, hplan.few, hplan.named, hplan.pins, hplan.pinned, ?_⟩
    intro o ho
    obtain ⟨item, hitem, rfl⟩ := List.mem_map.mp ho
    have hempty : SearchArgs.CellsFoldable ⟨provider, spec, start, bucketSeconds, maxRows, watch⟩
        ⟨budget, [], []⟩ := fun item hitem => by cases hitem
    have hcell := SearchArgs.cellsFoldable_search hprovider 0 _ 0 hempty item (mem_sortOn.mp hitem)
    have harity : propertyCount spec = rowArity plan.search plan.properties := by
      cases hkind : plan.search <;> simp [propertyCount, rowArity, hplan.search, hplan.properties, hkind]
    simp only [hplan.search, harity] at hcell
    exact hcell

/-! ## The chunks of a scope -/

theorem foldable_of_combine {chunks outcomes n} (h : combineChunks chunks = .ok outcomes)
    (hchunks : ∀ chunk ∈ chunks, ∀ o ∈ chunk, Foldable search n o) {o} (ho : o ∈ outcomes) : Foldable search n o := by
  unfold combineChunks at h
  cases chunks with
  | nil => cases h
  | cons first rest =>
    simp only at h
    split at h
    · cases h
    · rename_i hsame
      cases h
      obtain ⟨index, hindex⟩ := List.mem_iff_getElem?.mp ho
      rw [List.getElem?_mapIdx, Option.map_eq_some_iff] at hindex
      obtain ⟨lead, hlead, rfl⟩ := hindex
      have hrow : ∀ row ∈ (combineCells lead ((first :: rest).filterMap (fun chunk => chunk[index]?))).rows,
          ∃ cell : PwBucketOutcome, Foldable search n cell ∧ cell.bucketStart = lead.bucketStart ∧ row ∈ cell.rows := by
        intro row hrow
        simp only [combineCells] at hrow
        split at hrow
        · obtain ⟨cell, hcell, hrow⟩ := List.mem_flatMap.mp hrow
          obtain ⟨chunk, hchunk, hget⟩ := List.mem_filterMap.mp hcell
          refine ⟨cell, hchunks chunk hchunk cell (List.mem_of_getElem? hget), ?_, hrow⟩
          rcases List.mem_cons.mp hchunk with rfl | hrest
          · rw [hlead, Option.some.injEq] at hget
            rw [hget]
          · -- Every chunk lists the buckets of the first one.
            have hkeys : chunk.map (fun o => (o.search, o.bucketStart)) = first.map (fun o => (o.search, o.bucketStart)) := by
              by_contra hne
              exact hsame (List.any_eq_true.mpr ⟨chunk, hrest, decide_eq_true hne⟩)
            have hat := congrArg (fun keys => keys[index]?) hkeys
            simp only [List.getElem?_map, hget, hlead, Option.map_some, Option.some.injEq, Prod.mk.injEq] at hat
            exact hat.2
        · cases hrow
      refine ⟨(hchunks first List.mem_cons_self lead (List.mem_of_getElem? hlead)).search_eq, ?_, ?_, ?_⟩
      · intro row hr
        obtain ⟨cell, hcell, hbucket, hmem⟩ := hrow row hr
        exact (hcell.bucket row hmem).trans hbucket
      · intro row hr
        obtain ⟨cell, hcell, _, hmem⟩ := hrow row hr
        exact hcell.arity row hmem
      · intro row hr
        obtain ⟨cell, hcell, _, hmem⟩ := hrow row hr
        exact hcell.counts row hmem

theorem DriverOutcome.sound {o} (h : DriverOutcome u search properties pinned bucketSeconds o) :
    Foldable search (rowArity search properties) o ∧
      ∃ outcomes, SoundCall u search properties pinned bucketSeconds outcomes := by
  cases h with
  | searched h ho => exact ⟨h.sound.cells o ho, _, h.sound⟩
  | @combined chunks outcomes _ hchunks h ho =>
    refine ⟨foldable_of_combine h (fun chunk hchunk => (hchunks chunk hchunk).sound.cells) ho, ?_⟩
    cases chunks with
    | nil => cases h
    | cons first rest => exact ⟨first, (hchunks first List.mem_cons_self).sound⟩

end QRadarDashboard.PropertyWatch
