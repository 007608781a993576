import QRadarDashboard.History.Lemmas.Scan
import QRadarDashboard.History.PhaseAFold
import QRadarDashboard.Lib.PyText

/-!
# What a Phase A fold depends on
-/

namespace QRadarDashboard.History
open Lib

variable {φ : Type} [PyFloat φ]

/-! ## Floors -/

namespace SourceFloors

/-- The first bucket of a source, if it is no later than `start`. -/
def known (floors : SourceFloors) (source : String) (start : Int) : Option Int :=
  (floors.firstBuckets.get? source).filter (fun first => first ≤ start)

structure Sound (readStart bucketSeconds : Int) (row : String × Int) : Prop where
  key : row.1 ≠ ""
  aligned : seconds bucketSeconds ∣ row.2
  started : readStart ≤ row.2

variable {readStart bucketSeconds : Int}

theorem observeRow_sound {row} (h : Sound readStart bucketSeconds row) (floors : SourceFloors) :
    ∃ floors', floors.observeRow readStart bucketSeconds row.1 row.2 = .ok floors' ∧
      ∀ source, floors'.firstBuckets.get? source =
        if source = row.1 then some ((floors.firstBuckets.get? source).elim row.2 (min row.2))
        else floors.firstBuckets.get? source := by
  obtain ⟨hkey, ⟨n, hn⟩, hstarted⟩ := h
  have haligned : ¬ (row.2 % 1000000 ≠ 0 ∨ row.2 / 1000000 % bucketSeconds ≠ 0) := by
    have hmicro : row.2 = 1000000 * (bucketSeconds * n) := by rw [hn, seconds]; ring
    rw [hmicro, Int.mul_emod_right, Int.mul_ediv_cancel_left _ (by decide), Int.mul_emod_right]
    simp
  simp only [observeRow, hkey, dif_neg, not_false_iff, haligned, if_false, not_lt.mpr hstarted]
  cases hfirst : floors.firstBuckets.get? row.1 with
  | none =>
    refine ⟨_, rfl, fun source => ?_⟩
    by_cases hsource : source = row.1
    · simp [put, Dict.get?_set, hsource, hfirst]
    · simp [put, Dict.get?_set, hsource]
  | some earliest =>
    refine ⟨_, rfl, fun source => ?_⟩
    by_cases hsource : source = row.1
    · by_cases hlt : row.2 < earliest
      · simp [put, Dict.get?_set, hsource, hfirst, hlt, min_eq_left hlt.le]
      · simp [hsource, hfirst, hlt, min_eq_right (not_lt.mp hlt)]
    · by_cases hlt : row.2 < earliest
      · simp [put, Dict.get?_set, hsource, hlt]
      · simp [hsource, hlt]

theorem observeRows_append (a b : List (String × Int)) (floors : SourceFloors) :
    observeRows readStart bucketSeconds (a ++ b) floors =
      observeRows readStart bucketSeconds a floors >>= observeRows readStart bucketSeconds b := by
  induction a generalizing floors with
  | nil => rfl
  | cons row a ih =>
    simp only [List.cons_append, observeRows]
    cases hrow : floors.observeRow readStart bucketSeconds row.1 row.2 with
    | error e => rfl
    | ok floors' => exact ih floors'

theorem observeRows_sound {rows} (h : ∀ row ∈ rows, Sound readStart bucketSeconds row)
    (floors : SourceFloors) : ∃ floors', observeRows readStart bucketSeconds rows floors = .ok floors' := by
  induction rows generalizing floors with
  | nil => exact ⟨floors, rfl⟩
  | cons row rows ih =>
    obtain ⟨floors₁, hrow, _⟩ := observeRow_sound (h row (by simp)) floors
    obtain ⟨floors', hrest⟩ := ih (fun r hr => h r (List.mem_cons_of_mem _ hr)) floors₁
    exact ⟨floors', by simp only [observeRows, hrow]; exact hrest⟩

theorem observeRows_keeps {rows} (h : ∀ row ∈ rows, Sound readStart bucketSeconds row) {P : SourceFloors → Prop}
    (hstep : ∀ row ∈ rows, ∀ floors floors' : SourceFloors, P floors → (∀ source, floors'.firstBuckets.get? source =
        if source = row.1 then some ((floors.firstBuckets.get? source).elim row.2 (min row.2))
        else floors.firstBuckets.get? source) → P floors') {floors floors'} (hP : P floors)
    (hrows : observeRows readStart bucketSeconds rows floors = .ok floors') : P floors' := by
  induction rows generalizing floors with
  | nil =>
    cases hrows
    exact hP
  | cons row rows ih =>
    obtain ⟨floors₁, hrow, hspec⟩ := observeRow_sound (h row (by simp)) floors
    simp only [observeRows, hrow] at hrows
    exact ih (fun r hr => h r (List.mem_cons_of_mem _ hr)) (fun r hr => hstep r (List.mem_cons_of_mem _ hr))
      (hstep row (by simp) _ _ hP hspec) hrows

theorem known_of_later {rows} (h : ∀ row ∈ rows, Sound readStart bucketSeconds row)
    (start : Int) (hlater : ∀ row ∈ rows, start < row.2) {floors floors'}
    (hrows : observeRows readStart bucketSeconds rows floors = .ok floors') (source : String) :
    floors'.known source start = floors.known source start := by
  refine observeRows_keeps h (P := fun f => f.known source start = floors.known source start) ?_ rfl hrows
  intro row hrow floors₁ floors₂ hkept hspec
  rw [← hkept, known, known, hspec]
  have hlt := hlater row hrow
  by_cases hsource : source = row.1
  · simp only [hsource, if_true]
    cases hfirst : floors₁.firstBuckets.get? row.1 with
    | none => simp [Option.filter, not_le.mpr hlt]
    | some first =>
      by_cases hle : first ≤ start
      · have hmin : min row.2 first = first := min_eq_right (by omega)
        simp [Option.filter, hle, hmin]
      · have hmin : ¬ min row.2 first ≤ start := by omega
        simp [Option.filter, hle, hmin]
  · simp [hsource]

theorem get?_of_other {rows} (h : ∀ row ∈ rows, Sound readStart bucketSeconds row)
    {source} (hother : ∀ row ∈ rows, row.1 ≠ source) {floors floors'}
    (hrows : observeRows readStart bucketSeconds rows floors = .ok floors') :
    floors'.firstBuckets.get? source = floors.firstBuckets.get? source := by
  refine observeRows_keeps h (P := fun f => f.firstBuckets.get? source = floors.firstBuckets.get? source) ?_ rfl hrows
  intro row hrow floors₁ floors₂ hkept hspec
  rw [hspec, if_neg (Ne.symm (hother row hrow)), hkept]

theorem get?_of_bucket {bucket source rows}
    (h : ∀ row ∈ rows, Sound readStart bucketSeconds row) (hbucket : ∀ row ∈ rows, row.2 = bucket)
    {floors floors'} (hbefore : ∀ first ∈ floors.firstBuckets.get? source, first = bucket)
    (hseen : floors.firstBuckets.get? source = some bucket ∨ ∃ row ∈ rows, row.1 = source)
    (hrows : observeRows readStart bucketSeconds rows floors = .ok floors') :
    floors'.firstBuckets.get? source = some bucket := by
  induction rows generalizing floors with
  | nil =>
    cases hrows
    simpa using hseen
  | cons row rows ih =>
    obtain ⟨floors₁, hrow, hspec⟩ := observeRow_sound (h row (by simp)) floors
    simp only [observeRows, hrow] at hrows
    have hvalue := hbucket row (by simp)
    have hget := hspec source
    by_cases hsource : source = row.1
    · have hnow : floors₁.firstBuckets.get? source = some bucket := by
        rw [hget, if_pos hsource]
        cases hfirst : floors.firstBuckets.get? source with
        | none => simp [hvalue]
        | some first => simp [hvalue, hbefore first hfirst]
      exact ih (fun r hr => h r (List.mem_cons_of_mem _ hr)) (fun r hr => hbucket r (List.mem_cons_of_mem _ hr))
        (by simp [hnow]) (Or.inl hnow) hrows
    · rw [if_neg hsource] at hget
      refine ih (fun r hr => h r (List.mem_cons_of_mem _ hr)) (fun r hr => hbucket r (List.mem_cons_of_mem _ hr))
        (hget ▸ hbefore) ?_ hrows
      rw [hget]
      refine hseen.imp_right (fun hexists => ?_)
      obtain ⟨r, hr, hkey⟩ := hexists
      rcases List.mem_cons.mp hr with rfl | hr
      · exact absurd hkey.symm hsource
      · exact ⟨r, hr, hkey⟩

end SourceFloors

/-! ## The rows of a bucket -/

namespace PhaseA

theorem sourceKey_ne_empty (qradarId : Int) : sourceKey qradarId ≠ "" := intRepr_ne_empty qradarId

theorem sourceKey_inj {a b} : sourceKey a = sourceKey b ↔ a = b := ⟨intRepr_injective, fun h => by rw [h]⟩

variable {args : FoldArgs φ} {floors floors' : SourceFloors} {start : Int}

def floorAt (args : FoldArgs φ) (floors : SourceFloors) (start qradarId : Int) : Option Int :=
  (floors.floor (sourceKey qradarId) args.targetStart args.settings.margin).filter (fun floor => floor ≤ start)

theorem floorAt_of_known {qradarId}
    (h : floors'.known (sourceKey qradarId) start = floors.known (sourceKey qradarId) start) :
    floorAt args floors' start qradarId = floorAt args floors start qradarId := by
  have hmargin := margin_nonneg args.settings
  have hknown : ∀ f : SourceFloors, floorAt args f start qradarId =
      ((f.known (sourceKey qradarId) start).map (fun first => max args.targetStart (first + args.settings.margin))).filter
        (fun floor => floor ≤ start) := by
    intro f
    rw [floorAt, SourceFloors.floor, SourceFloors.known]
    cases f.firstBuckets.get? (sourceKey qradarId) with
    | none => rfl
    | some first =>
      by_cases hle : first ≤ start
      · simp [Option.filter, hle]
      · have hpast : ¬ max args.targetStart (first + args.settings.margin) ≤ start := by omega
        simp only [Option.map_some, Option.filter, hle, hpast, decide_false, Bool.false_eq_true, if_false,
          Option.map_none]
  rw [hknown floors', hknown floors, h]

theorem get?_floorOf {qradarId id} (h : args.monitored.ids.get? qradarId = some id) :
    (floorOf args floors).get? qradarId = floors.floor (sourceKey qradarId) args.targetStart args.settings.margin := by
  have hmem : qradarId ∈ args.monitored.ids.keys := List.mem_map_of_mem (Dict.mem_of_get? h)
  have hget := Dict.get?_filterMap_keys args.monitored.ids
    (fun q => floors.floor (sourceKey q) args.targetStart args.settings.margin) qradarId
  rw [if_pos hmem] at hget
  exact hget

variable (args floors start)

theorem reportedRows_eq (completed : CollectedBucket φ) : reportedRows args floors start completed =
    completed.samples.filterMap (fun sample =>
      match floorAt args floors start sample.qradarId, args.monitored.ids.get? sample.qradarId with
      | some floor, some id => some (sample.qradarId, sampleRow args start completed id floor sample)
      | _, _ => none) := by
  refine List.filterMap_congr (fun sample _ => ?_)
  cases hid : args.monitored.ids.get? sample.qradarId with
  | none => cases (floorOf args floors).get? sample.qradarId <;> cases floorAt args floors start sample.qradarId <;> rfl
  | some id =>
    rw [get?_floorOf hid, floorAt]
    cases floors.floor (sourceKey sample.qradarId) args.targetStart args.settings.margin with
    | none => rfl
    | some floor =>
      by_cases hle : floor ≤ start
      · simp [Option.filter, hle, not_lt.mpr hle]
      · simp [Option.filter, hle, not_le.mp hle]

theorem zeroRows_eq (completed : CollectedBucket φ) (reported : List Int) :
    zeroRows args floors start completed reported = args.monitored.ids.filterMap (fun item =>
      match floorAt args floors start item.1 with
      | some floor => if item.1 ∈ reported then none else some (zeroRow args start completed item.2 floor)
      | none => none) := by
  rw [zeroRows, floorOf, List.filterMap_filterMap]
  refine List.filterMap_congr (fun item hitem => ?_)
  have hid : args.monitored.ids.get? item.1 = some item.2 :=
    (Dict.get?_eq_some_iff args.monitored.qradarIds_nodup).mpr hitem
  rw [floorAt]
  cases floors.floor (sourceKey item.1) args.targetStart args.settings.margin with
  | none => rfl
  | some floor =>
    by_cases hle : floor ≤ start
    · simp [Option.filter, hle, not_lt.mpr hle, hid]
    · simp [Option.filter, hle, not_le.mp hle, hid]

variable {args floors start}

theorem bucketRows_congr (h : ∀ source, floors'.known source start = floors.known source start)
    (completed : CollectedBucket φ) :
    bucketRows args floors' start completed = bucketRows args floors start completed := by
  have hfloor : floorAt args floors' start = floorAt args floors start :=
    funext (fun qradarId => floorAt_of_known (h (sourceKey qradarId)))
  have hreported : reportedRows args floors' start completed = reportedRows args floors start completed := by
    rw [reportedRows_eq, reportedRows_eq, hfloor]
  simp only [bucketRows, hreported, zeroRows_eq, hfloor]

/-! ## Steps one after the other -/

/-- Completed buckets in time order, on the grid, none before the start of the read. -/
structure Ascending (args : FoldArgs φ) (items : List (Int × CollectedBucket φ)) : Prop where
  increasing : items.Pairwise (fun a b => a.1 < b.1)
  aligned : ∀ item ∈ items, args.settings.bucket ∣ item.1
  started : ∀ item ∈ items, args.readStart ≤ item.1

variable {items later : List (Int × CollectedBucket φ)}

theorem Ascending.left (h : Ascending args (items ++ later)) : Ascending args items :=
  ⟨(List.pairwise_append.mp h.increasing).1, fun item hitem => h.aligned item (List.mem_append_left _ hitem),
    fun item hitem => h.started item (List.mem_append_left _ hitem)⟩

theorem Ascending.right (h : Ascending args (items ++ later)) : Ascending args later :=
  ⟨(List.pairwise_append.mp h.increasing).2.1, fun item hitem => h.aligned item (List.mem_append_right _ hitem),
    fun item hitem => h.started item (List.mem_append_right _ hitem)⟩

theorem mem_observed {row} (h : row ∈ observed args items) :
    ∃ item ∈ items, ∃ sample ∈ item.2.samples, row = (sourceKey sample.qradarId, item.1) := by
  obtain ⟨item, hitem, hrow⟩ := List.mem_flatMap.mp h
  obtain ⟨sample, hsample, rfl⟩ := List.mem_map.mp hrow
  exact ⟨item, hitem, sample, List.mem_of_mem_filter hsample, rfl⟩

theorem Ascending.sound (h : Ascending args items) :
    ∀ row ∈ observed args items, SourceFloors.Sound args.readStart args.settings.bucketSeconds row := by
  intro row hrow
  obtain ⟨item, hitem, sample, _, rfl⟩ := mem_observed hrow
  exact ⟨sourceKey_ne_empty _, h.aligned item hitem, h.started item hitem⟩

theorem foldStep_ok (h : Ascending args items) (floors : SourceFloors) : ∃ floors',
    SourceFloors.observeRows args.readStart args.settings.bucketSeconds (observed args items) floors = .ok floors' ∧
    foldStep args items floors = .ok {
      rows := items.flatMap (fun item => (bucketRows args floors' item.1 item.2).1)
      floors := floors'
      zeroFilled := (items.map (fun item => (bucketRows args floors' item.1 item.2).2)).sum } := by
  obtain ⟨floors', hrows⟩ := SourceFloors.observeRows_sound h.sound floors
  have hsorted : sortOn (fun item : Int × CollectedBucket φ => item.1) items = items :=
    sortOn_eq_self (h.increasing.imp le_of_lt)
  have hobserve : floors.observe (observed args items) args.readStart args.settings.bucketSeconds = .ok floors' := by
    rw [SourceFloors.observe, require_eq_ok (u := ()) |>.mpr args.settings.bucketSeconds_ok.1]
    exact hrows
  refine ⟨floors', hrows, ?_⟩
  simp only [foldStep, hsorted, hobserve]
  simp [bind, Except.bind, pure, Except.pure, List.flatMap_map, Function.comp_def]

theorem foldStep_append (h : Ascending args (items ++ later)) (floors : SourceFloors) :
    ∃ fold rest, foldStep args items floors = .ok fold ∧ foldStep args later fold.floors = .ok rest ∧
      foldStep args (items ++ later) floors =
        .ok ⟨fold.rows ++ rest.rows, rest.floors, fold.zeroFilled + rest.zeroFilled⟩ := by
  obtain ⟨floors₁, hrows₁, hfold₁⟩ := foldStep_ok h.left floors
  obtain ⟨floors₂, hrows₂, hfold₂⟩ := foldStep_ok h.right floors₁
  obtain ⟨floors₃, hrows₃, hfold₃⟩ := foldStep_ok h floors
  have hall : observed args (items ++ later) = observed args items ++ observed args later := by simp [observed]
  obtain rfl : floors₃ = floors₂ := by
    rw [hall, SourceFloors.observeRows_append, hrows₁] at hrows₃
    exact Except.ok.inj (hrows₃.symm.trans hrows₂)
  refine ⟨_, _, hfold₁, hfold₂, ?_⟩
  -- the later rows lie after every bucket of the first step
  have hsame : ∀ item ∈ items, bucketRows args floors₃ item.1 item.2 = bucketRows args floors₁ item.1 item.2 := by
    intro item hitem
    refine bucketRows_congr (SourceFloors.known_of_later h.right.sound _ (fun row hrow => ?_) hrows₂) item.2
    obtain ⟨next, hnext, _, _, rfl⟩ := mem_observed hrow
    exact (List.pairwise_append.mp h.increasing).2.2 item hitem next hnext
  rw [hfold₃, List.flatMap_append, List.map_append, List.sum_append,
    List.flatMap_congr (fun item hitem => congrArg Prod.fst (hsame item hitem)),
    List.map_congr_left (fun item hitem => congrArg Prod.snd (hsame item hitem))]

theorem foldSteps_eq {calls : List (List (Int × CollectedBucket φ))} (h : Ascending args calls.flatten)
    (floors : SourceFloors) : foldSteps args calls floors = foldStep args calls.flatten floors := by
  induction calls generalizing floors with
  | nil =>
    obtain ⟨floors', hrows, hfold⟩ := foldStep_ok h floors
    cases hrows
    rw [hfold]
    rfl
  | cons call calls ih =>
    rw [List.flatten_cons] at h ⊢
    obtain ⟨fold, rest, hfold, hrest, hall⟩ := foldStep_append h floors
    rw [hall, foldSteps, hfold]
    simp only [bind, Except.bind, ih h.right, hrest]
    rfl

/-! ## The rows of one source -/

def firstSeen (items : List (Int × CollectedBucket φ)) (qradarId : Int) : Option Int :=
  (items.find? (fun item => item.2.samples.any (fun sample => sample.qradarId = qradarId))).map (fun item => item.1)

def samplesOf (completed : CollectedBucket φ) (qradarId : Int) : List (LogSourceMetricSample φ) :=
  completed.samples.filter (fun sample => sample.qradarId = qradarId)

/-- What a bucket holds of a source from its floor on: a row for each sample, or one zero-filled row. -/
def sourceRows (args : FoldArgs φ) (start : Int) (completed : CollectedBucket φ) (source : Int × String) (floor : Int) :
    List (MetricRow φ) :=
  match samplesOf completed source.1 with
  | [] => [zeroRow args start completed source.2 floor]
  | samples => samples.map (sampleRow args start completed source.2 floor)

theorem filter_filterMap_of_unique {α β : Type} {g : α → Option β} {p : β → Bool} {l : List α} (hnodup : l.Nodup)
    {a} (ha : a ∈ l) (hself : ∀ y, g a = some y → p y = true)
    (hother : ∀ x ∈ l, x ≠ a → ∀ y, g x = some y → p y = false) : (l.filterMap g).filter p = (g a).toList := by
  induction l with
  | nil => cases ha
  | cons x l ih =>
    obtain ⟨hnot, hrest⟩ := List.nodup_cons.mp hnodup
    have hotherRest : ∀ x ∈ l, x ≠ a → ∀ y, g x = some y → p y = false :=
      fun x hx => hother x (List.mem_cons_of_mem _ hx)
    by_cases hx : x = a
    · subst hx
      have hnil : (l.filterMap g).filter p = [] := by
        refine List.filter_eq_nil_iff.mpr (fun y hy => ?_)
        obtain ⟨z, hz, hgz⟩ := List.mem_filterMap.mp hy
        simp [hotherRest z hz (fun h => hnot (h ▸ hz)) y hgz]
      cases hg : g x with
      | none => rw [List.filterMap_cons_none hg, hnil]; rfl
      | some y => rw [List.filterMap_cons_some hg, List.filter_cons_of_pos (hself y hg), hnil]; rfl
    · have ha' : a ∈ l := (List.mem_cons.mp ha).resolve_left (Ne.symm hx)
      cases hg : g x with
      | none => rw [List.filterMap_cons_none hg, ih hrest ha' hotherRest]
      | some y =>
        have hfalse := hother x (by simp) hx y hg
        rw [List.filterMap_cons_some hg, List.filter_cons_of_neg (by simp [hfalse]), ih hrest ha' hotherRest]

theorem filter_flatMap_of_key {α β : Type} {g : Int × α → List β} {key : β → Int} {p : β → Bool} {l : List (Int × α)}
    (hl : l.Pairwise (fun a b => a.1 < b.1)) (hkey : ∀ item ∈ l, ∀ y ∈ g item, key y = item.1) (b : Int) :
    (l.flatMap g).filter (fun y => p y && key y = b) =
      match Dict.get? l b with
      | none => []
      | some v => (g (b, v)).filter p := by
  induction l with
  | nil => rfl
  | cons item l ih =>
    obtain ⟨hfirst, hrest⟩ := List.pairwise_cons.mp hl
    have hkeyRest : ∀ item ∈ l, ∀ y ∈ g item, key y = item.1 :=
      fun x hx => hkey x (List.mem_cons_of_mem _ hx)
    rw [List.flatMap_cons, List.filter_append, ih hrest hkeyRest, Dict.get?_cons]
    by_cases hb : item.1 = b
    · have hnone : Dict.get? l b = none := by
        cases hget : Dict.get? l b with
        | none => rfl
        | some v => 
            have := hfirst _ (Dict.mem_of_get? hget)
            simp only at this
            omega
      subst hb
      simp only [hnone, if_true, List.append_nil]
      exact List.filter_congr (fun y hy => by simp [hkey item (by simp) y hy])
    · have hnil : (g item).filter (fun y => p y && decide (key y = b)) = [] := by
        refine List.filter_eq_nil_iff.mpr (fun y hy => ?_)
        simp [hkey item (by simp) y hy, hb]
      simp only [hnil, hb, if_false, List.nil_append]

theorem eq_of_get? {source} (hsource : source ∈ args.monitored.ids) {qradarId}
    (h : args.monitored.ids.get? qradarId = some source.2) : qradarId = source.1 :=
  congrArg Prod.fst (List.inj_on_of_nodup_map args.monitored.ids_nodup (Dict.mem_of_get? h) hsource rfl)

theorem reportedRows_of_source {source} (hsource : source ∈ args.monitored.ids)
    (completed : CollectedBucket φ) :
    ((reportedRows args floors start completed).map (fun item => item.2)).filter (fun row => row.logSourceId = source.2) =
      match floorAt args floors start source.1 with
      | none => []
      | some floor => (samplesOf completed source.1).map (sampleRow args start completed source.2 floor) := by
  have hid : args.monitored.ids.get? source.1 = some source.2 :=
    (Dict.get?_eq_some_iff args.monitored.qradarIds_nodup).mpr hsource
  rw [reportedRows_eq, samplesOf]
  generalize completed.samples = samples
  induction samples with
  | nil => cases floorAt args floors start source.1 <;> rfl
  | cons sample samples ih =>
    by_cases hsample : sample.qradarId = source.1
    · cases hfloor : floorAt args floors start source.1 with
      | none =>
        rw [hfloor] at ih
        rw [List.filterMap_cons_none (by simp only [hsample, hfloor]), ih]
      | some floor =>
        rw [hfloor] at ih
        rw [List.filterMap_cons_some (by simp only [hsample, hfloor, hid]; rfl), List.map_cons,
          List.filter_cons_of_pos (by simp [sampleRow, bucketRow]), ih]
        simp [hsample]
    · -- a sample of another source gives no row of this one
      have hskip : (samples.filter (fun s => s.qradarId = source.1)) =
          (sample :: samples).filter (fun s => s.qradarId = source.1) := by simp [hsample]
      rw [← hskip, ← ih]
      cases hfloor : floorAt args floors start sample.qradarId with
      | none => rw [List.filterMap_cons_none (by simp only [hfloor])]
      | some floor =>
        cases hother : args.monitored.ids.get? sample.qradarId with
        | none => rw [List.filterMap_cons_none (by simp only [hfloor, hother])]
        | some id =>
          have hne : id ≠ source.2 := fun h => hsample (eq_of_get? hsource (h ▸ hother))
          rw [List.filterMap_cons_some (by simp only [hfloor, hother]; rfl), List.map_cons]
          exact List.filter_cons_of_neg (fun h => hne (of_decide_eq_true h))

theorem mem_reported {source} (hsource : source ∈ args.monitored.ids) (completed : CollectedBucket φ)
    {floor} (hfloor : floorAt args floors start source.1 = some floor) :
    source.1 ∈ (reportedRows args floors start completed).map (fun item => item.1) ↔
      samplesOf completed source.1 ≠ [] := by
  have hid : args.monitored.ids.get? source.1 = some source.2 :=
    (Dict.get?_eq_some_iff args.monitored.qradarIds_nodup).mpr hsource
  rw [reportedRows_eq]
  constructor
  · intro h
    obtain ⟨item, hitem, hkey⟩ := List.mem_map.mp h
    obtain ⟨sample, hsample, hrow⟩ := List.mem_filterMap.mp hitem
    have hsame : sample.qradarId = source.1 := by
      split at hrow
      · cases hrow
        exact hkey
      · cases hrow
    exact List.ne_nil_of_mem (List.mem_filter.mpr ⟨hsample, decide_eq_true hsame⟩)
  · intro h
    obtain ⟨sample, hsample⟩ := List.exists_mem_of_ne_nil _ h
    obtain ⟨hsample, hsame⟩ := List.mem_filter.mp hsample
    have hsame := of_decide_eq_true hsame
    exact List.mem_map.mpr ⟨_, List.mem_filterMap.mpr ⟨sample, hsample, by simp only [hsame, hfloor, hid]; rfl⟩, rfl⟩

theorem zeroRows_of_source {source} (hsource : source ∈ args.monitored.ids)
    (completed : CollectedBucket φ) (reported : List Int) :
    (zeroRows args floors start completed reported).filter (fun row => row.logSourceId = source.2) =
      match floorAt args floors start source.1 with
      | none => []
      | some floor =>
        if source.1 ∈ reported then [] else [zeroRow args start completed source.2 floor] := by
  rw [zeroRows_eq, filter_filterMap_of_unique (List.Nodup.of_map _ args.monitored.ids_nodup) hsource]
  · cases floorAt args floors start source.1 with
    | none => rfl
    | some floor => by_cases hmem : source.1 ∈ reported <;> simp [hmem]
  · intro row hrow
    split at hrow
    · split_ifs at hrow
      cases hrow
      simp [zeroRow, bucketRow]
    · cases hrow
  · intro other hother hne row hrow
    split at hrow
    · split_ifs at hrow
      cases hrow
      have hid : other.2 ≠ source.2 := fun h => hne (List.inj_on_of_nodup_map args.monitored.ids_nodup hother hsource h)
      exact decide_eq_false hid
    · cases hrow

theorem bucketRows_of_source {source} (hsource : source ∈ args.monitored.ids) (completed : CollectedBucket φ) :
    (bucketRows args floors start completed).1.filter (fun row => row.logSourceId = source.2) =
      match floorAt args floors start source.1 with
      | none => []
      | some floor => sourceRows args start completed source floor := by
  rw [bucketRows, List.filter_append, reportedRows_of_source hsource, zeroRows_of_source hsource]
  cases hfloor : floorAt args floors start source.1 with
  | none => rfl
  | some floor =>
    have hmem := mem_reported hsource completed hfloor
    simp only [sourceRows]
    cases hsamples : samplesOf completed source.1 with
    | nil => simp [if_neg (fun h => hmem.mp h hsamples)]
    | cons sample samples => simp [if_pos (hmem.mpr (by rw [hsamples]; simp))]

theorem bucketRows_start (completed : CollectedBucket φ) :
    ∀ row ∈ (bucketRows args floors start completed).1, row.bucketStart = start ∧
      ∃ source ∈ args.monitored.ids, row.logSourceId = source.2 := by
  intro row hrow
  simp only [bucketRows, reportedRows_eq, zeroRows_eq] at hrow
  rcases List.mem_append.mp hrow with hrow | hrow
  · obtain ⟨item, hitem, rfl⟩ := List.mem_map.mp hrow
    obtain ⟨sample, _, hsample⟩ := List.mem_filterMap.mp hitem
    split at hsample
    · next floor id _ hid =>
        cases hsample
        exact ⟨rfl, _, Dict.mem_of_get? hid, rfl⟩
    · cases hsample
  · obtain ⟨source, hsource, hzero⟩ := List.mem_filterMap.mp hrow
    split at hzero
    · split_ifs at hzero
      cases hzero
      exact ⟨rfl, source, hsource, rfl⟩
    · cases hzero

/-! ## The floor of one source -/

theorem get?_observed {source} (hsource : source ∈ args.monitored.ids) (h : Ascending args items)
    (hrows : SourceFloors.observeRows args.readStart args.settings.bucketSeconds (observed args items) {} = .ok floors) :
    floors.firstBuckets.get? (sourceKey source.1) = firstSeen items source.1 := by
  have hid : args.monitored.ids.get? source.1 = some source.2 :=
    (Dict.get?_eq_some_iff args.monitored.qradarIds_nodup).mpr hsource
  rw [firstSeen]
  cases hfind : items.find? (fun item => item.2.samples.any (fun sample => sample.qradarId = source.1)) with
  | none =>
    refine SourceFloors.get?_of_other h.sound (fun row hrow hkey => ?_) hrows
    obtain ⟨item, hitem, sample, hsample, rfl⟩ := mem_observed hrow
    refine absurd ?_ (List.find?_eq_none.mp hfind item hitem)
    exact List.any_eq_true.mpr ⟨sample, hsample, decide_eq_true (sourceKey_inj.mp hkey)⟩
  | some item =>
    obtain ⟨hany, before, after, hitems, hbefore⟩ := List.find?_eq_some_iff_append.mp hfind
    subst hitems
    obtain ⟨sample, hsample, hsame⟩ := List.any_eq_true.mp hany
    have hsplit : observed args (before ++ item :: after) =
        observed args before ++ (observed args [item] ++ observed args after) := by simp [observed]
    rw [hsplit, SourceFloors.observeRows_append] at hrows
    obtain ⟨floors₁, hrows₁, hrows⟩ := bind_ok hrows
    rw [SourceFloors.observeRows_append] at hrows
    obtain ⟨floors₂, hrows₂, hrows₃⟩ := bind_ok hrows
    have hright : Ascending args ([item] ++ after) := h.right
    -- nothing of the source before its first bucket
    have hnone : floors₁.firstBuckets.get? (sourceKey source.1) = none := by
      refine SourceFloors.get?_of_other h.left.sound (fun row hrow hkey => ?_) hrows₁
      obtain ⟨other, hother, s, hs, rfl⟩ := mem_observed hrow
      have hno := hbefore other hother
      rw [List.any_eq_true.mpr ⟨s, hs, decide_eq_true (sourceKey_inj.mp hkey)⟩] at hno
      cases hno
    have hfirst : floors₂.firstBuckets.get? (sourceKey source.1) = some item.1 := by
      refine SourceFloors.get?_of_bucket hright.left.sound (fun row hrow => ?_) (by simp [hnone])
        (Or.inr ⟨(sourceKey source.1, item.1), ?_, rfl⟩) hrows₂
      · obtain ⟨other, hother, _, _, rfl⟩ := mem_observed hrow
        rw [List.mem_singleton.mp hother]
      · have hsame := of_decide_eq_true hsame
        refine List.mem_flatMap.mpr ⟨item, by simp, List.mem_map.mpr ⟨sample, List.mem_filter.mpr ⟨hsample, ?_⟩, ?_⟩⟩
        · simp [hsame, hid]
        · rw [hsame]
    have hkept := SourceFloors.known_of_later hright.right.sound item.1 (fun row hrow => ?_) hrows₃
      (sourceKey source.1)
    · rw [SourceFloors.known, SourceFloors.known, hfirst] at hkept
      simpa using (Option.filter_eq_some_iff.mp (hkept.trans (by simp))).1
    · obtain ⟨other, hother, _, _, rfl⟩ := mem_observed hrow
      exact (List.pairwise_append.mp hright.increasing).2.2 item (by simp) other hother

/-- From its floor on each bucket holds a row for each of the source's samples, or one zero-filled row, and there are
none before. -/
def expectedRows (args : FoldArgs φ) (items : List (Int × CollectedBucket φ)) (source : Int × String) (bucket : Int) :
    List (MetricRow φ) :=
  match firstSeen items source.1, Dict.get? items bucket with
  | some first, some completed =>
    let floor := max args.targetStart (first + args.settings.margin)
    if floor ≤ bucket then sourceRows args bucket completed source floor else []
  | _, _ => []

theorem foldStep_rows (h : Ascending args items) {fold} (hfold : foldStep args items {} = .ok fold) :
    (∀ row ∈ fold.rows, ∃ source ∈ args.monitored.ids, row.logSourceId = source.2) ∧
    ∀ source ∈ args.monitored.ids, ∀ bucket,
      fold.rows.filter (fun row => row.logSourceId = source.2 && row.bucketStart = bucket) =
        expectedRows args items source bucket := by
  obtain ⟨floors', hrows, hok⟩ := foldStep_ok h {}
  cases hfold.symm.trans hok
  constructor
  · intro row hrow
    obtain ⟨item, _, hmem⟩ := List.mem_flatMap.mp hrow
    exact (bucketRows_start item.2 row hmem).2
  · intro source hsource bucket
    rw [filter_flatMap_of_key h.increasing (fun item _ row hrow => (bucketRows_start item.2 row hrow).1), expectedRows]
    cases hbucket : Dict.get? items bucket with
    | none => cases firstSeen items source.1 <;> rfl
    | some completed =>
      simp only [bucketRows_of_source hsource, floorAt, SourceFloors.floor, get?_observed hsource h hrows]
      cases firstSeen items source.1 with
      | none => rfl
      | some first =>
        by_cases hle : max args.targetStart (first + args.settings.margin) ≤ bucket
        · simp only [Option.map_some, Option.filter, hle, decide_true, if_true]
        · simp only [Option.map_some, Option.filter, hle, decide_false, Bool.false_eq_true, if_false]

end PhaseA

end QRadarDashboard.History
