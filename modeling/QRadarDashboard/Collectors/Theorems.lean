import QRadarDashboard.Collectors.Lemmas.FirstChunk
import QRadarDashboard.Collectors.Lemmas.OffenseCollector
import QRadarDashboard.Collectors.Lemmas.PwRun
import QRadarDashboard.Collectors.Lemmas.SplitSearches
import QRadarDashboard.History.Theorems

/-!
# Steps that read the past
-/

namespace QRadarDashboard.Collectors
open Lib Lib.ReadCommitted History QRadarDashboard.Catchall Ips

variable {φ μ : Type} [PyFloat φ] {st : PlannerSettings φ}

/-! ## No step is repeated -/

/-- A step wrote a bucket, or the next one searches less at a time than `n` buckets, or `n` is the least a search may
ask for. -/
def Moves (st : PlannerSettings φ) (o : StepSettlement φ) (n : Int) : Prop :=
  o.writeSpans ≠ [] ∨ chunkWidth o.progress st < n ∨ n = st.minChunkBuckets

instance (o : StepSettlement φ) (n : Int) : Decidable (Moves st o n) := inferInstanceAs (Decidable (_ ∨ _ ∨ _))

theorem Settles.moves_iff {p o} {reached : Prop} (h : Settles st p o reached)
    {n} (hn : n ≤ chunkWidth p st) : Moves st o n ↔ reached ∨ n = st.minChunkBuckets := by
  rcases h with ⟨hreached, hwrite⟩ | ⟨hreached, hwrite, hwidth⟩
  · exact iff_of_true (Or.inl hwrite) (Or.inl hreached)
  · have hsame : ¬ chunkWidth o.progress st < n := by omega
    simp [Moves, hwrite, hsame, hreached]

/-- A step that searched without a failure moves the reading exactly if the left-first search of its first chunk comes
to an uncut answer in time, or the chunk is of the least width. -/
theorem step_moves_iff {p : ScopeProgress Int φ} {now anchor : Int} {budget : StepBudget φ} {enabled stopRequested : Bool}
    {plan : StepPlan} (hplan : planStep p now anchor budget st enabled stopRequested = .ok plan)
    (hread : plan.action = .read) :
    (∀ {s : PhaseAStep μ} {readings : List (PhaseAReading μ)} {step : FamilyStep φ},
      phaseAStep s st p plan.chunks anchor budget.searches.toNat = .ok (some (readings, step)) → 0 < step.searches →
      (∀ r ∈ readings, r.found.failure = none) →
      ∃ chunk rest n, plan.chunks = chunk :: rest ∧ chunk.buckets st = .ok n ∧
        (Moves st step.settlement n ↔
          (s.window st budget.searches.toNat 0).Reaches chunk.start n.toNat 0 ∨ n = st.minChunkBuckets)) ∧
    (∀ {s : CatchallStep} {readings : List History.Catchall.SpanRead} {step : FamilyStep φ},
      catchallStep s st p plan.chunks anchor budget.searches.toNat = .ok (readings, step) → 0 < step.searches →
      (∀ r ∈ readings, ∀ o ∈ r.outcomes, o.state ≠ .failed ∧ o.state ≠ .rejected) →
      ∃ chunk rest n, plan.chunks = chunk :: rest ∧ chunk.buckets st = .ok n ∧
        (Moves st step.settlement n ↔
          (s.args st chunk.start).Reaches 0 n.toNat 0 ⟨budget.searches.toNat, 0⟩ ∨ n = st.minChunkBuckets)) := by
  constructor
  · intro s readings step hstep hsent hfail
    obtain ⟨hbudget, chunk, rest, hchunks⟩ := phaseAStep_sent hstep hsent
    obtain ⟨n, hpos, hwidth, hn⟩ := planStep_first hplan hread hchunks
    rw [hchunks] at hstep
    exact ⟨chunk, rest, n, hchunks, hn, (phaseAStep_first hn hpos hbudget hstep hfail).moves_iff hwidth⟩
  · intro s readings step hstep hsent hfail
    obtain ⟨chunk, rest, hchunks⟩ := catchallStep_sent hstep hsent
    obtain ⟨n, _, hwidth, hn⟩ := planStep_first hplan hread hchunks
    rw [hchunks] at hstep
    exact ⟨chunk, rest, n, hchunks, hn, (catchallStep_first hn hstep hfail).moves_iff hwidth⟩

def cutStep : PhaseAStep Unit where
  provider := ⟨fun _ _ _ => .ok [], fun _ _ _ => .ok ⟨[], true⟩⟩
  clock := fun _ => 0
  deadline := 1

def cutSpans : CatchallStep where
  provider := fun _ _ => .result ⟨[], true⟩
  typeIds := [1]
  maxRowsPerSearch := 10

def searchesLeft (n : Nat) : StepBudget ℚ := ⟨n, 10, Int.natCast_nonneg n⟩

def twoBuckets : StepPlan where
  action := .read
  reason := "read 2 bucket(s) in 1 search(es) of up to 288"
  chunks := [⟨0, seconds 600⟩]
  chunkBuckets := some 288

theorem planStep_twoBuckets {n} (hn : n = 1 ∨ n = 2) :
    planStep floorFound 0 (seconds 600) (searchesLeft n) defaultSettings = .ok twoBuckets := by
  obtain ⟨plan, hplan, heq⟩ : ∃ plan, planStep floorFound 0 (seconds 600) (searchesLeft n) defaultSettings = .ok plan ∧
      plan = twoBuckets := by
    apply exists_ok_of_toOption (f := fun plan => plan)
    rcases hn with rfl | rfl <;> decide
  rw [hplan, heq]

theorem step_moves_iff_two_searches :
    (∃ readings step, phaseAStep cutStep defaultSettings floorFound twoBuckets.chunks (seconds 600) 2 =
        .ok (some (readings, step)) ∧ Moves defaultSettings step.settlement 2) ∧
    (∃ readings step, catchallStep cutSpans defaultSettings floorFound twoBuckets.chunks (seconds 600) 2 =
        .ok (readings, step) ∧ Moves defaultSettings step.settlement 2) := by
  have hplan := planStep_twoBuckets (Or.inr rfl : 2 = 1 ∨ 2 = 2)
  constructor
  · obtain ⟨result, hresult, hrun⟩ := exists_ok_of_toOption
      (x := phaseAStep cutStep defaultSettings floorFound twoBuckets.chunks (seconds 600) 2)
      (f := fun result : Option (List (PhaseAReading Unit) × FamilyStep ℚ) =>
        result.map (fun r : List (PhaseAReading Unit) × FamilyStep ℚ =>
          decide (0 < r.2.searches ∧ ∀ x ∈ r.1, x.found.failure = none)))
      (b := some true) (by with_unfolding_all decide)
    obtain ⟨⟨readings, step⟩, rfl, hok⟩ := Option.map_eq_some_iff.mp hrun
    obtain ⟨hsent, hfail⟩ := of_decide_eq_true hok
    obtain ⟨chunk, rest, n, hchunks, hn, hmoves⟩ := (step_moves_iff hplan rfl).1 (s := cutStep) hresult hsent hfail
    cases hchunks
    cases hn
    exact ⟨readings, step, hresult, hmoves.mpr (Or.inl ⟨1, by decide, by decide, fun hcut => absurd hcut.1 (by decide)⟩)⟩
  · obtain ⟨⟨readings, step⟩, hresult, hrun⟩ := exists_ok_of_toOption
      (x := catchallStep cutSpans defaultSettings floorFound twoBuckets.chunks (seconds 600) 2)
      (f := fun r : List History.Catchall.SpanRead × FamilyStep ℚ => decide (0 < r.2.searches ∧
        ∀ x ∈ r.1, ∀ o ∈ x.outcomes, o.state ≠ .failed ∧ o.state ≠ .rejected))
      (b := true) (by with_unfolding_all decide)
    obtain ⟨hsent, hfail⟩ := of_decide_eq_true hrun
    obtain ⟨chunk, rest, n, hchunks, hn, hmoves⟩ := (step_moves_iff (μ := Unit) hplan rfl).2 hresult hsent hfail
    cases hchunks
    cases hn
    exact ⟨readings, step, hresult, hmoves.mpr (Or.inl ⟨1, by decide, fun hcut => absurd hcut.1 (by decide)⟩)⟩

/-- With one search for the two buckets a step of either family fails in nothing and leaves the reading as it was. -/
theorem step_replayed :
    planStep floorFound 0 (seconds 600) (searchesLeft 1) defaultSettings = .ok twoBuckets ∧
    (∃ readings step, phaseAStep cutStep defaultSettings floorFound twoBuckets.chunks (seconds 600) 1 =
        .ok (some (readings, step)) ∧ step.searches = 1 ∧ (∀ r ∈ readings, r.found.failure = none) ∧
        ¬ Moves defaultSettings step.settlement 2 ∧ step.settlement.progress = floorFound) ∧
    (∃ readings step, catchallStep cutSpans defaultSettings floorFound twoBuckets.chunks (seconds 600) 1 =
        .ok (readings, step) ∧ step.searches = 1 ∧
        (∀ r ∈ readings, ∀ o ∈ r.outcomes, o.state ≠ .failed ∧ o.state ≠ .rejected) ∧
        ¬ Moves defaultSettings step.settlement 2 ∧ step.settlement.progress = floorFound) := by
  refine ⟨planStep_twoBuckets (Or.inl rfl), ?_, ?_⟩
  · obtain ⟨result, hresult, hrun⟩ := exists_ok_of_toOption
      (x := phaseAStep cutStep defaultSettings floorFound twoBuckets.chunks (seconds 600) 1)
      (f := fun result : Option (List (PhaseAReading Unit) × FamilyStep ℚ) =>
        result.map (fun r : List (PhaseAReading Unit) × FamilyStep ℚ =>
          decide (r.2.searches = 1 ∧ (∀ x ∈ r.1, x.found.failure = none) ∧
            ¬ Moves defaultSettings r.2.settlement 2 ∧ r.2.settlement.progress = floorFound)))
      (b := some true) (by with_unfolding_all decide)
    obtain ⟨⟨readings, step⟩, rfl, hok⟩ := Option.map_eq_some_iff.mp hrun
    exact ⟨readings, step, hresult, of_decide_eq_true hok⟩
  · obtain ⟨⟨readings, step⟩, hresult, hrun⟩ := exists_ok_of_toOption
      (x := catchallStep cutSpans defaultSettings floorFound twoBuckets.chunks (seconds 600) 1)
      (f := fun r : List History.Catchall.SpanRead × FamilyStep ℚ => decide (r.2.searches = 1 ∧
        (∀ x ∈ r.1, ∀ o ∈ x.outcomes, o.state ≠ .failed ∧ o.state ≠ .rejected) ∧
        ¬ Moves defaultSettings r.2.settlement 2 ∧ r.2.settlement.progress = floorFound))
      (b := true) (by with_unfolding_all decide)
    exact ⟨readings, step, hresult, of_decide_eq_true hrun⟩

/-! ## A source that can be read narrowly -/

abbrev WafRun (minCoverage : φ) (st : PlannerSettings φ) (p : ScopeProgress Int φ) :=
  Run (fun (scope : WafScope φ) (tick : WafTick φ) => historyTick minCoverage st tick scope) (fun scope => scope)
    ⟨.reading, p⟩

/-- What a source with an event at `e`, whose floor would be `F`, promises of the ticks of a run. -/
def EarlyEvent (st : PlannerSettings φ) (T0 m : Int) (events : Int → Int) (e F : Int) (ticks : List (WafTick φ)) : Prop :=
  1 ≤ m ∧ 0 < events e ∧ st.bucket ∣ e ∧ T0 - st.margin ≤ e ∧ IsFloor st T0 e F ∧
    ∀ tick ∈ ticks, tick.provider.Whole st m events ∧ F < tick.boundary

/-- If no floor scan wider than `m` buckets is truncated as the last one that is tried, the scope never ends
unavailable. -/
theorem waf_never_unavailable {minCoverage : φ} {T0 startedAt m e F : Int} {events : Int → Int}
    {p : ScopeProgress Int φ} (hp : newProgress T0 startedAt st = .ok p)
    {tr : List (Taken (WafScope φ) (WafTick φ) (WafScope φ))} {scope : WafScope φ}
    (h : WafRun minCoverage st p tr scope) (hearly : EarlyEvent st T0 m events e F (tr.map Taken.input))
    (hfits : ∀ t ∈ tr, t.before.progress.floor = none → ScanFits st m t.before.progress t.input) :
    (∀ t ∈ tr, t.output.state ≠ .unavailable) ∧ scope.state ≠ .unavailable := by
  obtain ⟨_, hpos, hdvd, hfirst, hfloor, hticks⟩ := hearly
  have hreached := h.reached (Alive st T0 e)
    (fun t => (t.input.provider.Whole st m events ∧ F < t.input.boundary) ∧
      (t.before.progress.floor = none → ScanFits st m t.before.progress t.input))
    ⟨by simp, fun _ => newProgress_looking hp hfirst⟩
    (fun halive hcond hstep => historyTick_alive hcond.1.1 hpos hdvd hfloor hcond.1.2 halive hcond.2 hstep)
    (fun t ht => ⟨hticks _ (List.mem_map_of_mem ht), hfits t ht⟩)
  exact ⟨fun t ht => (hreached.1 t ht).state, hreached.2.state⟩

def epochEvents (t : Int) : Int := if t = 0 then 5 else 0

def epochBatch (t : Int) : WafObservationBatch :=
  { windowStart := t, windowEnd := t + seconds 300, totalEvents := epochEvents t }

/-- A provider that truncates every search wider than `limit` buckets. -/
def narrowProvider (limit : Int) : WafProvider where
  one := fun _ span => .ok (epochBatch span.start)
  keyed := fun _ span =>
    if limit * seconds 300 < span.stop - span.start then .ok { truncated := true }
    else if span.start ≤ 0 ∧ 0 < span.stop then .ok { buckets := [(0, epochBatch 0)] }
    else .ok {}

theorem narrowProvider_whole {limit} (h : 1 ≤ limit) : (narrowProvider limit).Whole defaultSettings 1 epochEvents := by
  refine ⟨fun k span => Or.inr ⟨_, rfl, rfl⟩, fun k span => Or.inr ?_⟩
  have hbucket : defaultSettings.bucket = 300000000 := rfl
  have hseconds : seconds 300 = 300000000 := rfl
  by_cases hwide : limit * seconds 300 < span.stop - span.start
  · refine ⟨_, if_pos hwide, fun hnarrow => ?_, nofun⟩
    rw [hbucket] at hnarrow
    rw [hseconds] at hwide
    omega
  · by_cases hinside : span.start ≤ 0 ∧ 0 < span.stop
    · refine ⟨{ buckets := [(0, epochBatch 0)] }, (if_neg hwide).trans (if_pos hinside), fun _ => rfl, fun _ => ⟨?_, ?_⟩⟩
      · intro item hitem
        rw [List.mem_singleton.mp hitem]
        rfl
      · intro t _ _ _ hpos
        by_cases ht : t = 0
        · exact ⟨epochBatch 0, by simp [ht]⟩
        · simp [epochEvents, ht] at hpos
    · refine ⟨{}, (if_neg hwide).trans (if_neg hinside), fun _ => rfl, fun _ => ⟨nofun, ?_⟩⟩
      intro t _ hlo hhi hpos
      by_cases ht : t = 0
      · exact absurd (ht ▸ ⟨hlo, hhi⟩) hinside
      · simp [epochEvents, ht] at hpos

def narrowTick (limit : Int) : WafTick ℚ where
  now := 0
  boundary := seconds 129600
  budget := searchesLeft 10
  permit := true
  provider := narrowProvider limit
  elapsed := fun _ => 0
  collectedAt := 0
  persist := fun _ _ => .ok 0

theorem narrow_earlyEvent {limits : List Int} (h : ∀ limit ∈ limits, 1 ≤ limit) :
    EarlyEvent defaultSettings 0 1 epochEvents 0 (seconds 86400) (limits.map narrowTick) := by
  refine ⟨by decide, by decide, dvd_zero _, by decide, ⟨seconds 86400, ?_, by decide⟩, ?_⟩
  · exact ⟨⟨by decide, by decide⟩, fun x hx => hx.2⟩
  · intro tick htick
    obtain ⟨limit, hlimit, rfl⟩ := List.mem_map.mp htick
    exact ⟨narrowProvider_whole (h limit hlimit), (by decide : seconds 86400 < seconds 129600)⟩

def notScanned : ScopeProgress Int ℚ :=
  { targetStart := 0, startedAt := 0, scanCursor := some (-86400000000) }

theorem newProgress_notScanned : newProgress 0 0 defaultSettings = .ok notScanned := by
  obtain ⟨p, hp, heq⟩ := exists_ok_of_toOption (x := newProgress 0 0 defaultSettings) (f := fun p => p) (b := notScanned)
    (by decide)
  rw [hp, heq]

theorem waf_never_unavailable_second_scan : ∃ tr scope, WafRun 0 defaultSettings notScanned tr scope ∧
    scope.progress.floor = some (seconds 86400) ∧ (∀ t ∈ tr, t.output.state ≠ .unavailable) ∧
    scope.state ≠ .unavailable := by
  obtain ⟨tr, scope, h, hinputs, hv⟩ := exists_run_of_inputs
    (fun (scope : WafScope ℚ) (tick : WafTick ℚ) => historyTick 0 defaultSettings tick scope) (fun scope => scope)
    ⟨.reading, notScanned⟩ ([1, 2016].map narrowTick)
    (fun r => (r.2.progress.floor, r.1.all (fun t => decide (t.before.progress.scanFailures + 1 < 3))))
    (some (seconds 86400), true) (by with_unfolding_all decide)
  obtain ⟨hfloor, hfailures⟩ := Prod.mk.inj hv
  refine ⟨tr, scope, h, hfloor, waf_never_unavailable newProgress_notScanned h (hinputs ▸ narrow_earlyEvent (by simp)) ?_⟩
  intro t ht _ _ _ _ _ _ _ _ _
  exact of_decide_eq_true (List.all_eq_true.mp hfailures t ht)

/-- Three truncated scans of a source that any narrower scan would read. -/
theorem waf_unavailable_truncated : ∃ tr scope, WafRun 0 defaultSettings notScanned tr scope ∧
    newProgress 0 0 defaultSettings = .ok notScanned ∧
    EarlyEvent defaultSettings 0 1 epochEvents 0 (seconds 86400) (tr.map Taken.input) ∧
    scope.state = .unavailable := by
  obtain ⟨tr, scope, h, hinputs, hv⟩ := exists_run_of_inputs
    (fun (scope : WafScope ℚ) (tick : WafTick ℚ) => historyTick 0 defaultSettings tick scope) (fun scope => scope)
    ⟨.reading, notScanned⟩ ([1, 1, 1].map narrowTick) (fun r => r.2.state) .unavailable
    (by decide)
  exact ⟨tr, scope, h, newProgress_notScanned, hinputs ▸ narrow_earlyEvent (by simp), hv⟩

/-! ## Concurrent live runs -/

section Watermark

variable {τ : Type} [DecidableEq τ]

abbrev CollectSteps (row : Option CollectionWatermark) :=
  Run (fun (db : CollectDb τ) (move : Move τ CollectRun) => db.step move) (fun db => db) ⟨row, none, none, fun _ => none⟩

theorem collections_kept {row : Option CollectionWatermark} {tr : List (CollectTaken τ)} {db : CollectDb τ}
    (h : CollectSteps row tr db) (hsettled : ∀ e ∈ tr, CollectTaken.ReadsSettled e) :
    ∀ e ∈ tr, CollectTaken.Forward e ∧ e.output.intervals = e.before.intervals + (CollectTaken.collected e : Int) := by
  have hkept : (∀ e ∈ tr, CollectTaken.Forward e ∧
      e.output.intervals = e.before.intervals + (CollectTaken.collected e : Int)) ∧ CollectOk db := by
    refine h.invariant (fun tr db => (∀ e ∈ tr, CollectTaken.Forward e ∧
      e.output.intervals = e.before.intervals + (CollectTaken.collected e : Int)) ∧ CollectOk db)
      CollectTaken.ReadsSettled ⟨by simp, collectOk_quiet row⟩ ?_ hsettled
    intro tr db move db' hI hcond hstep
    refine ⟨fun e he => ?_, hI.2.step hstep hcond⟩
    rcases List.mem_append.mp he with he | he
    · exact hI.1 e he
    · rw [List.mem_singleton.mp he]
      exact hI.2.counted hstep
  exact hkept.1

/-- A run fifteen minutes after the epoch with five-minute buckets, of which the searches complete those before `untilAt`. -/
def liveRun (untilAt : Int) : CollectRun where
  now := seconds 900
  interval := 300
  interval_pos := by decide
  maxIntervals := 3
  completed := fun bucket => bucket < untilAt

def epochWatermark : CollectionWatermark := { watermarkAt := some 0 }

def turns : List (Move Bool CollectRun) :=
  [.start false (liveRun (seconds 600)), .advance false, .advance false, .start true (liveRun (seconds 900)),
    .advance true, .advance true, .advance false, .advance false, .advance false,
    .start true (liveRun (seconds 900)), .advance true, .advance true, .advance true, .advance true, .advance true]

def othersSettled (e : CollectTaken Bool) : Bool :=
  match e.input with
  | .start _ _ => true
  | .advance t =>
    match e.before.session (!t) with
    | some (.released _ _ _) => false
    | _ => true

theorem readsSettled_of_othersSettled {e} (h : othersSettled e) : CollectTaken.ReadsSettled e := by
  intro t run hinput _ u run' isNew watermark hu hreleased
  obtain rfl : u = !t := by cases u <;> cases t <;> simp_all
  rw [othersSettled, hinput] at h
  simp [hreleased] at h

theorem collections_kept_turns : ∃ (tr : List (CollectTaken Bool)) (db : CollectDb Bool),
    CollectSteps (some epochWatermark) tr db ∧
    (db.committed.map (fun row => (row.watermarkAt, row.intervalsCollected))) = some (some (seconds 600), 2) ∧
    ∀ e ∈ tr, CollectTaken.Forward e ∧
      e.output.intervals = e.before.intervals + (CollectTaken.collected e : Int) := by
  obtain ⟨tr, db, h, hv⟩ := exists_run_of_replay (fun (db : CollectDb Bool) (move : Move Bool CollectRun) => db.step move)
    (fun db => db) ⟨some epochWatermark, none, none, fun _ => none⟩ turns
    (fun r => (r.2.committed.map (fun row => (row.watermarkAt, row.intervalsCollected)), r.1.all othersSettled))
    (some (some (seconds 600), 2), true) (by decide)
  obtain ⟨hrow, hall⟩ := Prod.mk.inj hv
  exact ⟨tr, db, h, hrow, collections_kept h (fun e he => readsSettled_of_othersSettled (List.all_eq_true.mp hall e he))⟩

def overtakes : List (Move Bool CollectRun) :=
  [.start false (liveRun (seconds 900)), .advance false, .advance false, .advance false, .advance false,
    .start true (liveRun (seconds 600)), .advance true, .advance true, .advance false,
    .advance true, .advance true, .advance true]

def movesBack (e : CollectTaken Bool) : Bool :=
  match e.before.committed.bind (fun row => row.watermarkAt), e.output.committed.bind (fun row => row.watermarkAt) with
  | some watermarkAt, some watermarkAt' => watermarkAt' < watermarkAt
  | _, _ => false

theorem not_forward_of_movesBack {e} (h : movesBack e) : ¬ CollectTaken.Forward e := by
  intro hforward
  rw [movesBack] at h
  split at h
  · next watermarkAt watermarkAt' hbefore hafter =>
    obtain ⟨row, hrow, hat⟩ := Option.bind_eq_some_iff.mp hbefore
    obtain ⟨row', watermarkAt'', hrow', hat', hle⟩ := hforward row watermarkAt hrow hat
    rw [hrow', Option.bind_some, hat'] at hafter
    cases hafter
    exact absurd (of_decide_eq_true h) (by omega)
  · cases h

/-- Two buckets are committed and then one: the watermark moves back and one bucket is counted. -/
theorem collection_overtaken : ∃ (tr : List (CollectTaken Bool)) (db : CollectDb Bool),
    CollectSteps (some epochWatermark) tr db ∧
    (tr.map (fun e => CollectTaken.collected e)).sum = 3 ∧ db.intervals = 1 ∧
    ∃ e ∈ tr, ¬ CollectTaken.Forward e := by
  obtain ⟨tr, db, h, hv⟩ := exists_run_of_replay (fun (db : CollectDb Bool) (move : Move Bool CollectRun) => db.step move)
    (fun db => db) ⟨some epochWatermark, none, none, fun _ => none⟩ overtakes
    (fun r => ((r.1.map (fun e => CollectTaken.collected e)).sum, r.2.intervals, r.1.any movesBack))
    (3, 1, true) (by decide)
  obtain ⟨hcollected, hrest⟩ := Prod.mk.inj hv
  obtain ⟨hintervals, hany⟩ := Prod.mk.inj hrest
  obtain ⟨e, he, hback⟩ := List.any_eq_true.mp hany
  exact ⟨tr, db, h, hcollected, hintervals, e, he, not_forward_of_movesBack hback⟩

end Watermark

/-! ## Offenses -/

section Offenses

variable {κ : Type} {env : OffenseEnv κ}

/-- The watermark never goes back. When ticks see what QRadar has, under the page ceiling, what was persisted up to the
watermark is in the newest snapshot of its offense, or behind the backfill limit of a tick. -/
theorem offense_updates_collected (henv : ∀ t, env.epochMs t * 1000 ≤ t) {console : List (ConsoleOffense κ)}
    (hids : ∀ o ∈ console, ∀ o' ∈ console, o.qradarId = o'.qradarId → o = o') {tr : List (OffenseTaken κ)}
    {s : OffenseStore κ} (h : Run (OffenseStore.step env) id ⟨console, {}, []⟩ tr s) :
    (∀ e ∈ tr, ∀ w, e.before.watermark.watermarkAt = some w → ∃ w', e.output.watermark.watermarkAt = some w' ∧ w ≤ w') ∧
      ((∀ e ∈ tr, OffenseTaken.Faithful env e) → ∀ o ∈ s.console, ∀ w, s.watermark.watermarkAt = some w →
        o.persistedTime * 1000 ≤ w →
        BeforeBackfill env tr o ∨ latestHash s.snapshots o.qradarId = some (env.offenseContentHash o.content)) := by
  refine ⟨fun e he w hw => watermark_step (h.taken e he) hw, fun hfaithful => ?_⟩
  have hcaught : Caught env tr s := h.invariant (Caught env) (OffenseTaken.Faithful env) ⟨hids, by simp⟩
    (fun hI hC hs => hI.step henv hC hs) hfaithful
  exact hcaught.caught

def plainOffenses : OffenseEnv String where
  offenseContentHash := id
  storable _ := true
  epochMs t := t / 1000

def offenseAt (content : String) (persisted : Int) : ConsoleOffense String where
  qradarId := 1
  content := content
  persistedTime := persisted * 1000

def offenseTick (rows : List (ConsoleOffense String)) (at' : Int) : OffenseTick String where
  now := at' * 1000000
  request page := .ok (some (((rows.drop (page * 500)).take 500).map some))

/-- What the tick a minute after `offense` was persisted leaves. -/
def collectedStore (before : OffenseStore String) (offense : ConsoleOffense String) : OffenseStore String where
  console := [offense]
  watermark := {
    watermarkAt := some (offense.persistedTime * 1000), lastRunAt := some (offense.persistedTime * 1000 + 60000000)
    lagSeconds := some 60, intervalsCollected := before.watermark.intervalsCollected + 1 }
  snapshots := before.snapshots ++
    [⟨toOffense offense, offense.persistedTime * 1000 + 60000000, none, plainOffenses.offenseContentHash offense.content⟩]

theorem offenseTick_faithful {s s' o at'} (hconsole : s.console = [o])
    (hclock : ∀ row ∈ s.snapshots, row.capturedAt ≤ at' * 1000000)
    (hresume : plainOffenses.epochMs (resumePoint plainOffenses s.watermark (at' * 1000000)) < o.persistedTime) :
    OffenseTaken.Faithful plainOffenses ⟨s, .collect (offenseTick [o] at'), s'⟩ := by
  refine fun _ => ⟨hclock, [o], ?_, fun o' => ?_, fun page => Or.inl rfl⟩
  · rw [List.length_singleton]
    decide
  · rw [hconsole]
    exact ⟨fun ho => ⟨ho, by rwa [List.mem_singleton.mp ho]⟩, fun ho => ho.1⟩

theorem offense_updates_collected_closed : ∃ (tr : List (OffenseTaken String)) (s : OffenseStore String),
    Run (OffenseStore.step plainOffenses) id ⟨[], {}, []⟩ tr s ∧ tr.length = 4 ∧
      (∀ e ∈ tr, ∀ w, e.before.watermark.watermarkAt = some w → ∃ w', e.output.watermark.watermarkAt = some w' ∧ w ≤ w') ∧
      s.watermark.watermarkAt = some 700000120000000 ∧
      (BeforeBackfill plainOffenses tr (offenseAt "CLOSED" 700000120) ∨ latestHash s.snapshots 1 = some "CLOSED") := by
  let opened := collectedStore ⟨[], {}, []⟩ (offenseAt "OPEN" 700000000)
  have hrun : Run (OffenseStore.step plainOffenses) id ⟨[], {}, []⟩
      [⟨_, .persist (offenseAt "OPEN" 700000000), _⟩, ⟨_, .collect (offenseTick [offenseAt "OPEN" 700000000] 700000060), opened⟩,
        ⟨opened, .persist (offenseAt "CLOSED" 700000120), ⟨[offenseAt "CLOSED" 700000120], opened.watermark, opened.snapshots⟩⟩,
        ⟨⟨[offenseAt "CLOSED" 700000120], opened.watermark, opened.snapshots⟩,
          .collect (offenseTick [offenseAt "CLOSED" 700000120] 700000180), collectedStore opened (offenseAt "CLOSED" 700000120)⟩]
      (collectedStore opened (offenseAt "CLOSED" 700000120)) :=
    (((Run.nil.snoc rfl).snoc rfl).snoc rfl).snoc rfl
  have hms : ∀ t, plainOffenses.epochMs t * 1000 ≤ t := fun t => by
    simp only [plainOffenses]
    omega
  obtain ⟨hforward, hcaught⟩ := offense_updates_collected hms (by simp) hrun
  refine ⟨_, _, hrun, rfl, hforward, by decide, ?_⟩
  refine hcaught ?_ (offenseAt "CLOSED" 700000120) (List.mem_singleton_self _) 700000120000000 (by decide) (by decide)
  simp only [List.forall_mem_cons]
  refine ⟨nofun, ?_, ?_, ?_, List.forall_mem_nil _⟩
  · exact offenseTick_faithful rfl (by decide) (by decide)
  · intro w hw
    rw [← Option.some.inj hw]
    decide
  · exact offenseTick_faithful rfl (by decide) (by decide)

end Offenses

/-! ## The live WAF collection -/

section WafLive

variable {cfg : WafCollectConfig}

/-- A tick that searches and has a due bucket moves the watermark exactly when the searches of the left-most halves fit
under the cap, as they do where the cap has room for a pass of every kind at every halving. -/
theorem waf_ticks_advance {row₀ row : CollectionWatermark} {tr : List WafCollectTaken}
    (h : Run (wafCollect cfg) WafCollectReport.watermark row₀ tr row) (hwhole : ∀ e ∈ tr, e.input.provider.Whole cfg) :
    ∀ e ∈ tr, e.input.searches = true → e.input.due cfg e.before ≠ [] →
      (WafCollectTaken.Advances cfg e ↔ e.input.Fits cfg e.before) ∧
      (cfg.kinds.length * (Nat.log2 (e.input.due cfg e.before).length + 1) ≤ cfg.maxSearches →
        WafCollectTaken.Advances cfg e) := by
  intro e he hsearches hdue
  have hadvances := wafCollect_advances_iff (hwhole e he) (h.taken e he) hsearches hdue
  refine ⟨hadvances, fun hroom => hadvances.mpr ?_⟩
  simp only [WafCollectTick.Fits]
  split
  · trivial
  · rename_i first rest hcases
    rw [hcases, List.length_cons] at hroom
    exact leftmostSearches_le.trans hroom

def defaultWafCollection : WafCollectConfig where
  interval := 300
  interval_pos := by omega
  maxBackfillIntervals := 12
  maxSearches := 16
  planned := fun _ => true

/-- The buckets of a search of a provider that truncates every search of more than `limit` buckets. -/
def denseBuckets {β : Type} (cfg : WafCollectConfig) (limit : Nat) (empty : Int → Int → β)
    (span : Span Int) : Dict Int β × Bool :=
  let starts := bucketStarts cfg span.start ((span.stop - span.start) / seconds cfg.interval).toNat
  (starts.map (fun start => (start, empty start (start + seconds cfg.interval))), limit < starts.length)

def emptyObservations (start stop : Int) : WafObservationBatch := { windowStart := start, windowEnd := stop }

def emptyBreakdown (start stop : Int) : WafBreakdownBatch := { windowStart := start, windowEnd := stop }

def denseWafProvider (cfg : WafCollectConfig) (limit : Nat) : WafLiveProvider where
  volume := {
    one := fun _ span => .ok (emptyObservations span.start span.stop)
    keyed := fun _ span =>
      .ok ⟨(denseBuckets cfg limit emptyObservations span).1, (denseBuckets cfg limit emptyObservations span).2⟩ }
  breakdown := fun _ _ span => .ok (emptyBreakdown span.start span.stop)
  breakdownBucketed := fun _ _ span =>
    .ok ⟨(denseBuckets cfg limit emptyBreakdown span).1, (denseBuckets cfg limit emptyBreakdown span).2⟩

theorem denseBuckets_keys {β : Type} (limit : Nat) (empty : Int → Int → β) (start : Int) (count : Nat) :
    (denseBuckets cfg limit empty (windowSpan cfg start count)).1.keys = bucketStarts cfg start count := by
  have hpos := cfg.interval_pos
  have hcount : ((windowSpan cfg start count).stop - (windowSpan cfg start count).start) / seconds cfg.interval = count := by
    simp only [windowSpan, seconds, add_sub_cancel_left]
    rw [Int.mul_right_comm, Int.mul_comm, Int.mul_ediv_cancel _ (by omega)]
  simp only [denseBuckets, hcount, Int.toNat_natCast, Dict.keys, List.map_map]
  exact List.map_id _

theorem denseWafProvider_whole (limit : Nat) : (denseWafProvider cfg limit).Whole cfg where
  one := fun _ _ => ⟨_, rfl⟩
  keyed := fun _ _ => ⟨_, rfl⟩
  volume_buckets := by
    intro k start count keyed hanswer _
    cases hanswer
    rw [denseBuckets_keys]
    exact fun bucket hbucket => hbucket
  breakdown_buckets := by
    intro k breakdown start count keyed hanswer _
    cases hanswer
    rw [denseBuckets_keys]
    exact fun bucket hbucket => hbucket

/-- A tick a cadence after the watermark's bucket was over, on a source that fills a search with two buckets. -/
def denseTick (boundary : Int) (cadenceSeconds : Nat) : WafCollectTick where
  now := seconds boundary
  cadenceSeconds := cadenceSeconds
  provider := denseWafProvider defaultWafCollection 1

theorem waf_ticks_advance_quarter : ∃ (tr : List WafCollectTaken) (row : CollectionWatermark),
    Run (wafCollect defaultWafCollection) WafCollectReport.watermark { watermarkAt := some 0 } tr row ∧
      tr.map Taken.input = [denseTick 1200 900, denseTick 2100 900] ∧
      (∀ e ∈ tr, WafCollectTaken.Advances defaultWafCollection e) ∧ row.watermarkAt = some (seconds 1200) := by
  obtain ⟨tr, row, hrun, hinputs, hcomputed⟩ := exists_run_of_inputs (wafCollect defaultWafCollection) WafCollectReport.watermark
    { watermarkAt := some 0 } [denseTick 1200 900, denseTick 2100 900]
    (fun (r : List WafCollectTaken × CollectionWatermark) => (r.1.all (fun (e : WafCollectTaken) =>
      decide (e.input.searches = true ∧ e.input.due defaultWafCollection e.before ≠ [] ∧
        defaultWafCollection.kinds.length * (Nat.log2 (e.input.due defaultWafCollection e.before).length + 1) ≤ 16)),
      r.2.watermarkAt)) (true, some (seconds 1200)) (by with_unfolding_all decide)
  simp only [Prod.mk.injEq, List.all_eq_true, decide_eq_true_eq] at hcomputed
  obtain ⟨hall, hrow⟩ := hcomputed
  have hwhole : ∀ e ∈ tr, e.input.provider.Whole defaultWafCollection := by
    intro e he
    have hinput : e.input ∈ [denseTick 1200 900, denseTick 2100 900] := hinputs ▸ List.mem_map_of_mem he
    simp only [List.mem_cons, List.not_mem_nil, or_false] at hinput
    rcases hinput with hinput | hinput <;> rw [hinput] <;> exact denseWafProvider_whole 1
  refine ⟨tr, row, hrun, hinputs, fun e he => ?_, hrow⟩
  obtain ⟨hsearches, hdue, hroom⟩ := hall e he
  exact (waf_ticks_advance hrun hwhole e he hsearches hdue).2 hroom

/-- With a cadence of two hours every tick ends at the cap with no complete bucket. -/
theorem waf_ticks_stuck : (denseWafProvider defaultWafCollection 1).Whole defaultWafCollection ∧
    ∃ (tr : List WafCollectTaken) (row : CollectionWatermark),
      Run (wafCollect defaultWafCollection) WafCollectReport.watermark { watermarkAt := some 0 } tr row ∧
      tr.map Taken.input = [denseTick 7500 7200, denseTick 14700 7200] ∧
      (∀ e ∈ tr, e.input.searches = true ∧ e.input.due defaultWafCollection e.before ≠ [] ∧
        ¬ WafCollectTaken.Advances defaultWafCollection e) ∧ row.watermarkAt = some 0 := by
  obtain ⟨tr, row, hrun, hinputs, hcomputed⟩ := exists_run_of_inputs (wafCollect defaultWafCollection) WafCollectReport.watermark
    { watermarkAt := some 0 } [denseTick 7500 7200, denseTick 14700 7200]
    (fun (r : List WafCollectTaken × CollectionWatermark) => (r.1.all (fun (e : WafCollectTaken) =>
      decide (e.input.searches = true ∧ e.input.due defaultWafCollection e.before ≠ [] ∧ e.before.watermarkAt = some 0 ∧
        e.output.watermark.watermarkAt = some 0)), r.2.watermarkAt)) (true, some 0) (by with_unfolding_all decide)
  simp only [Prod.mk.injEq, List.all_eq_true, decide_eq_true_eq] at hcomputed
  obtain ⟨hall, hrow⟩ := hcomputed
  refine ⟨denseWafProvider_whole 1, tr, row, hrun, hinputs, fun e he => ?_, hrow⟩
  obtain ⟨hsearches, hdue, hbefore, hafter⟩ := hall e he
  refine ⟨hsearches, hdue, ?_⟩
  rintro ⟨watermarkAt, hnew, hold⟩
  cases hafter.symm.trans hnew
  exact absurd (hold 0 hbefore) (by decide)

end WafLive

/-! ## Split searches -/

section Split

variable {cfg : WafCollectConfig}

/-- A window of `n` buckets ends with its first `m` completed, each of a whole search that covers it, and stops there
only at a failure, the cap or the deadline. No search is sent at the cap. -/
theorem split_searches_honest {a : WindowArgs μ} (hinterval : 0 < a.interval) (hkeyed : a.Keyed)
    {provider : WafLiveProvider} (hwaf : provider.Keyed cfg) :
    (∀ start n, 1 ≤ n → (a.sent start n 0 {}).length ≤ 2 * n - 1 ∧
      ∃ m ≤ n, WindowPrefix a start m (searchWindow a start n) (a.sent start n 0 {}) ∧
        WindowEnd a start m n (searchWindow a start n) (a.sent start n 0 {})) ∧
    (∀ start depth pending w w' truncated,
      searchKinds cfg provider start 1 depth pending w = (w', some truncated) → truncated = []) ∧
    ∀ intervals, FetchHonest cfg provider intervals := by
  refine ⟨fun start n hn => ⟨length_sent_le start hn, ?_⟩, fun _ _ _ _ _ _ h => searchKinds_lone h,
    fetchWafWindow_honest hwaf⟩
  have hempty : WindowPrefix a start 0 {} [] :=
    ⟨rfl, fun _ _ hget => (by cases hget), rfl, rfl, Nat.zero_le _⟩
  obtain ⟨m, hprefix, hend⟩ := @search_completes μ a start 0 n 0 {} [] hinterval hkeyed hn hempty rfl rfl rfl
  have hstart : a.bucketAt start 0 = start := by simp [WindowArgs.bucketAt, seconds]
  rw [hstart, List.nil_append] at hprefix hend
  rw [Nat.zero_add] at hend
  exact ⟨m, hend.le, hprefix, hend⟩

def denseWindow (limit : Nat) : WindowArgs Int where
  provider := {
    metrics := fun _ first _ => .ok [first]
    bucketed := fun _ first stop =>
      let found := denseBuckets defaultWafCollection limit (fun start _ => [start]) ⟨first, stop⟩
      .ok ⟨found.1, found.2⟩ }
  before := 0
  clock := fun _ => 0
  deadline := none
  maxSearches := 16
  interval := 300

theorem denseWindow_keyed (limit : Nat) : (denseWindow limit).Keyed := by
  intro k first count batch hanswer _
  cases hanswer
  exact List.Perm.of_eq (@denseBuckets_keys defaultWafCollection (List Int) limit (fun start _ => [start]) first count)

theorem denseWafProvider_keyed (limit : Nat) : (denseWafProvider cfg limit).Keyed cfg where
  volume := by
    intro k start count keyed hanswer _
    cases hanswer
    exact List.Perm.of_eq (denseBuckets_keys limit emptyObservations start count)
  breakdown := by
    intro k breakdown start count keyed hanswer _
    cases hanswer
    exact List.Perm.of_eq (denseBuckets_keys limit emptyBreakdown start count)

theorem split_searches_honest_five :
    (((denseWindow 1).sent 0 5 0 {}).map (fun e => (e.first / seconds 300, e.count)) =
      [(0, 5), (0, 2), (0, 1), (1, 1), (2, 3), (2, 1), (3, 2), (3, 1), (4, 1)]) ∧
    (∃ m ≤ 5, WindowPrefix (denseWindow 1) 0 m (searchWindow (denseWindow 1) 0 5) ((denseWindow 1).sent 0 5 0 {}) ∧
      WindowEnd (denseWindow 1) 0 m 5 (searchWindow (denseWindow 1) 0 5) ((denseWindow 1).sent 0 5 0 {})) ∧
    FetchHonest defaultWafCollection (denseWafProvider defaultWafCollection 1) [0, seconds 300] := by
  obtain ⟨hwindow, -, hfetch⟩ := split_searches_honest (by decide : (0 : Int) < (denseWindow 1).interval)
    (denseWindow_keyed 1) (@denseWafProvider_keyed defaultWafCollection 1)
  exact ⟨by with_unfolding_all decide, (hwindow 0 5 (by decide)).2, hfetch [0, seconds 300]⟩

end Split

/-! ## The history of a watch -/

section WatchHistory

open PropertyWatch

/-- For every accepted request and every tick with time and buckets left, in which live collection spent at most its
weighed searches, the first plan goes exactly when the searches left cover the smallest step for every chunk of the
scope. -/
theorem accepted_history_paid {u : UnicodeTables} {s : PwSettings φ} {cadence : Int} {watch : PropertyWatchRow}
    {scope : ResolvedScope} {inputs : PwReadingInputs} {live : Nat} {left : φ}
    (hplanner : pwPlannerSettings s cadence = .ok st) (hinputs : readingInputs u s watch scope = .ok inputs)
    (hleft : PyFloat.le left (PyFloat.ofInt 0) = false) :
    (s.pwBootstrapEnabled = true → historyBudgetReasons s watch live = [] →
      ∀ (tick : PwHistoryTick φ) (version : Int) (values : TrackedValues) (progress : ScopeProgress Int φ) (start : Int)
        (budget : PwSearchBudget), tick.secondsLeft 0 = left → Unread st progress start tick.boundary tick.now →
        budget.maxSearches = s.pwMaxSearchesPerTick → budget.used ≤ live →
        PwStepArgs.FirstPlanGoes ⟨u, s, st, tick, scope, inputs, version, values⟩ progress budget) ↔
    (s.pwBootstrapEnabled = true → historyBudgetReasons s watch live = [] →
      historyStepSearches watch.pinned * max 1 scope.chunks.length ≤
        min s.pwBootstrapSearchesPerTick (s.pwMaxSearchesPerTick - live)) := by
  constructor
  · intro hgoes henabled haccepted
    by_contra hshort
    let tick : PwHistoryTick φ := ⟨0, st.bucket, fun _ => left, fun _ => false, fun _ _ => .error .failed⟩
    let progress : ScopeProgress Int φ := { targetStart := 0, startedAt := 0, floor := some 0 }
    have hunread : Unread st progress 0 st.bucket 0 :=
      ⟨rfl, ⟨Int.dvd_zero _, Int.dvd_refl _⟩, st.bucket_pos⟩
    have hhours := st.hours_ok.1
    have htime : ¬ tick.now - progress.startedAt > seconds (st.maxHours * 3600) := by
      simp only [tick, progress, seconds]
      omega
    have hwaits : ¬ PwStepArgs.FirstPlanGoes ⟨u, s, st, tick, scope, inputs, 1, []⟩ progress
        ⟨s.pwMaxSearchesPerTick, none, live, []⟩ :=
      PwStepArgs.not_firstPlanGoes hinputs ⟨henabled, hleft, hunread⟩ htime (not_le.mp hshort)
    exact hwaits (hgoes henabled haccepted tick 1 [] progress 0 _ rfl hunread rfl (Nat.le_refl _))
  · intro hpaid henabled haccepted tick version values progress start budget hseconds hunread hwhole hspent
    refine PwStepArgs.firstPlanGoes_of_paid hinputs ⟨henabled, by rw [hseconds]; exact hleft, hunread⟩
      (pwPlannerSettings_span hplanner) ((hpaid henabled haccepted).trans ?_)
    refine min_le_min (Nat.le_refl _) ?_
    rw [pwRemaining, hwhole]
    exact Nat.sub_le_sub_left hspent _

def narrowSettings (searches : Nat) : PwSettings ℚ where
  pwMaxSourcesPerSearch := 1
  pwBootstrapSearchesPerTick := searches
  sources_pos := Nat.one_pos
  chunks_pos := defaultChunks_pos
  admission_pos := defaultAdmission_pos

def groupWatch : PropertyWatchRow where
  id := "watch"
  instanceId := "qradar"
  name := "users"
  scopeKind := .logSourceGroup
  scopeGroupId := some 4
  properties := [⟨.normalized, "username"⟩]
  detectors := []
  historyDays := some 7
  updatedAt := 0

def groupScope : ResolvedScope := ⟨.logSourceGroup, [[11], [12]]⟩

theorem exists_narrowPlanner (searches : Nat) (h : 1 ≤ searches) :
    ∃ st, pwPlannerSettings (narrowSettings searches) 300 = .ok st := by
  refine exists_pwPlannerSettings (show (1 : Int) ≤ 300 ∧ (86400 : Int) % 300 = 0 by decide)
    (show (1 : Int) ≤ 24 ∧ (24 : Int) ≤ 168 by decide)
    ⟨show (1 : Int) ≤ 5000 by decide, by with_unfolding_all decide, by with_unfolding_all decide⟩
    ⟨show (1 : Int) ≤ 3 by decide, ?_⟩ ?_ (show (1 : Int) ≤ 72 ∧ (1 : Int) ≤ 300 by decide)
  · simp only [narrowSettings]
    omega
  · exact (show PyFloat.le (PyFloat.ofInt 0) (PyFloat.ofRat 0.05 : ℚ) = true ∧
      PyFloat.le (PyFloat.ofRat 0.05 : ℚ) (PyFloat.ofInt 1) = true by with_unfolding_all decide)

def groupInputs : PwReadingInputs := ⟨[("NORMALIZED", "username")], [], 0⟩

def groupStep (searches : Nat) (st : PlannerSettings ℚ) (tick : PwHistoryTick ℚ) : PwStepArgs ℚ :=
  ⟨asciiTables, narrowSettings searches, st, tick, groupScope, groupInputs, 1, []⟩

theorem readingInputs_group (searches : Nat) : readingInputs asciiTables (narrowSettings searches) groupWatch groupScope =
    .ok groupInputs := rfl

theorem accepted_history_paid_two_chunks :
    historyBudgetReasons (narrowSettings 12) groupWatch 4 = [] ∧ 2 * 2 ≤ min 12 (40 - 4) ∧
      ∃ st, pwPlannerSettings (narrowSettings 12) 300 = .ok st ∧
        ∀ (tick : PwHistoryTick ℚ) (progress : ScopeProgress Int ℚ) (start : Int) (used : Nat),
          tick.secondsLeft 0 = 60 → Unread st progress start tick.boundary tick.now → used ≤ 4 →
          (groupStep 12 st tick).FirstPlanGoes progress ⟨40, none, used, []⟩ := by
  obtain ⟨st, hst⟩ := exists_narrowPlanner 12 (by decide)
  have haccepted : historyBudgetReasons (narrowSettings 12) groupWatch 4 = [] := by decide
  have hleft : PyFloat.le (60 : ℚ) (PyFloat.ofInt 0) = false := by decide
  have hpaid : (narrowSettings 12).pwBootstrapEnabled = true → historyBudgetReasons (narrowSettings 12) groupWatch 4 = [] →
      historyStepSearches groupWatch.pinned * max 1 groupScope.chunks.length ≤
        min (narrowSettings 12).pwBootstrapSearchesPerTick ((narrowSettings 12).pwMaxSearchesPerTick - 4) :=
    fun _ _ => by decide
  have hgoes := (accepted_history_paid hst (readingInputs_group 12) hleft).mpr hpaid rfl haccepted
  exact ⟨haccepted, by decide, st, hst, fun tick progress start used hleft hunread hused =>
    hgoes tick 1 [] progress start ⟨40, none, used, []⟩ hleft hunread rfl hused⟩

/-- A five-minute tick gives a reading three searches, and its first plan waits in every tick. -/
theorem two_chunks_starve : enableReasons (narrowSettings 3) (fun _ => 2) [] groupWatch = [] ∧
    historyBudgetReasons (narrowSettings 3) groupWatch 4 = [] ∧
      ∃ st, pwPlannerSettings (narrowSettings 3) 300 = .ok st ∧
        ∀ (tick : PwHistoryTick ℚ) (progress : ScopeProgress Int ℚ) (start : Int) (used : Nat),
          PyFloat.le (tick.secondsLeft 0) (PyFloat.ofInt 0) = false →
          Unread st progress start tick.boundary tick.now →
          tick.now - progress.startedAt ≤ seconds (st.maxHours * 3600) →
          ∃ plan, (groupStep 3 st tick).plan ((groupStep 3 st tick).first progress ⟨40, none, used, []⟩) = .ok plan ∧
            plan.step.action = .wait := by
  obtain ⟨st, hst⟩ := exists_narrowPlanner 3 (by decide)
  refine ⟨by decide, by decide, st, hst, fun tick progress start used hleft hunread htime => ?_⟩
  refine PwStepArgs.firstPlan_waits (readingInputs_group 3) ⟨rfl, hleft, hunread⟩ (not_lt.mpr htime) ?_
  exact lt_of_le_of_lt (min_le_left _ _) (show 3 < 2 * max 1 2 by decide)

/-- If every call is answered whole and no span-wide search is cut between two chunks by the deadline, nothing counts as
a failure, and a reading that ends unavailable has seen the whole window without an event or a floor at its end. -/
theorem exhaustion_is_no_failure {days boundary now : Int} {p₀ : ScopeProgress Int φ}
    (hstart : startProgress st days boundary now = .ok p₀) {tr : List (PwTaken φ)} {scope : PwScope φ}
    (h : PwHistoryRun p₀ tr scope) (hwhole : ∀ e ∈ tr, e.input.1.tick.provider.Whole)
    (huncut : ∀ e ∈ tr, e.input.1.WideUncut (e.input.first e.before)) :
    (∀ e ∈ tr, Calm e.output.1.progress ∧ (∀ settlement ∈ e.output.2.settlement, settlement.newGap = none) ∧
      (e.output.1.state = .unavailable → e.input.1.Exhausted (e.input.first e.before) (SilentRun tr)
        (boundary - seconds (days * 86400) - st.margin) p₀.targetStart)) ∧ Calm scope.progress := by
  obtain ⟨hcalm, hcursor⟩ := startProgress_calm hstart
  obtain ⟨hticks, hlast⟩ := pwHistoryRun_calm hcalm hcursor h hwhole huncut
  exact ⟨fun e he => ⟨(hticks e he).calm, (hticks e he).noGap, (hticks e he).unavailable⟩, hlast⟩

def dailySettings : PwSettings ℚ := { narrowSettings 12 with collectionIntervalSeconds := 86400 }

theorem dailyBuckets_ok : (1 : Int) ≤ 86400 ∧ (86400 : Int) % 86400 = 0 := by decide

theorem dailyChunks_ok : (1 : Int) ≤ 12 ∧ (12 : Int) ≤ 288 := by decide

theorem dailyCounts_ok : (1 : Int) ≤ 3 ∧ (1 : Int) ≤ 20 ∧ (1 : Int) ≤ 12 := by decide

theorem dailyHours_ok : (1 : Int) ≤ 72 ∧ (1 : Int) ≤ 86400 := by decide

def dailyPlanner : PlannerSettings ℚ := { defaultSettings with
  bucketSeconds := 86400
  minChunkBuckets := 12
  searchesPerTick := 12
  cadenceSeconds := 86400
  bucketSeconds_ok := dailyBuckets_ok
  chunkWidths_ok := dailyChunks_ok
  counts_ok := dailyCounts_ok
  hours_ok := dailyHours_ok }

theorem pwPlannerSettings_daily : pwPlannerSettings dailySettings 86400 = .ok dailyPlanner := by
  have hrows : (1 : Int) ≤ dailySettings.pwMaxRowsPerSearch ∧
      PyFloat.lt (PyFloat.ofInt 0) (rowTargetShare : ℚ) = true ∧
      PyFloat.le (rowTargetShare : ℚ) (PyFloat.ofInt 1) = true :=
        ⟨by decide, by with_unfolding_all decide, by with_unfolding_all decide⟩
  have hshare : PyFloat.le (PyFloat.ofInt 0) dailySettings.pwBootstrapMaxLowerBoundShare = true ∧
      PyFloat.le dailySettings.pwBootstrapMaxLowerBoundShare (PyFloat.ofInt 1) = true := by with_unfolding_all decide
  unfold pwPlannerSettings
  rw [dif_pos (by decide), dif_pos (by decide), dif_pos hrows, dif_pos (by decide), dif_pos hshare, dif_pos (by decide)]
  rfl

def firstBucketProvider : PwHistoryProvider := fun _ request => .ok {
  rows := if 1 ≤ request.maxRows ∧ request.windowStart < request.windowEnd then
      [⟨request.windowStart, 1, List.replicate (propertyCount request.spec) (some "root")⟩] else [] }

theorem firstBucketProvider_whole : firstBucketProvider.Whole := by
  intro k request hrows
  refine ⟨_, rfl, rfl, ?_⟩
  by_cases hrow : 1 ≤ request.maxRows ∧ request.windowStart < request.windowEnd
  · simp [PwHistoryArgs.accepted, SearchArgs.contained, hrow]
  · simp [PwHistoryArgs.accepted, SearchArgs.contained, hrow, hrows]

def dailyTick (expired : Nat → Bool) : PwTickInput ℚ :=
  (⟨asciiTables, dailySettings, dailyPlanner, ⟨0, 0, fun _ => 60, expired, firstBucketProvider⟩, groupScope,
    groupInputs, 1, []⟩, ⟨40, none, 4, []⟩)

def threeDays : ScopeProgress Int ℚ :=
  { targetStart := -259200000000, startedAt := 0, scanCursor := some (-345600000000) }

theorem startProgress_threeDays : startProgress dailyPlanner 3 0 0 = .ok threeDays := by
  obtain ⟨p, hp, heq⟩ := exists_ok_of_toOption (x := startProgress dailyPlanner 3 0 0) (f := fun p => p)
    (b := threeDays) (by decide)
  rw [hp, heq]

theorem exhaustion_is_no_failure_two_ticks : ∃ tr scope, PwHistoryRun threeDays tr scope ∧
    startProgress dailyPlanner 3 0 0 = .ok threeDays ∧ scope.state = .complete ∧ Calm scope.progress := by
  obtain ⟨tr, scope, h, hinputs, hstate⟩ := exists_run_of_inputs
    (fun scope (i : PwTickInput ℚ) => pwHistoryTick i.1 scope i.2) (fun o => o.1) ⟨.reading, threeDays⟩
    [dailyTick (fun _ => true), dailyTick (fun _ => false)] (fun r => r.2.state) .complete (by with_unfolding_all decide)
  have hticks : ∀ e ∈ tr, e.input = dailyTick (fun _ => true) ∨ e.input = dailyTick (fun _ => false) := by
    intro e he
    have := hinputs ▸ List.mem_map_of_mem (f := Taken.input) he
    simpa using this
  refine ⟨tr, scope, h, startProgress_threeDays, hstate, (exhaustion_is_no_failure startProgress_threeDays h ?_ ?_).2⟩
  · intro e he
    rcases hticks e he with h | h <;> rw [h] <;> exact firstBucketProvider_whole
  · intro e he
    refine PwStepArgs.wideUncut_of_all (fun k => ?_)
    rcases hticks e he with h | h
    · rw [h]
      exact .inl rfl
    · rw [h]
      exact .inr (fun _ _ => rfl)

/-- Three ticks whose deadline passes between the two chunks of the floor scan: the reading ends unavailable. -/
theorem exhaustion_unavailable : pwPlannerSettings dailySettings 86400 = .ok dailyPlanner ∧
    startProgress dailyPlanner 3 0 0 = .ok threeDays ∧ firstBucketProvider.Whole ∧
    ∃ tr scope, PwHistoryRun threeDays tr scope ∧ (∀ e ∈ tr, e.input = dailyTick (fun k => decide (1 ≤ k))) ∧
      scope.state = .unavailable ∧ scope.progress.scanFailures = 3 := by
  obtain ⟨tr, scope, h, hinputs, hend⟩ := exists_run_of_inputs
    (fun scope (i : PwTickInput ℚ) => pwHistoryTick i.1 scope i.2) (fun o => o.1) ⟨.reading, threeDays⟩
    (List.replicate 3 (dailyTick (fun k => decide (1 ≤ k)))) (fun r => (r.2.state, r.2.progress.scanFailures))
    (.unavailable, 3) (by with_unfolding_all decide)
  obtain ⟨hstate, hfailures⟩ := Prod.mk.inj hend
  refine ⟨pwPlannerSettings_daily, startProgress_threeDays, firstBucketProvider_whole, tr, scope, h,
    fun e he => ?_, hstate, hfailures⟩
  exact List.eq_of_mem_replicate (hinputs ▸ List.mem_map_of_mem (f := Taken.input) he)

/-- A call of `runKind` that ends refused leaves both budgets grown by the searches it sent exactly if a search it tried
was refused. -/
theorem refused_permit_free_iff {u : UnicodeTables} {s : PwSettings φ} {tick : PwHistoryTick φ}
    {inputs : PwReadingInputs} {scope : ResolvedScope} {kind : PwSearchKind} {span : Span Int}
    {budget after : PwStepBudget}
    (h : runKind u s tick inputs scope kind span budget = .error (.permitUnavailable after)) :
    (after.used = budget.used + sentSearches (kindAnswers u s tick inputs scope kind span budget) ∧
      after.parent.used = budget.parent.used + sentSearches (kindAnswers u s tick inputs scope kind span budget)) ↔
    refusedSearches (kindAnswers u s tick inputs scope kind span budget) = 1 := by
  obtain ⟨hrefused, hused, hparent⟩ := runKind_refunded h
  constructor
  · rintro ⟨hsent, -⟩
    omega
  · intro hone
    omega

def refusedWith {α : Type} : Except PwStepError α → Option PwStepBudget
  | .error (.permitUnavailable after) => some after
  | _ => none

theorem refusedWith_eq_some {α : Type} {x : Except PwStepError α} {after}
    (h : refusedWith x = some after) : x = .error (.permitUnavailable after) := by
  unfold refusedWith at h
  split at h
  · cases h
    rfl
  · cases h

/-- A step at the epoch whose provider refuses every permit after `sent` searches; the ones before are truncated. -/
def refusingTick (sent : Nat) : PwHistoryTick ℚ where
  now := 0
  boundary := 0
  secondsLeft := fun _ => 60
  expired := fun _ => false
  provider := fun k _ => if k < sent then .ok { truncated := true } else .error .permitUnavailable

def freshStep : PwStepBudget := ⟨⟨40, none, 4, []⟩, 12, 0⟩

def refusedTotals (sent : Nat) : Except PwStepError (List PwBucketOutcome × PwStepBudget) :=
  runKind asciiTables (narrowSettings 12) (refusingTick sent) groupInputs ⟨.logSourceGroup, [[11]]⟩ .totals
    ⟨0, 600000000⟩ freshStep

def refusedAnswers (sent : Nat) : List (Except PwCallError PwKeyedResult) :=
  kindAnswers asciiTables (narrowSettings 12) (refusingTick sent) groupInputs ⟨.logSourceGroup, [[11]]⟩ .totals
    ⟨0, 600000000⟩ freshStep

theorem refused_permit_free_first : refusedTotals 0 = .error (.permitUnavailable freshStep) ∧
    refusedSearches (refusedAnswers 0) = 1 := by
  have h : refusedTotals 0 = .error (.permitUnavailable freshStep) :=
    refusedWith_eq_some (by with_unfolding_all decide)
  refine ⟨h, (refused_permit_free_iff h).mp ?_⟩
  with_unfolding_all decide

/-- A truncated search whose two halves are both refused: one search was sent and two are charged, on both budgets. -/
theorem refused_halves_charged : refusedTotals 1 = .error (.permitUnavailable ⟨⟨40, none, 6, []⟩, 12, 2⟩) ∧
    sentSearches (refusedAnswers 1) = 1 :=
  ⟨refusedWith_eq_some (by with_unfolding_all decide), by with_unfolding_all decide⟩

end WatchHistory

end QRadarDashboard.Collectors
