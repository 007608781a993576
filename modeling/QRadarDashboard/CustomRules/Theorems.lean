import QRadarDashboard.CustomRules.Lemmas.Alerts
import QRadarDashboard.CustomRules.Lemmas.Observation
import QRadarDashboard.CustomRules.Lemmas.Preview
import QRadarDashboard.CustomRules.Lemmas.Storage
import QRadarDashboard.CustomRules.Lemmas.Verdict
import QRadarDashboard.CustomRules.Lemmas.Walk

/-!
# Custom rules: main results
-/

namespace QRadarDashboard.CustomRules
open Lib Alerts

variable {φ : Type} [PyFloat φ]

/-! ## A sample rule

More than 100 events in a bucket: one breaching bucket opens, one bucket under resolves. -/

def sampleIds (letter : Char) (n : Nat) : String := String.ofList (List.replicate (n + 1) letter)

def sampleRuntime : Runtime where
  uuid4 := sampleIds 'b'
  repr s := "'" ++ s ++ "'"

def sampleRuleId : String := "7d444840-9dc0-11d1-b245-5ffdce74fad2"

def sampleBreachId : String := "5b0f2c1e-1f63-4a4e-9d0a-2f1d2f6f8a10"

def sampleRule (activeBreachId : Option String) : CustomRule ℚ where
  id := sampleRuleId
  name := "Too many events"
  subjectKind := "LOG_SOURCE"
  metric := .eventCount
  operator := "GT"
  thresholdValue := 100
  sustainBuckets := 1
  recoveryBuckets := 1
  severity := .medium
  enabled := true
  activeBreachId := activeBreachId
  sustainBuckets_ok := by decide
  recoveryBuckets_ok := by decide

def sampleBreach : CustomRuleBreach ℚ where
  id := sampleBreachId
  ruleId := sampleRuleId
  state := .opened
  firstBucketStart := seconds 0
  lastBucketStart := seconds 0
  openedAt := seconds 360
  recoveringAt := none
  resolvedAt := none
  worstValue := some 150
  worstMeasurement := some .exact
  lastValue := some 150
  lastMeasurement := some .exact
  unmeasuredBuckets := 0
  subjectLabel := "a source"
  details := []

def sampleTick (counts : List Int) : RuleTick ℚ where
  subjectLabel := "a source"
  grid := counts.mapIdx (fun i n =>
    { facts := { bucketStart := seconds (300 * (i + 1)), present := true, eventCount := some n,
                 completeness := some "COMPLETE" } })
  now := seconds 3600

theorem sampleIds_injective (letter : Char) : Function.Injective (sampleIds letter) := by
  intro m n h
  have hlen := congrArg String.length h
  simpa [sampleIds] using hlen

theorem sampleIds_ne {letter letter'} (h : letter ≠ letter') (m n : Nat) :
    sampleIds letter m ≠ sampleIds letter' n := by
  intro heq
  have hhead := congrArg (fun t => t.toList.head?) heq
  simp [sampleIds, List.replicate_succ, h] at hhead

theorem sampleBreachId_ne (n : Nat) : sampleBreachId ≠ sampleRuntime.uuid4 n := by
  intro h
  have hhead := congrArg (fun t => t.toList.head?) h
  simp [sampleRuntime, sampleIds, sampleBreachId, List.replicate_succ] at hhead

theorem stored_sampleRule : Stored (sampleRule (some sampleBreachId)) [sampleBreach] := by
  refine ⟨by decide, ?_, ?_⟩
  · intro row hrow row' hrow' _ _ _ _
    rw [List.mem_singleton.mp hrow, List.mem_singleton.mp hrow']
  intro row hrow
  have hrow : some sampleBreach = some row := hrow
  cases hrow
  exact ⟨rfl, Or.inl rfl⟩

theorem freshIds_sampleRule : FreshIds sampleRuntime.uuid4 [sampleBreach] := by
  refine ⟨sampleIds_injective 'b', ?_⟩
  intro n row hrow
  rw [List.mem_singleton.mp hrow]
  exact sampleBreachId_ne n

theorem not_conflicts_sampleRule (tick : RuleTick ℚ) :
    ¬ TickConflicts sampleRuntime (sampleRule (some sampleBreachId)) [sampleBreach] tick := by
  rintro ⟨hnone, -⟩
  have hrow : breachRow (sampleRule (some sampleBreachId)) [sampleBreach] = some sampleBreach := rfl
  rw [hrow] at hnone
  cases hnone

/-! ## Ticks over the same buckets -/

/-- Two ticks give the counters, the watermark, the live breach and the events of one tick, up to the breach ids,
`is_new` and the `now` stamps. -/
def SplitAgrees (repr : String → String) (ids ids₁ ids₂ : Nat → String) (rule : CustomRule φ)
    (rows : List (CustomRuleBreach φ)) (tick tick₁ tick₂ : RuleTick φ) : Prop :=
  ∃ out₁ rule₁ rows₁, tickRule ⟨ids₁, repr⟩ rule rows tick₁ = .ok (out₁, rule₁, rows₁) ∧
    let out₂ := foldRule ⟨ids₂, repr⟩ (foldInput rule₁ (breachRow rule₁ rows₁) tick₂)
    let out := foldRule ⟨ids, repr⟩ (foldInput rule (breachRow rule rows) tick)
    out₂.consecutiveBreaching = out.consecutiveBreaching ∧
      out₂.consecutiveUnder = out.consecutiveUnder ∧
      out₂.lastEvaluatedBucketStart = out.lastEvaluatedBucketStart ∧
      out₂.breach.map (·.blur .blind) = out.breach.map (·.blur .blind) ∧
      (out₁.events ++ out₂.events).map (·.blur .blind) = out.events.map (·.blur .blind)

/-- In a fold that may judge, offering judged buckets again, anywhere in the list, changes nothing. -/
def IgnoresJudged (φ : Type) [PyFloat φ] : Prop :=
  ∀ (rt : Runtime) (spec : FoldInput φ), MayJudge spec → ∀ w, spec.lastEvaluatedBucketStart = some w →
    ∀ offered : List (InterpretedReading φ),
      offered.filter (fun r => w < r.bucketStart) = spec.readings.filter (fun r => w < r.bucketStart) →
      foldRule rt (spec.offer offered spec.now) = foldRule rt spec

/-- Two ticks over the parts of a grid agree with one tick over all of it exactly when the first one keeps the live
breach that it ends with; judged buckets are ignored. -/
theorem tickRule_split_iff {rule : CustomRule φ} {rows : List (CustomRuleBreach φ)} {tick : RuleTick φ}
    (hjudge : MayJudge (foldInput rule (breachRow rule rows) tick)) (hstored : Stored rule rows)
    {g₁ g₂ : List (GridPoint φ)} (hsplit : tick.grid = g₁ ++ g₂)
    (hbefore : ∀ a ∈ readings rule.metric g₁, ∀ b ∈ readings rule.metric g₂, a.bucketStart < b.bucketStart)
    (repr : String → String) (ids : Nat → String) {ids₁ : Nat → String} (hids : FreshIds ids₁ rows)
    (ids₂ : Nat → String) (now₁ now₂ : Int) :
    (SplitAgrees repr ids ids₁ ids₂ rule rows tick { tick with grid := g₁, now := now₁ }
        { tick with grid := g₂, now := now₂ } ↔
      ¬ TickLosesBreach ⟨ids₁, repr⟩ rule rows { tick with grid := g₁, now := now₁ }) ∧ IgnoresJudged φ := by
  constructor
  · set tick₁ : RuleTick φ := { tick with grid := g₁, now := now₁ } with htick₁
    set tick₂ : RuleTick φ := { tick with grid := g₂, now := now₂ }
    set spec := foldInput rule (breachRow rule rows) tick with hspec
    have hreadings : spec.readings = readings rule.metric g₁ ++ readings rule.metric g₂ := by
      rw [hspec, foldInput, hsplit]
      exact List.map_append
    set out₁ := foldRule ⟨ids₁, repr⟩ (foldInput rule (breachRow rule rows) tick₁) with hout₁
    refine ⟨?_, fun hkeeps => ?_⟩
    · rintro ⟨out₁', rule₁, rows₁, hok, -, -, -, hsame, hevents⟩
      obtain ⟨fold, hfold⟩ := exists_foldOf ⟨ids₁, repr⟩ hstored tick₁
      rcases tickRule_cases hstored hids hfold with ⟨-, herror⟩ | ⟨hclear, rows₁', hok', hof⟩
      · rw [herror] at hok
        cases hok
      rw [← hout₁] at hok' hof
      rw [hok'] at hok
      cases hok
      rintro (hconflict | hreopened)
      · exact hclear hconflict
      -- the second tick starts without the breach: the openings and resolutions of the two runs do not add up
      have hreload := hof.reload hids (hfold.ends hids)
      rw [if_pos (hfold.endsReopened_iff.mpr hreopened).1, Option.map_eq_none_iff] at hreload
      have hlive := ((tickEndsReopened_iff _ hstored _).mp hreopened).2
      have hsum := foldRule_balance ⟨ids, repr⟩ spec
      have hsum₁ := foldRule_balance ⟨ids₁, repr⟩ (foldInput rule (breachRow rule rows) tick₁)
      have hsum₂ := foldRule_balance ⟨ids₂, repr⟩ (foldInput (storeRule rule out₁ tick₁.now) none tick₂)
      have hstart : (foldInput rule (breachRow rule rows) tick₁).breach = spec.breach := rfl
      have hnone : (foldInput (storeRule rule out₁ tick₁.now) none tick₂).breach = none := rfl
      rw [← hout₁] at hlive hsum₁
      rw [hstart, hlive] at hsum₁
      rw [hreload, ← hspec] at hsame hevents
      rw [hnone] at hsum₂
      have hlive₂ := congrArg Option.isSome hsame
      have hopens := congrArg (List.countP (fun e => e.action = .opens)) hevents
      have hresolves := congrArg (List.countP (fun e => e.action = .resolve)) hevents
      simp only [countP_action_blur, List.countP_append, Option.isSome_map] at hlive₂ hopens hresolves
      rw [hlive₂] at hsum₂
      simp only [Bool.toNat_true, Option.isSome_none, Bool.toNat_false] at hsum₁ hsum₂
      omega
    · obtain ⟨-, rows₁, -, hok, -, hreload⟩ := tickRule_kept hstored hids hkeeps hout₁.symm
      refine ⟨out₁, _, rows₁, hok, ?_⟩
      have hnext := foldInput_stored rows hreload tick tick₂ rfl
      have hagrees : Agrees .blind out₁.events (foldReadings ⟨ids₁, repr⟩ (spec.offer (readings rule.metric g₁) now₁)).issued
          (foldReadings ⟨ids, repr⟩ spec)
          (foldReadings ⟨ids₂, repr⟩ (spec.resume out₁ (readings rule.metric g₂) now₂)) :=
        hjudge.agrees_split hreadings hbefore .blind repr rfl rfl rfl (fun _ => rfl) (fun _ => rfl)
      rw [hnext, (hjudge.resume out₁ _ _).foldRule_eq, hjudge.foldRule_eq]
      refine ⟨?_, ?_, ?_, ?_, ?_⟩
      · simpa using hagrees.breaching
      · simpa using hagrees.under
      · simpa using hagrees.lastEvaluated
      · simpa using hagrees.breach
      · simpa using hagrees.events.symm
  · intro rt spec hmay w hw offered hoffered
    rw [(hmay.offer offered spec.now).foldRule_eq, foldReadings_offered hw hoffered, hmay.foldRule_eq]
    rfl

theorem tickRule_split_iff_recovered :
    SplitAgrees sampleRuntime.repr sampleRuntime.uuid4 sampleRuntime.uuid4 sampleRuntime.uuid4
        (sampleRule (some sampleBreachId)) [sampleBreach] (sampleTick [200, 50])
        { sampleTick [200, 50] with grid := (sampleTick [200, 50]).grid.take 1, now := seconds 700 }
        { sampleTick [200, 50] with grid := (sampleTick [200, 50]).grid.drop 1, now := seconds 1000 } ∧
      IgnoresJudged ℚ := by
  have hjudge : MayJudge (foldInput (sampleRule (some sampleBreachId)) (breachRow (sampleRule (some sampleBreachId))
    [sampleBreach]) (sampleTick [200, 50])) := ⟨rfl, rfl, rfl, rfl, rfl⟩
  obtain ⟨hiff, hjudged⟩ := tickRule_split_iff hjudge stored_sampleRule (List.take_append_drop 1 _).symm (by decide)
    sampleRuntime.repr sampleRuntime.uuid4 freshIds_sampleRule sampleRuntime.uuid4 (seconds 700) (seconds 1000)
  refine ⟨hiff.mpr ?_, hjudged⟩
  rintro (hconflict | hreopened)
  · exact not_conflicts_sampleRule _ hconflict
  · exact absurd ((tickEndsReopened_iff _ stored_sampleRule _).mp hreopened) (by decide)

/-- A live breach; a bucket under and a breaching one in the first tick, one under in the second: the breach that the
first tick opens is not stored, and its resolution is not sent. -/
theorem split_resolve_not_sent :
    ¬ ∀ (repr : String → String) (ids ids₁ ids₂ : Nat → String) (rule : CustomRule ℚ)
        (rows : List (CustomRuleBreach ℚ)) (tick : RuleTick ℚ) (g₁ g₂ : List (GridPoint ℚ)) (now₁ now₂ : Int),
      MayJudge (foldInput rule (breachRow rule rows) tick) → Stored rule rows → FreshIds ids₁ rows →
      tick.grid = g₁ ++ g₂ →
      (∀ a ∈ readings rule.metric g₁, ∀ b ∈ readings rule.metric g₂, a.bucketStart < b.bucketStart) →
      SplitAgrees repr ids ids₁ ids₂ rule rows tick { tick with grid := g₁, now := now₁ }
        { tick with grid := g₂, now := now₂ } := by
  intro h
  let tick := sampleTick [50, 200, 50]
  let rule := sampleRule (some sampleBreachId)
  obtain ⟨out₁, rule₁, rows₁, hok, -, -, -, -, hevents⟩ := h sampleRuntime.repr sampleRuntime.uuid4 sampleRuntime.uuid4
    sampleRuntime.uuid4 rule [sampleBreach] tick (tick.grid.take 2) (tick.grid.drop 2) (seconds 1000) (seconds 1300)
    ⟨rfl, rfl, rfl, rfl, rfl⟩ stored_sampleRule freshIds_sampleRule (List.take_append_drop 2 _).symm (by decide)
  have hsent : (tickRule sampleRuntime rule [sampleBreach]
      { tick with grid := tick.grid.take 2, now := seconds 1000 }).toOption.map
      (fun r => r.1.events.length + (foldRule sampleRuntime (foldInput r.2.1 (breachRow r.2.1 r.2.2)
        { tick with grid := tick.grid.drop 2, now := seconds 1300 })).events.length) = some 2 := by decide
  have hone : (foldRule sampleRuntime (foldInput rule (breachRow rule [sampleBreach]) tick)).events.length = 3 := by
    decide
  have hok' : tickRule sampleRuntime rule [sampleBreach] { tick with grid := tick.grid.take 2, now := seconds 1000 } =
    .ok (out₁, rule₁, rows₁) := hok
  rw [hok'] at hsent
  have hlength := congrArg List.length hevents
  rw [List.length_map, List.length_map, List.length_append] at hlength
  exact absurd ((Option.some.inj hsent).symm.trans (hlength.trans hone)) (by decide)

/-! ## Previews -/

/-- If no tick loses the live breach that it ends with, a preview fires where the rule would have opened a breach,
however the buckets were cut into ticks, and its intervals follow each other, the last one open while a breach is live.
-/
theorem preview_agrees_with_ticks {live : CustomRule φ} {rows : List (CustomRuleBreach φ)} {base : RuleTick φ}
    (hjudge : MayJudge (foldInput live (breachRow live rows) base)) {rule : PreviewRule φ}
    (hrule : rule.Previews (foldInput live (breachRow live rows) base)) (hstored : Stored live rows)
    {ticks : List (LiveTick φ)} (hfresh : FreshTicks ticks rows) (hinc : Increasing (allReadings live.metric ticks))
    {rt : Runtime} (hkeeps : KeepsBreaches rt.repr base live rows ticks) {completeness : List (Option String)} {now : Int}
    {result : PreviewResult φ}
    (h : previewFromReadings rt rule (allReadings live.metric ticks) completeness now = .ok result) :
    ∃ events live' rows', liveRun rt.repr base live rows ticks = .ok (events, live', rows') ∧
      result.breachIntervals = intervals events ∧ result.firedCount = firedCount events ∧
      result.firedCount = result.breachIntervals.length ∧
      ((breachRow live' rows').isSome ↔ ∃ i ∈ result.breachIntervals, i.stop = none) ∧
      result.breachIntervals.Pairwise BreachInterval.Before ∧
      ∀ i ∈ result.breachIntervals, ∀ stop, i.stop = some stop → i.start < stop := by
  obtain ⟨events, live', rows', hrun, hevents, hlive⟩ :=
    liveRun_events rt.repr rt.uuid4 base hjudge hstored hfresh hinc hkeeps
  refine ⟨events, live', rows', hrun, ?_⟩
  rw [previewFromReadings] at h
  split_ifs at h
  obtain rfl := Except.ok.inj h
  have hpreview : MayJudge (rule.foldInput (allReadings live.metric ticks) now) := ⟨rfl, rfl, rfl, rfl, rfl⟩
  rw [(hjudge.offer _ 0).foldRule_eq, finish_events] at hevents
  rw [(hjudge.offer _ 0).foldRule_eq, finish_breach] at hlive
  have houtline := hrule.outline hinc rt now
  obtain ⟨bound, found, hdrawn⟩ := drawn_preview rt rule hinc now
  have hmarks : events.map (·.mark) =
      (foldReadings rt (rule.foldInput (allReadings live.metric ticks) now)).events.map (·.mark) :=
    hevents.trans (congrArg Outline.marks houtline).symm
  have hopen : (breachRow live' rows').isSome =
      (foldReadings rt (rule.foldInput (allReadings live.metric ticks) now)).outline.live.isSome := by
    rw [houtline, hlive]
    exact Option.isSome_map.symm
  dsimp only
  rw [hpreview.foldRule_eq, finish_events, intervals_marks, intervals_marks, firedCount_marks, firedCount_marks, hmarks]
  generalize hfold : foldReadings rt (rule.foldInput (allReadings live.metric ticks) now) = fold at hdrawn hopen ⊢
  obtain ⟨hdrawing, hfired, hclosed, hbegun, hordered⟩ := hdrawn
  have hintervals : (drawing (fold.events.map (·.mark))).intervals = (⟨fold.outline.live, found⟩ : Drawing).intervals :=
    congrArg Drawing.intervals hdrawing
  rw [hintervals]
  refine ⟨rfl, rfl, hfired, ?_, hordered, fun i hi stop hstop => ?_⟩
  · rw [hopen]
    cases hlive' : fold.outline.live with
    | some start => simp [Drawing.intervals]
    | none =>
      simp only [Drawing.intervals, Option.isSome_none, Bool.false_eq_true, false_iff, Option.toList_none, List.map_nil,
        List.append_nil]
      rintro ⟨i, hi, hnone⟩
      obtain ⟨stop, hstop, -⟩ := hclosed i hi
      rw [hnone] at hstop
      cases hstop
  · rcases List.mem_append.mp hi with hi | hi
    · obtain ⟨stop', hstop', hlt, -⟩ := hclosed i hi
      obtain rfl := Option.some.inj (hstop'.symm.trans hstop)
      exact hlt
    · obtain ⟨start, -, rfl⟩ := List.mem_map.mp hi
      cases hstop

def samplePreview : PreviewRule ℚ where
  metric := .eventCount
  operator := "GT"
  thresholdValue := 100
  sustainBuckets := 1
  recoveryBuckets := 1
  severity := .medium
  subjectKind := "LOG_SOURCE"

def sampleFirst : LiveTick ℚ := ⟨seconds 1000, sampleIds 'b', (sampleTick [200, 50, 300]).grid.take 2⟩

def sampleSecond : LiveTick ℚ := ⟨seconds 1300, sampleIds 'c', (sampleTick [200, 50, 300]).grid.drop 2⟩

def sampleTicks : List (LiveTick ℚ) := [sampleFirst, sampleSecond]

def sampleAfter : CustomRule ℚ :=
  storeRule (sampleRule none)
    (foldRule sampleRuntime (foldInput (sampleRule none) none ((sampleTick []).at sampleFirst))) (seconds 1000)

theorem stored_clean (rule : CustomRule ℚ) : Stored rule [] := by
  refine ⟨List.nodup_nil, by simp, fun row hrow => ?_⟩
  cases (breachRow_mem hrow).1

theorem freshTicks_sampleTicks : FreshTicks sampleTicks [] := by
  refine ⟨fun t ht => ⟨?_, by simp⟩, ?_⟩
  · obtain rfl | rfl : t = sampleFirst ∨ t = sampleSecond := by simpa [sampleTicks] using ht
    · exact sampleIds_injective 'b'
    · exact sampleIds_injective 'c'
  · exact List.pairwise_pair.mpr (sampleIds_ne (by decide))

theorem keepsBreaches_sampleTicks :
    KeepsBreaches sampleRuntime.repr (sampleTick []) (sampleRule none) [] sampleTicks := by
  have hclean : ∀ (rt : Runtime) (rule : CustomRule ℚ) (rows : List (CustomRuleBreach ℚ)) (tick : RuleTick ℚ),
      (∀ row ∈ rows, row.state = .resolved) → ¬ TickConflicts rt rule rows tick :=
    fun rt rule rows tick h ⟨_, ⟨row, hrow, _, hlive⟩, _⟩ => hlive (h row hrow)
  have hfirst : ¬ TickLosesBreach sampleRuntime (sampleRule none) [] ((sampleTick []).at sampleFirst) := by
    rintro (hconflict | hreopened)
    · exact hclean _ _ _ _ (by simp) hconflict
    · exact absurd ((tickEndsReopened_iff _ (stored_clean _) _).mp hreopened) (by decide)
  have hids : FreshIds sampleRuntime.uuid4 ([] : List (CustomRuleBreach ℚ)) := ⟨sampleIds_injective 'b', by simp⟩
  refine ⟨hfirst, fun out rule' rows' hok => ⟨?_, fun _ _ _ _ => trivial⟩⟩
  obtain ⟨fold, rows₁, hfold, hok₁, hof, -⟩ := tickRule_kept (stored_clean _) hids hfirst rfl
  have hstored : Stored sampleAfter rows₁ := hof.stored (stored_clean _) hids (hfold.ends hids)
  have hresolved : (tickRule sampleRuntime (sampleRule none) [] ((sampleTick []).at sampleFirst)).toOption.map
      (fun r => r.2.2.map (fun row => row.state)) = some [.resolved] := by decide
  rw [hok₁] at hresolved
  obtain ⟨rfl, rfl⟩ : rule' = sampleAfter ∧ rows' = rows₁ := by
    have heq := Except.ok.inj (hok.symm.trans hok₁)
    exact ⟨congrArg (fun r => r.2.1) heq, congrArg (fun r => r.2.2) heq⟩
  rintro (hconflict | hreopened)
  · refine hclean _ _ _ _ (fun row hrow => ?_) hconflict
    exact List.mem_singleton.mp (Option.some.inj hresolved ▸ List.mem_map_of_mem hrow)
  · have hnone : breachRow sampleAfter rows' = none := by
      rw [breachRow, show sampleAfter.activeBreachId = none by decide]
    have hended := (tickEndsReopened_iff _ hstored _).mp hreopened
    rw [hnone] at hended
    exact absurd hended (by decide)

theorem preview_agrees_with_ticks_reopened : ∃ result,
    previewFromReadings sampleRuntime samplePreview (allReadings .eventCount sampleTicks) [none, none, none] (seconds 1300) =
        .ok result ∧
      result.breachIntervals = [⟨seconds 300, some (seconds 600)⟩, ⟨seconds 900, none⟩] ∧
      ∃ events live' rows', liveRun sampleRuntime.repr (sampleTick []) (sampleRule none) [] sampleTicks =
          .ok (events, live', rows') ∧
        result.breachIntervals = intervals events ∧ result.firedCount = firedCount events ∧
        result.firedCount = result.breachIntervals.length ∧
        ((breachRow live' rows').isSome ↔ ∃ i ∈ result.breachIntervals, i.stop = none) ∧
        result.breachIntervals.Pairwise BreachInterval.Before ∧
        ∀ i ∈ result.breachIntervals, ∀ stop, i.stop = some stop → i.start < stop := by
  have hjudge : MayJudge (foldInput (sampleRule none) (breachRow (sampleRule none) []) (sampleTick [])) :=
    ⟨rfl, rfl, rfl, rfl, rfl⟩
  have hrule : samplePreview.Previews (foldInput (sampleRule none) (breachRow (sampleRule none) []) (sampleTick [])) :=
    ⟨rfl, rfl, rfl, rfl, rfl, rfl⟩
  have hinc : Increasing (allReadings (sampleRule none).metric sampleTicks) := by
    rw [Increasing]
    decide
  have hresult : previewFromReadings sampleRuntime samplePreview (allReadings .eventCount sampleTicks) [none, none, none]
    (seconds 1300) = .ok _ := rfl
  exact ⟨_, hresult, by decide, preview_agrees_with_ticks hjudge hrule (stored_clean _) freshTicks_sampleTicks hinc
    keepsBreaches_sampleTicks hresult⟩

/-! ## A rule acts on what a reading proves -/

/-- A reading counts, opens or refreshes a breach only if every true value that it leaves possible crosses the
threshold, and counts an under, starts a recovery or resolves only if none does. A reading without a verdict moves no
counter, sends nothing and leaves the breach as it was shown. -/
theorem rule_acts_on_proof [OrderedFloat φ] {rt : Runtime} {spec : FoldInput φ} (hjudge : MayJudge spec)
    {earlier later : List (InterpretedReading φ)} {r : InterpretedReading φ}
    (hreadings : sortOn InterpretedReading.bucketStart spec.readings = earlier ++ r :: later) {before after : Fold φ}
    (hbefore : before = earlier.foldl (consume rt spec) (Fold.start spec)) (hafter : after = consume rt spec before r) :
    foldRule rt spec = finish spec (later.foldl (consume rt spec) after) ∧
      (before.breaching < after.breaching → Proves spec r true) ∧
      (before.breach = none → after.breach ≠ none → Proves spec r true) ∧
      (∀ e ∈ after.events.drop before.events.length, e.action ≠ .resolve → Proves spec r true) ∧
      (before.under < after.under → Proves spec r false) ∧
      (∀ b ∈ after.breach, b.state = .recovering → (∀ b' ∈ before.breach, b'.state ≠ .recovering) →
        Proves spec r false) ∧
      (after.resolved ≠ before.resolved → Proves spec r false) ∧
      (∀ e ∈ after.events.drop before.events.length, e.action = .resolve → Proves spec r false) ∧
      (Pauses spec r → Paused before after) := by
  have hfold : foldRule rt spec = finish spec (later.foldl (consume rt spec) after) := by
    rw [hjudge.foldRule_eq, foldReadings, hreadings, List.foldl_append, List.foldl_cons, hafter, hbefore]
  have hpause : Pauses spec r → Paused before after := fun h => hafter ▸ h.consume before
  have heffect : Consumed rt spec before r after := hafter ▸ consume_consumed rt spec before r
  refine ⟨hfold, ?_⟩
  cases heffect with
  | paused h =>
    have hnothing : after.events.drop before.events.length = [] := by rw [h.events, List.drop_length]
    refine ⟨fun hlt => ?_, fun hnone hsome => ?_, fun e he => ?_, fun hlt => ?_, fun b hb hstate hall => ?_,
      fun hne => absurd h.resolved hne, fun e he => ?_, hpause⟩
    · exact absurd h.breaching (by omega)
    · have hshown := h.breach
      rw [hnone] at hshown
      exact absurd (Option.map_eq_none_iff.mp hshown) hsome
    · rw [hnothing] at he
      cases he
    · exact absurd h.under (by omega)
    · have hshown := h.breach
      rw [Option.mem_def.mp hb] at hshown
      obtain ⟨b', hb', heq⟩ := Option.map_eq_some_iff.mp hshown.symm
      exact absurd ((congrArg Prod.fst heq).trans hstate) (hall b' hb')
    · rw [hnothing] at he
      cases he
  | breach noted h hnoted hbreach hafter =>
    obtain ⟨_, hunder, hresolved, hstates, sent, hevents, hsent⟩ := onBreach_effect rt spec noted r
    rw [← hafter] at hunder hresolved hstates hevents
    have hdrop : after.events.drop before.events.length = sent := by
      rw [hevents, hnoted.events, List.drop_left]
    refine ⟨fun _ => h, fun _ _ => h, fun _ _ _ => h, fun hlt => by omega, fun b hb hstate hall => ?_,
      fun hne => absurd (hresolved.trans hnoted.resolved) hne, fun e he hresolve => ?_, hpause⟩
    · rcases hstates b hb with hopened | hsame
      · rw [hopened] at hstate
        cases hstate
      · exact absurd hstate (hall b (hbreach ▸ hsame))
    · exact absurd hresolve (hsent e (hdrop ▸ he))
  | under noted h hnoted hbreach hafter =>
    obtain ⟨hbreaching, hstays, sent, hevents, hsent⟩ := onUnder_effect spec noted r
    rw [← hafter] at hbreaching hstays hevents
    have hdrop : after.events.drop before.events.length = sent := by
      rw [hevents, hnoted.events, List.drop_left]
    refine ⟨fun hlt => by omega, fun hnone hsome => absurd (hstays (hbreach.trans hnone)) hsome,
      fun e he hne => absurd (hsent e (hdrop ▸ he)) hne, fun _ => h, fun _ _ _ _ => h, fun _ => h, fun _ _ _ => h,
      hpause⟩

theorem rule_acts_on_proof_opens : ∃ r, Proves (foldInput (sampleRule none) none (sampleTick [200])) r true := by
  let spec := foldInput (sampleRule none) none (sampleTick [200])
  have hreadings : sortOn InterpretedReading.bucketStart spec.readings =
      [] ++ (readings .eventCount (sampleTick [200]).grid).head (by decide) :: [] := by decide
  have hjudge : MayJudge spec := ⟨rfl, rfl, rfl, rfl, rfl⟩
  have hstart : Fold.start spec = [].foldl (consume sampleRuntime spec) (Fold.start spec) := rfl
  exact ⟨_, (rule_acts_on_proof hjudge hreadings hstart rfl).2.1 (by decide)⟩

/-! ## The buckets of a tick -/

/-- A walk is increasing, bounded by its limit and within `(watermark, closed]`. One that is not cut holds every
observed point and the aligned grid points between one and the next. Calls that go on from the last time of the one
before return the times of one call without a limit, and come to an end. -/
theorem walk_complete_and_resumable {observed : List Int} {watermark interval closed : Int} (hinterval : 1 ≤ interval)
    (hwatermark : (1000000 : Int) ∣ watermark) (hobserved : ∀ t ∈ observed, (1000000 : Int) ∣ t) :
    (∀ limit, 1 ≤ limit → ∃ grid, walkBuckets observed watermark interval limit closed = .ok grid ∧
      grid.Pairwise (· < ·) ∧ (grid.length : Int) ≤ limit ∧ (∀ t ∈ grid, watermark < t ∧ t ≤ closed) ∧
      ((grid.length : Int) < limit → (∀ t ∈ observed, watermark < t → t ≤ closed → t ∈ grid) ∧
        ∀ a b n k, (a = watermark ∨ (a ∈ observed ∧ watermark < a ∧ a ≤ closed)) →
          (b ∈ observed ∧ watermark < b ∧ b ≤ closed) → (∀ t ∈ observed, ¬ (a < t ∧ t < b)) →
          b = a + seconds (n * interval) → 1 ≤ k → k < n → a + seconds (k * interval) ∈ grid)) ∧
    ∃ whole : List Int,
      (∀ limit, (whole.length : Int) < limit → walkBuckets observed watermark interval limit closed = .ok whole) ∧
      (∀ limits times, (∀ limit ∈ limits, 1 ≤ limit) → WalkedTo observed interval closed watermark limits times →
        times = whole) ∧
      ∀ limits : Nat → Int, (∀ i, 1 ≤ limits i) → ∃ n,
        WalkedTo observed interval closed watermark ((List.range n).map limits) whole := by
  have hascends := observedPoints_ascends hwatermark hobserved closed
  refine ⟨fun limit hlimit => ?_, walkAll interval watermark (observedPoints observed watermark closed),
    fun limit hlimit => ?_, fun limits times hlimits h => h.times_eq hinterval hwatermark hobserved hlimits,
    fun limits hlimits => ?_⟩
  · have hafter := walkAll_after hinterval hascends
    refine ⟨_, walkBuckets_eq hinterval hlimit, (walkAll_increasing hinterval hascends).sublist (List.take_sublist _ _),
      ?_, fun t ht => ?_, fun hshort => ?_⟩
    · have := List.length_take_le limit.toNat (walkAll interval watermark (observedPoints observed watermark closed))
      omega
    · obtain ⟨hlow, point, hpoint, hle⟩ := hafter t (List.mem_of_mem_take ht)
      exact ⟨hlow, hle.trans (mem_observedPoints.mp hpoint).2.2⟩
    · -- a walk below its limit is the whole one
      have hall : (walkAll interval watermark (observedPoints observed watermark closed)).take limit.toNat =
          walkAll interval watermark (observedPoints observed watermark closed) := by
        rw [List.length_take] at hshort
        exact List.take_of_length_le (by omega)
      rw [hall]
      refine ⟨fun t ht hlow hhigh => mem_walkAll (mem_observedPoints.mpr ⟨ht, hlow, hhigh⟩), ?_⟩
      intro a b n k ha hb hnext hn hk hlt
      refine walkAll_complete hinterval hascends (ha.imp id mem_observedPoints.mpr) (mem_observedPoints.mpr hb)
        (fun t ht => hnext t (mem_observedPoints.mp ht).1) hn hk hlt
  · rw [walkBuckets_eq hinterval (by omega), List.take_of_length_le (by omega)]
  · obtain ⟨n, times, hwalked⟩ := exists_walkedTo hinterval hobserved _ limits hlimits hwatermark (Nat.le_refl _)
    refine ⟨n, ?_⟩
    rw [← hwalked.times_eq hinterval hwatermark hobserved (fun limit hmem => ?_)]
    · exact hwalked
    · obtain ⟨i, -, rfl⟩ := List.mem_map.mp hmem
      exact hlimits i

theorem walk_complete_and_resumable_hole : ∃ grid,
    walkBuckets [seconds 1500, seconds 600, seconds 1500] (seconds 300) 300 3 (seconds 1800) = .ok grid ∧
      grid.Pairwise (· < ·) ∧ (grid.length : Int) ≤ 3 := by
  obtain ⟨grid, hgrid, hincreasing, hlength, -⟩ := (walk_complete_and_resumable
    (show (1 : Int) ≤ 300 by decide) (show (1000000 : Int) ∣ seconds 300 by decide)
    (show ∀ t ∈ [seconds 1500, seconds 600, seconds 1500], (1000000 : Int) ∣ t by decide)).1 3 (by decide)
  exact ⟨grid, hgrid, hincreasing, hlength⟩

example : (walkBuckets [seconds 1500, seconds 600, seconds 1500] (seconds 300) 300 3 (seconds 1800)).toOption =
    some [seconds 600, seconds 900, seconds 1200] := by with_unfolding_all decide

/-! ## Storage -/

/-- A tick stores what its fold says exactly when it opens no breach after resolving one, and none beside a live row of
the rule that the pointer does not name. -/
theorem storageAgrees_iff (rt : Runtime) {rule : CustomRule φ} {rows : List (CustomRuleBreach φ)}
    (tick : RuleTick φ) (hstored : Stored rule rows) (hids : FreshIds rt.uuid4 rows) :
    (∃ rule' rows', tickRule rt rule rows tick =
        .ok (foldRule rt (foldInput rule (breachRow rule rows) tick), rule', rows') ∧
      StorageAgrees rule' rows' (foldRule rt (foldInput rule (breachRow rule rows) tick)).events) ↔
      ¬ TickReopens rt rule rows tick ∧ ¬ TickConflicts rt rule rows tick := by
  obtain ⟨fold, hfold⟩ := exists_foldOf rt hstored tick
  obtain ⟨status, reason, preserve, hout⟩ := hfold.output
  have hevents : (foldRule rt (foldInput rule (breachRow rule rows) tick)).events = fold.events := by rw [hout]; rfl
  rcases tickRule_cases hstored hids hfold with ⟨hconflict, herror⟩ | ⟨hclear, rows', hok, hof⟩
  · refine ⟨?_, fun h => absurd hconflict h.2⟩
    rintro ⟨rule', rows', hok, -⟩
    rw [herror] at hok
    cases hok
  rw [hevents]
  rcases hfold.ends hids with ⟨hre, first, last, hreopened⟩ | ⟨hre, hphase⟩
  · refine ⟨?_, fun h => absurd hre h.1⟩
    rintro ⟨rule', rows'', hok', hagrees⟩
    rw [hok] at hok'
    cases hok'
    exact absurd hagrees (not_storageAgrees_of_reopened hof hstored hids rfl hreopened)
  · refine ⟨fun _ => ⟨hre, hclear⟩, fun _ => ⟨_, rows', hok, ?_⟩⟩
    rcases hphase with hun | ⟨id, hres, -⟩
    · exact storageAgrees_of_unresolved hof hun
    · exact storageAgrees_of_resolved hof hres

theorem storageAgrees_iff_recovered :
    ∃ rule' rows', tickRule sampleRuntime (sampleRule (some sampleBreachId)) [sampleBreach] (sampleTick [50]) =
        .ok (foldRule sampleRuntime (foldInput (sampleRule (some sampleBreachId)) (some sampleBreach) (sampleTick [50])),
          rule', rows') ∧
      StorageAgrees rule' rows' (foldRule sampleRuntime
          (foldInput (sampleRule (some sampleBreachId)) (some sampleBreach) (sampleTick [50]))).events := by
  refine (storageAgrees_iff sampleRuntime (sampleTick [50]) stored_sampleRule freshIds_sampleRule).mpr
    ⟨?_, not_conflicts_sampleRule _⟩
  rintro ⟨l₁, l₂, hsplit, hunder, hbreaching⟩
  have hverdicts : tickJudgements sampleRuntime (foldInput (sampleRule (some sampleBreachId))
      (breachRow (sampleRule (some sampleBreachId)) [sampleBreach]) (sampleTick [50])) = [false] := by decide
  have hmem : true ∈ l₁ ++ l₂ :=
    List.mem_append_right l₁ ((shows_zero_iff.mp hbreaching).subset (by decide))
  rw [← hsplit, hverdicts] at hmem
  exact absurd hmem (by decide)

/-- A bucket under the threshold and a breaching one: the pointer names a breach that has no row. -/
theorem reopened_breach_not_stored :
    ¬ ∀ (rt : Runtime) (rule : CustomRule ℚ) (rows : List (CustomRuleBreach ℚ)) (tick : RuleTick ℚ),
      Stored rule rows → FreshIds rt.uuid4 rows →
      ∃ out rule' rows', tickRule rt rule rows tick = .ok (out, rule', rows') ∧
        StorageAgrees rule' rows' out.events := by
  intro h
  obtain ⟨out, rule', rows', htick, hagrees⟩ := h sampleRuntime (sampleRule (some sampleBreachId)) [sampleBreach]
    (sampleTick [50, 200]) stored_sampleRule freshIds_sampleRule
  have hrun : (tickRule sampleRuntime (sampleRule (some sampleBreachId)) [sampleBreach]
      (sampleTick [50, 200])).toOption.map (fun r => (r.2.1.activeBreachId, r.2.2.map (fun row => row.id))) =
      some (some "b", [sampleBreachId]) := by
    decide
  simp only [htick, Except.toOption, Option.map_some, Option.some.injEq, Prod.mk.injEq] at hrun
  obtain ⟨row, hrow, hid, -⟩ := hagrees.active "b" hrun.1
  have hmem : row.id ∈ [sampleBreachId] := hrun.2 ▸ List.mem_map_of_mem hrow
  rw [hid] at hmem
  exact absurd (List.mem_singleton.mp hmem) (by decide)

/-! ## Alerts -/

/-- The bulk write of a tick leaves a rule's alert as its events one at a time would, exactly when the events do not
resolve and then end with an open or a refresh. -/
theorem applyTick_agrees_iff (svc : Service) (digest : Digest) {s : Session φ} (events : List (CustomRuleAlertEvent φ))
    (hinj : Function.Injective svc.uuid4) (hwf : WellFormed svc s) :
    ∃ s', applyInOrder svc digest s events = .ok s' ∧
      ∀ ruleId, (ActiveIn (applyTick svc digest s events) (customRuleBreachFingerprint digest ruleId) ↔
          ActiveIn s' (customRuleBreachFingerprint digest ruleId)) ↔
        ¬ EndsReopened (ownEvents digest (customRuleBreachFingerprint digest ruleId) events) := by
  obtain ⟨s', hs', hactive⟩ := applyInOrder_ok hinj hwf events
  refine ⟨s', hs', fun ruleId => ?_⟩
  rw [applyTick_activeIn hinj hwf, hactive]
  exact agree_iff_not_endsReopened _

def sampleDigest : Digest where
  toUnicodeTables := asciiTables
  sha256 text :=
    if text = "custom_rule|" ++ sampleRuleId ++ "|custom_rule_breach" then
      "778d52583ddd3b95237c0ecbb1e32afd2b66b848da6f41ce0886a1b424a418d2"
    else ""
  lower := List.map Char.toLower

def sampleService : Service where
  clock n := seconds (3600 + n)
  uuid4 := sampleRuntime.uuid4

def sampleEvents (counts : List Int) : List (CustomRuleAlertEvent ℚ) :=
  (foldRule sampleRuntime
    (foldInput (sampleRule (some sampleBreachId)) (some sampleBreach) (sampleTick counts))).events

theorem applyTick_agrees_iff_recovered :
    ∃ s' : Session ℚ, applyInOrder sampleService sampleDigest { alerts := [] } (sampleEvents [50]) = .ok s' ∧
      ∀ ruleId, (ActiveIn (applyTick sampleService sampleDigest { alerts := [] } (sampleEvents [50]))
            (customRuleBreachFingerprint sampleDigest ruleId) ↔
          ActiveIn s' (customRuleBreachFingerprint sampleDigest ruleId)) ↔
        ¬ EndsReopened (ownEvents sampleDigest (customRuleBreachFingerprint sampleDigest ruleId)
          (sampleEvents [50])) :=
  applyTick_agrees_iff sampleService sampleDigest (sampleEvents [50]) (sampleIds_injective 'b')
    ⟨by simp, by simp, by simp⟩

/-- A breach resolves and another opens in one tick: the bulk write resolves the alert. -/
theorem reopened_alert_resolved :
    ¬ ∀ (svc : Service) (digest : Digest) (s : Session ℚ) (rt : Runtime) (spec : FoldInput ℚ),
      Function.Injective svc.uuid4 → WellFormed svc s →
      ∃ s', applyInOrder svc digest s (foldRule rt spec).events = .ok s' ∧
        ∀ ruleId, ActiveIn (applyTick svc digest s (foldRule rt spec).events)
            (customRuleBreachFingerprint digest ruleId) ↔
          ActiveIn s' (customRuleBreachFingerprint digest ruleId) := by
  intro h
  obtain ⟨s', hs', hagree⟩ := h sampleService sampleDigest { alerts := [] } sampleRuntime
    (foldInput (sampleRule (some sampleBreachId)) (some sampleBreach) (sampleTick [50, 200]))
    (sampleIds_injective 'b') ⟨by simp, by simp, by simp⟩
  have hagree := hagree sampleRuleId
  have horder : (applyInOrder sampleService sampleDigest ({ alerts := [] } : Session ℚ)
      (sampleEvents [50, 200])).toOption.map (fun s => s.alerts.map (fun a => (a.dedupKey, a.active))) =
      some [(customRuleBreachFingerprint sampleDigest sampleRuleId, true)] := by
    decide
  have hbulk : (applyTick sampleService sampleDigest ({ alerts := [] } : Session ℚ)
      (sampleEvents [50, 200])).alerts.map (fun a => (a.dedupKey, a.active)) =
      [(customRuleBreachFingerprint sampleDigest sampleRuleId, false)] := by
    decide
  rw [show (foldRule _ _).events = sampleEvents [50, 200] from rfl] at hs' hagree
  rw [hs'] at horder
  simp only [Except.toOption, Option.map_some, Option.some.injEq] at horder
  rw [activeIn_iff_mem, activeIn_iff_mem, hbulk, horder] at hagree
  simp at hagree

/-! ## Readings of partial observations -/

section PinnedLater
open PropertyWatch History Collectors

def loginPolicy : PwAdmissionPolicy where
  minEvents := 6
  maxNewPerBucket := 1
  maxActive := 4
  activeDays := 14
  minEvents_ok := by decide
  maxActive_ok := by decide
  activeDays_ok := by decide

def loginOutcome (search : PwSearchKind) (whole : Bool) (rows : List PwKeyedRow) : PwBucketOutcome where
  search := search
  bucketStart := seconds 300
  state := if whole then .complete else .lowerBound
  rows := rows
  provenance := none
  rows_ok := by cases whole <;> nofun

def rootValue (pinned : Bool) (lastSeen : Int) : TrackedValue :=
  { newValue "root" ["root"] pinned 0 false with lastSeenAt := some lastSeen }

def bobValue : TrackedValue := newValue "bob" ["bob"] true 0 false

/-- A bucket of two scope chunks. The grouped search of the second was cut and left `root` out. Only `bob` was pinned. -/
def cutBucket (pinnedLater : Bool) : PwCollection where
  tables := asciiTables
  settings := ⟨300, 1, 1, 10, 64⟩
  policy := loginPolicy
  bucketStart := seconds 300
  rows := [⟨seconds 300, 9, [some "root"]⟩, ⟨seconds 300, 40, [some "alice"]⟩, ⟨seconds 300, 16, [some "root"]⟩]
  grouped := loginOutcome .grouped false
    [⟨seconds 300, 9, [some "root"]⟩, ⟨seconds 300, 40, [some "alice"]⟩]
  totals := loginOutcome .totals true [⟨seconds 300, 65, []⟩]
  pinnedOutcome := some (loginOutcome .pinned true [])
  pinned := [["bob"]]
  before := [("bob", bobValue), ("root", rootValue false 0)]
  key := "root"
  value := rootValue pinnedLater (seconds 300)
  inMaintenance := false

end PinnedLater

end QRadarDashboard.CustomRules
