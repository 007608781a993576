import QRadarDashboard.CustomRules.Lemmas.Storage
import QRadarDashboard.CustomRules.Preview

/-!
# What the chart takes from a fold
-/

namespace QRadarDashboard.CustomRules
open Lib

variable {φ : Type}

structure Outline where
  breaching : Nat
  under : Nat
  lastEvaluated : Option Int
  live : Option Int
  marks : List EventMark := []

namespace Outline

variable (sustain recovery : Nat)

def judge (o : Outline) (bucket : Int) : Option Bool → Outline
  | none => o
  | some true =>
    let o := { o with breaching := o.breaching + 1, under := 0 }
    match o.live with
    | none => if sustain ≤ o.breaching then { o with live := some bucket, marks := o.marks ++ [⟨.opens, bucket, bucket⟩] } else o
    | some first => { o with marks := o.marks ++ [⟨.refresh, first, bucket⟩] }
  | some false =>
    let o := { o with breaching := 0, under := o.under + 1 }
    match o.live with
    | none => o
    | some first =>
      if recovery ≤ o.under then
        { o with breaching := 0, under := 0, live := none, marks := o.marks ++ [⟨.resolve, first, bucket⟩] }
      else o

def consume (counted : InterpretedReading φ → Option Bool) (o : Outline) (r : InterpretedReading φ) : Outline :=
  if alreadyJudged o.lastEvaluated r then o
  else { o with lastEvaluated := some r.bucketStart }.judge sustain recovery r.bucketStart (counted r)

end Outline

def Increasing (rs : List (InterpretedReading φ)) : Prop := rs.Pairwise (fun a b => a.bucketStart < b.bucketStart)

/-! ## Intervals -/

def drawing (marks : List EventMark) : Drawing := marks.foldl Drawing.add {}

theorem drawing_snoc (marks : List EventMark) (e : EventMark) : drawing (marks ++ [e]) = (drawing marks).add e := by
  simp [drawing]

def BreachInterval.Before (a b : BreachInterval) : Prop := ∃ stop, a.stop = some stop ∧ stop < b.start

/-- What is drawn of an outline that has seen the buckets up to `bound`: an interval for each opening mark, in order,
the last one open while a breach is live. -/
structure Drawn (bound : Int) (o : Outline) (found : List BreachInterval) : Prop where
  drawn : drawing o.marks = ⟨o.live, found⟩
  fired : o.marks.countP (fun e => e.action = .opens) = (⟨o.live, found⟩ : Drawing).intervals.length
  closed : ∀ i ∈ found, ∃ stop, i.stop = some stop ∧ i.start < stop ∧ stop ≤ bound
  begun : ∀ start, o.live = some start → start ≤ bound
  ordered : (⟨o.live, found⟩ : Drawing).intervals.Pairwise BreachInterval.Before

section Drawn

variable {sustain recovery : Nat} {bound bucket : Int} {o : Outline} {found : List BreachInterval}

theorem Drawn.later (h : Drawn bound o found) (hb : bound < bucket) : Drawn bucket o found where
  drawn := h.drawn
  fired := h.fired
  closed i hi := by
    obtain ⟨stop, hstop, hlt, hle⟩ := h.closed i hi
    exact ⟨stop, hstop, hlt, by omega⟩
  begun start hstart := (h.begun start hstart).trans hb.le
  ordered := h.ordered

theorem Drawn.judge (h : Drawn bound o found) (hb : bound < bucket) (sustain recovery : Nat) (v : Option Bool) :
    ∃ found', Drawn bucket (o.judge sustain recovery bucket v) found' := by
  obtain ⟨hdrawn, hfired, hclosed, hbegun, hordered⟩ := h.later hb
  rcases v with _ | _ | _
  · exact ⟨found, h.later hb⟩
  · cases hlive : o.live with
    | none =>
      simp only [Outline.judge, hlive] at *
      exact ⟨found, hdrawn, hfired, hclosed, hbegun, hordered⟩
    | some first =>
      have hfirst := h.begun first hlive
      simp only [Outline.judge, hlive] at *
      split_ifs
      · obtain ⟨hfound, -, hlast⟩ := List.pairwise_append.mp hordered
        refine ⟨found ++ [⟨first, some bucket⟩], ?_, by simpa [Drawing.intervals] using hfired, fun i hi => ?_, nofun, ?_⟩
        · rw [drawing_snoc, hdrawn]
          rfl
        · rcases List.mem_append.mp hi with hi | hi
          · exact hclosed i hi
          · rw [List.mem_singleton.mp hi]
            exact ⟨bucket, rfl, hfirst.trans_lt hb, le_rfl⟩
        · simp only [Drawing.intervals, Option.toList_none, List.map_nil, List.append_nil]
          refine List.pairwise_append.mpr ⟨hfound, List.pairwise_singleton _ _, fun i hi j hj => ?_⟩
          rw [List.mem_singleton.mp hj]
          exact hlast i hi ⟨first, none⟩ (by simp)
      · exact ⟨found, hdrawn, hfired, hclosed, hbegun, hordered⟩
  · cases hlive : o.live with
    | none =>
      have hclosed' := h.closed
      simp only [Outline.judge, hlive] at *
      split_ifs
      · refine ⟨found, ?_, by simpa [Drawing.intervals] using hfired, hclosed, by rintro _ ⟨⟩; exact le_rfl, ?_⟩
        · rw [drawing_snoc, hdrawn]
          rfl
        · refine List.pairwise_append.mpr ⟨by simpa [Drawing.intervals] using hordered, by simp, fun i hi j hj => ?_⟩
          obtain ⟨stop, hstop, -, hle⟩ := hclosed' i hi
          obtain rfl : j = ⟨bucket, none⟩ := by simpa using hj
          exact ⟨stop, hstop, hle.trans_lt hb⟩
      · exact ⟨found, hdrawn, hfired, hclosed, hbegun, hordered⟩
    | some first =>
      simp only [Outline.judge, hlive] at *
      refine ⟨found, ?_, by simpa using hfired, hclosed, hbegun, hordered⟩
      rw [drawing_snoc, hdrawn]
      rfl

theorem Drawn.foldl {judged : InterpretedReading φ → Option Bool} : ∀ {rs : List (InterpretedReading φ)} {bound : Int}
    {o : Outline} {found : List BreachInterval}, Drawn bound o found → Increasing rs → (∀ r ∈ rs, bound < r.bucketStart) →
    ∃ bound' found', Drawn bound' (rs.foldl (Outline.consume sustain recovery judged) o) found'
  | [], _, _, _, h, _, _ => ⟨_, _, h⟩
  | r :: rs, bound, o, found, h, hinc, hbound => by
      have hr := hbound r (List.mem_cons_self ..)
      obtain ⟨hlater, hrest⟩ := List.pairwise_cons.mp hinc
      by_cases hj : alreadyJudged o.lastEvaluated r
      · rw [List.foldl_cons, Outline.consume, if_pos hj]
        exact (h.later hr).foldl hrest hlater
      · rw [List.foldl_cons, Outline.consume, if_neg hj]
        have hmoved : Drawn bound { o with lastEvaluated := some r.bucketStart } found := ⟨h.1, h.2, h.3, h.4, h.5⟩
        obtain ⟨found', hjudged⟩ := hmoved.judge hr sustain recovery (judged r)
        exact hjudged.foldl hrest hlater

end Drawn

/-! ## The outline of a fold -/

def Fold.outline (fold : Fold φ) : Outline where
  breaching := fold.breaching
  under := fold.under
  lastEvaluated := fold.lastEvaluated
  live := fold.breach.map (fun b => b.firstBucketStart)
  marks := fold.events.map (fun e => e.mark)

theorem map_mark_blur (v : Blur) (events : List (CustomRuleAlertEvent φ)) :
    (events.map (·.blur v)).map (·.mark) = events.map (·.mark) := by
  rw [List.map_map]
  rfl

theorem intervals_marks (events : List (CustomRuleAlertEvent φ)) :
    intervals events = (drawing (events.map (·.mark))).intervals := by
  rw [intervals, drawing, List.foldl_map]

theorem firedCount_marks (events : List (CustomRuleAlertEvent φ)) :
    firedCount events = (events.map (·.mark)).countP (fun e => e.action = .opens) := by
  rw [firedCount, List.countP_map]
  rfl

variable [PyFloat φ]

def counted (rt : Runtime) (spec : FoldInput φ) (r : InterpretedReading φ) : Option Bool := (verdict rt spec r).counted

section Consume

variable {rt : Runtime} {spec : FoldInput φ}

theorem noteWorst_first (operator : String) (b : BreachState φ) (r : InterpretedReading φ) :
    (noteWorst operator b r).firstBucketStart = b.firstBucketStart ∧
      (noteWorst operator b r).lastBucketStart = r.bucketStart := by
  rw [noteWorst]
  split_ifs <;> exact ⟨rfl, rfl⟩

theorem outline_onBreach (fold : Fold φ) (r : InterpretedReading φ) :
    (onBreach rt spec fold r).outline =
      fold.outline.judge spec.sustainBuckets spec.recoveryBuckets r.bucketStart (some true) := by
  cases hb : fold.breach with
  | none =>
    simp only [onBreach, Outline.judge, Fold.outline, hb, Option.map_none, ge_iff_le]
    split_ifs <;> simp [openBreach, event, CustomRuleAlertEvent.mark]
  | some b =>
    obtain ⟨hfirst, hlast⟩ := noteWorst_first spec.operator { b with state := .opened, recoveringAt := none } r
    simp [onBreach, Outline.judge, Fold.outline, hb, event, CustomRuleAlertEvent.mark, hfirst, hlast]

omit [PyFloat φ] in
theorem outline_onUnder (fold : Fold φ) (r : InterpretedReading φ) :
    (onUnder spec fold r).outline =
      fold.outline.judge spec.sustainBuckets spec.recoveryBuckets r.bucketStart (some false) := by
  cases hb : fold.breach with
  | none => simp [onUnder, Outline.judge, Fold.outline, hb]
  | some b =>
    simp only [onUnder, Outline.judge, Fold.outline, hb, Option.map_some, ge_iff_le]
    split_ifs <;> simp [noteLast, event, CustomRuleAlertEvent.mark]

theorem outline_consume (fold : Fold φ) (r : InterpretedReading φ) :
    (consume rt spec fold r).outline =
      fold.outline.consume spec.sustainBuckets spec.recoveryBuckets (counted rt spec) r := by
  by_cases hj : alreadyJudged fold.lastEvaluated r
  · simp [consume, Outline.consume, Fold.outline, hj]
  · simp only [consume, Outline.consume, Fold.outline, hj, Bool.false_eq_true, if_false, counted]
    cases verdict rt spec r with
    | maintenance reason => rfl
    | unmeasured reason => simp [onUnmeasured, Outline.judge, Verdict.counted, Function.comp_def]
    | breach => exact outline_onBreach _ r
    | under => exact outline_onUnder _ r

theorem outline_foldl (rs : List (InterpretedReading φ)) : ∀ fold : Fold φ,
    (rs.foldl (consume rt spec) fold).outline =
      rs.foldl (Outline.consume spec.sustainBuckets spec.recoveryBuckets (counted rt spec)) fold.outline := by
  induction rs with
  | nil => exact fun _ => rfl
  | cons r rs ih => exact fun fold => by rw [List.foldl_cons, List.foldl_cons, ih, outline_consume]

end Consume

/-! ## Ticks -/

theorem outline_foldReadings (rt : Runtime) {spec : FoldInput φ} (h : Increasing spec.readings) :
    (foldReadings rt spec).outline =
      spec.readings.foldl (Outline.consume spec.sustainBuckets spec.recoveryBuckets
        (counted rt spec)) (Fold.start spec).outline := by
  rw [foldReadings, sortOn_eq_self (h.imp fun h => h.le), outline_foldl]

/-- A tick of the evaluator: its clock, the ids it hands out, and the buckets it offers. -/
structure LiveTick (φ : Type) where
  now : Int
  uuid4 : Nat → String
  grid : List (GridPoint φ)

def RuleTick.at (base : RuleTick φ) (t : LiveTick φ) : RuleTick φ := { base with grid := t.grid, now := t.now }

def allReadings (metric : CustomRuleMetric) (ticks : List (LiveTick φ)) : List (InterpretedReading φ) :=
  ticks.flatMap (fun t => readings metric t.grid)

/-- The ticks of a rule, each over the rows that the one before stored: the events of all, and what the last one stored.
-/
def liveRun (repr : String → String) (base : RuleTick φ) : CustomRule φ → List (CustomRuleBreach φ) →
    List (LiveTick φ) → Except Exc (List (CustomRuleAlertEvent φ) × CustomRule φ × List (CustomRuleBreach φ))
  | rule, rows, [] => .ok ([], rule, rows)
  | rule, rows, t :: ts => do
      let (out, rule, rows) ← tickRule ⟨t.uuid4, repr⟩ rule rows (base.at t)
      let (events, rule, rows) ← liveRun repr base rule rows ts
      return (out.events ++ events, rule, rows)

/-- No tick of the run loses the live breach that it ends with. -/
def KeepsBreaches (repr : String → String) (base : RuleTick φ) :
    CustomRule φ → List (CustomRuleBreach φ) → List (LiveTick φ) → Prop
  | _, _, [] => True
  | rule, rows, t :: ts =>
    ¬ TickLosesBreach ⟨t.uuid4, repr⟩ rule rows (base.at t) ∧
      ∀ out rule' rows', tickRule ⟨t.uuid4, repr⟩ rule rows (base.at t) = .ok (out, rule', rows') →
        KeepsBreaches repr base rule' rows' ts

/-- No id is handed out twice, and none is stored yet. -/
structure FreshTicks (ticks : List (LiveTick φ)) (rows : List (CustomRuleBreach φ)) : Prop where
  fresh : ∀ t ∈ ticks, FreshIds t.uuid4 rows
  disjoint : ticks.Pairwise (fun a b => ∀ m n, a.uuid4 m ≠ b.uuid4 n)

/-- The events of all ticks are those of one tick over all their readings, but for ids. -/
theorem liveRun_events (repr : String → String) (ids : Nat → String) (base : RuleTick φ) :
    ∀ {ticks : List (LiveTick φ)} {rule : CustomRule φ} {rows : List (CustomRuleBreach φ)},
    MayJudge (foldInput rule (breachRow rule rows) base) → Stored rule rows → FreshTicks ticks rows →
    Increasing (allReadings rule.metric ticks) → KeepsBreaches repr base rule rows ticks →
    ∃ events rule' rows', liveRun repr base rule rows ticks = .ok (events, rule', rows') ∧
      events.map (·.mark) = (foldRule ⟨ids, repr⟩ ((foldInput rule (breachRow rule rows) base).offer
        (allReadings rule.metric ticks) 0)).events.map (·.mark) ∧
      (breachRow rule' rows').isSome = (foldRule ⟨ids, repr⟩ ((foldInput rule (breachRow rule rows) base).offer
        (allReadings rule.metric ticks) 0)).breach.isSome
  | [], rule, rows, hjudge, _, _, _, _ => by
      refine ⟨[], rule, rows, rfl, ?_⟩
      rw [(hjudge.offer _ 0).foldRule_eq]
      simp [foldReadings, allReadings, FoldInput.offer, Fold.start, sortOn, foldInput]
  | t :: ts, rule, rows, hjudge, hst, hfresh, hinc, ⟨hkeeps, hlater⟩ => by
      obtain ⟨hnone, hafter⟩ := List.pairwise_cons.mp hfresh.disjoint
      have hids : FreshIds t.uuid4 rows := hfresh.fresh t List.mem_cons_self
      have hall : allReadings rule.metric (t :: ts) = readings rule.metric t.grid ++ allReadings rule.metric ts :=
        List.flatMap_cons
      rw [hall] at hinc ⊢
      obtain ⟨-, hrest, hbefore⟩ := List.pairwise_append.mp hinc
      set spec := foldInput rule (breachRow rule rows) base with hspec
      set first := foldRule ⟨t.uuid4, repr⟩ (spec.offer (readings rule.metric t.grid) t.now)
      have hfirst : foldRule ⟨t.uuid4, repr⟩ (foldInput rule (breachRow rule rows) (base.at t)) = first := rfl
      -- the tick is stored, and the next one reads its live breach back
      obtain ⟨fold, rows₁, hfold, hok, hof, hreload⟩ := tickRule_kept hst hids hkeeps hfirst
      have hends := hfold.ends hids
      have hnext := foldInput_stored rows hreload base base rfl
      have hfresh₁ : FreshTicks ts rows₁ := ⟨fun t' ht' => hof.freshIds (hfresh.fresh t' (List.mem_cons_of_mem t ht'))
        (hnone t' ht') rfl hends, hafter⟩
      have hjudge₁ : MayJudge (spec.resume first (readings rule.metric base.grid) base.now) := hjudge.resume _ _ _
      rw [← hspec] at hnext
      obtain ⟨events, rule', rows', hrun, hevents, hlive⟩ := liveRun_events repr ids base (hnext ▸ hjudge₁)
        (hof.stored hst hids hends) hfresh₁ hrest (hlater _ _ _ hok)
      refine ⟨first.events ++ events, rule', rows', ?_, ?_⟩
      · rw [liveRun, hok]
        simp only [bind, Except.bind, hrun]
        rfl
      have hagrees : Agrees .blind first.events
          (foldReadings ⟨t.uuid4, repr⟩ (spec.offer (readings rule.metric t.grid) t.now)).issued
          (foldReadings ⟨ids, repr⟩ (spec.offer (readings rule.metric t.grid ++ allReadings rule.metric ts) 0))
          (foldReadings ⟨ids, repr⟩ (spec.resume first (allReadings rule.metric ts) 0)) :=
        (hjudge.offer _ 0).agrees_split rfl hbefore .blind repr rfl rfl rfl (fun _ => rfl) (fun _ => rfl)
      rw [hnext] at hevents hlive
      have hoffer : (spec.resume first (readings rule.metric base.grid) base.now).offer (allReadings rule.metric ts) 0 =
          spec.resume first (allReadings rule.metric ts) 0 := rfl
      have hmetric : (storeRule rule first (base.at t).now).metric = rule.metric := rfl
      rw [hmetric, hoffer, (hjudge.resume first _ 0).foldRule_eq] at hevents hlive
      rw [finish_events] at hevents
      rw [finish_breach] at hlive
      rw [(hjudge.offer _ 0).foldRule_eq, finish_events, finish_breach]
      refine ⟨?_, hlive.trans (by simpa using congrArg Option.isSome hagrees.breach)⟩
      calc
        (first.events ++ events).map (·.mark)
          = first.events.map (·.mark) ++ events.map (·.mark) := List.map_append
        _ = (first.events.map (·.blur .blind) ++
              (foldReadings ⟨ids, repr⟩ (spec.resume first (allReadings rule.metric ts) 0)).events.map (·.blur .blind)).map
                (·.mark) := by
            rw [hevents, List.map_append, map_mark_blur, map_mark_blur]
        _ = _ := by rw [← hagrees.events, map_mark_blur]

/-- A preview of the rule, which has judged nothing yet. -/
structure PreviewRule.Previews (rule : PreviewRule φ) (spec : FoldInput φ) : Prop where
  metric : rule.metric = spec.metric
  operator : rule.operator = spec.operator
  thresholdValue : rule.thresholdValue = spec.thresholdValue
  sustainBuckets : rule.sustainBuckets = spec.sustainBuckets
  recoveryBuckets : rule.recoveryBuckets = spec.recoveryBuckets
  clean : (Fold.start spec).outline = ⟨0, 0, none, none, []⟩

theorem PreviewRule.Previews.outline {rule : PreviewRule φ} {spec} (h : rule.Previews spec)
    {rs} (hinc : Increasing rs) (rt : Runtime) (now : Int) :
    (foldReadings rt (rule.foldInput rs now)).outline = (foldReadings rt (spec.offer rs 0)).outline := by
  rw [outline_foldReadings rt (show Increasing (rule.foldInput rs now).readings from hinc),
    outline_foldReadings rt (show Increasing (spec.offer rs 0).readings from hinc)]
  have hstart : (Fold.start (spec.offer rs 0)).outline = ⟨0, 0, none, none, []⟩ := h.clean
  have hcounted : counted rt (rule.foldInput rs now) = counted rt (spec.offer rs 0) := by
    funext r
    simp only [counted, verdict, scopedVerdict, foldInput, FoldInput.offer, h.metric, h.operator, h.thresholdValue]
    rfl
  rw [hstart, hcounted]
  simp only [foldInput, FoldInput.offer, h.sustainBuckets, h.recoveryBuckets]
  rfl

theorem drawn_preview (rt : Runtime) (rule : PreviewRule φ) {rs} (hinc : Increasing rs) (now : Int) :
    ∃ bound found, Drawn bound (foldReadings rt (rule.foldInput rs now)).outline found := by
  have hclean : ∀ bound, Drawn bound (Fold.start (rule.foldInput rs now)).outline [] :=
    fun _ => ⟨rfl, rfl, nofun, nofun, List.Pairwise.nil⟩
  rw [outline_foldReadings rt (show Increasing (rule.foldInput rs now).readings from hinc)]
  cases rs with
  | nil => exact ⟨0, [], hclean 0⟩
  | cons r rs =>
    refine (hclean (r.bucketStart - 1)).foldl hinc (fun r' hr' => ?_)
    rcases List.mem_cons.mp hr' with rfl | hr'
    · omega
    · have hlt := (List.pairwise_cons.mp hinc).1 r' hr'
      omega

end QRadarDashboard.CustomRules
