import QRadarDashboard.Collectors.WafEndpointCollector
import QRadarDashboard.History.Lemmas.Scan

/-!
# What a WAF floor scan can end with
-/

namespace QRadarDashboard.Collectors
open Lib History

variable {φ : Type} [PyFloat φ] {minCoverage : φ} {st : PlannerSettings φ} {tick : WafTick φ}

/-! ## Triggers -/

def Survives (trigger : Option HistoryTrigger) : Prop :=
  trigger ≠ some .nothingToRead ∧ trigger ≠ some .windowTooSmall

theorem survives_none : Survives none := ⟨nofun, nofun⟩

theorem finishVerdict_survives (p : ScopeProgress Int φ) (st : PlannerSettings φ) :
    Survives (some (finishVerdict p st).1) := by
  unfold finishVerdict
  dsimp only
  generalize (if floorIsCut p st then _ else [] : List String) ++ _ = problems
  cases problems with
  | nil => simp [Survives]
  | cons problem problems => simp [Survives]

theorem settleFailed_survives (p : ScopeProgress Int φ) (blocker : ChunkResult) (n : Int) (st : PlannerSettings φ) :
    Survives (settleFailed p blocker n st).trigger := by
  unfold settleFailed Survives
  dsimp only
  split_ifs <;> exact ⟨nofun, nofun⟩

theorem settleNotRun_survives (p : ScopeProgress Int φ) (read current : Int) (st : PlannerSettings φ) :
    Survives (settleNotRun p read current st).trigger := by
  unfold settleNotRun
  dsimp only
  split_ifs <;> exact survives_none

theorem settleBlocker_survives {p pre current v} (h : settleBlocker p pre current st = .ok v) : Survives v.trigger := by
  unfold settleBlocker at h
  split at h
  · cases h
    exact survives_none
  · obtain ⟨n, _, h⟩ := bind_ok h
    split at h
    · cases h
      exact settleFailed_survives _ _ _ _
    · cases h
      exact survives_none
    · cases h
      exact settleNotRun_survives _ _ _ _

theorem densityGate_survives {v} (h : Survives v.trigger) : Survives (densityGate v st).trigger := by
  unfold densityGate
  dsimp only
  split_ifs
  · exact ⟨nofun, nofun⟩
  · exact h
  · exact h

theorem finishGate_survives {v} (h : Survives v.trigger) (stop : Int) : Survives (finishGate v stop st).trigger := by
  unfold finishGate
  split
  · split
    · exact h
    · split
      · exact finishVerdict_survives _ _
      · exact h
  · exact h

theorem settleStep_survives {p results stop o} (h : settleStep p results stop st = .ok o) : Survives o.trigger := by
  unfold settleStep at h
  split at h
  · cases h
  · obtain ⟨_, _, h⟩ := bind_ok h
    obtain ⟨_, _, h⟩ := bind_ok h
    obtain ⟨pre, _, h⟩ := bind_ok h
    obtain ⟨v, hv, h⟩ := bind_ok h
    cases h
    exact finishGate_survives (densityGate_survives (settleBlocker_survives hv)) stop

theorem nextState_survives {trigger} (h : Survives (some trigger)) {change}
    (hchange : nextState .reading trigger = .ok change) : change.state ≠ .unavailable := by
  obtain ⟨h₁, h₂⟩ := h
  unfold nextState at hchange
  cases trigger <;> first | exact absurd rfl h₁ | exact absurd rfl h₂ | (cases hchange; try exact nofun)

/-! ## Plans -/

inductive PlanCase (st : PlannerSettings φ) (p : ScopeProgress Int φ) (stop : Int) (plan : StepPlan) : Prop
  | finish (h : plan.action = .finish) (survives : Survives plan.trigger)
  | wait (h : plan.action = .wait)
  | empty (h : plan.action = .finish) (trigger : plan.trigger = some .nothingToRead) (floor : p.floor = none)
      (scan : ScanPlan) (hscan : planScan p stop st = .ok scan) (hspan : scan.span = none)
  | scan (h : plan.action = .scan) (floor : p.floor = none) (scan : ScanPlan)
      (hscan : planScan p stop st = .ok scan) (hspan : scan.span = plan.scanSpan)
  | read (h : plan.action = .read) (floor : p.floor ≠ none)

theorem planStep_cases {p now stop budget plan}
    (h : planStep p now stop budget st = .ok plan) : PlanCase st p stop plan := by
  rw [planStep] at h
  obtain ⟨_, _, h⟩ := bind_ok h
  simp only [Bool.not_true, Bool.false_eq_true, if_false] at h
  split at h
  · cases h
    exact .finish rfl (finishVerdict_survives _ _)
  · split at h
    · cases h
      exact .finish rfl ⟨(fun h => by cases h), (fun h => by cases h)⟩
    · split at h
      · cases h
        exact .wait rfl
      · cases hstart : nextStart p st with
        | none =>
          have hfloor : p.floor = none := by
            cases hfloor : p.floor with
            | none => rfl
            | some floor => cases hthrough : p.through <;> simp [nextStart, hfloor, hthrough] at hstart
          simp only [hstart, planFloorScan] at h
          obtain ⟨scan, hscan, h⟩ := bind_ok h
          cases hspan : scan.span with
          | none =>
            rw [hspan] at h
            cases h
            exact .empty rfl rfl hfloor scan hscan hspan
          | some span =>
            rw [hspan] at h
            cases h
            exact .scan rfl hfloor scan hscan hspan
        | some start =>
          obtain ⟨floor, hfloor, _⟩ := nextStart_some_floor hstart
          simp only [hstart, planRead] at h
          obtain ⟨_, _, h⟩ := bind_ok h
          obtain ⟨_, _, h⟩ := bind_ok h
          cases h
          exact .read rfl (fun h => by cases hfloor.symm.trans h)

/-! ## The provider -/

/-- The provider never fails, holds `events t` events in the bucket at `t`, and answers a search over at most `m`
buckets whole. -/
structure WafProvider.Whole (p : WafProvider) (st : PlannerSettings φ) (m : Int) (events : Int → Int) : Prop where
  one : ∀ k span, p.one k span = .error .permitUnavailable ∨
    ∃ batch, p.one k span = .ok batch ∧ batch.totalEvents = events span.start
  keyed : ∀ k span, p.keyed k span = .error .permitUnavailable ∨
    ∃ found, p.keyed k span = .ok found ∧ (span.stop - span.start ≤ m * st.bucket → found.truncated = false) ∧
      (found.truncated = false → (∀ item ∈ found.buckets, item.2.totalEvents = events item.1) ∧
        ∀ t, st.bucket ∣ t → span.start ≤ t → t < span.stop → 0 < events t → ∃ batch, (t, batch) ∈ found.buckets)

def WafProvider.Cut (p : WafProvider) (k : Nat) (span : Span Int) : Prop :=
  ∃ answer, p.keyed k span = .ok answer ∧ answer.truncated = true

theorem historyVolumeSearch_whole {p m} {events : Int → Int} (hwhole : p.Whole st m events)
    {k span} (hstart : st.bucket ∣ span.start) {found}
    (h : historyVolumeSearch p k span st.bucketSeconds = .ok found) :
    (found.status = .truncated ∧ m * st.bucket < span.stop - span.start ∧ p.Cut k span) ∨
      (found.status = .complete ∧ (∀ item ∈ scanTotals found.keyed, item.2 = events item.1) ∧
        ∀ t, st.bucket ∣ t → span.start ≤ t → t < span.stop → 0 < events t → (t, events t) ∈ scanTotals found.keyed) := by
  unfold historyVolumeSearch at h
  by_cases hsingle : span.stop - span.start = seconds st.bucketSeconds
  · simp only [hsingle, decide_true, if_true, Bool.not_true, Bool.false_and, Bool.false_eq_true, if_false] at h
    rcases hwhole.one k span with hone | ⟨batch, hone, hbatch⟩
    · simp [hone, Except.map] at h
    · simp only [hone, Except.map, Except.ok.injEq] at h
      subst h
      refine .inr ⟨rfl, ?_, ?_⟩
      · intro item hitem
        simp only [scanTotals, mem_sortOn, List.mem_map, List.mem_singleton] at hitem
        obtain ⟨_, rfl, rfl⟩ := hitem
        exact hbatch
      · intro t hdvd hlo hhi _
        -- the only aligned time of one bucket is its start
        obtain ⟨a, ha⟩ := hstart
        obtain ⟨b, rfl⟩ := hdvd
        have hpos := st.bucket_pos
        have hbucket : span.stop - span.start = st.bucket := hsingle
        have hab : b = a := by
          have h₁ : a ≤ b := by
            by_contra hlt
            have : st.bucket * (b + 1) ≤ st.bucket * a := Int.mul_le_mul_of_nonneg_left (by omega) hpos.le
            rw [mul_add, mul_one] at this
            omega
          have h₂ : b ≤ a := by
            by_contra hlt
            have : st.bucket * (a + 1) ≤ st.bucket * b := Int.mul_le_mul_of_nonneg_left (by omega) hpos.le
            rw [mul_add, mul_one] at this
            omega
          omega
        subst hab
        simp only [scanTotals, mem_sortOn, List.mem_map, List.mem_singleton]
        exact ⟨_, rfl, by rw [hbatch, ha]⟩
  · simp only [hsingle, decide_false, Bool.false_eq_true, if_false, Bool.not_false, Bool.true_and] at h
    rcases hwhole.keyed k span with hkeyed | ⟨answer, hkeyed, hnarrow, htruth⟩
    · simp [hkeyed] at h
    · simp only [hkeyed] at h
      by_cases htruncated : answer.truncated = true
      · simp only [htruncated, if_true, Except.ok.injEq] at h
        subst h
        refine .inl ⟨rfl, ?_, answer, hkeyed, htruncated⟩
        by_contra hle
        rw [hnarrow (by omega)] at htruncated
        cases htruncated
      · simp only [htruncated, Bool.false_eq_true, if_false, Except.ok.injEq] at h
        subst h
        obtain ⟨htotals, hall⟩ := htruth (Bool.not_eq_true _ ▸ htruncated)
        refine .inr ⟨rfl, ?_, ?_⟩
        · intro item hitem
          simp only [scanTotals, mem_sortOn, List.mem_map] at hitem
          obtain ⟨entry, hentry, rfl⟩ := hitem
          exact htotals entry hentry
        · intro t hdvd hlo hhi hpos
          obtain ⟨batch, hbatch⟩ := hall t hdvd hlo hhi hpos
          simp only [scanTotals, mem_sortOn, List.mem_map]
          exact ⟨(t, batch), hbatch, by rw [← htotals _ hbatch]⟩

/-! ## One scan -/

structure Looking (st : PlannerSettings φ) (T0 e : Int) (p : ScopeProgress Int φ) : Prop where
  target : p.targetStart = T0
  cursor : ∃ c, p.scanCursor = some c ∧ st.bucket ∣ c ∧ c ≤ e

theorem planScan_looking {T0 e stop p} (hlook : Looking st T0 e p) (he : e < stop)
    {scan} (h : planScan p stop st = .ok scan) : ∃ span, scan.span = some span ∧
      p.scanCursor = some span.start ∧ st.bucket ∣ span.start ∧ span.start ≤ e ∧ st.bucket ∣ span.stop ∧
      span.start ≤ span.stop := by
  obtain ⟨c, hc, hdvd, hle⟩ := hlook.cursor
  obtain ⟨_, hstop, h'⟩ := bind_ok h
  rw [hc] at h'
  simp only [ge_iff_le, not_le.mpr (lt_of_le_of_lt hle he), if_false] at h'
  have hspan := planScan_span h (by cases h'; rfl)
  cases h'
  refine ⟨_, rfl, hc, hdvd, hle, ?_, hspan.2.1⟩
  by_cases hmin : stop ≤ c + st.maxSpanBuckets * st.bucket
  · simp only [min_eq_left hmin]
    exact requireAligned_ok.mp hstop
  · simp only [min_eq_right (not_le.mp hmin).le]
    exact hdvd.add (Dvd.intro_left _ rfl)

theorem scanUnproved_retry {p} (h : p.scanFailures + 1 < st.maxFailures) (status : SearchStatus) :
    (scanUnproved st p status).outcome = .retry ∧ (scanUnproved st p status).trigger = none := by
  simp [scanUnproved, not_le.mpr h]

omit [PyFloat φ] in
theorem scanQuiet_continue {p : ScopeProgress Int φ} {cursor stop} (h : cursor < stop) :
    (scanQuiet stop p cursor).outcome = .continue ∧ (scanQuiet stop p cursor).trigger = none := by
  simp [scanQuiet, not_le.mpr h]

inductive SpanScan (st : PlannerSettings φ) (p : ScopeProgress Int φ) (span : Span Int) (status : SearchStatus)
    (totals : List (Int × Int)) (stop : Int) (d : ScanDecision φ) : Prop
  | unproved (hstatus : status ≠ .complete) (target : d.progress.targetStart = p.targetStart)
      (cursor : d.progress.scanCursor = some span.start)
      (retry : p.scanFailures + 1 < st.maxFailures → d.outcome = .retry ∧ d.trigger = none)
  | quiet (hstatus : status = .complete) (silent : ∀ item ∈ totals, item.2 ≤ 0)
      (target : d.progress.targetStart = p.targetStart) (cursor : d.progress.scanCursor = some span.stop)
      (goesOn : span.stop < stop → d.outcome = .continue ∧ d.trigger = none)
  | found (hstatus : status = .complete) (b0 floor : Int) (inside : span.start ≤ b0 ∧ b0 < span.stop)
      (first : ∀ item ∈ totals, item.1 < b0 → item.2 ≤ 0) (hfloor : IsFloor st p.targetStart b0 floor)
      (early : floor < stop → d.outcome = .floorFound ∧ d.progress.floor = some floor ∧ d.trigger = none)

theorem interpretScan_span {p : ScopeProgress Int φ} {span status totals hle stop d}
    (hcursor : p.scanCursor = some span.start)
    (h : interpretScan p [⟨span, status, totals, hle⟩] stop st = .ok d) : SpanScan st p span status totals stop d := by
  have hinterpret : interpret st p ⟨[⟨span, status, totals, hle⟩], stop⟩ = .ok d := h
  obtain ⟨_, c, hc, hcall⟩ := interpret_scanned hinterpret
  rcases hcall with ⟨hempty, _⟩ | ⟨_, hscanned⟩
  · cases hempty
  · cases hscanned with
    | quiet b hto hd =>
      obtain ⟨hcomplete, hquiet, rfl⟩ := quietTo_singleton hto
      subst hd
      refine .quiet hcomplete hquiet ?_ ?_ scanQuiet_continue
      · rw [(scanQuiet_progress _ _ _).1]
      · rw [(scanQuiet_progress _ _ _).1]
    | unproved quiet r rest hsplit hto hstatus hd =>
      obtain ⟨rfl, rfl⟩ := singleton_eq_append_cons hsplit
      subst hd
      refine .unproved hstatus ?_ ?_ (fun hretry => scanUnproved_retry (by exact hretry) status)
      · rw [(scanUnproved_progress _ _ _).1]
      · rw [(scanUnproved_progress _ _ _).1]
        exact hcursor
    | found quiet r rest b0 hsplit hto hfirst hd =>
      obtain ⟨rfl, rfl⟩ := singleton_eq_append_cons hsplit
      obtain ⟨floor, hfloor, hcases⟩ := scanFound_progress hd
      refine .found hfirst.complete b0 floor hfirst.inside hfirst.first hfloor (fun hearly => ?_)
      rcases hcases with ⟨hge, _⟩ | ⟨_, houtcome, hprogress⟩
      · exact absurd hearly (not_lt.mpr hge)
      · exact ⟨houtcome, by rw [hprogress], scanFound_trigger hd houtcome⟩

theorem raising_ok {α : Type} {x} {a : α} (h : raising x = .ok a) : x = .ok a := by
  cases x with
  | error e => cases h
  | ok b => cases h; rfl

variable {m : Int} {events : Int → Int} {T0 e F : Int}

theorem scanBranch_looking (hwhole : tick.provider.Whole st m events) (hpos : 0 < events e) (hdvd : st.bucket ∣ e)
    (hfloor : IsFloor st T0 e F) (hbefore : F < tick.boundary) {p} (hlook : Looking st T0 e p)
    {scan : ScanPlan} (hscan : planScan p tick.boundary st = .ok scan) {span} (hspan : scan.span = some span)
    (hfits : m * st.bucket < span.stop - span.start → tick.provider.Cut 0 span → p.scanFailures + 1 < st.maxFailures)
    {hle step}
    (h : scanBranch minCoverage st tick p span hle = .ok step) :
    Survives step.trigger ∧ (step.progress.floor = none → Looking st T0 e step.progress) := by
  have hefloor := event_le_floor hfloor
  obtain ⟨_, hspan', hcursor, hstart, hstarte, hstop, _⟩ := planScan_looking hlook (by omega) hscan
  cases hspan.symm.trans hspan'
  obtain ⟨found, hfound, h⟩ := bind_ok h
  obtain ⟨decision, hdecision, h⟩ := bind_ok h
  have hcases := historyVolumeSearch_whole hwhole hstart hfound
  cases interpretScan_span hcursor (raising_ok hdecision) with
  | unproved hstatus target cursor retry =>
    have hretry : p.scanFailures + 1 < st.maxFailures := by
      rcases hcases with ⟨_, hwide, hcut⟩ | ⟨hcomplete, _⟩
      · exact hfits hwide hcut
      · exact absurd hcomplete hstatus
    obtain ⟨houtcome, htrigger⟩ := retry hretry
    simp only [houtcome, htrigger] at h
    cases h
    exact ⟨survives_none, fun _ => ⟨target.trans hlook.target, span.start, cursor, hstart, hstarte⟩⟩
  | quiet hstatus silent target cursor goesOn =>
    -- a quiet span has not reached the event
    have hpassed : span.stop ≤ e := by
      by_contra hlt
      rcases hcases with ⟨htruncated, _⟩ | ⟨_, _, hall⟩
      · simp [htruncated] at hstatus
      · have := silent _ (hall e hdvd hstarte (by omega) hpos)
        simp only at this
        omega
    obtain ⟨houtcome, htrigger⟩ := goesOn (by omega)
    simp only [houtcome, htrigger] at h
    cases h
    exact ⟨survives_none, fun _ => ⟨target.trans hlook.target, span.stop, cursor, hstop, hpassed⟩⟩
  | found hstatus b0 floor inside first hb0 early =>
    have hle : b0 ≤ e := by
      by_contra hlt
      rcases hcases with ⟨htruncated, _⟩ | ⟨_, _, hall⟩
      · simp [htruncated] at hstatus
      · have := first _ (hall e hdvd hstarte (by omega) hpos) (by simp only; omega)
        simp only at this
        omega
    have hearly : floor ≤ F := isFloor_mono (hlook.target ▸ hb0) hfloor hle
    obtain ⟨houtcome, hset, htrigger⟩ := early (by omega)
    simp only [houtcome, hset, htrigger] at h
    cases hkeyed : found.keyed with
    | none =>
      simp only [hkeyed] at h
      cases h
      exact ⟨survives_none, fun hnone => by simp [hset] at hnone⟩
    | some keyed =>
      simp only [hkeyed] at h
      split at h
      · cases h
        exact ⟨survives_none, fun hnone => by simp [hset] at hnone⟩
      · obtain ⟨settled, hsettled, h⟩ := bind_ok h
        obtain ⟨rows, _, h⟩ := bind_ok h
        cases h
        obtain ⟨_, _, _, hkept⟩ := settleStep_ok (raising_ok hsettled)
        refine ⟨settleStep_survives (raising_ok hsettled), fun hnone => ?_⟩
        simp only [hkept.floor, hset] at hnone
        cases hnone

/-! ## One tick -/

/-- A scan of the tick that is wider than `m` buckets and truncated is not the last that is tried. -/
def ScanFits (st : PlannerSettings φ) (m : Int) (p : ScopeProgress Int φ) (tick : WafTick φ) : Prop :=
  ∀ plan, planStep p tick.now tick.boundary tick.budget st = .ok plan → plan.action = .scan → tick.permit = true →
    ∀ span, plan.scanSpan = some span → m * st.bucket < span.stop - span.start → tick.provider.Cut 0 span →
      p.scanFailures + 1 < st.maxFailures

theorem readBranch_survives {p} (hsome : p.floor ≠ none) {chunks : List (Span Int)}
    {step} (h : readBranch minCoverage st tick p chunks = .ok step) :
    Survives step.trigger ∧ step.progress.floor ≠ none := by
  obtain ⟨reads, _, h⟩ := bind_ok h
  split at h
  · cases h
    exact ⟨survives_none, hsome⟩
  · obtain ⟨settled, hsettled, h⟩ := bind_ok h
    obtain ⟨_, _, _, hkept⟩ := settleStep_ok (raising_ok hsettled)
    have hfloor : settled.progress.floor ≠ none := by
      rw [hkept.floor]
      exact hsome
    dsimp only at h
    split at h
    · cases h
      exact ⟨settleStep_survives (raising_ok hsettled), hfloor⟩
    · split at h
      · cases h
      · obtain ⟨rows, _, h⟩ := bind_ok h
        cases h
        exact ⟨settleStep_survives (raising_ok hsettled), hfloor⟩

theorem historyVolumeStep_looking (hwhole : tick.provider.Whole st m events) (hpos : 0 < events e)
    (hdvd : st.bucket ∣ e) (hfloor : IsFloor st T0 e F) (hbefore : F < tick.boundary) {p}
    (hlook : p.floor = none → Looking st T0 e p) (hfits : p.floor = none → ScanFits st m p tick)
    {step : WafHistoryStep φ} (h : historyVolumeStep minCoverage st tick p = .ok step) :
    Survives step.trigger ∧ (step.progress.floor = none → Looking st T0 e step.progress) := by
  have hefloor := event_le_floor hfloor
  obtain ⟨plan, hplan, h⟩ := bind_ok h
  cases planStep_cases (raising_ok hplan) with
  | finish haction survives =>
    simp only [haction] at h
    cases h
    exact ⟨survives, hlook⟩
  | wait haction =>
    simp only [haction] at h
    cases h
    exact ⟨survives_none, hlook⟩
  | empty _ _ hnone scan hscan hspan =>
    obtain ⟨_, hspan', _⟩ := planScan_looking (hlook hnone) (by omega) hscan
    cases hspan.symm.trans hspan'
  | scan haction hnone scan hscan hspan =>
    simp only [haction] at h
    split at h
    · cases h
      exact ⟨survives_none, hlook⟩
    · rename_i hpermit
      obtain ⟨span, hspan', _⟩ := planScan_looking (hlook hnone) (by omega) hscan
      have hplanned := hspan.symm.trans hspan'
      rw [hplanned] at h
      simp only at h
      split at h
      · exact scanBranch_looking hwhole hpos hdvd hfloor hbefore (hlook hnone) hscan hspan'
          (hfits hnone plan (raising_ok hplan) haction (by simpa using hpermit) span hplanned) h
      · cases h
  | read haction hsome =>
    simp only [haction] at h
    split at h
    · cases h
      exact ⟨survives_none, hlook⟩
    · obtain ⟨hsurvives, hknown⟩ := readBranch_survives hsome h
      exact ⟨hsurvives, fun hnone => absurd hnone hknown⟩

/-- A scope that is not unavailable, and still looks for its floor or knows it. -/
structure Alive (st : PlannerSettings φ) (T0 e : Int) (scope : WafScope φ) : Prop where
  state : scope.state ≠ .unavailable
  looking : scope.progress.floor = none → Looking st T0 e scope.progress

theorem historyTick_alive (hwhole : tick.provider.Whole st m events) (hpos : 0 < events e) (hdvd : st.bucket ∣ e)
    (hfloor : IsFloor st T0 e F) (hbefore : F < tick.boundary) {scope scope'}
    (halive : Alive st T0 e scope) (hfits : scope.progress.floor = none → ScanFits st m scope.progress tick)
    (h : historyTick minCoverage st tick scope = .ok scope') : Alive st T0 e scope' := by
  obtain ⟨_, _, h⟩ := bind_ok h
  obtain ⟨step, hstep, h⟩ := bind_ok h
  obtain ⟨hsurvives, hlook⟩ := historyVolumeStep_looking hwhole hpos hdvd hfloor hbefore halive.looking hfits hstep
  cases htrigger : step.trigger with
  | none =>
    simp only [htrigger] at h
    cases h
    exact ⟨nofun, hlook⟩
  | some trigger =>
    simp only [htrigger] at h
    obtain ⟨change, hchange, h⟩ := bind_ok h
    cases h
    exact ⟨nextState_survives (htrigger ▸ hsurvives) (raising_ok hchange), hlook⟩

theorem newProgress_looking {startedAt p} (h : newProgress T0 startedAt st = .ok p)
    (hfirst : T0 - st.margin ≤ e) : Looking st T0 e p := by
  obtain ⟨_, haligned, h⟩ := bind_ok h
  cases h
  exact ⟨rfl, _, rfl, (requireAligned_ok.mp haligned).sub (dvd_margin st), hfirst⟩

end QRadarDashboard.Collectors
