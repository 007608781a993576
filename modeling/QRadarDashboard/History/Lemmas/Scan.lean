import QRadarDashboard.History.Lemmas.Settle
import QRadarDashboard.History.Scan
import QRadarDashboard.Lib.Run

/-!
# What a run of floor scans has proved
-/

namespace QRadarDashboard.History
open Lib

variable {φ : Type} [PyFloat φ] {st : PlannerSettings φ}

/-! ## One call -/

inductive QuietTo : Int → List ScanSpanResult → Int → Prop
  | nil {a} : QuietTo a [] a
  | cons {r rs b} : r.status = .complete → (∀ item ∈ r.totals, item.2 ≤ 0) → QuietTo r.span.stop rs b →
      QuietTo r.span.start (r :: rs) b

structure FirstEvent (st : PlannerSettings φ) (r : ScanSpanResult) (b0 : Int) : Prop where
  complete : r.status = .complete
  aligned : st.bucket ∣ b0
  inside : r.span.start ≤ b0 ∧ b0 < r.span.stop
  positive : ∃ total, 0 < total ∧ (b0, total) ∈ r.totals
  first : ∀ item ∈ r.totals, item.1 < b0 → item.2 ≤ 0

def SilentIn (results : List ScanSpanResult) (t : Int) : Prop :=
  ∃ r ∈ results, r.status = .complete ∧ r.span.start ≤ t ∧ t < r.span.stop ∧
    ∀ item ∈ r.totals, item.1 = t → item.2 ≤ 0

theorem QuietTo.le {a b results} (h : QuietTo a results b) : a ≤ b := by
  induction h with
  | nil => exact le_refl _
  | cons _ _ _ ih => exact le_trans (ScanSpanResult.span_ok _) ih

theorem QuietTo.silent {a b results} (h : QuietTo a results b) {t} (hat : a ≤ t)
    (htb : t < b) : SilentIn results t := by
  induction h with
  | nil => omega
  | @cons r rs b hcomplete hquiet _ ih =>
    by_cases ht : t < r.span.stop
    · exact ⟨r, List.mem_cons_self, hcomplete, hat, ht, fun item hitem _ => hquiet item hitem⟩
    · obtain ⟨r', hr', h⟩ := ih (by omega) htb
      exact ⟨r', List.mem_cons_of_mem r hr', h⟩

theorem checkTotals_ok {span totals} (h : checkTotals st span totals = .ok ()) :
    ∀ item ∈ totals, st.bucket ∣ item.1 ∧ span.start ≤ item.1 ∧ item.1 < span.stop := by
  induction totals with
  | nil => simp
  | cons item totals ih =>
    obtain ⟨bucket, total⟩ := item
    rw [checkTotals] at h
    obtain ⟨_, haligned, h⟩ := bind_ok h
    obtain ⟨_, hinside, h⟩ := bind_ok h
    obtain ⟨_, _, h⟩ := bind_ok h
    intro item hitem
    rcases List.mem_cons.mp hitem with rfl | hitem
    · refine ⟨requireAligned_ok.mp haligned, ?_⟩
      simp only [require] at hinside
      split at hinside
      · assumption
      · cases hinside
    · exact ih h item hitem

theorem quiet_of_eventBuckets {totals} (h : eventBuckets totals = []) : ∀ item ∈ totals, item.2 ≤ 0 := by
  intro item hitem
  by_contra hpos
  have hmem : item.1 ∈ eventBuckets totals := by
    simp only [eventBuckets, mem_sortOn, List.mem_map, List.mem_filter, decide_eq_true_eq]
    exact ⟨item, ⟨hitem, by omega⟩, rfl⟩
  rw [h] at hmem
  cases hmem

theorem firstEvent_of_eventBuckets {r} (hcomplete : r.status = .complete)
    (hcheck : checkTotals st r.span r.totals = .ok ()) {b0 rest}
    (h : eventBuckets r.totals = b0 :: rest) : FirstEvent st r b0 := by
  have hmem : b0 ∈ eventBuckets r.totals := by simp [h]
  simp only [eventBuckets, mem_sortOn, List.mem_map, List.mem_filter, decide_eq_true_eq] at hmem
  obtain ⟨item, ⟨hitem, hpos⟩, rfl⟩ := hmem
  obtain ⟨haligned, hinside⟩ := checkTotals_ok hcheck item hitem
  refine ⟨hcomplete, haligned, hinside, ⟨item.2, hpos, hitem⟩, ?_⟩
  intro other hother hlt
  by_contra hevent
  -- The events are sorted, so none comes before their head.
  have hsorted : (eventBuckets r.totals).Pairwise (fun a b => a ≤ b) := pairwise_sortOn _
  have hmem : other.1 ∈ eventBuckets r.totals := by
    simp only [eventBuckets, mem_sortOn, List.mem_map, List.mem_filter, decide_eq_true_eq]
    exact ⟨other, ⟨hother, by omega⟩, rfl⟩
  rw [h] at hsorted hmem
  rcases List.mem_cons.mp hmem with heq | hmem
  · omega
  · have := List.rel_of_pairwise_cons hsorted hmem
    omega

inductive Scanned (st : PlannerSettings φ) (stop : Int) (p : ScopeProgress Int φ) (a : Int)
    (results : List ScanSpanResult) (d : ScanDecision φ) : Prop
  | quiet (b : Int) : QuietTo a results b → d = scanQuiet stop p b → Scanned st stop p a results d
  | unproved (quiet : List ScanSpanResult) (r : ScanSpanResult) (rest : List ScanSpanResult) :
      results = quiet ++ r :: rest → QuietTo a quiet r.span.start → r.status ≠ .complete →
      d = scanUnproved st p r.status → Scanned st stop p a results d
  | found (quiet : List ScanSpanResult) (r : ScanSpanResult) (rest : List ScanSpanResult) (b0 : Int) :
      results = quiet ++ r :: rest → QuietTo a quiet r.span.start → FirstEvent st r b0 →
      scanFound st stop p r.span b0 = .ok d → Scanned st stop p a results d

theorem scanSpans_scanned {stop p results a d} (h : scanSpans st stop p a results = .ok d) :
    Scanned st stop p a results d := by
  induction results generalizing a with
  | nil =>
    cases h
    exact .quiet a .nil rfl
  | cons r results ih =>
    rw [scanSpans] at h
    by_cases hstart : r.span.start = a
    · subst hstart
      by_cases hcomplete : r.status = .complete
      · simp only [hcomplete, ne_eq, not_true_eq_false, if_false] at h
        obtain ⟨_, hcheck, h⟩ := bind_ok h
        cases hevents : eventBuckets r.totals with
        | cons b0 rest =>
          rw [hevents] at h
          exact .found [] r results b0 rfl .nil (firstEvent_of_eventBuckets hcomplete hcheck hevents) h
        | nil =>
          rw [hevents] at h
          have hquiet := quiet_of_eventBuckets hevents
          -- A quiet span is put before what the rest of the loop read.
          cases ih h with
          | quiet b hto hd => exact .quiet b (.cons hcomplete hquiet hto) hd
          | unproved quiet r' rest hres hto hstatus hd =>
            exact .unproved (r :: quiet) r' rest (by simp [hres]) (.cons hcomplete hquiet hto) hstatus hd
          | found quiet r' rest b0 hres hto hfirst hd =>
            exact .found (r :: quiet) r' rest b0 (by simp [hres]) (.cons hcomplete hquiet hto) hfirst hd
      · simp only [ne_eq, not_true_eq_false, if_false, hcomplete, not_false_eq_true, if_true, Except.ok.injEq] at h
        exact .unproved [] r results rfl .nil hcomplete h.symm
    · simp [hstart] at h

theorem isLeast_alignUp {value a} (h : alignUp value st = .ok a) : IsLeast {x | st.bucket ∣ x ∧ value ≤ x} a := by
  rw [alignUp] at h
  obtain ⟨e, he, h⟩ := bind_ok h
  cases h
  simp only [epoch] at he
  split at he
  · cases he
  · cases he
    rename_i hwhole
    have hpos := st.bucketSeconds_ok.1
    have hbucket : st.bucket = st.bucketSeconds * 1000000 := rfl
    have hdiv : -(-(value / 1000000) / st.bucketSeconds) * st.bucketSeconds - st.bucketSeconds < value / 1000000 ∧
        value / 1000000 ≤ -(-(value / 1000000) / st.bucketSeconds) * st.bucketSeconds := by
      have hmod := Int.emod_nonneg (-(value / 1000000)) (by omega : st.bucketSeconds ≠ 0)
      have hlt := Int.emod_lt_of_pos (-(value / 1000000)) (by omega : 0 < st.bucketSeconds)
      have hsum := Int.mul_ediv_add_emod (-(value / 1000000)) st.bucketSeconds
      have hcomm : -(-(value / 1000000) / st.bucketSeconds) * st.bucketSeconds =
          -(st.bucketSeconds * (-(value / 1000000) / st.bucketSeconds)) := by ring
      omega
    refine ⟨⟨?_, ?_⟩, ?_⟩
    · rw [hbucket, seconds]
      exact Int.mul_dvd_mul_right _ (Dvd.intro_left _ rfl)
    · simp only [seconds]
      omega
    · rintro x ⟨⟨k, hk⟩, hx⟩
      simp only [seconds]
      have hk' : x = st.bucketSeconds * k * 1000000 := by rw [hk, hbucket]; ring
      by_contra hlt
      have hlt' : st.bucketSeconds * k < -(-(value / 1000000) / st.bucketSeconds) * st.bucketSeconds := by omega
      have hge : value / 1000000 ≤ st.bucketSeconds * k := by omega
      have hkk : k < -(-(value / 1000000) / st.bucketSeconds) := by
        rw [mul_comm] at hlt'
        exact lt_of_mul_lt_mul_right hlt' (by omega)
      have : k * st.bucketSeconds ≤ (-(-(value / 1000000) / st.bucketSeconds) - 1) * st.bucketSeconds :=
        Int.mul_le_mul_of_nonneg_right (by omega) (by omega)
      have hring : (-(-(value / 1000000) / st.bucketSeconds) - 1) * st.bucketSeconds =
          -(-(value / 1000000) / st.bucketSeconds) * st.bucketSeconds - st.bucketSeconds := by ring
      have hcomm : k * st.bucketSeconds = st.bucketSeconds * k := mul_comm _ _
      omega

/-! ## Runs of calls -/

structure ScanCall where
  results : List ScanSpanResult
  stop : Int

def interpret (st : PlannerSettings φ) (p : ScopeProgress Int φ) (call : ScanCall) : Except Exc (ScanDecision φ) :=
  interpretScan p call.results call.stop st

abbrev ScanStep (φ : Type) := Taken (ScopeProgress Int φ) ScanCall (ScanDecision φ)

/-- A call of the run lay over the bucket with a COMPLETE span and no event for it. -/
def Silent (tr : List (ScanStep φ)) (t : Int) : Prop := ∃ e ∈ tr, SilentIn e.input.results t

def Unproved (e : ScanStep φ) : Prop :=
  ∃ c quiet r rest, e.before.scanCursor = some c ∧ e.input.results = quiet ++ r :: rest ∧
    QuietTo c quiet r.span.start ∧ r.status ≠ .complete

/-- The last calls of the run, `n` of them with results, started at the cursor `c` and proved nothing. -/
def FailedAt (tr : List (ScanStep φ)) (c n : Int) : Prop :=
  ∃ earlier calls, tr = earlier ++ calls ∧
    (∀ e ∈ calls, e.before.scanCursor = some c ∧ (e.input.results = [] ∨ Unproved e)) ∧
    ((calls.filter (fun e => !e.input.results.isEmpty)).length : Int) = n

theorem interpret_scanned {p call d} (h : interpret st p call = .ok d) : p.floor = none ∧ ∃ c, p.scanCursor = some c ∧
      ((call.results = [] ∧ d.outcome = .retry ∧ d.progress = p) ∨
        (call.results ≠ [] ∧
          Scanned st call.stop { p with searches := p.searches + scanSearches call.results } c call.results d)) := by
  obtain ⟨results, stop⟩ := call
  rw [interpret, interpretScan] at h
  obtain ⟨_, _, h⟩ := bind_ok h
  cases hfloor : p.floor with
  | some floor => simp [hfloor] at h
  | none =>
    cases hcursor : p.scanCursor with
    | none => simp [hfloor, hcursor] at h
    | some c =>
      refine ⟨rfl, c, rfl, ?_⟩
      simp only [hfloor, hcursor] at h
      cases results with
      | nil =>
        simp only [List.isEmpty_nil, if_true] at h
        cases h
        exact Or.inl ⟨rfl, rfl, rfl⟩
      | cons r rs =>
        simp only [List.isEmpty_cons, Bool.false_eq_true, if_false] at h
        exact Or.inr ⟨by simp, scanSpans_scanned h⟩

theorem scanUnproved_progress (st : PlannerSettings φ) (p : ScopeProgress Int φ) (status : SearchStatus) :
    (scanUnproved st p status).progress = { p with scanFailures := p.scanFailures + 1 } ∧
    (scanUnproved st p status).outcome = if p.scanFailures + 1 ≥ st.maxFailures then .unavailable else .retry := by
  by_cases h : p.scanFailures + 1 ≥ st.maxFailures <;> simp [scanUnproved, h]

omit [PyFloat φ] in
theorem scanQuiet_progress (stop : Int) (p : ScopeProgress Int φ) (b : Int) :
    (scanQuiet stop p b).progress = { p with scanCursor := some b, scanFailures := 0 } ∧
    (scanQuiet stop p b).outcome = if b ≥ stop then .unavailable else .continue := by
  by_cases h : b ≥ stop <;> simp [scanQuiet, h]

theorem planScan_span {p stop plan span} (h : planScan p stop st = .ok plan) (hspan : plan.span = some span) :
    p.scanCursor = some span.start ∧ span.start ≤ span.stop ∧ span.stop ≤ stop := by
  rw [planScan] at h
  obtain ⟨_, _, h⟩ := bind_ok h
  cases hcursor : p.scanCursor with
  | none => simp [hcursor] at h
  | some c =>
    simp only [hcursor] at h
    by_cases hge : c ≥ stop
    · simp only [hge, if_true] at h
      cases h
      cases hspan
    · simp only [hge, if_false] at h
      cases h
      cases hspan
      have hbuckets : 0 ≤ st.maxSpanBuckets :=
        Int.ediv_nonneg (by have := st.maxSpanHours_ok.1; omega) (by have := st.bucketSeconds_ok.1; omega)
      have hwide : 0 ≤ st.maxSpanBuckets * st.bucket := Int.mul_nonneg hbuckets (le_of_lt st.bucket_pos)
      refine ⟨rfl, ?_, min_le_left _ _⟩
      simp only [le_min_iff]
      omega

theorem margin_nonneg (st : PlannerSettings φ) : 0 ≤ st.margin := by
  have hhours := st.floorMarginHours_ok.1
  have hseconds := st.bucketSeconds_ok.1
  have hdiv : -(st.floorMarginHours * 3600) / st.bucketSeconds ≤ 0 :=
    Int.ediv_le_of_le_mul (by omega) (by omega)
  exact Int.mul_nonneg (by omega) st.bucket_pos.le

theorem dvd_margin (st : PlannerSettings φ) : st.bucket ∣ st.margin := Dvd.intro_left _ rfl

/-- The floor that a first event at `b0` would give. -/
def IsFloor (st : PlannerSettings φ) (targetStart b0 floor : Int) : Prop :=
  ∃ a, IsLeast {x | st.bucket ∣ x ∧ b0 + st.margin ≤ x} a ∧ floor = max targetStart a

theorem isFloor_mono {T0 b0 e floor F} (hb : IsFloor st T0 b0 floor) (he : IsFloor st T0 e F) (hle : b0 ≤ e) :
    floor ≤ F := by
  obtain ⟨a, ha, rfl⟩ := hb
  obtain ⟨a', ha', rfl⟩ := he
  have : a ≤ a' := ha.2 ⟨ha'.1.1, by have := ha'.1.2; omega⟩
  exact max_le_max le_rfl this

theorem event_le_floor {T0 e F} (he : IsFloor st T0 e F) : e ≤ F := by
  obtain ⟨a, ha, rfl⟩ := he
  have := ha.1.2
  have := margin_nonneg st
  exact le_max_of_le_right (by omega)

theorem scanFound_progress {stop p span b0 d}
    (h : scanFound st stop p span b0 = .ok d) : ∃ floor, IsFloor st p.targetStart b0 floor ∧
      ((floor ≥ stop ∧ d.outcome = .unavailable ∧
          d.progress = { p with firstEventBucket := some b0, scanFailures := 0 }) ∨
        (floor < stop ∧ d.outcome = .floorFound ∧
          d.progress = { p with
            firstEventBucket := some b0, floor := some floor, scanCursor := some span.stop, scanFailures := 0 })) := by
  rw [scanFound] at h
  obtain ⟨a, ha, h⟩ := bind_ok h
  refine ⟨max p.targetStart a, ⟨a, isLeast_alignUp ha, rfl⟩, ?_⟩
  by_cases hge : max p.targetStart a ≥ stop
  · simp only [hge, if_true] at h
    cases h
    exact Or.inl ⟨hge, rfl, rfl⟩
  · simp only [hge, if_false] at h
    cases h
    exact Or.inr ⟨by omega, rfl, rfl⟩

theorem scanFound_trigger {p stop b0 span d}
    (h : scanFound st stop p span b0 = .ok d) (hfound : d.outcome = .floorFound) : d.trigger = none := by
  rw [scanFound] at h
  obtain ⟨a, _, h⟩ := bind_ok h
  by_cases hge : max p.targetStart a ≥ stop
  · simp only [hge, if_true] at h
    cases h
    cases hfound
  · simp only [hge, if_false] at h
    cases h
    rfl

theorem quietTo_nil {a b} (h : QuietTo a [] b) : b = a := by
  generalize hl : ([] : List ScanSpanResult) = l at h
  cases h with
  | nil => rfl
  | cons => cases hl

theorem quietTo_singleton {a b r} (h : QuietTo a [r] b) :
    r.status = .complete ∧ (∀ item ∈ r.totals, item.2 ≤ 0) ∧ b = r.span.stop := by
  generalize hl : [r] = l at h
  cases h with
  | nil => cases hl
  | cons hcomplete hquiet hrest =>
    cases hl
    exact ⟨hcomplete, hquiet, quietTo_nil hrest⟩

theorem singleton_eq_append_cons {α : Type} {x r} {quiet rest : List α} (h : [x] = quiet ++ r :: rest) :
    quiet = [] ∧ r = x := by
  cases quiet with
  | nil => exact ⟨rfl, (List.cons.inj h).1.symm⟩
  | cons y quiet => simp at h

/-- What the calls of a run have proved of the progress they led to. -/
structure Proved (T0 c₀ : Int) (tr : List (ScanStep φ)) (p : ScopeProgress Int φ) : Prop where
  target : p.targetStart = T0
  cursor : ∃ c, p.scanCursor = some c ∧ c₀ ≤ c ∧ (p.floor = none → (∀ t, c₀ ≤ t → t < c → Silent tr t) ∧
    FailedAt tr c p.scanFailures)

omit [PyFloat φ] in
theorem Silent.append {tr tr' : List (ScanStep φ)} {t} (h : Silent tr t) : Silent (tr ++ tr') t := by
  obtain ⟨e, he, h⟩ := h
  exact ⟨e, List.mem_append_left _ he, h⟩

theorem SilentIn.mono {results results'} (hsub : ∀ r ∈ results, r ∈ results') {t}
    (h : SilentIn results t) : SilentIn results' t := by
  obtain ⟨r, hr, h⟩ := h
  exact ⟨r, hsub r hr, h⟩

omit [PyFloat φ] in
theorem failedAt_zero (tr : List (ScanStep φ)) (c : Int) : FailedAt tr c 0 := ⟨tr, [], by simp, by simp, by simp⟩

omit [PyFloat φ] in
theorem FailedAt.snoc {tr c n} (h : FailedAt tr c n) {e : ScanStep φ} (hc : e.before.scanCursor = some c)
    (he : e.input.results = [] ∨ Unproved e) : FailedAt (tr ++ [e]) c (n + if e.input.results = [] then 0 else 1) := by
  obtain ⟨earlier, calls, rfl, hcalls, rfl⟩ := h
  refine ⟨earlier, calls ++ [e], by simp, ?_, ?_⟩
  · intro e' he'
    rcases List.mem_append.mp he' with he' | he'
    · exact hcalls e' he'
    · rw [List.mem_singleton.mp he']
      exact ⟨hc, he⟩
  · by_cases hempty : e.input.results = []
    · simp [List.filter_append, hempty]
    · simp [List.filter_append, hempty]

omit [PyFloat φ] in
theorem silent_extend {tr : List (ScanStep φ)} {c₀ c b} (h : ∀ t, c₀ ≤ t → t < c → Silent tr t) {e quiet rest}
    (hres : e.input.results = quiet ++ rest) (hto : QuietTo c quiet b) :
    ∀ t, c₀ ≤ t → t < b → Silent (tr ++ [e]) t := by
  intro t hlo hhi
  by_cases ht : t < c
  · exact (h t hlo ht).append
  · refine ⟨e, by simp, (hto.silent (by omega) hhi).mono ?_⟩
    intro r hr
    rw [hres]
    exact List.mem_append_left _ hr

inductive Reached (st : PlannerSettings φ) (T0 c₀ : Int) (tr : List (ScanStep φ)) (e : ScanStep φ) : Prop
  | retry : e.output.outcome = .retry → Reached st T0 c₀ tr e
  | continue : e.output.outcome = .continue → Reached st T0 c₀ tr e
  | failed (c n : Int) : e.output.outcome = .unavailable → st.maxFailures ≤ n → e.before.scanCursor = some c →
      FailedAt (tr ++ [e]) c n → Reached st T0 c₀ tr e
  | empty : e.output.outcome = .unavailable → (∀ t, c₀ ≤ t → t < e.input.stop → Silent (tr ++ [e]) t) →
      Reached st T0 c₀ tr e
  | event (r : ScanSpanResult) (b0 floor : Int) : r ∈ e.input.results → FirstEvent st r b0 →
      (∀ t, c₀ ≤ t → t < b0 → Silent (tr ++ [e]) t) → IsFloor st T0 b0 floor →
      e.output.progress.firstEventBucket = some b0 →
      (floor ≥ e.input.stop ∧ e.output.outcome = .unavailable ∨
        floor < e.input.stop ∧ e.output.outcome = .floorFound ∧ e.output.progress.floor = some floor) →
      Reached st T0 c₀ tr e

def CursorMoves (e : ScanStep φ) : Prop :=
  ∃ c c', e.before.scanCursor = some c ∧ e.output.progress.scanCursor = some c' ∧ c ≤ c' ∧
    ∀ t, c ≤ t → t < c' → ∃ r ∈ e.input.results, r.status = .complete ∧ r.span.start ≤ t ∧ t < r.span.stop

theorem QuietTo.complete {a b quiet} (h : QuietTo a quiet b) {t} (hat : a ≤ t)
    (htb : t < b) : ∃ r ∈ quiet, r.status = .complete ∧ r.span.start ≤ t ∧ t < r.span.stop := by
  obtain ⟨r, hr, hcomplete, hlo, hhi, _⟩ := h.silent hat htb
  exact ⟨r, hr, hcomplete, hlo, hhi⟩

theorem Proved.step {T0 c₀ : Int} {tr p} (h : Proved T0 c₀ tr p)
    {call d} (hs : interpret st p call = .ok d) :
    Proved T0 c₀ (tr ++ [⟨p, call, d⟩]) d.progress ∧ Reached st T0 c₀ tr ⟨p, call, d⟩ ∧
      CursorMoves (⟨p, call, d⟩ : ScanStep φ) := by
  obtain ⟨htarget, c, hc, hle, hscan⟩ := h
  obtain ⟨hfloor, c', hc', hcall⟩ := interpret_scanned hs
  cases hc.symm.trans hc'
  obtain ⟨hsilent, hfailed⟩ := hscan hfloor
  rcases hcall with ⟨hempty, houtcome, hd⟩ | ⟨hres, hscanned⟩
  · refine ⟨⟨hd ▸ htarget, c, hd ▸ hc, hle, fun _ => ⟨fun t hlo hhi => (hsilent t hlo hhi).append, ?_⟩⟩,
      .retry houtcome, c, c, hc, hd ▸ hc, le_refl c, fun t hlo hhi => absurd hlo (by omega)⟩
    have hsnoc := hfailed.snoc (e := ⟨p, call, d⟩) hc (Or.inl hempty)
    rw [hd]
    simpa only [hempty, if_true, add_zero] using hsnoc
  · cases hscanned with
    | quiet b hto hd =>
      obtain ⟨hprogress, houtcome⟩ := scanQuiet_progress call.stop
        { p with searches := p.searches + scanSearches call.results } b
      rw [← hd] at hprogress houtcome
      have hsilent' := silent_extend (e := ⟨p, call, d⟩) hsilent (List.append_nil _).symm hto
      refine ⟨⟨by rw [hprogress]; exact htarget, b, by rw [hprogress], le_trans hle hto.le, fun _ => ⟨hsilent', ?_⟩⟩,
        ?_, c, b, hc, by rw [hprogress], hto.le, fun t hlo hhi => hto.complete hlo hhi⟩
      · rw [hprogress]
        exact failedAt_zero _ b
      · by_cases hb : b ≥ call.stop
        · rw [if_pos hb] at houtcome
          exact .empty houtcome (fun t hlo hhi => hsilent' t hlo (lt_of_lt_of_le hhi hb))
        · rw [if_neg hb] at houtcome
          exact .continue houtcome
    | unproved quiet r rest hsplit hto hstatus hd =>
      obtain ⟨hprogress, houtcome⟩ := scanUnproved_progress st
        { p with searches := p.searches + scanSearches call.results } r.status
      rw [← hd] at hprogress houtcome
      have hfailed' := hfailed.snoc (e := ⟨p, call, d⟩) hc (Or.inr ⟨c, quiet, r, rest, hc, hsplit, hto, hstatus⟩)
      rw [if_neg hres] at hfailed'
      refine ⟨⟨by rw [hprogress]; exact htarget, c, by rw [hprogress]; exact hc, hle,
        fun _ => ⟨fun t hlo hhi => (hsilent t hlo hhi).append, ?_⟩⟩, ?_, c, c, hc, by rw [hprogress]; exact hc,
        le_refl c, fun t hlo hhi => absurd hlo (by omega)⟩
      · rw [hprogress]
        exact hfailed'
      · by_cases hmax : p.scanFailures + 1 ≥ st.maxFailures
        · rw [if_pos hmax] at houtcome
          exact .failed c (p.scanFailures + 1) houtcome hmax hc hfailed'
        · rw [if_neg hmax] at houtcome
          exact .retry houtcome
    | found quiet r rest b0 hsplit hto hfirst hd =>
      obtain ⟨floor, hisFloor, hcases⟩ := scanFound_progress hd
      rw [htarget] at hisFloor
      have hsilent' := silent_extend (e := ⟨p, call, d⟩) hsilent hsplit hto
      have hr : r ∈ call.results := by simp [hsplit]
      have hb0 : ∀ t, c₀ ≤ t → t < b0 → Silent (tr ++ [⟨p, call, d⟩]) t := by
        intro t hlo hhi
        by_cases ht : t < r.span.start
        · exact hsilent' t hlo ht
        · -- Within the span of the event: the buckets before it report none.
          exact ⟨⟨p, call, d⟩, by simp, r, hr, hfirst.complete, by omega, lt_trans hhi hfirst.inside.2,
            fun item hitem heq => hfirst.first item hitem (heq ▸ hhi)⟩
      rcases hcases with ⟨hge, houtcome, hprogress⟩ | ⟨hlt, houtcome, hprogress⟩
      · refine ⟨⟨by rw [hprogress]; exact htarget, c, by rw [hprogress]; exact hc, hle,
          fun _ => ⟨fun t hlo hhi => (hsilent t hlo hhi).append, ?_⟩⟩,
          .event r b0 floor hr hfirst hb0 hisFloor (by rw [hprogress]) (Or.inl ⟨hge, houtcome⟩), c, c, hc,
          by rw [hprogress]; exact hc, le_refl c, fun t hlo hhi => absurd hlo (by omega)⟩
        rw [hprogress]
        exact failedAt_zero _ c
      · have hstop : c ≤ r.span.stop := le_trans hto.le r.span_ok
        refine ⟨⟨by rw [hprogress]; exact htarget, r.span.stop, by rw [hprogress], le_trans hle hstop, ?_⟩,
          .event r b0 floor hr hfirst hb0 hisFloor (by rw [hprogress])
            (Or.inr ⟨hlt, houtcome, by rw [hprogress]⟩), c, r.span.stop, hc, by rw [hprogress], hstop, ?_⟩
        · intro hnone
          rw [hprogress] at hnone
          cases hnone
        · intro t hlo hhi
          by_cases ht : t < r.span.start
          · obtain ⟨r', hr', h'⟩ := hto.complete hlo ht
            exact ⟨r', by simp [hsplit, hr'], h'⟩
          · exact ⟨r, hr, hfirst.complete, by omega, hhi⟩

end QRadarDashboard.History
