import QRadarDashboard.History.Lemmas.Scan

/-!
# A progress that no failure has touched
-/

namespace QRadarDashboard.History
open Lib

variable {φ : Type} [PyFloat φ] {st : PlannerSettings φ} {p : ScopeProgress Int φ}

structure Calm (p : ScopeProgress Int φ) : Prop where
  gaps : p.gaps = []
  failures : p.failures = 0
  scanFailures : p.scanFailures = 0
  chunkCeiling : p.chunkCeiling = none

theorem newProgress_calm {targetStart startedAt} (h : newProgress targetStart startedAt st = .ok p) : Calm p := by
  obtain ⟨_, _, h⟩ := bind_ok h
  cases h
  exact ⟨rfl, rfl, rfl, rfl⟩

/-! ## Settling -/

structure KeepsScan (p q : ScopeProgress Int φ) : Prop where
  targetStart : q.targetStart = p.targetStart
  scanCursor : q.scanCursor = p.scanCursor
  scanFailures : q.scanFailures = p.scanFailures

theorem widthAfterStep_ceiling (current : Int) (h : p.chunkCeiling = none) :
    (widthAfterStep p current st).1.chunkCeiling = none := by
  simp [widthAfterStep, h]

theorem settleBlocker_ceiling {pre current v}
    (h : settleBlocker p pre current st = .ok v) (hblocker : ∀ b, pre.blocker = some b → b.status ≠ .failed)
    (hp : p.chunkCeiling = none) : v.updated.chunkCeiling = none ∧ KeepsScan p v.updated := by
  unfold settleBlocker at h
  split at h
  · cases h
    exact ⟨widthAfterStep_ceiling current hp, rfl, rfl, rfl⟩
  · rename_i blocker hb
    obtain ⟨n, _, h⟩ := bind_ok h
    split at h
    · rename_i hstatus
      exact absurd hstatus (hblocker blocker hb)
    · cases h
      exact ⟨hp, rfl, rfl, rfl⟩
    · cases h
      unfold settleNotRun
      dsimp only
      split
      · exact ⟨widthAfterStep_ceiling current hp, rfl, rfl, rfl⟩
      · exact ⟨hp, rfl, rfl, rfl⟩

theorem settleStep_calm {results stop o}
    (h : settleStep p results stop st = .ok o) (hnone : ∀ r ∈ results, r.status ≠ .failed) (hp : Calm p) :
    Calm o.progress ∧ o.newGap = none ∧ o.progress.floor = p.floor ∧ KeepsScan p o.progress := by
  obtain ⟨start, mid, next, hsettled⟩ := settleStep_ok h
  have hblocker : ∀ b, blockerOf st results = some b → b.status ≠ .failed :=
    fun b hb => hnone b (List.mem_of_find?_eq_some hb)
  have heffect : o.progress.failures = 0 ∧ o.newGap = none := by
    cases hsettled.effect with
    | clean hb hf hg => exact ⟨hf, hg⟩
    | held b hb hm hf hg => exact ⟨hf.trans hp.failures, hg⟩
    | counted b hb hm hf hg hlim => exact absurd hm.1 (hblocker b hb)
    | gap b g hb hm hf hg hspan hlim hroom => exact absurd hm.1 (hblocker b hb)
  have hgaps := hsettled.gaps
  rw [hp.gaps, heffect.2] at hgaps
  -- the ceiling and the fields of the scan are not part of `settleStep_ok`
  obtain ⟨_, pre, v, -, hcontiguous, hpre, hv, ho⟩ := settleStep_parts h
  obtain ⟨_, hread⟩ := readPrefix_spec hpre hcontiguous rfl
  obtain ⟨hceiling, hkeeps⟩ := settleBlocker_ceiling hv (fun b hb => hblocker b (hread.blocker ▸ hb)) hp.chunkCeiling
  obtain ⟨x, hupdated, _⟩ := gates_updated st v stop
  subst ho
  dsimp only at heffect hgaps ⊢
  rw [hupdated] at heffect hgaps ⊢
  exact ⟨⟨hgaps, heffect.1, hkeeps.scanFailures.trans hp.scanFailures, hceiling⟩, heffect.2,
    by rw [← hsettled.floor, hupdated], ⟨hkeeps.targetStart, hkeeps.scanCursor, hkeeps.scanFailures⟩⟩

/-! ## The floor scan -/

inductive WholeScan (st : PlannerSettings φ) (p : ScopeProgress Int φ) (r : ScanSpanResult) (stop : Int)
    (d : ScanDecision φ) : Prop
  | quiet (silent : ∀ item ∈ r.totals, item.2 ≤ 0)
      (progress : d.progress = { p with searches := p.searches + 1, scanCursor := some r.span.stop, scanFailures := 0 })
      (ends : stop ≤ r.span.stop ∧ d.outcome = .unavailable ∨
        r.span.stop < stop ∧ d.outcome = .continue ∧ d.trigger = none)
  | late (b0 floor : Int) (first : FirstEvent st r b0) (isFloor : IsFloor st p.targetStart b0 floor)
      (hlate : stop ≤ floor) (outcome : d.outcome = .unavailable)
      (progress : d.progress = { p with searches := p.searches + 1, firstEventBucket := some b0, scanFailures := 0 })
  | found (b0 floor : Int) (first : FirstEvent st r b0) (isFloor : IsFloor st p.targetStart b0 floor)
      (hearly : floor < stop) (outcome : d.outcome = .floorFound ∧ d.trigger = none)
      (progress : d.progress = { p with
        searches := p.searches + 1, firstEventBucket := some b0, floor := some floor, scanCursor := some r.span.stop
        scanFailures := 0 })

theorem interpretScan_whole {r stop d} (hcomplete : r.status = .complete)
    (h : interpretScan p [r] stop st = .ok d) : WholeScan st p r stop d := by
  have hinterpret : interpret st p ⟨[r], stop⟩ = .ok d := h
  obtain ⟨_, c, _, hcall⟩ := interpret_scanned hinterpret
  have hsearches : scanSearches [r] = 1 := by simp [scanSearches, hcomplete]
  rcases hcall with ⟨hempty, _⟩ | ⟨_, hscanned⟩
  · cases hempty
  · simp only [hsearches] at hscanned
    cases hscanned with
    | quiet b hto hd =>
      obtain ⟨_, hsilent, rfl⟩ := quietTo_singleton hto
      subst hd
      refine .quiet hsilent (scanQuiet_progress _ _ _).1 ?_
      by_cases hstop : r.span.stop ≥ stop
      · exact .inl ⟨hstop, by simp [scanQuiet, hstop]⟩
      · exact .inr ⟨by omega, by simp [scanQuiet, hstop]⟩
    | unproved quiet r' rest hsplit hto hstatus hd =>
      obtain ⟨rfl, rfl⟩ := singleton_eq_append_cons hsplit
      exact absurd hcomplete hstatus
    | found quiet r' rest b0 hsplit hto hfirst hd =>
      obtain ⟨rfl, rfl⟩ := singleton_eq_append_cons hsplit
      obtain ⟨floor, hfloor, hcases⟩ := scanFound_progress hd
      rcases hcases with ⟨hge, houtcome, hprogress⟩ | ⟨hlt, houtcome, hprogress⟩
      · exact .late b0 floor hfirst hfloor hge houtcome hprogress
      · exact .found b0 floor hfirst hfloor hlt ⟨houtcome, scanFound_trigger hd houtcome⟩ hprogress

theorem WholeScan.calm {r stop d} (h : WholeScan st p r stop d)
    (hp : Calm p) : Calm d.progress ∧ d.progress.targetStart = p.targetStart := by
  cases h with
  | quiet _ hprogress _ =>
    rw [hprogress]
    exact ⟨⟨hp.gaps, hp.failures, rfl, hp.chunkCeiling⟩, rfl⟩
  | late _ _ _ _ _ _ hprogress =>
    rw [hprogress]
    exact ⟨⟨hp.gaps, hp.failures, rfl, hp.chunkCeiling⟩, rfl⟩
  | found _ _ _ _ _ _ hprogress =>
    rw [hprogress]
    exact ⟨⟨hp.gaps, hp.failures, rfl, hp.chunkCeiling⟩, rfl⟩

def Looks (silent : Int → Prop) (c₀ : Int) (p : ScopeProgress Int φ) : Prop :=
  p.floor = none → ∃ c, p.scanCursor = some c ∧ ∀ t, c₀ ≤ t → t < c → silent t

omit [PyFloat φ] in
theorem Looks.mono {silent silent' : Int → Prop} {c₀} {p : ScopeProgress Int φ} (h : Looks silent c₀ p)
    (hsub : ∀ t, silent t → silent' t) : Looks silent' c₀ p := by
  intro hfloor
  obtain ⟨c, hc, hbefore⟩ := h hfloor
  exact ⟨c, hc, fun t hlo hhi => hsub t (hbefore t hlo hhi)⟩

theorem WholeScan.looks {r stop c₀ d} {silent : Int → Prop} (h : WholeScan st p r stop d)
    (hcomplete : r.status = .complete) (hfloor : p.floor = none) (hcursor : p.scanCursor = some r.span.start)
    (hlooks : Looks silent c₀ p) (hsilent : ∀ t, SilentIn [r] t → silent t) :
    Looks silent c₀ d.progress ∧ (d.outcome = .unavailable → (∀ t, c₀ ≤ t → t < stop → silent t) ∨
      ∃ b0 floor, FirstEvent st r b0 ∧ IsFloor st p.targetStart b0 floor ∧ stop ≤ floor) := by
  obtain ⟨c, hc, hbefore⟩ := hlooks hfloor
  obtain rfl : c = r.span.start := Option.some.inj (hc.symm.trans hcursor)
  cases h with
  | quiet hquiet hprogress hends =>
    have hpassed : ∀ t, c₀ ≤ t → t < r.span.stop → silent t := by
      intro t hlo hhi
      by_cases hstart : t < r.span.start
      · exact hbefore t hlo hstart
      · exact hsilent t ⟨r, by simp, hcomplete, not_lt.mp hstart, hhi, fun item hitem _ => hquiet item hitem⟩
    rw [hprogress]
    refine ⟨fun _ => ⟨r.span.stop, rfl, hpassed⟩, fun houtcome => .inl (fun t hlo hhi => ?_)⟩
    rcases hends with ⟨hstop, _⟩ | ⟨_, hcontinue, _⟩
    · exact hpassed t hlo (by omega)
    · exact absurd (houtcome.symm.trans hcontinue) (by decide)
  | late b0 floor hfirst hisFloor hlate houtcome hprogress =>
    rw [hprogress]
    exact ⟨fun _ => ⟨r.span.start, hcursor, hbefore⟩, fun _ => .inr ⟨b0, floor, hfirst, hisFloor, hlate⟩⟩
  | found b0 floor hfirst hisFloor hearly houtcome hprogress =>
    rw [hprogress]
    refine ⟨fun hnone => (by cases hnone), fun hunavailable => ?_⟩
    exact absurd (houtcome.1.symm.trans hunavailable) (by decide)

theorem WholeScan.outcome {r stop d} (h : WholeScan st p r stop d) :
    d.outcome = .floorFound ∨ d.outcome = .continue ∨ d.outcome = .unavailable := by
  cases h with
  | quiet _ _ hends =>
    rcases hends with ⟨_, houtcome⟩ | ⟨_, houtcome, _⟩
    · exact .inr (.inr houtcome)
    · exact .inr (.inl houtcome)
  | late _ _ _ _ _ houtcome _ => exact .inr (.inr houtcome)
  | found _ _ _ _ _ houtcome _ => exact .inl houtcome.1

end QRadarDashboard.History
