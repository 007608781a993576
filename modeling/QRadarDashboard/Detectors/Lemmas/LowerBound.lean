import QRadarDashboard.Detectors.Ips
import QRadarDashboard.Detectors.PropertyWatch

/-!
# The verdicts of a lower bound
-/

namespace QRadarDashboard.Detectors
open Lib Waf Ips Anomaly History PropertyWatch

/-!
## The exact measurement behind a lower bound

Each detector's input with the true count in place of the one that was measured, and the measurement exact. Every
other input stays.
-/

def Signals {τ : Type} (result : Except Exc (Evidence τ)) (signal : DetectorSignal) : Prop :=
  ∃ evidence, result = .ok evidence ∧ evidence.signal = signal

/-! ## WAF -/

def WafDetectionContext.exact (ctx : WafDetectionContext) (requestCount : Int) : WafDetectionContext :=
  { ctx with
    point := { ctx.point with
      requestCount := requestCount, completeness := .complete, measurement := some .exact }
    verdictScope := some .full }

def WafDetectionContext.exactBreakdown (ctx : WafDetectionContext) (breakdowns : BreakdownStatus)
    (counts : BreakdownCounts) : WafDetectionContext :=
  { ctx with
    observation := ctx.observation.map (fun observation =>
      { observation with measurement := some .exact, breakdowns := breakdowns, counts := counts })
    verdictScope := some .full }

def RatioDefinition.k (d : RatioDefinition) (counts : BreakdownCounts) : Int := (d.numerator counts).getD 0

def RatioDefinition.n (d : RatioDefinition) (counts : BreakdownCounts) : Int := (d.denominator counts).getD 0

/-! ## IPS -/

def IpsJudgedBucket.exactIn (b : IpsJudgedBucket) (dimensions : List IpsDimension) : IpsJudgedBucket :=
  { b with
    dimensions := b.dimensions.map (fun item =>
      (item.1, if item.1 ∈ dimensions then { item.2 with measurement := .exact } else item.2)) }

def IpsDetectionContext.exactEvents (ctx : IpsDetectionContext) (dimension : IpsDimension) (events : Nat) :
    IpsDetectionContext :=
  { ctx with
    observation := { ctx.observation with
      bucket := ctx.observation.bucket.exactIn [dimension]
      count := some ⟨some events, some .exact, none⟩ } }

def IpsDetectionContext.exactPorts (ctx : IpsDetectionContext) (ports : Int) : IpsDetectionContext :=
  { ctx with
    observation := { ctx.observation with
      bucket := { ctx.observation.bucket.exactIn [.portFanout, .destinationPort] with
        maxDistinctPorts := some ports } } }

/-- Every action event is classified: `blocked` of `total` were blocked. -/
def IpsDetectionContext.exactActions (ctx : IpsDetectionContext) (blocked total : Int) : IpsDetectionContext :=
  { ctx with
    observation := { ctx.observation with
      bucket := { ctx.observation.bucket.exactIn [.action] with
        blockedEvents := some blocked, allowedEvents := some (total - blocked), unmappedEvents := some 0 } } }

/-! ## Property watch -/

/-- The bucket behind the exact reading: the same one, or one whose values were read whole and whose property
parsed. -/
def PwJudgedBucket.Exact (b exact : PwJudgedBucket) : Prop :=
  exact = b ∨ exact.watchVersion = b.watchVersion ∧ exact.scopeChanged = b.scopeChanged ∧
    exact.valuesMeasurement = .exact ∧ exact.propertyNotParsed = false

def PwDetectionContext.exact (ctx : PwDetectionContext) (bucket : PwJudgedBucket) (events : Int) :
    PwDetectionContext :=
  { ctx with bucket := some bucket, reading := { ctx.reading with events := some events, measurement := some .exact } }

/-! ## Guards that a larger count passes too -/

variable {ε ε' α : Type}

/-! ## Verdicts -/

section Verdicts

variable {τ P : Type} {j : Judging τ} {guards : Except Exit P} {prove : P → Except Exc (Evidence τ)}

def Proves (prove : P → Except Exc (Evidence τ)) : Prop := ∀ p e, prove p = .ok e → e.signal = .anomalous

theorem Judging.not_healthy (hj : j.lowerBound = true) (hprove : Proves prove) :
    ¬ Signals (j.verdict guards prove) .healthy := by
  rintro ⟨e, he, hsignal⟩
  cases guards with
  | ok p => simp [hprove p e he] at hsignal
  | error x =>
    cases x with
    | insufficient reason samples =>
      cases he
      cases hsignal
    | notProven reason observed expected =>
      rw [Judging.verdict, Judging.exit, if_pos hj] at he
      cases he
      cases hsignal
    | raised x => cases he

theorem Judging.anomalous_iff (hprove : Proves prove) :
    Signals (j.verdict guards prove) .anomalous ↔ ∃ p e, guards = .ok p ∧ prove p = .ok e := by
  constructor
  · rintro ⟨e, he, hsignal⟩
    cases guards with
    | ok p => exact ⟨p, e, rfl, he⟩
    | error x =>
      cases x with
      | insufficient reason samples =>
        cases he
        cases hsignal
      | notProven reason observed expected =>
        rw [Judging.verdict, Judging.exit] at he
        split at he
        all_goals
          cases he
          cases hsignal
      | raised x => cases he
  · rintro ⟨p, e, rfl, he⟩
    exact ⟨e, he, hprove p e he⟩

end Verdicts

/-! ## Statistics -/

theorem ratio_isNone (x y expected : ℚ) : (ratio x expected).isNone = (ratio y expected).isNone := by
  unfold ratio
  split <;> rfl

theorem ratio_le_ratio {x y expected m} (hexpected : 0 ≤ expected) (hxy : x ≤ y)
    (h : ∀ r ∈ ratio x expected, m ≤ r) : ∀ r ∈ ratio y expected, m ≤ r := by
  unfold ratio at h ⊢
  split
  · exact nofun
  · rw [if_neg ‹_›] at h
    rintro r ⟨⟩
    exact (h _ rfl).trans (div_le_div_of_nonneg_right hxy hexpected)

theorem surprise_mono {deviationZ madFloorRatio band x y} (hxy : x ≤ y) {s}
    (h : surprise deviationZ madFloorRatio band x = .ok s) :
    ∃ s', surprise deviationZ madFloorRatio band y = .ok s' := by
  have hz := robustZ_mono band.median band.mad madFloorRatio hxy
  simp only [surprise, robustZWithStatus] at h ⊢
  by_cases hmad : band.mad ≤ 0
  · simp only [hmad, if_true, reduceCtorEq, if_false] at h ⊢
    split at h
    · cases h
    · exact ⟨_, if_neg (fun hy => ‹¬ x ≤ band.upper› (hxy.trans hy))⟩
  · simp only [hmad, if_false, if_true] at h ⊢
    split at h
    · cases h
    · exact ⟨_, if_neg (fun hy => ‹¬ _› (hz.trans_lt hy))⟩

/-! ## Conjunctions of guards -/

theorem spike_ok_iff {g band x p} :
    spike g band x = .ok p ↔
      g.minValue ≤ x ∧ (∀ r ∈ ratio x band.median, g.ratioMin ≤ r) ∧ g.minDelta ≤ x - band.median ∧
        ∃ s, surprise g.deviationZ g.madFloorRatio band x = .ok s ∧
          p = ⟨ratio x band.median, x - band.median, s⟩ := by
  simp only [spike, bind_eq_ok, require_eq_ok, exists_const]
  refine and_congr_right fun _ => and_congr_right fun _ => and_congr_right fun _ => ?_
  refine exists_congr fun s => and_congr_right fun _ => ?_
  exact ⟨fun h => (Except.ok.inj h).symm, fun h => congrArg Except.ok h.symm⟩

theorem spike_mono {g} (band : ScoreBand) (hmedian : 0 ≤ band.median) {x y} (hxy : x ≤ y) {p}
    (h : spike g band x = .ok p) : ∃ p', spike g band y = .ok p' ∧ p'.ratio.isNone = p.ratio.isNone := by
  obtain ⟨hmin, hratio, hdelta, s, hs, rfl⟩ := spike_ok_iff.mp h
  obtain ⟨s', hs'⟩ := surprise_mono hxy hs
  have hdelta' : g.minDelta ≤ y - band.median := hdelta.trans (sub_le_sub_right hxy _)
  exact ⟨_, spike_ok_iff.mpr ⟨hmin.trans hxy, ratio_le_ratio hmedian hxy hratio, hdelta', s', hs', rfl⟩,
    ratio_isNone y x band.median⟩

theorem ratioRise_ok_iff {g band expected k n r} :
    ratioRise g band expected k n = .ok r ↔
      g.minNumerator ≤ k ∧ g.minDenominator ≤ n ∧ n ≠ 0 ∧ g.minIncrease ≤ (k : ℚ) / n - expected ∧
        (∀ m ∈ ratio ((k : ℚ) / n) expected, g.minMultiple ≤ m) ∧
        ∃ s, surprise g.deviationZ g.madFloorRatio band ((k : ℚ) / n) = .ok s ∧
          r = ⟨(k : ℚ) / n, (k : ℚ) / n - expected, ratio ((k : ℚ) / n) expected, s⟩ := by
  simp only [ratioRise, bind_eq_ok, require_eq_ok, exists_const, mapError_eq_ok]
  refine and_congr_right fun _ => and_congr_right fun _ => and_congr_right fun _ => ?_
  refine and_congr_right fun _ => and_congr_right fun _ => ?_
  refine exists_congr fun s => and_congr_right fun _ => ?_
  exact ⟨fun h => (Except.ok.inj h).symm, fun h => congrArg Except.ok h.symm⟩

theorem ratioRise_mono {g band expected} (hexpected : 0 ≤ expected) {k k' n} (hn : 0 ≤ n) (hk : k ≤ k') {r}
    (h : ratioRise g band expected k n = .ok r) : ∃ r', ratioRise g band expected k' n = .ok r' := by
  obtain ⟨hmin, hden, hzero, hrise, hmultiple, s, hs, rfl⟩ := ratioRise_ok_iff.mp h
  have hle : (k : ℚ) / n ≤ (k' : ℚ) / n :=
    div_le_div_of_nonneg_right (Int.cast_le.mpr hk) (Int.cast_nonneg hn)
  obtain ⟨s', hs'⟩ := surprise_mono hle hs
  exact ⟨_, ratioRise_ok_iff.mpr ⟨hmin.trans hk, hden, hzero, hrise.trans (sub_le_sub_right hle _),
    ratio_le_ratio hexpected hle hmultiple, s', hs', rfl⟩⟩

/-! ## Evidence -/

theorem spikeSeverity_ok {ratioMin deviationZ m m'} (hm : m'.isNone = m.isNone) {magnitude} (magnitude' : ℚ) {severity}
    (h : spikeSeverity ratioMin deviationZ m magnitude = .ok severity) :
    ∃ severity', spikeSeverity ratioMin deviationZ m' magnitude' = .ok severity' := by
  cases m with
  | none =>
    rw [Option.isNone_iff_eq_none.mp hm]
    exact ⟨_, rfl⟩
  | some r =>
    cases m' with
    | none => cases hm
    | some r' =>
      simp only [spikeSeverity] at h ⊢
      split at h
      · cases h
      · exact ⟨_, if_neg ‹_›⟩

theorem rateSeverity_ok {thr m m'} (hm : m'.isNone = m.isNone) {magnitude} (magnitude' : ℚ) {severity}
    (h : rateSeverity thr m magnitude = .ok severity) : ∃ severity', rateSeverity thr m' magnitude' = .ok severity' :=
  spikeSeverity_ok hm magnitude' h

theorem scoreStrength_ok {magnitude deviationZ strength} (magnitude' : ℚ)
    (h : scoreStrength magnitude deviationZ = .ok strength) :
    ∃ strength', scoreStrength magnitude' deviationZ = .ok strength' := by
  unfold scoreStrength at h ⊢
  split at h
  · cases h
  · exact ⟨_, if_neg ‹_›⟩

/-! ## The request rate -/

section Rate

variable {ctx : WafDetectionContext}

theorem rateSpikeEvidence_proves : Proves (rateSpikeEvidence ctx) := by
  rintro ⟨cell, p⟩ e h
  obtain ⟨severity, _, h⟩ := bind_ok h
  cases h
  rfl

theorem rateSpikeEvidence_ok {x cell p p' e} (hp : p'.ratio.isNone = p.ratio.isNone)
    (h : rateSpikeEvidence ctx (cell, p) = .ok e) : ∃ e', rateSpikeEvidence (ctx.exact x) (cell, p') = .ok e' := by
  obtain ⟨severity, hseverity, _⟩ := bind_ok h
  obtain ⟨severity', hseverity'⟩ :=
    rateSeverity_ok hp (rateMagnitude ctx.thresholds p'.surprise) hseverity
  exact ⟨_, bind_eq_ok.mpr ⟨severity', hseverity', rfl⟩⟩

theorem requestRateGuards_ok_iff {cell p} :
    requestRateGuards ctx = .ok (cell, p) ↔
      supportsVerdict ctx = true ∧ (ctx.lowerBound = true ∨ ctx.minCoverage ≤ ctx.point.endpointCoverageRatio) ∧
        reliableCell ctx "request-rate" = .ok cell ∧
        spike (rateGuards ctx cell).1 (rateGuards ctx cell).2 ctx.point.requestCount = .ok p := by
  simp only [requestRateGuards, bind_eq_ok, require_eq_ok, exists_const, mapError_eq_ok]
  refine and_congr_right fun _ => and_congr_right fun _ => ?_
  constructor
  · rintro ⟨cell', hcell, p', hp, h⟩
    cases h
    exact ⟨hcell, hp⟩
  · rintro ⟨hcell, hp⟩
    exact ⟨cell, hcell, p, hp, rfl⟩

theorem reliableCell_eq {metric cell} (h : reliableCell ctx metric = .ok cell) : ctx.baseline = some cell := by
  unfold reliableCell at h
  split at h
  · cases h
  · split at h
    · cases h
    · split at h
      · cases h
        assumption
      · cases h

theorem requestRateGuards_exact {x cell p} (h : requestRateGuards ctx = .ok (cell, p)) (hx : ctx.point.requestCount ≤ x)
    (hcoverage : ctx.minCoverage ≤ ctx.point.endpointCoverageRatio) (hmedian : 0 ≤ cell.median) :
    ∃ p', requestRateGuards (ctx.exact x) = .ok (cell, p') ∧ p'.ratio.isNone = p.ratio.isNone := by
  obtain ⟨_, _, hcell, hp⟩ := requestRateGuards_ok_iff.mp h
  obtain ⟨p', hp', hnone⟩ := spike_mono (rateGuards ctx cell).2 hmedian (Int.cast_le.mpr hx) hp
  exact ⟨p', requestRateGuards_ok_iff.mpr ⟨rfl, .inr hcoverage, hcell, hp'⟩, hnone⟩

end Rate

/-! ## WAF ratios -/

section Ratio

variable {ctx : WafDetectionContext} {d : RatioDefinition}

theorem ratioEvidence_proves {input} : Proves (ratioEvidence ctx d input) := by
  rintro ⟨cell, r⟩ e h
  obtain ⟨strength, _, h⟩ := bind_ok h
  cases h
  rfl

theorem ratioGuards_ok_iff {input cell r} :
    ratioGuards ctx d input = .ok (cell, r) ↔
      (d.status input.observation.breakdowns).measured = true ∧ ctx.effectiveScope ≠ .none ∧
        input.thresholds.minCoverage ≤ input.observation.endpointCoverageRatio ∧
        fieldCovered input.thresholds input.observation.requestCount input.n = true ∧
        pooledCell ctx d.metric = .ok cell ∧
        ratioRise (behaviorGuards input.thresholds cell).1 (behaviorGuards input.thresholds cell).2 cell.pooled
          input.k input.n = .ok r := by
  simp only [ratioGuards, bind_eq_ok, require_eq_ok, exists_const]
  refine and_congr_right fun _ => and_congr_right fun _ => and_congr_right fun _ => and_congr_right fun _ => ?_
  constructor
  · rintro ⟨cell', hcell, r', hr, h⟩
    cases h
    exact ⟨hcell, hr⟩
  · rintro ⟨hcell, hr⟩
    exact ⟨cell, hcell, r, hr, rfl⟩

theorem pooledCell_eq {metric cell} (h : pooledCell ctx metric = .ok cell) : ctx.baseline = some cell := by
  obtain ⟨cell', hcell, h⟩ := bind_ok h
  obtain ⟨_, _, h⟩ := bind_ok h
  cases h
  exact reliableCell_eq hcell

theorem ratioInput_eq {input} (h : ratioInput ctx d = .ok input) :
    ∃ observation thresholds, ctx.observation = some observation ∧ ctx.behavior = some thresholds ∧
      input = ⟨observation, thresholds, d.k observation.counts, d.n observation.counts⟩ := by
  unfold ratioInput at h
  split at h
  · cases h
    exact ⟨_, _, ‹_›, ‹_›, rfl⟩
  · cases h

end Ratio

/-! ## IPS -/

section Ips

variable {ctx : IpsDetectionContext} {dt : IpsAnomalyType}

theorem ipsAnomalous_proves {cell observed expected change multiple s severity atLeast e}
    (h : ipsAnomalous ctx dt cell observed expected multiple change s severity atLeast = .ok e) :
    e.signal = .anomalous := by
  obtain ⟨strength, _, h⟩ := bind_ok h
  cases h
  rfl

theorem ipsAnomalous_ok {cell observed expected change multiple s severity atLeast e}
    (h : ipsAnomalous ctx dt cell observed expected multiple change s severity atLeast = .ok e)
    {ctx'} (hctx : ctx'.thresholds = ctx.thresholds) (observed' change' : ℚ)
    (multiple' : Option ℚ) (s' : Surprise) (severity' : Severity) (atLeast' : Bool) :
    ∃ e', ipsAnomalous ctx' dt cell observed' expected multiple' change' s' severity' atLeast' = .ok e' := by
  obtain ⟨strength, hstrength, _⟩ := bind_ok h
  obtain ⟨strength', hstrength'⟩ := scoreStrength_ok (scoreMagnitude ctx'.thresholds.deviationZ s') hstrength
  rw [← hctx] at hstrength'
  exact ⟨_, bind_eq_ok.mpr ⟨strength', hstrength', rfl⟩⟩

theorem ipsSpikeEvidence_proves {numbers cell observed p atLeast e}
    (h : ipsSpikeEvidence ctx dt numbers cell observed p atLeast = .ok e) : e.signal = .anomalous := by
  obtain ⟨severity, _, h⟩ := bind_ok h
  exact ipsAnomalous_proves h

theorem ipsSpikeEvidence_ok {numbers cell observed p p' atLeast e}
    (h : ipsSpikeEvidence ctx dt numbers cell observed p atLeast = .ok e) (hp : p'.ratio.isNone = p.ratio.isNone)
    {ctx'} (hctx : ctx'.thresholds = ctx.thresholds) (observed' : ℚ) (atLeast' : Bool) :
    ∃ e', ipsSpikeEvidence ctx' dt numbers cell observed' p' atLeast' = .ok e' := by
  obtain ⟨severity, hseverity, h⟩ := bind_ok h
  obtain ⟨severity', hseverity'⟩ :=
    spikeSeverity_ok hp (scoreMagnitude ctx'.thresholds.deviationZ p'.surprise) hseverity
  obtain ⟨e', he'⟩ := ipsAnomalous_ok h hctx observed' p'.delta p'.ratio p'.surprise severity' atLeast'
  rw [← hctx] at hseverity'
  exact ⟨e', bind_eq_ok.mpr ⟨severity', hseverity', he'⟩⟩

theorem ipsSpikeGuards_mono {thr numbers cell x y}
    (hmedian : 0 ≤ cell.median) (hxy : x ≤ y) {p} (h : ipsSpikeGuards thr numbers cell x = .ok p) :
    ∃ p', ipsSpikeGuards thr numbers cell y = .ok p' ∧ p'.ratio.isNone = p.ratio.isNone := by
  obtain ⟨p', hp', hnone⟩ := spike_mono (ipsBand thr cell) hmedian hxy (mapError_eq_ok.mp h)
  exact ⟨p', mapError_eq_ok.mpr hp', hnone⟩

/-! ### The searches of a bucket -/

variable {b : IpsJudgedBucket} {dimensions : List IpsDimension} {d : IpsDimension}

theorem dimension_exactIn (b : IpsJudgedBucket) (dimensions : List IpsDimension) (d : IpsDimension) :
    (b.exactIn dimensions).dimension d = (b.dimension d).map (fun facts =>
      if d ∈ dimensions then { facts with measurement := .exact } else facts) :=
  Dict.get?_mapValues b.dimensions
    (fun k facts => if k ∈ dimensions then { facts with measurement := .exact } else facts) d

theorem measured_exactIn (hd : d ∈ dimensions) (h : (b.dimension d).any (fun f => f.measured) = true) :
    (b.exactIn dimensions).measured d = some .exact := by
  obtain ⟨facts, hfacts, _⟩ := Option.any_eq_true _ _ |>.mp h
  rw [IpsJudgedBucket.measured, dimension_exactIn, hfacts]
  simp [hd, IpsDimensionFacts.wafMeasurement]

theorem dimension_exact {label coverage} (h : ctx.dimension d label coverage = .ok ())
    {ctx' : IpsDetectionContext} (hctx : ctx'.thresholds = ctx.thresholds)
    (hdim : ctx'.observation.bucket.dimension d = (ctx.observation.bucket.exactIn dimensions).dimension d) :
    ctx'.dimension d label coverage = .ok () := by
  simp only [IpsDetectionContext.dimension, bind_eq_ok, require_eq_ok, exists_const] at h ⊢
  obtain ⟨hmeasured, hcoverage⟩ := h
  obtain ⟨facts, hfacts, hmeasured⟩ := Option.any_eq_true _ _ |>.mp hmeasured
  rw [hdim, dimension_exactIn, hfacts, hctx]
  rw [hfacts] at hcoverage
  refine ⟨?_, hcoverage.imp_right fun hcoverage => ?_⟩
  · by_cases hd : d ∈ dimensions
    · simp [hd, IpsDimensionFacts.measured, IpsDimensionFacts.wafMeasurement]
    · simpa [hd] using hmeasured
  · by_cases hd : d ∈ dimensions
    · simp only [Option.any_some, IpsDimensionFacts.coverageMet, Bool.and_eq_true] at hcoverage
      simp [hd, IpsDimensionFacts.coverageMet, IpsDimensionFacts.measured, IpsDimensionFacts.wafMeasurement, hcoverage.2]
    · simpa [hd] using hcoverage

theorem dimension_measured {label coverage} (h : ctx.dimension d label coverage = .ok ()) :
    (ctx.observation.bucket.dimension d).any (fun f => f.measured) = true := by
  simp only [IpsDetectionContext.dimension, bind_eq_ok, require_eq_ok, exists_const] at h
  exact h.1

theorem cell_eq {metric pooled cell} (h : ctx.cell metric pooled = .ok cell) : ctx.baseline = some cell := by
  unfold IpsDetectionContext.cell at h
  split at h
  · cases h
  · simp only [bind_eq_ok] at h
    obtain ⟨_, _, _, _, _, _, h⟩ := h
    cases h
    assumption

theorem scope_exact (h : ∀ r ∈ dt.inputs, inputMeasurement ctx.observation r.input = some .exact) :
    ctx.scope dt = .ok () := by
  have hscope : (ipsInputScope dt ctx.observation).scope = .full := by
    cases dt <;>
      simp only [IpsAnomalyType.inputs, List.mem_cons, List.not_mem_nil, or_false, forall_eq_or_imp, forall_eq] at h <;>
      simp [ipsInputScope, inputScope, IpsAnomalyType.inputs, inputDecision, narrowest, h.1, h.2, verdictScope]
  rw [IpsDetectionContext.scope, require_eq_ok, hscope]
  exact nofun

/-! ### Entity spikes -/

theorem entitySpikeGuards_ok_iff {d cell events p} :
    entitySpikeGuards ctx d = .ok (cell, events, p) ↔
      ctx.maintenance = .ok () ∧ (∃ entity count, judgedEntity ctx d = .ok (entity, count) ∧
        ctx.dimension d.dimension d.label = .ok () ∧ knownEvents count = .ok events) ∧
        ctx.scope d.detectorType = .ok () ∧ ctx.cell "entity_events" = .ok cell ∧
        ipsSpikeGuards ctx.thresholds (entitySpikeNumbers ctx.thresholds) cell events = .ok p := by
  simp only [entitySpikeGuards, bind_eq_ok]
  constructor
  · rintro ⟨_, hmaintenance, ⟨entity, count⟩, hentity, _, hdimension, events', hevents, _, hscope, cell', hcell, p', hp,
      h⟩
    cases h
    exact ⟨hmaintenance, ⟨entity, count, hentity, hdimension, hevents⟩, hscope, hcell, hp⟩
  · rintro ⟨hmaintenance, ⟨entity, count, hentity, hdimension, hevents⟩, hscope, hcell, hp⟩
    exact ⟨(), hmaintenance, (entity, count), hentity, (), hdimension, events, hevents, (), hscope, cell, hcell, p, hp,
      rfl⟩

theorem judgedEntity_exact {d entity count} (h : judgedEntity ctx d = .ok (entity, count)) (x : Nat) :
    ctx.observation.entity = some entity ∧ entity.dimension = d.dimension ∧ ctx.observation.count = some count ∧
      judgedEntity (ctx.exactEvents d.dimension x) d = .ok (entity, ⟨some x, some .exact, none⟩) := by
  unfold judgedEntity at h
  split at h
  next entity' count' hentity hcount =>
      simp only [bind_eq_ok, require_eq_ok, exists_const] at h
      obtain ⟨hdim, _, hport, hname, h⟩ := h
      cases h
      refine ⟨hentity, hdim, hcount, ?_⟩
      simp only [judgedEntity, IpsDetectionContext.exactEvents, hentity, bind_eq_ok, require_eq_ok, exists_const]
      exact ⟨hdim, (), hport, hname, rfl⟩
  next => cases h

theorem knownEvents_eq {count events} (h : knownEvents count = .ok events) : count.events = some events := by
  unfold knownEvents at h
  split at h
  · cases h
    assumption
  · cases h

theorem entitySpikeGuards_exact {d : EntitySpike}
    (hd : d.detectorType.inputs = [⟨.entityEvents, "volume", .lowerBoundProvesIncrease⟩,
      ⟨.dimensionEvents, "coverage", .lowerBoundProvesIncrease⟩]) {cell events x p}
    (h : entitySpikeGuards ctx d = .ok (cell, events, p)) (hx : events ≤ x) (hmedian : 0 ≤ cell.median) :
    ∃ p', entitySpikeGuards (ctx.exactEvents d.dimension x) d = .ok (cell, x, p') ∧
      p'.ratio.isNone = p.ratio.isNone := by
  obtain ⟨hmaintenance, ⟨entity, count, hentity, hdimension, hevents⟩, hscope, hcell, hp⟩ :=
    entitySpikeGuards_ok_iff.mp h
  obtain ⟨hobserved, hdim, hcount, hjudged⟩ := judgedEntity_exact hentity x
  obtain ⟨p', hp', hnone⟩ := ipsSpikeGuards_mono hmedian (Nat.cast_le.mpr hx) hp
  refine ⟨p', entitySpikeGuards_ok_iff.mpr ⟨hmaintenance, ⟨entity, _, hjudged,
    dimension_exact hdimension rfl rfl, rfl⟩, scope_exact ?_, hcell, hp'⟩, hnone⟩
  rw [hd]
  intro r hr
  simp only [List.mem_cons, List.not_mem_nil, or_false] at hr
  rcases hr with rfl | rfl
  · rfl
  · simp only [inputMeasurement, IpsDetectionContext.exactEvents, hobserved, Option.bind_some, hdim]
    exact measured_exactIn List.mem_cons_self (dimension_measured hdimension)

/-! ### Port fan-out -/

theorem statedPorts_eq {b ports} (h : statedPorts b = .ok ports) : b.maxDistinctPorts = some ports := by
  unfold statedPorts at h
  split at h
  · cases h
    assumption
  · cases h

theorem fanoutGuards_ok_iff {cell ports p} :
    fanoutGuards ctx = .ok (cell, ports, p) ↔
      ctx.maintenance = .ok () ∧ ctx.dimension .portFanout "port fan-out" false = .ok () ∧
        ctx.dimension .destinationPort "destination-port" = .ok () ∧
        statedPorts ctx.observation.bucket = .ok ports ∧ ctx.scope .portFanoutSpike = .ok () ∧
        ctx.cell "max_distinct_ports" = .ok cell ∧
        ipsSpikeGuards ctx.thresholds (fanoutNumbers ctx.thresholds) cell ports = .ok p := by
  simp only [fanoutGuards, bind_eq_ok]
  constructor
  · rintro ⟨_, hmaintenance, _, hfanout, _, hport, ports', hports, _, hscope, cell', hcell, p', hp, h⟩
    cases h
    exact ⟨hmaintenance, hfanout, hport, hports, hscope, hcell, hp⟩
  · rintro ⟨hmaintenance, hfanout, hport, hports, hscope, hcell, hp⟩
    exact ⟨(), hmaintenance, (), hfanout, (), hport, ports, hports, (), hscope, cell, hcell, p, hp, rfl⟩

theorem fanoutGuards_exact {cell : IpsBaselineCell} {ports x p}
    (h : fanoutGuards ctx = .ok (cell, ports, p)) (hx : ports ≤ x) (hmedian : 0 ≤ cell.median) :
    ∃ p', fanoutGuards (ctx.exactPorts x) = .ok (cell, x, p') ∧ p'.ratio.isNone = p.ratio.isNone := by
  obtain ⟨hmaintenance, hfanout, hport, hports, hscope, hcell, hp⟩ := fanoutGuards_ok_iff.mp h
  obtain ⟨p', hp', hnone⟩ := ipsSpikeGuards_mono hmedian (Int.cast_le.mpr hx) hp
  refine ⟨p', fanoutGuards_ok_iff.mpr ⟨hmaintenance, dimension_exact hfanout rfl rfl, dimension_exact hport rfl rfl,
    rfl, scope_exact ?_, hcell, hp'⟩, hnone⟩
  intro r hr
  simp only [IpsAnomalyType.inputs, List.mem_cons, List.not_mem_nil, or_false] at hr
  rcases hr with rfl | rfl
  · exact measured_exactIn (b := ctx.observation.bucket) List.mem_cons_self (dimension_measured hfanout)
  · exact measured_exactIn (b := ctx.observation.bucket) (List.mem_cons_of_mem _ List.mem_cons_self)
      (dimension_measured hport)

/-! ### The block ratio -/

theorem blockRatioGuards_ok_iff {cell r} :
    blockRatioGuards ctx = .ok (cell, r) ↔
      ctx.maintenance = .ok () ∧ ((ctx.observation.bucket.dimension .action).any
        (fun facts => decide (facts.measurement ≠ .notCollected)) = true) ∧
        ctx.dimension .action "action" = .ok () ∧ ctx.scope .blockRatioShift = .ok () ∧
        ctx.cell "block_ratio" true = .ok cell ∧
        ∃ blocked total, statedActions ctx.observation.bucket = .ok (blocked, total) ∧
          ratioRise (blockGuards ctx.thresholds) (ipsBand ctx.thresholds cell) cell.pooled blocked total = .ok r := by
  simp only [blockRatioGuards, bind_eq_ok]
  constructor
  · rintro ⟨_, hmaintenance, _, hmapped, _, haction, ⟨blocked, total⟩, hstated, _, hscope, cell', hcell, r', hr, h⟩
    cases h
    exact ⟨hmaintenance, require_eq_ok.mp hmapped, haction, hscope, hcell, blocked, total, hstated, hr⟩
  · rintro ⟨hmaintenance, hmapped, haction, hscope, hcell, blocked, total, hstated, hr⟩
    exact ⟨(), hmaintenance, (), require_eq_ok.mpr hmapped, (), haction, (blocked, total), hstated, (), hscope, cell,
      hcell, r, hr, rfl⟩

theorem blockRatioGuards_exact {cell : IpsBaselineCell} {r} (h : blockRatioGuards ctx = .ok (cell, r))
    {blocked total x} (hstated : statedActions ctx.observation.bucket = .ok (blocked, total))
    (hblocked : 0 ≤ blocked) (hx : blocked ≤ x) (htotal : x ≤ total) (hpooled : 0 ≤ cell.pooled) :
    ∃ r', blockRatioGuards (ctx.exactActions x total) = .ok (cell, r') := by
  obtain ⟨hmaintenance, hmapped, haction, hscope, hcell, blocked', total', hstated', hr⟩ :=
    blockRatioGuards_ok_iff.mp h
  cases hstated.symm.trans hstated'
  obtain ⟨r', hr'⟩ := ratioRise_mono hpooled (hblocked.trans (hx.trans htotal)) hx hr
  have hactions : (ctx.exactActions x total).observation.bucket.actionEvents = some total := by
    simp [IpsDetectionContext.exactActions, IpsJudgedBucket.actionEvents]
  have hmeasured : (ctx.exactActions x total).observation.bucket.measured .action = some .exact :=
    measured_exactIn (b := ctx.observation.bucket) List.mem_cons_self (dimension_measured haction)
  refine ⟨r', blockRatioGuards_ok_iff.mpr ⟨hmaintenance, ?_, dimension_exact haction rfl rfl, scope_exact ?_, hcell, x,
    total, ?_, hr'⟩⟩
  · obtain ⟨facts, hfacts, _⟩ := Option.any_eq_true _ _ |>.mp hmapped
    have := dimension_exactIn ctx.observation.bucket [.action] .action
    rw [hfacts] at this
    simp [IpsDetectionContext.exactActions, IpsJudgedBucket.dimension] at this ⊢
    simp [this]
  · intro r hr
    simp only [IpsAnomalyType.inputs, List.mem_cons, List.not_mem_nil, or_false] at hr
    rcases hr with rfl | rfl
    · simp only [inputMeasurement, hmeasured]
      simp [IpsDetectionContext.exactActions, numeratorMeasurement]
    · simp only [inputMeasurement, hactions, hmeasured]
      rfl
  · rw [statedActions, hactions]
    rfl

end Ips

/-! ## Property watch -/

section PropertyWatch

variable {ctx : PwDetectionContext}

theorem valueSpikeEvidence_proves : Proves (valueSpikeEvidence ctx) := by
  rintro ⟨cell, events, p⟩ e h
  obtain ⟨confidence, _, h⟩ := bind_ok h
  cases h
  rfl

theorem pwConfidence_ok {thr cell s c} (s' : Surprise)
    (h : pwConfidence thr cell s = .ok c) : ∃ c', pwConfidence thr cell s' = .ok c' := by
  obtain ⟨strength, hstrength, _⟩ := bind_ok h
  obtain ⟨strength', hstrength'⟩ := scoreStrength_ok (if s'.status = .ok then s'.z else thr.deviationZ) hstrength
  exact ⟨_, bind_eq_ok.mpr ⟨strength', hstrength', rfl⟩⟩

theorem valueSpikeGuards_ok_iff {cell events p} :
    valueSpikeGuards ctx = .ok (cell, events, p) ↔
      ctx.watch = .ok () ∧ (∃ bucket, ctx.bucketGuard = .ok bucket ∧ ctx.cell bucket = .ok cell) ∧
        ctx.observed = .ok events ∧
        spike (pwSpikeGuards ctx.thresholds cell).1 (pwSpikeGuards ctx.thresholds cell).2 events = .ok p := by
  simp only [valueSpikeGuards, bind_eq_ok, mapError_eq_ok]
  constructor
  · rintro ⟨_, hwatch, bucket, hbucket, cell', hcell, events', hevents, p', hp, h⟩
    cases h
    exact ⟨hwatch, ⟨bucket, hbucket, hcell⟩, hevents, hp⟩
  · rintro ⟨hwatch, ⟨bucket, hbucket, hcell⟩, hevents, hp⟩
    exact ⟨(), hwatch, bucket, hbucket, cell, hcell, events, hevents, p, hp, rfl⟩

theorem bucketGuard_ok_iff {b} :
    ctx.bucketGuard = .ok b ↔ ctx.bucket = some b ∧ ctx.reading.kind ≠ .noBucket ∧
      b.valuesMeasurement ≠ .notCollected ∧ b.scopeChanged = false ∧ b.propertyNotParsed = false := by
  unfold PwDetectionContext.bucketGuard
  cases hb : ctx.bucket with
  | none => exact ⟨nofun, nofun⟩
  | some b' =>
    simp only [bind_eq_ok, require_eq_ok, exists_const, Option.some.injEq]
    constructor
    · rintro ⟨hkind, hmeasured, hchanged, hparsed, h⟩
      cases h
      exact ⟨rfl, hkind, hmeasured, hchanged, hparsed⟩
    · rintro ⟨rfl, hkind, hmeasured, hchanged, hparsed⟩
      exact ⟨hkind, hmeasured, hchanged, hparsed, rfl⟩

theorem pwCell_ok_iff {b cell} :
    ctx.cell b = .ok cell ↔ ctx.baseline = some cell ∧ cell.watchVersion = b.watchVersion ∧
      cell.isReliable = true ∧ ctx.thresholds.baselineMinSamples ≤ cell.sampleCount := by
  unfold PwDetectionContext.cell
  cases hb : ctx.baseline with
  | none => exact ⟨nofun, nofun⟩
  | some cell' =>
    simp only [bind_eq_ok, require_eq_ok, exists_const, Option.some.injEq]
    constructor
    · rintro ⟨hversion, _, ⟨hreliable, hsamples⟩, h⟩
      cases h
      exact ⟨rfl, hversion, hreliable, hsamples⟩
    · rintro ⟨rfl, hversion, hreliable, hsamples⟩
      exact ⟨hversion, .inl hreliable, ⟨hreliable, hsamples⟩, rfl⟩

theorem bucketGuard_exact {b exact} (h : ctx.bucketGuard = .ok b) (hexact : b.Exact exact) (x : Int) :
    (ctx.exact exact x).bucketGuard = .ok exact := by
  obtain ⟨_, hkind, hmeasured, hchanged, hparsed⟩ := bucketGuard_ok_iff.mp h
  rcases hexact with rfl | ⟨_, hscope, hvalues, hnot⟩
  · exact bucketGuard_ok_iff.mpr ⟨rfl, hkind, hmeasured, hchanged, hparsed⟩
  · refine bucketGuard_ok_iff.mpr ⟨rfl, hkind, ?_, hscope.trans hchanged, hnot⟩
    rw [hvalues]
    exact nofun

theorem observed_eq {events} (h : ctx.observed = .ok events) : ctx.reading.events = some events := by
  unfold PwDetectionContext.observed at h
  split at h
  · obtain ⟨_, _, h⟩ := bind_ok h
    cases h
    assumption
  · cases h

theorem valueSpikeGuards_exact {cell events x p} (h : valueSpikeGuards ctx = .ok (cell, events, p)) {b exact}
    (hb : ctx.bucket = some b) (hexact : b.Exact exact) (hx : events ≤ x) (hmedian : 0 ≤ cell.median) :
    ∃ p', valueSpikeGuards (ctx.exact exact x) = .ok (cell, x, p') := by
  obtain ⟨hwatch, ⟨b', hguard, hcell⟩, hevents, hp⟩ := valueSpikeGuards_ok_iff.mp h
  cases hb.symm.trans (bucketGuard_ok_iff.mp hguard).1
  obtain ⟨hbaseline, hversion, hreliable⟩ := pwCell_ok_iff.mp hcell
  obtain ⟨p', hp', _⟩ :=
    spike_mono (pwSpikeGuards ctx.thresholds cell).2 hmedian (Int.cast_le.mpr hx) hp
  have hexact' : exact.watchVersion = b.watchVersion := by
    rcases hexact with rfl | ⟨hexact, _⟩
    · rfl
    · exact hexact
  have hcell' : (ctx.exact exact x).cell exact = .ok cell :=
    pwCell_ok_iff.mpr ⟨hbaseline, hversion.trans hexact'.symm, hreliable⟩
  exact ⟨p', valueSpikeGuards_ok_iff.mpr ⟨hwatch, ⟨exact, bucketGuard_exact hguard hexact x, hcell'⟩, rfl, hp'⟩⟩

end PropertyWatch

end QRadarDashboard.Detectors
