import QRadarDashboard.Detectors.Lemmas.LowerBound
import QRadarDashboard.Detectors.Lemmas.Novelty
import QRadarDashboard.Ips.Theorems
import QRadarDashboard.Waf.Theorems

/-!
# Results about detectors
-/

namespace QRadarDashboard.Detectors
open Lib Waf Ips Anomaly PropertyWatch

/-! ## No healthy verdict from a lower bound -/

section NeverHealthy

theorem requestRate_not_healthy {ctx} (h : ctx.effectiveScope = .increaseOnly) :
    ¬ Signals (detectRequestRateSpike ctx) .healthy :=
  Judging.not_healthy (decide_eq_true h) rateSpikeEvidence_proves

theorem ratio_not_healthy {ctx} (h : ctx.effectiveScope = .increaseOnly)
    (d : RatioDefinition) : ¬ Signals (detectRatio ctx d) .healthy := by
  rintro ⟨e, he, hsignal⟩
  obtain ⟨input, _, he⟩ := bind_ok he
  exact Judging.not_healthy (j := ⟨_, _, _, _, _⟩) (decide_eq_true h) ratioEvidence_proves ⟨e, he, hsignal⟩

variable {ctx : IpsDetectionContext}

theorem entitySpike_not_healthy {d} (h : (ipsInputScope d.detectorType ctx.observation).scope = .increaseOnly) :
    ¬ Signals (detectEntitySpike ctx d) .healthy :=
  Judging.not_healthy (decide_eq_true h) (fun _ _ => ipsSpikeEvidence_proves)

theorem portFanout_not_healthy (h : (ipsInputScope .portFanoutSpike ctx.observation).scope = .increaseOnly) :
    ¬ Signals (detectPortFanoutSpike ctx) .healthy :=
  Judging.not_healthy (decide_eq_true h) (fun _ _ => ipsSpikeEvidence_proves)

theorem blockRatio_not_healthy (h : (ipsInputScope .blockRatioShift ctx.observation).scope = .increaseOnly) :
    ¬ Signals (detectBlockRatioShift ctx) .healthy :=
  Judging.not_healthy (decide_eq_true h) (fun _ _ => ipsAnomalous_proves)

theorem valueSpike_not_healthy {ctx} (h : (pwInputScope ctx.reading).scope = .increaseOnly) :
    ¬ Signals (detectValueSpike ctx) .healthy :=
  Judging.not_healthy (decide_eq_true h) valueSpikeEvidence_proves

end NeverHealthy

/-! ## The exact verdict -/

section Upheld

theorem requestRate_upheld {ctx} (hmedian : ∀ cell ∈ ctx.baseline, 0 ≤ cell.median)
    (hcoverage : ctx.minCoverage ≤ ctx.point.endpointCoverageRatio) {x} (hx : ctx.point.requestCount ≤ x)
    (h : Signals (detectRequestRateSpike ctx) .anomalous) :
    Signals (detectRequestRateSpike (ctx.exact x)) .anomalous := by
  obtain ⟨⟨cell, p⟩, e, hguards, he⟩ := (Judging.anomalous_iff rateSpikeEvidence_proves).mp h
  have hcell := reliableCell_eq (requestRateGuards_ok_iff.mp hguards).2.2.1
  obtain ⟨p', hguards', hnone⟩ := requestRateGuards_exact hguards hx hcoverage (hmedian cell hcell)
  obtain ⟨e', he'⟩ := rateSpikeEvidence_ok (x := x) hnone he
  exact (Judging.anomalous_iff rateSpikeEvidence_proves).mpr ⟨_, e', hguards', he'⟩

/-- The breakdown of a ratio, exact: as many events carry its field, and at least as many are counted by it. -/
theorem ratio_upheld {ctx d} (hpooled : ∀ cell ∈ ctx.baseline, 0 ≤ cell.pooled) {breakdowns}
    (hexact : d.status breakdowns = .exact) {counts}
    (hcounts : ∀ observation ∈ ctx.observation, 0 ≤ d.k observation.counts ∧ d.k observation.counts ≤ d.k counts ∧
      d.k counts ≤ d.n counts ∧ d.n counts = d.n observation.counts) (h : Signals (detectRatio ctx d) .anomalous) :
    Signals (detectRatio (ctx.exactBreakdown breakdowns counts) d) .anomalous := by
  obtain ⟨e, he, hsignal⟩ := h
  obtain ⟨input, hinput, he⟩ := bind_ok he
  obtain ⟨⟨cell, r⟩, e, hguards, hr⟩ := (Judging.anomalous_iff (j := ⟨_, _, _, _, _⟩) ratioEvidence_proves).mp
    ⟨e, he, hsignal⟩
  obtain ⟨_, _, hsource, hfield, hcell, hrise⟩ := ratioGuards_ok_iff.mp hguards
  obtain ⟨observation, thresholds, hobservation, hthresholds, rfl⟩ := ratioInput_eq hinput
  obtain ⟨hk, hle, hbound, hn⟩ := hcounts observation hobservation
  have hn0 : 0 ≤ d.n observation.counts := hk.trans (hle.trans (hbound.trans hn.le))
  obtain ⟨r', hr'⟩ := ratioRise_mono (hpooled cell (pooledCell_eq hcell)) hn0 hle hrise
  obtain ⟨strength, hstrength, _⟩ := bind_ok hr
  obtain ⟨strength', hstrength'⟩ :=
    scoreStrength_ok (if r'.surprise.status = .ok then r'.surprise.z else thresholds.deviationZ) hstrength
  have hinput' : ratioInput (ctx.exactBreakdown breakdowns counts) d = .ok
      ⟨{ observation with measurement := some .exact, breakdowns := breakdowns, counts := counts }, thresholds,
        d.k counts, d.n observation.counts⟩ := by
    rw [← hn]
    simp only [ratioInput, WafDetectionContext.exactBreakdown, hobservation, hthresholds, Option.map_some]
    rfl
  have hguards' : ratioGuards (ctx.exactBreakdown breakdowns counts) d
      ⟨{ observation with measurement := some .exact, breakdowns := breakdowns, counts := counts }, thresholds,
        d.k counts, d.n observation.counts⟩ = .ok (cell, r') := by
    refine ratioGuards_ok_iff.mpr ⟨?_, nofun, hsource, hfield, hcell, hr'⟩
    rw [hexact]
    rfl
  obtain ⟨e', he', hsignal'⟩ := (Judging.anomalous_iff (j := ⟨_, _, _, _, _⟩) ratioEvidence_proves).mpr
    ⟨_, _, hguards', bind_eq_ok.mpr ⟨strength', hstrength', rfl⟩⟩
  exact ⟨e', bind_eq_ok.mpr ⟨_, hinput', he'⟩, hsignal'⟩

variable {ctx : IpsDetectionContext}

theorem entitySpike_upheld {d} (hd : d ∈ [portSpike, destinationSpike, signatureSpike])
    (hmedian : ∀ cell ∈ ctx.baseline, 0 ≤ cell.median) {x}
    (hx : ∀ count ∈ ctx.observation.count, ∀ events ∈ count.events, events ≤ x)
    (h : Signals (detectEntitySpike ctx d) .anomalous) :
    Signals (detectEntitySpike (ctx.exactEvents d.dimension x) d) .anomalous := by
  obtain ⟨⟨cell, events, p⟩, e, hguards, he⟩ :=
    (Judging.anomalous_iff (fun _ _ => ipsSpikeEvidence_proves)).mp h
  obtain ⟨_, ⟨entity, count, hentity, _, hevents⟩, _, hcell, _⟩ := entitySpikeGuards_ok_iff.mp hguards
  have hle := hx count (judgedEntity_exact hentity x).2.2.1 events (knownEvents_eq hevents)
  have hinputs : d.detectorType.inputs = [⟨.entityEvents, "volume", .lowerBoundProvesIncrease⟩,
      ⟨.dimensionEvents, "coverage", .lowerBoundProvesIncrease⟩] := by
    simp only [List.mem_cons, List.not_mem_nil, or_false] at hd
    rcases hd with rfl | rfl | rfl <;> rfl
  obtain ⟨p', hguards', hnone⟩ := entitySpikeGuards_exact hinputs hguards hle (hmedian cell (cell_eq hcell))
  obtain ⟨e', he'⟩ := ipsSpikeEvidence_ok he hnone (show (ctx.exactEvents d.dimension x).thresholds = _ from rfl) x
    ((ctx.exactEvents d.dimension x).judging d.detectorType).lowerBound
  exact (Judging.anomalous_iff (fun _ _ => ipsSpikeEvidence_proves)).mpr ⟨_, e', hguards', he'⟩

theorem portFanout_upheld (hmedian : ∀ cell ∈ ctx.baseline, 0 ≤ cell.median) {x}
    (hx : ∀ ports ∈ ctx.observation.bucket.maxDistinctPorts, ports ≤ x)
    (h : Signals (detectPortFanoutSpike ctx) .anomalous) :
    Signals (detectPortFanoutSpike (ctx.exactPorts x)) .anomalous := by
  obtain ⟨⟨cell, ports, p⟩, e, hguards, he⟩ :=
    (Judging.anomalous_iff (fun _ _ => ipsSpikeEvidence_proves)).mp h
  obtain ⟨_, _, _, hports, _, hcell, _⟩ := fanoutGuards_ok_iff.mp hguards
  have hle := hx ports (statedPorts_eq hports)
  obtain ⟨p', hguards', hnone⟩ := fanoutGuards_exact hguards hle (hmedian cell (cell_eq hcell))
  obtain ⟨e', he'⟩ := ipsSpikeEvidence_ok he hnone (show (ctx.exactPorts x).thresholds = _ from rfl) x
    ((ctx.exactPorts x).observation.bucket.measured .portFanout = some .lowerBound)
  exact (Judging.anomalous_iff (fun _ _ => ipsSpikeEvidence_proves)).mpr ⟨_, e', hguards', he'⟩

theorem blockRatio_upheld (hpooled : ∀ cell ∈ ctx.baseline, 0 ≤ cell.pooled) {blocked total x}
    (hstated : statedActions ctx.observation.bucket = .ok (blocked, total)) (hblocked : 0 ≤ blocked)
    (hx : blocked ≤ x) (htotal : x ≤ total) (h : Signals (detectBlockRatioShift ctx) .anomalous) :
    Signals (detectBlockRatioShift (ctx.exactActions x total)) .anomalous := by
  obtain ⟨⟨cell, r⟩, e, hguards, he⟩ := (Judging.anomalous_iff (fun _ _ => ipsAnomalous_proves)).mp h
  have hcell := cell_eq (blockRatioGuards_ok_iff.mp hguards).2.2.2.2.1
  obtain ⟨r', hguards'⟩ := blockRatioGuards_exact hguards hstated hblocked hx htotal (hpooled cell hcell)
  obtain ⟨e', he'⟩ := ipsAnomalous_ok he (show (ctx.exactActions x total).thresholds = _ from rfl) r'.observed
    r'.rise r'.multiple r'.surprise (riseSeverity ctx.thresholds.ratioMinIncrease ctx.thresholds.ratioMinMultiple r')
    ((ctx.exactActions x total).judging .blockRatioShift).lowerBound
  exact (Judging.anomalous_iff (fun _ _ => ipsAnomalous_proves)).mpr ⟨_, e', hguards', he'⟩

theorem valueSpike_upheld {ctx} (hmedian : ∀ cell ∈ ctx.baseline, 0 ≤ cell.median) {b exact} (hb : ctx.bucket = some b)
    (hexact : b.Exact exact) {x} (hx : ∀ events ∈ ctx.reading.events, events ≤ x)
    (h : Signals (detectValueSpike ctx) .anomalous) : Signals (detectValueSpike (ctx.exact exact x)) .anomalous := by
  obtain ⟨⟨cell, events, p⟩, e, hguards, he⟩ := (Judging.anomalous_iff valueSpikeEvidence_proves).mp h
  obtain ⟨_, ⟨bucket, _, hcell⟩, hevents, _⟩ := valueSpikeGuards_ok_iff.mp hguards
  have hle := hx events (observed_eq hevents)
  obtain ⟨p', hguards'⟩ := valueSpikeGuards_exact hguards hb hexact hle (hmedian cell (pwCell_ok_iff.mp hcell).1)
  obtain ⟨confidence, hconfidence, _⟩ := bind_ok he
  obtain ⟨confidence', hconfidence'⟩ := pwConfidence_ok p'.surprise hconfidence
  exact (Judging.anomalous_iff valueSpikeEvidence_proves).mpr
    ⟨_, _, hguards', bind_eq_ok.mpr ⟨confidence', hconfidence', rfl⟩⟩

end Upheld

/-! ## A verdict proved from a lower bound -/

theorem lowerBound_never_overturned :
    ((∀ ctx : WafDetectionContext, ctx.effectiveScope = .increaseOnly →
          ¬ Signals (detectRequestRateSpike ctx) .healthy ∧ ∀ d, ¬ Signals (detectRatio ctx d) .healthy) ∧
      (∀ (ctx : IpsDetectionContext) (d : EntitySpike),
        (ipsInputScope d.detectorType ctx.observation).scope = .increaseOnly →
          ¬ Signals (detectEntitySpike ctx d) .healthy) ∧
      (∀ ctx : IpsDetectionContext, (ipsInputScope .portFanoutSpike ctx.observation).scope = .increaseOnly →
          ¬ Signals (detectPortFanoutSpike ctx) .healthy) ∧
      (∀ ctx : IpsDetectionContext, (ipsInputScope .blockRatioShift ctx.observation).scope = .increaseOnly →
          ¬ Signals (detectBlockRatioShift ctx) .healthy) ∧
      (∀ ctx : PwDetectionContext, (pwInputScope ctx.reading).scope = .increaseOnly →
          ¬ Signals (detectValueSpike ctx) .healthy)) ∧
    (∀ ctx : WafDetectionContext, (∀ cell ∈ ctx.baseline, 0 ≤ cell.median) →
        ctx.minCoverage ≤ ctx.point.endpointCoverageRatio →
        Signals (detectRequestRateSpike ctx) .anomalous →
        ∀ x, ctx.point.requestCount ≤ x → Signals (detectRequestRateSpike (ctx.exact x)) .anomalous) ∧
    (∀ (ctx : WafDetectionContext) (d : RatioDefinition) (breakdowns : BreakdownStatus) (counts : BreakdownCounts),
        (∀ cell ∈ ctx.baseline, 0 ≤ cell.pooled) → d.status breakdowns = .exact →
        (∀ observation ∈ ctx.observation, 0 ≤ d.k observation.counts ∧ d.k observation.counts ≤ d.k counts ∧
          d.k counts ≤ d.n counts ∧ d.n counts = d.n observation.counts) →
        Signals (detectRatio ctx d) .anomalous →
        Signals (detectRatio (ctx.exactBreakdown breakdowns counts) d) .anomalous) ∧
    (∀ ctx : IpsDetectionContext, (∀ cell ∈ ctx.baseline, 0 ≤ cell.median) →
        ∀ d ∈ [portSpike, destinationSpike, signatureSpike], Signals (detectEntitySpike ctx d) .anomalous →
        ∀ x : Nat, (∀ count ∈ ctx.observation.count, ∀ events ∈ count.events, events ≤ x) →
          Signals (detectEntitySpike (ctx.exactEvents d.dimension x) d) .anomalous) ∧
    (∀ ctx : IpsDetectionContext, (∀ cell ∈ ctx.baseline, 0 ≤ cell.median) →
        Signals (detectPortFanoutSpike ctx) .anomalous →
        ∀ x, (∀ ports ∈ ctx.observation.bucket.maxDistinctPorts, ports ≤ x) →
          Signals (detectPortFanoutSpike (ctx.exactPorts x)) .anomalous) ∧
    (∀ ctx : IpsDetectionContext, (∀ cell ∈ ctx.baseline, 0 ≤ cell.pooled) →
        Signals (detectBlockRatioShift ctx) .anomalous →
        ∀ blocked total x, statedActions ctx.observation.bucket = .ok (blocked, total) → 0 ≤ blocked →
          blocked ≤ x → x ≤ total → Signals (detectBlockRatioShift (ctx.exactActions x total)) .anomalous) ∧
    (∀ ctx : PwDetectionContext, (∀ cell ∈ ctx.baseline, 0 ≤ cell.median) → Signals (detectValueSpike ctx) .anomalous →
        ∀ b exact, ctx.bucket = some b → b.Exact exact → ∀ x, (∀ events ∈ ctx.reading.events, events ≤ x) →
          Signals (detectValueSpike (ctx.exact exact x)) .anomalous) := by
  refine ⟨⟨?_, ?_, ?_, ?_, ?_⟩, ?_, ?_, ?_, ?_, ?_, ?_⟩
  · exact fun ctx h => ⟨requestRate_not_healthy h, ratio_not_healthy h⟩
  · exact fun ctx d h => entitySpike_not_healthy h
  · exact fun ctx h => portFanout_not_healthy h
  · exact fun ctx h => blockRatio_not_healthy h
  · exact fun ctx h => valueSpike_not_healthy h
  · exact fun ctx hmedian hcoverage h x hx => requestRate_upheld hmedian hcoverage hx h
  · exact fun ctx d breakdowns counts hpooled hexact hcounts h => ratio_upheld hpooled hexact hcounts h
  · exact fun ctx hmedian d hd h x hx => entitySpike_upheld hd hmedian hx h
  · exact fun ctx hmedian h x hx => portFanout_upheld hmedian hx h
  · exact fun ctx hpooled h blocked total x hstated hblocked hx htotal =>
      blockRatio_upheld hpooled hstated hblocked hx htotal h
  · exact fun ctx hmedian h b exact hb hexact x hx => valueSpike_upheld hmedian hb hexact hx h

theorem signals_iff {τ : Type} {result : Except Exc (Evidence τ)} {signal} :
    Signals result signal ↔ result.toOption.map (fun e => e.signal) = some signal := by
  cases result with
  | error e => simp [Signals, Except.toOption]
  | ok e => simp [Signals, Except.toOption]

def truncatedRate (coverage : ℚ) : WafDetectionContext where
  point := ⟨0, 3600, .partialBucket, 200, coverage, some .lowerBound⟩
  baseline := some { median := 40, mad := 5, p05 := none, p95 := none, sampleCount := 12, isReliable := true }
  verdictScope := some .increaseOnly

def blockPool (pooledBlocked ratioMinMultiple : ℚ) : WafDetectionContext where
  point := ⟨0, 3600, .partialBucket, 100, 1, some .lowerBound⟩
  baseline := some ⟨1 / 100, 1 / 100, none, none, 12, true, 0, some pooledBlocked, some 100⟩
  verdictScope := some .increaseOnly
  observation := some {
    bucketStart := 0
    bucketSeconds := 3600
    requestCount := 100
    distinctClientCount := none
    completeness := .partialBucket
    endpointCoverageRatio := 1
    metricSemantics := none
    measurement := some .lowerBound
    inMaintenance := some false
    normalizerVersion := 1
    breakdowns := { action := .lowerBound }
    counts := { blocked := some 50, actionEvents := some 100 } }
  behavior := some { ratioMinMultiple := ratioMinMultiple }

def seasonalCell (median mad : ℚ) : IpsBaselineCell where
  median := median
  mad := mad
  p05 := none
  p95 := none
  sampleCount := 12
  isReliable := true
  numeratorSum := some 1
  denominatorSum := some 100
  profileVersion := some 1
  normalizerVersion := some 1

def busyPort (measurement : History.IpsBucketMeasurement) (key : String) : IpsDetectionContext where
  digits := .ascii
  observation := {
    bucket := {
      bucketStart := 0
      dimensions := [.destinationPort, .portFanout, .action].map (fun d =>
        (d, ⟨if d = .action then .exact else measurement, some 1, some false, some false⟩))
      bucketSeconds := 300
      maxDistinctPorts := some 200
      blockedEvents := some 50
      allowedEvents := some 40
      unmappedEvents := some 10
      profileVersion := 1
      normalizerVersion := 1
      inMaintenance := false }
    entity := some ⟨⟨.destinationPort, key, 0, true⟩, none⟩
    count := some ⟨some 200, some .exact, none⟩ }
  baseline := some (seasonalCell 40 5)

def busyBlocks : IpsDetectionContext := { busyPort .lowerBound "" with baseline := some (seasonalCell (1 / 100) (1 / 100)) }

def cutBucket : PwJudgedBucket where
  bucketStart := 0
  bucketSeconds := 300
  watchVersion := 1
  totalsComplete := true
  valuesMeasurement := .lowerBound
  pinnedMeasurement := .notCollected
  totalEvents := some 300
  parsedEvents := some 200
  untrackedEvents := none
  values := []
  observedValues := 1
  trackedValuesObserved := 1
  admittedValues := 0
  belowAdmissionThreshold := 0
  rejectedOverQuota := 0
  admissionTruncated := false
  scopeChanged := false
  ok := by decide

def cutReading : PwDetectionContext where
  watchStatus := some .ok
  bucket := some cutBucket
  reading := ⟨.count, some 200, some .lowerBound⟩
  baseline := some ⟨40, 5, 30, 50, 12, true, 1, 1⟩

theorem lowerBound_never_overturned_rate :
    (¬ Signals (detectRequestRateSpike (truncatedRate 1)) .healthy ∧
      Signals (detectRequestRateSpike ((truncatedRate 1).exact 260)) .anomalous) ∧
    (¬ Signals (detectRatio (blockPool 1 2) blockRatio) .healthy ∧
      Signals (detectRatio ((blockPool 1 2).exactBreakdown { action := .exact }
        { blocked := some 80, actionEvents := some 100 }) blockRatio) .anomalous) ∧
    (¬ Signals (detectEntitySpike (busyPort .lowerBound "443/tcp") portSpike) .healthy ∧
      Signals (detectEntitySpike ((busyPort .lowerBound "443/tcp").exactEvents .destinationPort 260) portSpike)
        .anomalous) ∧
    (¬ Signals (detectPortFanoutSpike (busyPort .lowerBound "443/tcp")) .healthy ∧
      Signals (detectPortFanoutSpike ((busyPort .lowerBound "443/tcp").exactPorts 260)) .anomalous) ∧
    (¬ Signals (detectBlockRatioShift busyBlocks) .healthy ∧
      Signals (detectBlockRatioShift (busyBlocks.exactActions 60 100)) .anomalous) ∧
    ¬ Signals (detectValueSpike cutReading) .healthy ∧
      Signals (detectValueSpike (cutReading.exact cutBucket 260)) .anomalous := by
  obtain ⟨⟨hwaf, hentity, hfanout, hblocks, hvalue⟩, hrate, hratio, hentities, hports, hactions, hvalues⟩ :=
    lowerBound_never_overturned
  refine ⟨⟨(hwaf _ (by decide)).1, hrate _ ?_ ?_ (signals_iff.mpr ?_) 260 (by decide)⟩,
    ⟨(hwaf _ (by decide)).2 _, hratio _ _ _ _ ?_ (by decide) ?_ (signals_iff.mpr ?_)⟩,
    ⟨hentity _ _ ?_, hentities _ ?_ _ (by simp) (signals_iff.mpr ?_) 260 ?_⟩,
    ⟨hfanout _ ?_, hports _ ?_ (signals_iff.mpr ?_) 260 ?_⟩,
    ⟨hblocks _ ?_, hactions _ ?_ (signals_iff.mpr ?_) 50 100 60 rfl (by decide) (by decide) (by decide)⟩,
    hvalue _ ?_, hvalues _ ?_ (signals_iff.mpr ?_) cutBucket cutBucket rfl (Or.inl rfl) 260 ?_⟩
  all_goals with_unfolding_all decide

/-- An exact count is held to the coverage floor, a lower bound is not; and a multiple of a negative expectation falls
as the numerator grows. -/
theorem lowerBound_overturned :
    (Signals (detectRequestRateSpike (truncatedRate (1 / 2))) .anomalous ∧
      ¬ Signals (detectRequestRateSpike ((truncatedRate (1 / 2)).exact 200)) .anomalous) ∧
    Signals (detectBlockRatioSpike (blockPool (-1) (-60))) .anomalous ∧
      Signals (detectBlockRatioSpike ((blockPool (-1) (-60)).exactBreakdown { action := .exact }
        { blocked := some 100, actionEvents := some 100 })) .healthy := by
  simp only [signals_iff]
  with_unfolding_all decide

/-! ## The keys of ports -/

section PortKeys

theorem digits_of_pos {port} (hpos : 0 < port) :
    ∃ n : Nat, (n : Int) = port ∧ (toString port).toList = Nat.toDigits 10 n := by
  refine ⟨port.toNat, by omega, ?_⟩
  have hrepr : toString port = port.repr := rfl
  rw [hrepr, Int.repr_eq_if, if_pos (by omega), Nat.toList_repr]

theorem protocolName_ne_absent (id : Option Int) : protocolName id ≠ "255" := by
  cases id with
  | none => exact (by decide)
  | some id =>
    unfold protocolName
    dsimp only
    split
    · decide
    · rename_i hrange
      cases hname : protocolNames.get? id with
      | none =>
        intro h
        have : id = 255 := intRepr_injective (show id.repr = (255 : Int).repr from h)
        omega
      | some name =>
        rw [Option.getD_some]
        have hmem := Dict.mem_of_get? hname
        simp only [protocolNames, List.mem_cons, Prod.mk.injEq, List.not_mem_nil, or_false] at hmem
        rcases hmem with ⟨_, rfl⟩ | ⟨_, rfl⟩ | ⟨_, rfl⟩ | ⟨_, rfl⟩ | ⟨_, rfl⟩ <;> decide

theorem isUnusablePortKey_written (t : PyDigits) {port : Int} (hpos : 0 < port) (hport : port ≤ 65535)
    {protocol} (hprotocol : protocol ≠ "255") : isUnusablePortKey t s!"{port}/{protocol}" = .ok false := by
  obtain ⟨n, hn, hdigits⟩ := digits_of_pos hpos
  have hdigit : ∀ c ∈ Nat.toDigits 10 n, c.isDigit = true := fun c hc =>
    Nat.isDigit_of_mem_toDigits (by decide) (by decide) hc
  have hslash : ∀ c ∈ Nat.toDigits 10 n, decide (c ≠ '/') = true := by
    intro c hc
    refine decide_eq_true (fun hslash => ?_)
    have := hdigit c hc
    rw [hslash] at this
    revert this
    decide
  have hkey : (s!"{port}/{protocol}").toList = Nat.toDigits 10 n ++ '/' :: protocol.toList := by
    rw [← hdigits]
    simp [String.toList_append]
    rfl
  have htake : (Nat.toDigits 10 n ++ '/' :: protocol.toList).takeWhile (· ≠ '/') = Nat.toDigits 10 n := by
    rw [List.takeWhile_append_of_pos hslash, List.takeWhile_cons_of_neg (by decide), List.append_nil]
  have hrest : (Nat.toDigits 10 n ++ '/' :: protocol.toList).dropWhile (· ≠ '/') = '/' :: protocol.toList := by
    rw [List.dropWhile_append_of_pos hslash, List.dropWhile_cons_of_neg (by decide)]
  have hname : protocol.toList ≠ "255".toList := fun h => hprotocol (String.toList_injective h)
  have hisdigit : t.isdigitText (Nat.toDigits 10 n) = true := by
    simp only [DigitTables.isdigitText, Bool.and_eq_true, Bool.not_eq_true', List.isEmpty_eq_false_iff, List.all_eq_true]
    exact ⟨Nat.toDigits_ne_nil, fun c hc => t.isdigit_of_isDigit (hdigit c hc)⟩
  have hread : t.readInt (Nat.toDigits 10 n) = .ok n := by
    refine DigitTables.readInt_eq_ok.mpr ⟨Nat.toDigits_ne_nil, ?_, ?_, t.value_toDigits n⟩
    · exact List.all_eq_true.mpr (fun c hc => t.isDecimal_of_isDigit (hdigit c hc))
    · have hlength := (Nat.length_toDigits_le_iff (b := 10) (n := n) (k := 5) (by decide) (by decide)).mpr (by omega)
      exact hlength.trans (by decide)
  unfold isUnusablePortKey
  rw [hkey, htake, hrest]
  dsimp only
  rw [if_neg (not_not.mpr hisdigit), hread, List.drop_one, List.tail_cons]
  simp only [Except.map, hname, show n ≠ 0 by omega, decide_false, Bool.or_self]

/-- The fold writes no key that the detectors take for an absent port. -/
theorem entityKey_usable (t : PyDigits) {text} {row : IpsKeyedRow} {key name}
    (h : entityKey text .destinationPort row = .ok (some (key, name))) :
    row.destinationPort ≠ some 0 ∧ isUnusablePortKey t key = .ok false := by
  unfold entityKey at h
  dsimp only at h
  split at h
  · cases h
  · rename_i port hport
    split_ifs at h with hzero hrange
    · cases h
      exact ⟨fun h0 => hzero (Option.some.inj (hport.symm.trans h0)),
        isUnusablePortKey_written t hrange.1 hrange.2 (protocolName_ne_absent row.protocolId)⟩
    · cases h

def NeverJudged (key : String) : Prop :=
  ∀ (ctx : IpsDetectionContext) (entity : IpsNamedEntity), ctx.observation.entity = some entity →
    entity.dimension = .destinationPort → entity.valueKey = key →
    ¬ Signals (detectPortRateSpike ctx) .anomalous ∧ ¬ Signals (detectPortRateSpike ctx) .healthy ∧
      ∀ thr novelty verdict, detectNewDestinationPort ctx thr novelty = .ok verdict →
        ∃ reason, verdict = .insufficient reason

/-- For every row whose port forms an entity: the key is recognised as absent exactly when the port is 0 or the protocol
255, and a port of protocol 255 is never judged, if and only if the protocol is not 255. -/
theorem absent_port_recognised_iff (t : PyDigits) {text : IpsText} {row : IpsKeyedRow} {key : String}
    {name : Option String} (h : entityKey text .destinationPort row = .ok (some (key, name))) :
    ((isUnusablePortKey t key = .ok true ↔ row.destinationPort = some 0 ∨ row.protocolId = some 255) ∧
      (row.protocolId = some 255 → NeverJudged key)) ↔ row.protocolId ≠ some 255 := by
  obtain ⟨hport, husable⟩ := entityKey_usable t h
  constructor
  · rintro ⟨hrecognised, _⟩ habsent
    have := hrecognised.mpr (Or.inr habsent)
    rw [husable] at this
    cases this
  · intro hprotocol
    refine ⟨⟨fun hunusable => ?_, fun habsent => ?_⟩, fun habsent => absurd habsent hprotocol⟩
    · rw [husable] at hunusable
      cases hunusable
    · rcases habsent with hzero | habsent
      · exact absurd hzero hport
      · exact absurd habsent hprotocol

def portRow (port protocol : Int) : IpsKeyedRow where
  qradarLogSourceId := 7
  bucketStart := 0
  events := 10
  records := 1
  destinationPort := some port
  protocolId := some protocol

theorem absent_port_recognised_tcp :
    ((isUnusablePortKey .ascii "443/tcp" = .ok true ↔ some (443 : Int) = some 0 ∨ some (6 : Int) = some 255) ∧
      (some (6 : Int) = some 255 → NeverJudged "443/tcp")) :=
  (@absent_port_recognised_iff .ascii ⟨asciiTables, id, some⟩ (portRow 443 6) "443/tcp" none (by decide)).mpr (by decide)

/-- A row of protocol 255 is filed as `80/unknown`, which the detectors judge. -/
theorem absent_protocol_judged :
    entityKey ⟨asciiTables, id, some⟩ .destinationPort (portRow 80 255) = .ok (some ("80/unknown", none)) ∧
      ¬ (isUnusablePortKey .ascii "80/unknown" = .ok true ↔ some (80 : Int) = some 0 ∨ some (255 : Int) = some 255) ∧
      Signals (detectPortRateSpike (busyPort .exact "80/unknown")) .anomalous ∧ ¬ NeverJudged "80/unknown" := by
  have hjudged : Signals (detectPortRateSpike (busyPort .exact "80/unknown")) .anomalous :=
    signals_iff.mpr (by with_unfolding_all decide)
  refine ⟨by decide, by decide, hjudged, fun hnever => ?_⟩
  exact (hnever (busyPort .exact "80/unknown") _ rfl rfl rfl).1 hjudged

end PortKeys

/-! ## What a claim of novelty rests on -/

section Novelty
open History

variable {φ : Type} [PyFloat φ] {policy : AdmissionPolicy}

/-- A sentence about a new endpoint is true of every bucket of its window, whenever the history before the first
appearance was verified on the rows of the run. -/
def EndpointSentenceTrue (policy : AdmissionPolicy) (tr : WafTrace φ) (endpoint : HistoryEndpoint) : Prop :=
  ∀ (t : DigitTables) (rows : List (WafBucketRow φ)) (bucketSeconds profileVersion normalizerVersion : Int)
    (ctx : WafDetectionContext) (thr : NoveltyThresholds) (novelty : NoveltyFacts) (sentence : NoveltySentence),
    (∀ row ∈ rows, ∃ q ∈ foldedOf tr, q.2.row = row) → novelty.historyEnd = endpoint.firstSeenAt →
    verifyEndpointHistory t (rows.map (fun row => row.facts)) novelty.historyStart novelty.historyEnd bucketSeconds
      profileVersion normalizerVersion = .ok novelty.history → novelty.history.complete = true →
    thr.admissionMin = policy.minRequests →
    (detectNewEndpointAccess ctx thr (some novelty)).sentence = some sentence →
    ∀ start ∈ sentence.window bucketSeconds, ∃ q ∈ foldedOf tr, q.2.row.bucketStart = start ∧
      (namedRequests q.1 q.2.batch.groups endpoint.key).getD 0 < sentence.admissionMin

def PortSentenceTrue (policy : AdmissionPolicy) (tr : IpsTrace φ) (entity : HistoryIpsEntity) : Prop :=
  ∀ (rows : List (IpsBucketRow φ)) (bucketSeconds profileVersion normalizerVersion : Int) (minCoverage : φ)
    (ctx : IpsDetectionContext) (thr : NoveltyThresholds) (novelty : NoveltyFacts) (verdict : NoveltyVerdict)
    (sentence : NoveltySentence),
    (∀ row ∈ rows, ∃ q ∈ ipsFoldedOf tr, q.2.row = row) → novelty.historyEnd = entity.firstSeenAt →
    verifyPortHistory (rows.map PortHistoryBucket.of) novelty.historyStart novelty.historyEnd bucketSeconds
      profileVersion normalizerVersion minCoverage = .ok novelty.history →
    thr.admissionMin = policy.minRequests →
    detectNewDestinationPort ctx thr (some novelty) = .ok verdict → verdict.sentence = some sentence →
    ∀ start ∈ sentence.window bucketSeconds, ∃ q ∈ ipsFoldedOf tr, q.2.row.bucketStart = start ∧
      (portEvents q.1.text q.2.bucket entity.valueKey : Int) < sentence.admissionMin

theorem endpointSentenceTrue_of_first {tr : WafTrace φ} {endpoint}
    (hbelow : ∀ q ∈ foldedOf tr, q.2.batch.windowStart < endpoint.firstSeenAt →
      BelowAdmission policy.minRequests q endpoint.key)
    (hrows : ∀ q ∈ foldedOf tr, q.2.row.bucketStart = q.2.batch.windowStart) :
    EndpointSentenceTrue policy tr endpoint := by
  intro t rows bucketSeconds profileVersion normalizerVersion ctx thr novelty sentence hrun hend hverified hcomplete
    hmin hsentence start hstart
  have hcites := detectNewEndpointAccess_cites hsentence
  rw [NoveltySentence.window, hcites.historyStart, hcites.historyEnd] at hstart
  obtain ⟨hlt, b, hb, hbstart, hgroups, hadmission⟩ := verifyEndpointHistory_complete hverified hcomplete start hstart
  obtain ⟨row, hrow, rfl⟩ := List.mem_map.mp hb
  obtain ⟨q, hq, rfl⟩ := hrun row hrow
  have hqstart : q.2.batch.windowStart = start := (hrows q hq).symm.trans hbstart
  rw [hcites.admissionMin, hmin]
  exact ⟨q, hq, hbstart, hbelow q hq (by rw [hqstart, ← hend]; exact hlt) hgroups hadmission⟩

theorem portSentenceTrue_of_first {tr : IpsTrace φ} {entity}
    (hbelow : ∀ q ∈ ipsFoldedOf tr, q.2.bucket.bucketStart < entity.firstSeenAt →
      BelowPortAdmission policy.minRequests q entity.valueKey)
    (hrows : ∀ q ∈ ipsFoldedOf tr, q.2.row.bucketStart = q.2.bucket.bucketStart) :
    PortSentenceTrue policy tr entity := by
  intro rows bucketSeconds profileVersion normalizerVersion minCoverage ctx thr novelty verdict sentence hrun hend
    hverified hmin hverdict hsentence start hstart
  obtain ⟨hcites, hcomplete⟩ := detectNewDestinationPort_cites hverdict hsentence
  rw [NoveltySentence.window, hcites.historyStart, hcites.historyEnd] at hstart
  obtain ⟨hlt, b, hb, hbstart, hexact, hwhole⟩ := verifyPortHistory_complete hverified hcomplete start hstart
  obtain ⟨row, hrow, rfl⟩ := List.mem_map.mp hb
  obtain ⟨q, hq, rfl⟩ := hrun row hrow
  have hqstart : q.2.bucket.bucketStart = start := (hrows q hq).symm.trans hbstart
  rw [hcites.admissionMin, hmin]
  exact ⟨q, hq, hbstart, hbelow q hq (by rw [hqstart, ← hend]; exact hlt) hexact hwhole⟩

/-- Over every run from an empty ledger, a stored endpoint was created in a bucket of the run, and each bucket before it
whose record lost nothing has fewer requests for it than the admission threshold. So the sentence of a new endpoint is
true of its verified window, and so for ports. -/
theorem novelty_backed_by_history (hleast : 1 ≤ policy.minRequests) :
    (∀ (tr : WafTrace φ) (s : WafStored), Run (wafStep φ) wafNext ([], 0) tr s →
      (∀ e ∈ tr, e.input.1.policy = policy) → ∀ endpoint ∈ s.1,
        (∃ before p after, foldedOf tr = before ++ p :: after ∧ p.2.batch.windowStart = endpoint.firstSeenAt ∧
          ∀ q ∈ before, BelowAdmission policy.minRequests q endpoint.key) ∧
        (WafInOrder tr → EndpointSentenceTrue policy tr endpoint)) ∧
    (∀ (tr : IpsTrace φ) (s : List HistoryIpsEntity), Run (ipsStep φ) ipsNext [] tr s →
      (∀ e ∈ tr, e.input.1.policy = policy) → ∀ entity ∈ s, entity.dimension = .destinationPort →
        (∃ before p after, ipsFoldedOf tr = before ++ p :: after ∧ p.2.bucket.bucketStart = entity.firstSeenAt ∧
          ∀ q ∈ before, BelowPortAdmission policy.minRequests q entity.valueKey) ∧
        (InOrder tr → PortSentenceTrue policy tr entity)) := by
  constructor
  · intro tr s hrun hpolicy endpoint hmem
    obtain ⟨⟨ledger, hstored, hpast⟩, hbatches, hrows⟩ := wafRun_first hleast hrun hpolicy
    have hfirst := hpast.named.firstSeen (hstored ▸ hmem)
    refine ⟨hpast.first.present endpoint.key endpoint.firstSeenAt hfirst, fun horder => ?_⟩
    have hstarts := pairwise_foldedOf hbatches horder
    exact endpointSentenceTrue_of_first (fun q hq hlt => hpast.first.before_first hstarts hfirst hq hlt) hrows
  · intro tr s hrun hpolicy entity hmem hport
    obtain ⟨⟨ledger, rfl, hpast⟩, hbuckets, hrows⟩ := ipsRun_first hleast hrun hpolicy
    have hfirst := portFirstSeen_of_mem hpast.ok hmem hport
    refine ⟨hpast.first.present entity.valueKey entity.firstSeenAt hfirst, fun horder => ?_⟩
    have hstarts : (ipsFoldedOf tr).Pairwise
        (fun left right => left.2.bucket.bucketStart < right.2.bucket.bucketStart) := by
      rw [InOrder, ← hbuckets, List.pairwise_map] at horder
      exact horder
    exact portSentenceTrue_of_first (fun q hq hlt => hpast.first.before_first hstarts hfirst hq hlt) hrows

def newLogin : List (WafCall ℚ) :=
  let args := { fiveRequests with metricSemantics := "requests;normalizer/v1" }
  [(args, [loginBucket (seconds 0) 3]), (args, [loginBucket (seconds 300) 20])]

def newPort : List IpsCall :=
  [(fiveEvents, [portBucket (seconds 0) 3]), (fiveEvents, [portBucket (seconds 300) 20])]

def oneBucketOfHistory : NoveltyFacts where
  firstSeenAt := seconds 300
  windowEnd := seconds 3900
  withinWindow := true
  history := { complete := true }
  historyStart := seconds 0
  historyEnd := seconds 300
  historyBuckets := 1
  appearanceFlood := none
  countSinceFirstSeen := 40
  bucketsWithTraffic := 2
  lowerBound := false

def oneBucketSentence : NoveltySentence := ⟨false, 40, 2, seconds 300, seconds 0, seconds 300, 5⟩

theorem newLogin_run : ∃ tr s, Run (wafStep ℚ) wafNext ([], 0) tr s ∧ tr.map Taken.input = newLogin ∧
    (∃ endpoint ∈ s.1, endpoint.firstSeenAt = seconds 300) ∧
    verifyEndpointHistory asciiDigits ((((foldedOf tr).take 1).map (fun q => q.2.row)).map (fun row => row.facts))
      (seconds 0) (seconds 300) 300 1 1 = .ok { complete := true } := by
  obtain ⟨tr, s, hrun, hinputs, hf⟩ := exists_run_of_inputs (wafStep ℚ) wafNext ([], 0) newLogin
    (fun r => r.2.1.any (fun endpoint => decide (endpoint.firstSeenAt = seconds 300)) &&
      decide ((verifyEndpointHistory asciiDigits ((((foldedOf r.1).take 1).map (fun q => q.2.row)).map
        (fun row => row.facts)) (seconds 0) (seconds 300) 300 1 1).toOption = some { complete := true }))
    true (by decide)
  obtain ⟨hmem, hverified⟩ := Bool.and_eq_true_iff.mp hf
  obtain ⟨endpoint, hmem, hfirst⟩ := List.any_eq_true.mp hmem
  exact ⟨tr, s, hrun, hinputs, ⟨endpoint, hmem, of_decide_eq_true hfirst⟩,
    ok_of_toOption (of_decide_eq_true hverified)⟩

theorem newPort_run : ∃ tr s, Run (ipsStep ℚ) ipsNext [] tr s ∧ tr.map Taken.input = newPort ∧
    (∃ entity ∈ s, entity.firstSeenAt = seconds 300 ∧ entity.dimension = .destinationPort) ∧
    verifyPortHistory (((ipsFoldedOf tr).take 1).map (fun q => PortHistoryBucket.of q.2.row))
      (seconds 0) (seconds 300) 300 1 1 (9 / 10) = .ok { complete := true } := by
  obtain ⟨tr, s, hrun, hinputs, hf⟩ := exists_run_of_inputs (ipsStep ℚ) ipsNext [] newPort
    (fun r => r.2.any (fun entity => decide (entity.firstSeenAt = seconds 300) &&
        decide (entity.dimension = .destinationPort)) &&
      decide ((verifyPortHistory (((ipsFoldedOf r.1).take 1).map (fun q => PortHistoryBucket.of q.2.row))
        (seconds 0) (seconds 300) 300 1 1 (9 / 10)).toOption = some { complete := true }))
    true (by with_unfolding_all decide)
  obtain ⟨hmem, hverified⟩ := Bool.and_eq_true_iff.mp hf
  obtain ⟨entity, hmem, hentity⟩ := List.any_eq_true.mp hmem
  obtain ⟨hfirst, hport⟩ := Bool.and_eq_true_iff.mp hentity
  exact ⟨tr, s, hrun, hinputs, ⟨entity, hmem, of_decide_eq_true hfirst, of_decide_eq_true hport⟩,
    ok_of_toOption (of_decide_eq_true hverified)⟩

theorem novelty_backed_by_history_first :
    (∃ tr s, Run (wafStep ℚ) wafNext ([], 0) tr s ∧ ∃ endpoint ∈ s.1, endpoint.firstSeenAt = seconds 300 ∧
      ∃ ctx thr, (detectNewEndpointAccess ctx thr (some oneBucketOfHistory)).sentence = some oneBucketSentence ∧
        ∀ start ∈ oneBucketSentence.window 300, ∃ q ∈ foldedOf tr, q.2.row.bucketStart = start ∧
          (namedRequests q.1 q.2.batch.groups endpoint.key).getD 0 < oneBucketSentence.admissionMin) ∧
    (∃ tr s, Run (ipsStep ℚ) ipsNext [] tr s ∧ ∃ entity ∈ s, entity.firstSeenAt = seconds 300 ∧
      ∃ ctx thr verdict, detectNewDestinationPort ctx thr (some oneBucketOfHistory) = .ok verdict ∧
        verdict.sentence = some oneBucketSentence ∧
        ∀ start ∈ oneBucketSentence.window 300, ∃ q ∈ ipsFoldedOf tr, q.2.row.bucketStart = start ∧
          (portEvents q.1.text q.2.bucket entity.valueKey : Int) < oneBucketSentence.admissionMin) := by
  have hbacked := @novelty_backed_by_history ℚ _ ⟨10, 100, 5⟩ (by decide)
  constructor
  · obtain ⟨tr, s, hrun, hinputs, ⟨endpoint, hmem, hfirst⟩, hverified⟩ := newLogin_run
    have hpolicy : ∀ e ∈ tr, e.input.1.policy = ⟨10, 100, 5⟩ := by
      intro e he
      have hcall : e.input ∈ newLogin := hinputs ▸ List.mem_map_of_mem he
      simp only [newLogin, List.mem_cons, List.not_mem_nil, or_false] at hcall
      rcases hcall with hcall | hcall <;> rw [hcall] <;> rfl
    have horder : WafInOrder tr := by
      have hitems : tr.flatMap (fun e => e.input.2) = newLogin.flatMap (fun call => call.2) := by
        rw [← hinputs, List.flatMap_map]
      rw [wafInOrder_iff, hitems]
      decide
    have hsentence : (detectNewEndpointAccess { truncatedRate 1 with verdictScope := some .full }
        { admissionMin := 5 } (some oneBucketOfHistory)).sentence = some oneBucketSentence := rfl
    have hrows : ∀ row ∈ ((foldedOf tr).take 1).map (fun q => q.2.row), ∃ q ∈ foldedOf tr, q.2.row = row := by
      intro row hrow
      obtain ⟨q, hq, rfl⟩ := List.mem_map.mp hrow
      exact ⟨q, List.mem_of_mem_take hq, rfl⟩
    exact ⟨tr, s, hrun, endpoint, hmem, hfirst, _, { admissionMin := 5 }, hsentence,
      (hbacked.1 tr s hrun hpolicy endpoint hmem).2 horder asciiDigits _ 300 1 1 _ { admissionMin := 5 }
        oneBucketOfHistory oneBucketSentence hrows hfirst.symm hverified rfl rfl hsentence⟩
  · obtain ⟨tr, s, hrun, hinputs, ⟨entity, hmem, hfirst, hport⟩, hverified⟩ := newPort_run
    have hpolicy : ∀ e ∈ tr, e.input.1.policy = ⟨10, 100, 5⟩ := by
      intro e he
      have hcall : e.input ∈ newPort := hinputs ▸ List.mem_map_of_mem he
      simp only [newPort, List.mem_cons, List.not_mem_nil, or_false] at hcall
      rcases hcall with hcall | hcall <;> rw [hcall] <;> rfl
    have horder : InOrder tr := by
      have hitems : tr.flatMap (fun e => e.input.2) = newPort.flatMap (fun call => call.2) := by
        rw [← hinputs, List.flatMap_map]
      rw [InOrder, hitems]
      decide
    obtain ⟨verdict, hverdict, hsentence⟩ : ∃ verdict, detectNewDestinationPort (busyPort .exact "443/tcp")
        { admissionMin := 5 } (some oneBucketOfHistory) = .ok verdict ∧ verdict.sentence = some oneBucketSentence :=
      exists_ok_of_toOption (by with_unfolding_all decide)
    have hrows : ∀ row ∈ ((ipsFoldedOf tr).take 1).map (fun q => q.2.row), ∃ q ∈ ipsFoldedOf tr, q.2.row = row := by
      intro row hrow
      obtain ⟨q, hq, rfl⟩ := List.mem_map.mp hrow
      exact ⟨q, List.mem_of_mem_take hq, rfl⟩
    refine ⟨tr, s, hrun, entity, hmem, hfirst, busyPort .exact "443/tcp", { admissionMin := 5 }, verdict, hverdict, hsentence,
      (hbacked.2 tr s hrun hpolicy entity hmem hport).2 horder _ 300 1 1 (9 / 10) _ { admissionMin := 5 }
        oneBucketOfHistory verdict oneBucketSentence hrows hfirst.symm ?_ rfl hverdict hsentence⟩
    rw [List.map_map]
    exact hverified

end Novelty

end QRadarDashboard.Detectors
