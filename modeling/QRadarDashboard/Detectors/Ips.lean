import QRadarDashboard.Detectors.Waf
import QRadarDashboard.Ips.Inputs

/-!
# IPS detectors (`app/ips/detector.py`, `app/ips/behavior.py`)

The entity spikes, the port fan-out and the block ratio.
-/

namespace QRadarDashboard.Detectors
open Lib Waf Ips Anomaly History

inductive IpsAnomalyType where
  | portRateSpike | destinationRateSpike | signatureBurst | portFanoutSpike | blockRatioShift

def IpsAnomalyType.value : IpsAnomalyType → String
  | .portRateSpike => "IPS_PORT_RATE_SPIKE"
  | .destinationRateSpike => "IPS_DESTINATION_RATE_SPIKE"
  | .signatureBurst => "IPS_SIGNATURE_BURST"
  | .portFanoutSpike => "IPS_PORT_FANOUT_SPIKE"
  | .blockRatioShift => "IPS_BLOCK_RATIO_SHIFT"

structure IpsThresholds where
  deviationZ : ℚ := 35 / 10
  madFloorRatio : ℚ := 1 / 10
  minCoverage : ℚ := 9 / 10
  baselineMinSamples : Int := 8
  spikeRatio : ℚ := 2
  minAbsoluteDeltaEvents : ℚ := 50
  minBucketEvents : ℚ := 20
  fanoutMinPorts : ℚ := 20
  fanoutRatio : ℚ := 2
  fanoutMinDeltaPorts : ℚ := 15
  ratioMinDenominator : Int := 50
  ratioMinNumerator : Int := 10
  ratioMinIncrease : ℚ := 1 / 10
  ratioMinMultiple : ℚ := 2

structure IpsBaselineCell extends WafBaselineCell where
  profileVersion : Option Int
  normalizerVersion : Option Int

structure IpsJudgedBucket extends IpsSourceBucketFacts ℚ where
  bucketSeconds : Int
  maxDistinctPorts : Option Int
  blockedEvents : Option Int
  allowedEvents : Option Int
  unmappedEvents : Option Int
  profileVersion : Int
  normalizerVersion : Int
  inMaintenance : Bool

variable (b : IpsJudgedBucket)

def IpsJudgedBucket.dimension (d : IpsDimension) : Option (IpsDimensionFacts ℚ) :=
  b.dimensions.get? d

def IpsJudgedBucket.actionEvents : Option Int :=
  match b.blockedEvents, b.allowedEvents, b.unmappedEvents with
  | some blocked, some allowed, some unmapped => some (blocked + allowed + unmapped)
  | _, _, _ => none

structure IpsNamedEntity extends IpsEntityFacts where
  displayName : Option String

structure IpsObservation where
  bucket : IpsJudgedBucket
  entity : Option IpsNamedEntity := none
  count : Option EntityCount := none

/-- `digits` are those that `str.isdigit` and `int` know. -/
structure IpsDetectionContext where
  digits : PyDigits
  observation : IpsObservation
  baseline : Option IpsBaselineCell := none
  thresholds : IpsThresholds := {}

/-! ## Inputs -/

inductive IpsInput where
  | entityEvents | dimensionEvents | destinationPortEvents | maxDistinctPorts | blockedEvents | actionEvents

def numeratorMeasurement (base : Option WafMeasurement) (uncertain : Int) : Option WafMeasurement :=
  if base = some .exact ∧ uncertain ≠ 0 then some .lowerBound else base

def IpsJudgedBucket.measured (d : IpsDimension) : Option WafMeasurement :=
  (b.dimension d).bind (fun facts => facts.wafMeasurement)

def inputMeasurement (obs : IpsObservation) : IpsInput → Option WafMeasurement
  | .entityEvents => obs.count.bind (fun count => if count.events = none then none else count.measurement)
  | .dimensionEvents => obs.entity.bind (fun entity => obs.bucket.measured entity.dimension)
  | .destinationPortEvents => obs.bucket.measured .destinationPort
  | .maxDistinctPorts => if obs.bucket.maxDistinctPorts = none then none else obs.bucket.measured .portFanout
  | .blockedEvents =>
    match obs.bucket.blockedEvents, obs.bucket.unmappedEvents with
    | some _, some unmapped => numeratorMeasurement (obs.bucket.measured .action) unmapped
    | _, _ => none
  | .actionEvents => if obs.bucket.actionEvents = none then none else obs.bucket.measured .action

/-- The declared inputs of `IPS_DETECTORS`. -/
def IpsAnomalyType.inputs : IpsAnomalyType → List (InputRequirement IpsInput)
  | .portRateSpike | .destinationRateSpike | .signatureBurst =>
    [⟨.entityEvents, "volume", .lowerBoundProvesIncrease⟩,
      ⟨.dimensionEvents, "coverage", .lowerBoundProvesIncrease⟩]
  | .portFanoutSpike =>
    [⟨.maxDistinctPorts, "largest fan-out", .lowerBoundProvesIncrease⟩,
      ⟨.destinationPortEvents, "destination-port coverage", .lowerBoundProvesIncrease⟩]
  | .blockRatioShift =>
    [⟨.blockedEvents, "numerator", .lowerBoundProvesIncrease⟩, ⟨.actionEvents, "denominator", .exact⟩]

def ipsInputScope (dt : IpsAnomalyType) (obs : IpsObservation) : ScopeDecision :=
  inputScope dt.inputs (inputMeasurement obs)

/-! ## Preconditions -/

namespace IpsDetectionContext

variable (ctx : IpsDetectionContext)

def judging (dt : IpsAnomalyType) : Judging IpsAnomalyType :=
  let bucket := ctx.observation.bucket
  let decision := ipsInputScope dt ctx.observation
  ⟨dt, bucket.bucketStart, bucket.bucketStart + seconds bucket.bucketSeconds, decision.scope = .increaseOnly,
    decision.reason⟩

def maintenance : Except Exit Unit :=
  require (ctx.observation.bucket.inMaintenance = false)
    (.insufficient (.text "the source was in maintenance during this bucket") 0)

def dimension (d : IpsDimension) (label : String) (coverage : Bool := true) : Except Exit Unit := do
  let floor := ctx.thresholds.minCoverage
  let facts := ctx.observation.bucket.dimension d
  let state := (facts.map (fun f => f.state)).getD "not collected"
  require (facts.any (fun f => f.measured) = true) (.insufficient (.text
    s!"the {label} search was {state} for this bucket: the value is unavailable, not zero") 0)
  require (coverage = false ∨ facts.any (fun f => f.coverageMet floor) = true)
    (.insufficient (.coverage label (facts.bind (fun f => f.coverageRatio)) floor) 0)

def scope (dt : IpsAnomalyType) : Except Exit Unit :=
  let decision := ipsInputScope dt ctx.observation
  require (decision.scope ≠ .none)
    (.insufficient (.text (orReason decision.reason "the inputs do not support a verdict")) 0)

def cell (metric : String) (pooled : Bool := false) : Except Exit IpsBaselineCell :=
  let bucket := ctx.observation.bucket
  match ctx.baseline with
  | none => .error (.insufficient (.text s!"no {metric} baseline for this weekday/hour cell yet") 0)
  | some cell => do
      require ((cell.profileVersion, cell.normalizerVersion) =
          (some bucket.profileVersion, some bucket.normalizerVersion))
        (.insufficient (.text s!"the {metric} baseline was built under another profile or normalizer version") 0)
      require (cell.isReliable = true ∧ ctx.thresholds.baselineMinSamples ≤ cell.sampleCount)
        (.insufficient (.unreliable metric cell.sampleCount) cell.sampleCount)
      require (pooled = false ∨ cell.denominatorSum.getD 0 ≠ 0)
        (.insufficient (.text s!"the {metric} baseline has no pooled denominator") 0)
      return cell

end IpsDetectionContext

/-! ## Spikes -/

structure SpikeNumbers where
  minValue : ℚ
  ratioMin : ℚ
  minDelta : ℚ

variable (thr : IpsThresholds)

def ipsBand (cell : IpsBaselineCell) : ScoreBand :=
  ⟨cell.median, cell.mad, expectedUpper cell.median cell.p95 thr.madFloorRatio⟩

/-- The guards of `_spike`. -/
def ipsSpikeGuards (numbers : SpikeNumbers) (cell : IpsBaselineCell) (observed : ℚ) :
    Except Exit Spike :=
  (spike ⟨numbers.minValue, numbers.ratioMin, numbers.minDelta, thr.deviationZ, thr.madFloorRatio⟩
    (ipsBand thr cell) observed).mapError (notProvenRounded observed cell.median)

def scoreMagnitude (deviationZ : ℚ) (s : Surprise) : ℚ := if s.status = .ok then s.z else deviationZ

/-- `ratio / ratio_min >= 2.0`, or a score half above its threshold. -/
def spikeSeverity (ratioMin deviationZ : ℚ) (multiple : Option ℚ) (magnitude : ℚ) : Except Exc Severity :=
  let byScore := if deviationZ * (15 / 10) ≤ magnitude then Severity.high else .medium
  match multiple with
  | none => .ok byScore
  | some r => if ratioMin = 0 then .error .zeroDivision else .ok (if 2 ≤ r / ratioMin then .high else byScore)

def ipsAnomalous (ctx : IpsDetectionContext) (dt : IpsAnomalyType) (cell : IpsBaselineCell)
    (observed expected : ℚ) (multiple : Option ℚ) (change : ℚ) (s : Surprise) (severity : Severity)
    (atLeast : Bool) : Except Exc (Evidence IpsAnomalyType) := do
  let thr := ctx.thresholds
  let j := ctx.judging dt
  let strength ← scoreStrength (scoreMagnitude thr.deviationZ s) thr.deviationZ
  return {
    anomalyType := dt
    signal := .anomalous
    severity := severity
    observedValue := some (roundTo 6 observed)
    expectedValue := some (roundTo 6 expected)
    baselineLow := cell.p05
    baselineHigh := cell.p95
    deviationScore := some (roundTo 3 s.z)
    threshold := some thr.deviationZ
    sampleCount := cell.sampleCount
    intervalStart := j.intervalStart
    intervalEnd := j.intervalEnd
    confidence := roundTo 3 (blendConfidence cell.sampleCount strength cell.completeness)
    reason := .deviates atLeast observed expected multiple change s.z }

/-- The anomalous exit of `_spike`. -/
def ipsSpikeEvidence (ctx : IpsDetectionContext) (dt : IpsAnomalyType) (numbers : SpikeNumbers)
    (cell : IpsBaselineCell) (observed : ℚ) (proven : Spike) (atLeast : Bool) :
    Except Exc (Evidence IpsAnomalyType) := do
  let severity ← spikeSeverity numbers.ratioMin ctx.thresholds.deviationZ proven.ratio
    (scoreMagnitude ctx.thresholds.deviationZ proven.surprise)
  ipsAnomalous ctx dt cell observed cell.median proven.ratio proven.delta proven.surprise severity atLeast

structure EntitySpike where
  detectorType : IpsAnomalyType
  dimension : IpsDimension
  label : String

def portSpike : EntitySpike := ⟨.portRateSpike, .destinationPort, "destination port"⟩

def destinationSpike : EntitySpike := ⟨.destinationRateSpike, .destinationIp, "destination IP"⟩

def signatureSpike : EntitySpike := ⟨.signatureBurst, .signature, "signature"⟩

/-- `int` raises for digits that are not decimal. -/
def isUnusablePortKey (t : PyDigits) (valueKey : String) : Except IntError Bool :=
  let port := valueKey.toList.takeWhile (· ≠ '/')
  let protocol := (valueKey.toList.dropWhile (· ≠ '/')).drop 1
  if ¬ t.isdigitText port then .ok true
  else (t.readInt port).map (fun n => n = 0 || protocol = "255".toList)

def IpsDetectionContext.usablePort (ctx : IpsDetectionContext) (entity : IpsNamedEntity) : Except Exit Unit := do
  let unusable ← (isUnusablePortKey ctx.digits entity.valueKey).mapError (fun e => .raised (.value e.text))
  require (unusable = false)
    (.insufficient (.text "port 0 and protocol 255 are absent values, not a service: no claim about them") 0)

def entitySpikeNumbers : SpikeNumbers :=
  ⟨thr.minBucketEvents, thr.spikeRatio, thr.minAbsoluteDeltaEvents⟩

def judgedEntity (ctx : IpsDetectionContext) (d : EntitySpike) : Except Exit (IpsNamedEntity × EntityCount) :=
  match ctx.observation.entity, ctx.observation.count with
  | some entity, some count => do
      require (entity.dimension = d.dimension) (.insufficient (.text
        s!"a {entity.dimension.value} entity is not judged by {d.detectorType.value}") 0)
      (if d.dimension = .destinationPort then ctx.usablePort entity else .ok ())
      require (¬ (d.dimension = .signature ∧
          genericNamePrefix.toList.isPrefixOf (entity.displayName.getD "").toList = true))
        (.insufficient (.text "the signature's name is generic: a claim about a specific signature is not safe") 0)
      return (entity, count)
  | _, _ => .error (.insufficient (.text s!"no {d.label} entity was supplied for this verdict") 0)

def knownEvents (count : EntityCount) : Except Exit Nat :=
  match count.events with
  | some events => .ok events
  | none =>
    .error (.insufficient (.text (orReason count.reason "the entity's count is unknown for this bucket")) 0)

def entitySpikeGuards (ctx : IpsDetectionContext) (d : EntitySpike) :
    Except Exit (IpsBaselineCell × Nat × Spike) := do
  ctx.maintenance
  let (_, count) ← judgedEntity ctx d
  ctx.dimension d.dimension d.label
  let events ← knownEvents count
  ctx.scope d.detectorType
  let cell ← ctx.cell "entity_events"
  let proven ← ipsSpikeGuards ctx.thresholds (entitySpikeNumbers ctx.thresholds) cell events
  return (cell, events, proven)

def detectEntitySpike (ctx : IpsDetectionContext) (d : EntitySpike) : Except Exc (Evidence IpsAnomalyType) :=
  (ctx.judging d.detectorType).verdict (entitySpikeGuards ctx d) (fun (cell, events, proven) =>
    ipsSpikeEvidence ctx d.detectorType (entitySpikeNumbers ctx.thresholds) cell events proven
      (ctx.judging d.detectorType).lowerBound)

def detectPortRateSpike (ctx : IpsDetectionContext) := detectEntitySpike ctx portSpike

def detectDestinationRateSpike (ctx : IpsDetectionContext) := detectEntitySpike ctx destinationSpike

def detectSignatureBurst (ctx : IpsDetectionContext) := detectEntitySpike ctx signatureSpike

/-! ## Port fan-out -/

def fanoutNumbers : SpikeNumbers :=
  ⟨thr.fanoutMinPorts, thr.fanoutRatio, thr.fanoutMinDeltaPorts⟩

def statedPorts : Except Exit Int :=
  match b.maxDistinctPorts with
  | some ports => .ok ports
  | none => .error (.insufficient (.text "the bucket does not state its largest distinct-port count") 0)

def fanoutGuards (ctx : IpsDetectionContext) : Except Exit (IpsBaselineCell × Int × Spike) := do
  ctx.maintenance
  ctx.dimension .portFanout "port fan-out" false
  ctx.dimension .destinationPort "destination-port"
  let ports ← statedPorts ctx.observation.bucket
  ctx.scope .portFanoutSpike
  let cell ← ctx.cell "max_distinct_ports"
  let proven ← ipsSpikeGuards ctx.thresholds (fanoutNumbers ctx.thresholds) cell ports
  return (cell, ports, proven)

def detectPortFanoutSpike (ctx : IpsDetectionContext) : Except Exc (Evidence IpsAnomalyType) :=
  (ctx.judging .portFanoutSpike).verdict (fanoutGuards ctx) (fun (cell, ports, proven) =>
    ipsSpikeEvidence ctx .portFanoutSpike (fanoutNumbers ctx.thresholds) cell ports proven
      (ctx.observation.bucket.measured .portFanout = some .lowerBound))

/-! ## The block ratio -/

def blockGuards : RatioGuards :=
  ⟨thr.ratioMinNumerator, thr.ratioMinDenominator, thr.ratioMinIncrease, thr.ratioMinMultiple, thr.deviationZ,
    thr.madFloorRatio⟩

def statedActions : Except Exit (Int × Int) :=
  match b.blockedEvents, b.actionEvents with
  | some blocked, some total => .ok (blocked, total)
  | _, _ => .error (.insufficient (.text "the bucket does not state its blocked and action event counts") 0)

def blockRatioGuards (ctx : IpsDetectionContext) : Except Exit (IpsBaselineCell × Rise) := do
  ctx.maintenance
  require ((ctx.observation.bucket.dimension .action).any
      (fun facts => decide (facts.measurement ≠ .notCollected)) = true)
    (.insufficient (.text "no action property mapped") 0)
  ctx.dimension .action "action"
  let (blocked, total) ← statedActions ctx.observation.bucket
  ctx.scope .blockRatioShift
  let cell ← ctx.cell "block_ratio" true
  let rise ← ratioRise (blockGuards ctx.thresholds) (ipsBand ctx.thresholds cell) cell.pooled blocked total
  return (cell, rise)

def detectBlockRatioShift (ctx : IpsDetectionContext) : Except Exc (Evidence IpsAnomalyType) :=
  (ctx.judging .blockRatioShift).verdict (blockRatioGuards ctx) (fun (cell, rise) =>
    ipsAnomalous ctx .blockRatioShift cell rise.observed cell.pooled rise.multiple rise.rise rise.surprise
      (riseSeverity ctx.thresholds.ratioMinIncrease ctx.thresholds.ratioMinMultiple rise)
      (ctx.judging .blockRatioShift).lowerBound)

end QRadarDashboard.Detectors
