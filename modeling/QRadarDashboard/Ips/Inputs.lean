import QRadarDashboard.History.Ips

/-!
# The measured inputs of IPS detectors (`app/ips/inputs.py`)

The absence of a row is a measured zero only where collection would have written it had there been traffic.
-/

namespace QRadarDashboard.Ips
open Lib Waf History

variable {φ : Type} [PyFloat φ]

structure IpsDimensionFacts (φ : Type) where
  measurement : IpsBucketMeasurement
  coverageRatio : Option φ
  coverageLowerBound : Option Bool
  admissionTruncated : Option Bool

namespace IpsDimensionFacts

def wafMeasurement (d : IpsDimensionFacts φ) : Option WafMeasurement :=
  match d.measurement with
  | .exact => some .exact
  | .lowerBound => some .lowerBound
  | .notCollected => none
  | .failed => none
  | .rejected => none

def measured (d : IpsDimensionFacts φ) : Bool := d.wafMeasurement.isSome

def coverageMet (d : IpsDimensionFacts φ) (floor : φ) : Bool :=
  d.measured && d.coverageRatio.any (fun ratio => PyFloat.le floor ratio)

def state (d : IpsDimensionFacts φ) : String :=
  match d.measurement with
  | .notCollected => "not collected"
  | .failed => "failed"
  | .rejected => "rejected"
  | .exact => "exact"
  | .lowerBound => "lower_bound"

end IpsDimensionFacts

structure IpsSourceBucketFacts (φ : Type) where
  bucketStart : Int
  dimensions : Dict IpsDimension (IpsDimensionFacts φ)

def dimensionFacts (row : IpsBucketRow φ) (dimension : IpsDimension) : IpsDimensionFacts φ where
  measurement := (row.measurements.get? dimension).getD .notCollected
  coverageRatio := ((row.coverages.get? dimension).map (fun columns => columns.1)).join
  coverageLowerBound := ((row.coverages.get? dimension).map (fun columns => columns.2)).join
  admissionTruncated :=
    if isEntityDimension dimension then
      (row.admission.get? dimension).map (fun columns => columns.admissionTruncated)
    else none

def IpsSourceBucketFacts.of (row : IpsBucketRow φ) : IpsSourceBucketFacts φ where
  bucketStart := row.bucketStart
  dimensions := [IpsDimension.destinationPort, .destinationIp, .signature, .sourceIp, .portFanout, .action].map
    (fun dimension => (dimension, dimensionFacts row dimension))

/-- What `entity_count` reads of an admitted entity. -/
structure IpsEntityFacts where
  dimension : IpsDimension
  valueKey : String
  firstSeenAt : Int
  active : Bool

def IpsEntityFacts.of (e : HistoryIpsEntity) : IpsEntityFacts where
  dimension := e.dimension
  valueKey := e.valueKey
  firstSeenAt := e.firstSeenAt
  active := e.active

structure EntityCount where
  events : Option Nat
  measurement : Option WafMeasurement
  reason : Option String
deriving DecidableEq

def EntityCount.unknown (reason : String) : EntityCount := ⟨none, none, some reason⟩

def entityCount (entity : IpsEntityFacts) (bucket : IpsSourceBucketFacts φ) (metricEvents : Option Nat)
    (minCoverage : φ) : EntityCount :=
  match bucket.dimensions.get? entity.dimension with
  | none => .unknown s!"{entity.dimension.value} is not an entity dimension"
  | some dim =>
    if ¬ isEntityDimension entity.dimension then
      .unknown s!"{entity.dimension.value} is not an entity dimension"
    else if ¬ dim.measured then
      .unknown (s!"the {entity.dimension.value} search was {dim.state} for this bucket: " ++
        "the count is unavailable, not zero")
    else
      match metricEvents with
      | some events => ⟨some events, dim.wafMeasurement, none⟩
      | none =>
        if ¬ entity.active then .unknown "the entity is retired, so collection no longer writes it"
        else if bucket.bucketStart < entity.firstSeenAt then
          .unknown "the bucket predates the entity's first admission"
        else if dim.wafMeasurement ≠ some .exact then
          .unknown (s!"the {entity.dimension.value} search was a lower bound: the entity may be in " ++
            "its unseen tail")
        else if ¬ dim.coverageMet minCoverage then
          .unknown (s!"{entity.dimension.value} coverage is below the " ++ PyFloat.percent minCoverage ++
            " floor: events the search could not attribute may have been the entity's")
        else
          match dim.admissionTruncated with
          | none =>
            .unknown (s!"admission for {entity.dimension.value} was not recorded in this bucket, so " ++
              "the entity may have been dropped without a row")
          | some true =>
            .unknown (s!"admission for {entity.dimension.value} lost entities in this bucket, so " ++
              "the entity may have been dropped without a row")
          | some false => ⟨some 0, some .exact, none⟩

end QRadarDashboard.Ips
