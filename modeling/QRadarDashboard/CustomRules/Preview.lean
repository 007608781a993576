import QRadarDashboard.CustomRules.Fold

/-!
# The preview of a rule (`app/custom_rules/preview.py`)

A preview folds the stored readings of a window in one tick from a clean counter.
-/

namespace QRadarDashboard.CustomRules
open Lib

inductive MeasurementLabel where
  | exact | lowerBound | notMeasured
deriving DecidableEq

structure PreviewBucket (φ : Type) where
  bucketStart : Int
  value : Option φ
  measurement : MeasurementLabel
  completeness : Option String
  inMaintenance : Bool

/-- From the opening bucket through the resolving one; no `stop` while open. -/
structure BreachInterval where
  start : Int
  stop : Option Int
deriving DecidableEq

structure PreviewResult (φ : Type) where
  thresholdValue : φ
  unit : String
  operator : String
  firedCount : Nat
  measuredCount : Nat
  unmeasuredCount : Nat
  buckets : List (PreviewBucket φ)
  breachIntervals : List BreachInterval

structure PreviewRule (φ : Type) where
  metric : CustomRuleMetric
  operator : String
  thresholdValue : φ
  sustainBuckets : Nat
  recoveryBuckets : Nat
  severity : Severity
  subjectKind : String
  name : String := "preview"

variable {φ : Type}

def measurementLabel (reading : InterpretedReading φ) : MeasurementLabel :=
  match reading.value, reading.measurement with
  | some _, some measurement =>
    if measurement = "EXACT" then .exact else if measurement = "LOWER_BOUND" then .lowerBound else .notMeasured
  | _, _ => .notMeasured

def previewBucket (reading : InterpretedReading φ) (completeness : Option String) : PreviewBucket φ where
  bucketStart := reading.bucketStart
  value := reading.value
  measurement := measurementLabel reading
  completeness := completeness
  inMaintenance := reading.inMaintenance

/-- What the chart takes from an event. -/
structure EventMark where
  action : AlertAction
  first : Int
  last : Int

def CustomRuleAlertEvent.mark (e : CustomRuleAlertEvent φ) : EventMark := ⟨e.action, e.firstBucketStart, e.lastBucketStart⟩

structure Drawing where
  openAt : Option Int := none
  found : List BreachInterval := []

def Drawing.add (d : Drawing) (e : EventMark) : Drawing :=
  match e.action, d.openAt with
  | .opens, _ => { d with openAt := some e.first }
  | .resolve, some start => ⟨none, d.found ++ [⟨start, some e.last⟩]⟩
  | _, _ => d

def Drawing.intervals (d : Drawing) : List BreachInterval :=
  d.found ++ d.openAt.toList.map (fun start => ⟨start, none⟩)

def intervals (events : List (CustomRuleAlertEvent φ)) : List BreachInterval :=
  (events.foldl (fun d e => d.add e.mark) ({} : Drawing)).intervals

def PreviewRule.foldInput (rule : PreviewRule φ) (readings : List (InterpretedReading φ)) (now : Int) : FoldInput φ where
  ruleId := "00000000-0000-0000-0000-000000000000"
  ruleName := rule.name
  severity := rule.severity
  metric := rule.metric
  operator := rule.operator
  thresholdValue := rule.thresholdValue
  sustainBuckets := rule.sustainBuckets
  recoveryBuckets := rule.recoveryBuckets
  consecutiveBreaching := 0
  consecutiveUnder := 0
  lastEvaluatedBucketStart := none
  previousStatus := none
  previousReason := none
  subjectKind := rule.subjectKind
  subjectLabel := ""
  platformEnabled := true
  enabled := true
  retired := false
  retiredReason := none
  familyCollected := true
  familyReason := none
  breach := none
  readings := readings
  now := now

def firedCount (events : List (CustomRuleAlertEvent φ)) : Nat := events.countP (fun e => e.action = .opens)

def previewFromReadings [PyFloat φ] (rt : Runtime) (rule : PreviewRule φ) (readings : List (InterpretedReading φ))
    (completeness : List (Option String)) (now : Int) : Except String (PreviewResult φ) :=
  if completeness.length ≠ readings.length then .error "completeness must align with readings"
  else
    let output := foldRule rt (rule.foldInput readings now)
    let buckets := List.zipWith previewBucket readings completeness
    let measured := buckets.countP (fun bucket => bucket.measurement ≠ .notMeasured)
    .ok {
      thresholdValue := rule.thresholdValue
      unit := (catalogEntry rule.metric).unit
      operator := rule.operator
      firedCount := firedCount output.events
      measuredCount := measured
      unmeasuredCount := buckets.length - measured
      buckets := buckets
      breachIntervals := intervals output.events }

end QRadarDashboard.CustomRules
