import QRadarDashboard.CustomRules.Loaders
import QRadarDashboard.Fleet.Classification

/-!
# The EPS series of the fleet (`app/fleet/series.py`)

A step is measured if it has as many COMPLETE cells as its sources have buckets in it.
-/

namespace QRadarDashboard.Fleet
open Lib Waf CustomRules

variable {φ : Type}

inductive FleetWindow where
  | hour | day | week

inductive FleetSeriesGroup where
  | none | sourceClass

def FleetWindow.windowSeconds : FleetWindow → Int
  | .hour => 3600
  | .day => 86400
  | .week => 604800

def FleetWindow.stepSeconds : FleetWindow → Option Int
  | .hour => none
  | .day => some 300
  | .week => some 3600

def stepSecondsFor (window : FleetWindow) (bucketSeconds : Int) : Int :=
  match window.stepSeconds with
  | none => bucketSeconds
  | some step => if step % bucketSeconds ≠ 0 ∨ window.windowSeconds % step ≠ 0 then bucketSeconds else step

/-! ## Rows -/

/-- A row of `log_source` with its classification. -/
structure FleetSource where
  id : String
  enabled : Bool := true
  monitoringEnabled : Bool := true
  classification : Option SourceClass := none
deriving DecidableEq

def FleetSource.sourceClass (s : FleetSource) : SourceClass := s.classification.getD .UNCLASSIFIED

def FleetSource.inMonitoredGrid (s : FleetSource) : Bool :=
  (s.enabled && s.monitoringEnabled) && s.sourceClass ≠ .QRADAR_INTERNAL

structure FleetBaseline (φ : Type) where
  logSourceId : String
  metricName : String
  weekday : Int
  hour : Int
  median : φ
  isReliable : Bool

structure FleetTables (φ : Type) where
  sources : List FleetSource
  metrics : List (LogSourceMetric φ)
  baselines : List (FleetBaseline φ)
  sources_nodup : (sources.map FleetSource.id).Nodup
  metrics_nodup : (metrics.map (fun m => (m.logSourceId, m.bucketStart))).Nodup

def epsMetric : String := "average_eps"

/-! ## The window -/

structure StepGrid where
  windowStart : Int
  windowEnd : Int
  bucketSeconds : Int
  stepSeconds : Int
  steps : Nat

def stepGrid (window : FleetWindow) (now bucketSeconds : Int) : StepGrid :=
  let step := stepSecondsFor window bucketSeconds
  let windowEnd := now / seconds step * seconds step
  { windowStart := windowEnd - seconds window.windowSeconds
    windowEnd
    bucketSeconds
    stepSeconds := step
    steps := (window.windowSeconds / step).toNat }

namespace StepGrid

variable (g : StepGrid)

def stepStart (i : Nat) : Int := g.windowStart + i * seconds g.stepSeconds

def perStepBuckets : Int := g.stepSeconds / g.bucketSeconds

/-- `metric_grid_predicates`, but for the source. -/
def inGrid (m : LogSourceMetric φ) : Bool :=
  m.bucketSeconds = g.bucketSeconds && g.windowStart ≤ m.bucketStart && m.bucketStart < g.windowEnd

def stepIndex (m : LogSourceMetric φ) : Int := (m.bucketStart - g.windowStart) / seconds g.stepSeconds

def cellOfStep (i : Nat) : Option (Int × Int) :=
  if 3600 % g.stepSeconds ≠ 0 then none
  else some ((g.stepStart i / seconds 86400 + 3) % 7 + 1, g.stepStart i / seconds 3600 % 24)

end StepGrid

/-! ## Cells -/

section Cells

variable (t : FleetTables φ) (g : StepGrid)

def gridClassOf (m : LogSourceMetric φ) : Option SourceClass :=
  ((t.sources.find? (fun s => s.id = m.logSourceId)).filter FleetSource.inMonitoredGrid).map FleetSource.sourceClass

def cellRows (c : SourceClass) (i : Nat) : List (LogSourceMetric φ) :=
  t.metrics.filter (fun m => gridClassOf t m = some c && g.inGrid m && g.stepIndex m = i)

def completeRows (c : SourceClass) (i : Nat) : List (LogSourceMetric φ) :=
  (cellRows t g c i).filter (fun m => m.completeness = .complete)

def cellComplete (c : SourceClass) (i : Nat) : Nat := (completeRows t g c i).length

def cellEvents (c : SourceClass) (i : Nat) : Int := ((completeRows t g c i).map LogSourceMetric.eventCount).sum

def cellHistory (c : SourceClass) (i : Nat) : Nat := (completeRows t g c i).countP (fun m => !m.isLive)

end Cells

/-! ## The series -/

structure EpsSeriesPoint (φ : Type) where
  stepStart : Int
  events : Option Int
  eps : Option φ
  expectedEps : Option φ
  cellsComplete : Nat
  cellsFromHistory : Nat
  cellsExpected : Int
  sourcesExpected : Nat

structure EpsSeries (φ : Type) where
  key : String
  label : String
  sourcesExpected : Nat
  points : List (EpsSeriesPoint φ)

structure SeriesScope where
  key : String
  label : String
  classes : List SourceClass
  sources : List FleetSource

def FleetTables.scopeSources (t : FleetTables φ) : List FleetSource := t.sources.filter FleetSource.inMonitoredGrid

def FleetTables.classes (t : FleetTables φ) : List SourceClass :=
  sortOn SourceClass.value (t.scopeSources.map FleetSource.sourceClass).dedup

def fleetScope (t : FleetTables φ) : SeriesScope :=
  { key := "FLEET", label := "Fleet", classes := t.classes, sources := t.scopeSources }

def classScope (t : FleetTables φ) (c : SourceClass) : Option SeriesScope :=
  if c = .QRADAR_INTERNAL ∨ t.scopeSources.countP (fun s => s.sourceClass = c) = 0 then none
  else some {
    key := c.value
    label := c.value
    classes := [c]
    sources := t.scopeSources.filter (fun s => s.sourceClass = c) }

def seriesScopes (t : FleetTables φ) : FleetSeriesGroup → List SeriesScope
  | .none => [fleetScope t]
  | .sourceClass => SourceClass.members.filterMap (classScope t)

section Points

variable [PyFloat φ] (t : FleetTables φ) (g : StepGrid)

def medianOf (id : String) (cell : Int × Int) : Option φ :=
  ((t.baselines.filter (fun b => b.logSourceId = id && b.metricName = epsMetric && b.isReliable &&
    b.weekday = cell.1 && b.hour = cell.2)).getLast?).map FleetBaseline.median

def expectedFor (sources : List FleetSource) (i : Nat) : Option φ :=
  if sources.isEmpty then none
  else sources.foldlM (fun total s => do
    let cell ← g.cellOfStep i
    let median ← medianOf t s.id cell
    return PyFloat.add total median) (PyFloat.ofInt 0)

def seriesPoint (scope : SeriesScope) (i : Nat) : EpsSeriesPoint φ :=
  let cellsExpected := scope.sources.length * g.perStepBuckets
  let complete := (scope.classes.map (fun c => cellComplete t g c i)).sum
  let measured := 0 < cellsExpected ∧ (complete : Int) = cellsExpected
  let events := (scope.classes.map (fun c => cellEvents t g c i)).sum
  { stepStart := g.stepStart i
    events := if measured then some events else none
    eps := if measured then some (PyFloat.divInt events g.stepSeconds) else none
    expectedEps := expectedFor t g scope.sources i
    cellsComplete := complete
    cellsFromHistory := (scope.classes.map (fun c => cellHistory t g c i)).sum
    cellsExpected
    sourcesExpected := scope.sources.length }

def epsSeries (scope : SeriesScope) : EpsSeries φ :=
  { key := scope.key
    label := scope.label
    sourcesExpected := scope.sources.length
    points := (List.range g.steps).map (seriesPoint t g scope) }

structure FleetEpsSeries (φ : Type) where
  window : FleetWindow
  groupBy : FleetSeriesGroup
  windowStart : Int
  windowEnd : Int
  bucketSeconds : Int
  stepSeconds : Int
  series : List (EpsSeries φ)
  stepsTotal : Nat
  stepsMeasured : Nat

def buildFleetEpsSeries (window : FleetWindow) (groupBy : FleetSeriesGroup) (now bucketSeconds : Int) : FleetEpsSeries φ :=
  let g := stepGrid window now bucketSeconds
  let series := (seriesScopes t groupBy).map (epsSeries t g)
  { window
    groupBy
    windowStart := g.windowStart
    windowEnd := g.windowEnd
    bucketSeconds
    stepSeconds := g.stepSeconds
    series
    stepsTotal := g.steps * series.length
    stepsMeasured := (series.map (fun s => s.points.countP (fun p => p.events.isSome))).sum }

end Points

end QRadarDashboard.Fleet
