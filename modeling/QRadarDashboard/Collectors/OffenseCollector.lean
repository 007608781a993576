import QRadarDashboard.Collectors.CollectorLock
import QRadarDashboard.Lib.Sort

/-!
# Offense collection (`app/collectors/offense_collector.py`)

`κ` are the fields that are hashed.
-/

namespace QRadarDashboard.Collectors
open Lib

/-- `_paginate` of `app/providers/qradar_rest.py`, from a page on. An entry that is no row is none, and so is a null
body. -/
def paginate {ε α : Type} (size : Nat) (request : Nat → Except ε (Option (List (Option α)))) :
    (pages page : Nat) → Except ε (List α)
  | 0, _ => .ok []
  | pages + 1, page =>
    match request page with
    | .error e => .error e
    | .ok none => .ok []
    | .ok (some body) =>
      if body.length < size then .ok body.reduceOption
      else (paginate size request pages (page + 1)).map (fun rest => body.reduceOption ++ rest)

variable {κ : Type}

/-- An offense as QRadar has it, with its `last_persisted_time` in milliseconds. -/
structure ConsoleOffense (κ : Type) where
  qradarId : Int
  content : κ
  startTime : Option Int := none
  closeTime : Option Int := none
  persistedTime : Int

structure OffenseDTO (κ : Type) where
  qradarId : Int
  content : κ
  startTime : Option Int
  closeTime : Option Int
  lastUpdatedTime : Option Int

def parseQradarTime (value : Int) : Option Int := if value ≤ 0 then none else some (value * 1000)

def toOffense (o : ConsoleOffense κ) : OffenseDTO κ where
  qradarId := o.qradarId
  content := o.content
  startTime := o.startTime.bind parseQradarTime
  closeTime := o.closeTime.bind parseQradarTime
  lastUpdatedTime := parseQradarTime o.persistedTime

/-- A row of `offense_snapshot`; its other columns are those of the offense. -/
structure OffenseSnapshot (κ : Type) where
  offense : OffenseDTO κ
  capturedAt : Int
  ageSeconds : Option Int
  contentHash : String

structure OffenseEnv (κ : Type) where
  offenseContentHash : κ → String
  /-- `_store` raises neither `ValueError` nor `TypeError`. -/
  storable : OffenseDTO κ → Bool
  /-- `int(updated_since.timestamp() * 1000)`, through a double. -/
  epochMs : Int → Int
  pageSize : Nat := 500
  offenseMaxPages : Nat := 20
  offenseMaxBackfillHours : Int := 168

variable (env : OffenseEnv κ)

/-- The newest `content_hash` of an offense. -/
def latestHash (snapshots : List (OffenseSnapshot κ)) (qradarId : Int) : Option String :=
  (sortOn OffenseSnapshot.capturedAt (snapshots.filter (fun s => s.offense.qradarId = qradarId))).getLast?.map
    (fun s => s.contentHash)

/-- `_store`: the upsert on offense and instant. -/
def storeOffense (capturedAt : Int) (snapshots : List (OffenseSnapshot κ)) (dto : OffenseDTO κ) : List (OffenseSnapshot κ) :=
  let contentHash := env.offenseContentHash dto.content
  if latestHash snapshots dto.qradarId = some contentHash then snapshots
  else
    let ageSeconds := dto.startTime.map (fun start => max 0 (((dto.closeTime.getD capturedAt) - start).tdiv 1000000))
    snapshots.filter (fun s => ¬ (s.offense.qradarId = dto.qradarId ∧ s.capturedAt = capturedAt)) ++
      [⟨dto, capturedAt, ageSeconds, contentHash⟩]

def backfillFloor (now : Int) : Int := now - seconds (env.offenseMaxBackfillHours * 3600)

def resumePoint (watermark : CollectionWatermark) (now : Int) : Int :=
  match watermark.watermarkAt with
  | none => backfillFloor env now
  | some watermarkAt => max watermarkAt (backfillFloor env now)

def highWater (since : Int) (offenses : List (OffenseDTO κ)) : Int :=
  offenses.foldl (fun high dto => max high (dto.lastUpdatedTime.getD high)) since

/-- What QRadar has, and what is collected of it. -/
structure OffenseStore (κ : Type) where
  console : List (ConsoleOffense κ)
  watermark : CollectionWatermark := {}
  snapshots : List (OffenseSnapshot κ) := []

structure OffenseTick (κ : Type) where
  now : Int
  acquired : Bool := true
  request : Nat → Except String (Option (List (Option (ConsoleOffense κ))))

inductive OffenseMove (κ : Type) where
  | persist (o : ConsoleOffense κ)
  | collect (tick : OffenseTick κ)

namespace OffenseStore

def write (s : OffenseStore κ) (now : Int) (offenses : List (OffenseDTO κ)) : OffenseStore κ :=
  let stored := offenses.filter env.storable
  let watermark := { s.watermark with lastRunAt := some now, intervalsCollected := s.watermark.intervalsCollected + 1 }
  let high := highWater (resumePoint env s.watermark now) stored
  { s with
    snapshots := stored.foldl (storeOffense env now) s.snapshots
    watermark :=
      if stored.length < offenses.length then watermark
      else { watermark with
        watermarkAt := some high, lagSeconds := some (max 0 ((now - high).tdiv 1000000))
        consecutiveFailures := 0, lastError := none } }

def step (s : OffenseStore κ) : OffenseMove κ → Except Empty (OffenseStore κ)
  | .persist o => .ok { s with console := s.console.filter (fun o' => o'.qradarId ≠ o.qradarId) ++ [o] }
  | .collect tick =>
    if !tick.acquired then .ok s
    else match paginate env.pageSize tick.request env.offenseMaxPages 0 with
    | .error e => .ok { s with watermark := { s.watermark with
        consecutiveFailures := s.watermark.consecutiveFailures + 1
        lastRunAt := some tick.now
        lastError := some (String.ofList (e.toList.take 512)) } }
    | .ok rows => .ok (s.write env tick.now (rows.map toOffense))

end OffenseStore

end QRadarDashboard.Collectors
