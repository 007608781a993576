import QRadarDashboard.PropertyWatch.Admission

/-!
# Collecting a property watch (`app/collectors/pw_collector.py`)
-/

namespace QRadarDashboard.Collectors
open Lib PropertyWatch

def completed (group total : PwBucketOutcome) (pin : Option PwBucketOutcome) : Bool :=
  group.measured && total.state = .complete && pin.all (fun pin => pin.measured)

def popOutcome (outcomes : List PwBucketOutcome) : Except Exc (PwBucketOutcome × List PwBucketOutcome) :=
  match outcomes with
  | [] => .error .index
  | outcome :: rest => .ok (outcome, rest)

def popPinned (pinned : Option (List PwBucketOutcome)) :
    Except Exc (Option PwBucketOutcome × Option (List PwBucketOutcome)) :=
  match pinned with
  | none => .ok (none, none)
  | some outcomes => (popOutcome outcomes).map (fun popped => (some popped.1, some popped.2))

def collectedPrefix : List PwBucketOutcome → List PwBucketOutcome → Option (List PwBucketOutcome) →
    Except Exc Nat
  | [], _, _ => .ok 0
  | group :: grouped, totals, pinned => do
      let total ← popOutcome totals
      let pin ← popPinned pinned
      if completed group total.1 pin.1 then
        let count ← collectedPrefix grouped total.2 pin.2
        return count + 1
      else return 0

/-- What `_fold_and_stage` reads of the watch and the settings. -/
structure StageSettings where
  fold : FoldSettings
  policy : PwAdmissionPolicy
  pinned : List (List String)
  /-- The history reading: values are retired after every bucket. -/
  reading : Bool

/-- One staged bucket: the values it was folded with, the bucket and the values after it. -/
structure StagedBucket where
  before : TrackedValues
  admitted : AdmittedBucket
  after : TrackedValues

def activeKeys (values : TrackedValues) : List String :=
  (values.filter (fun item => item.2.active)).map (fun item => item.1)

def outcomeAt (outcomes : List PwBucketOutcome) (index : Nat) : Except Exc PwBucketOutcome :=
  match outcomes[index]? with
  | none => .error .index
  | some outcome => .ok outcome

def pinnedAt (pinnedOut : Option (List PwBucketOutcome)) (index : Nat) : Except Exc (Option PwBucketOutcome) :=
  match pinnedOut with
  | none => .ok none
  | some outcomes => (outcomeAt outcomes index).map some

/-- One pass of the loop of `_fold_and_stage`. -/
def stageBucket (u : UnicodeTables) (s : StageSettings) (grouped totals : List PwBucketOutcome)
    (pinnedOut : Option (List PwBucketOutcome)) (values : TrackedValues) (index : Nat) :
    Except Exc StagedBucket := do
  let group ← outcomeAt grouped index
  let total ← outcomeAt totals index
  let pin ← pinnedAt pinnedOut index
  let fact ← foldBucket u s.fold group.bucketStart group total pin s.pinned (activeKeys values)
  let admitted ← admitBucket fact values s.policy s.fold.propertyCount
  return ⟨values, admitted.1,
    if s.reading then (retireStale admitted.2 group.bucketStart s.policy).1 else admitted.2⟩

def stageBuckets (u : UnicodeTables) (s : StageSettings) (grouped totals : List PwBucketOutcome)
    (pinnedOut : Option (List PwBucketOutcome)) :
    TrackedValues → Nat → Nat → Except Exc (List StagedBucket)
  | _, _, 0 => .ok []
  | values, first, count + 1 => do
      let staged ← stageBucket u s grouped totals pinnedOut values first
      let rest ← stageBuckets u s grouped totals pinnedOut staged.after (first + 1) count
      return staged :: rest

def foldAndStage (u : UnicodeTables) (s : StageSettings) (grouped totals : List PwBucketOutcome)
    (pinnedOut : Option (List PwBucketOutcome)) (count : Nat) (values : TrackedValues) :
    Except Exc (List StagedBucket) :=
  if count = 0 then .ok []
  else do
    let limit ← componentLimit s.fold.propertyCount s.fold.valueMaxLength
    let pins ← pinnedValueKeys u s.fold.propertyCount limit s.pinned
    let first ← outcomeAt grouped 0
    stageBuckets u s grouped totals pinnedOut (syncPins values pins first.bucketStart) 0 count

def combinePinned (pinnedChunks : Option (List (List PwBucketOutcome))) :
    Except Exc (Option (List PwBucketOutcome)) :=
  match pinnedChunks with
  | none => .ok none
  | some chunks => (combineChunks chunks).map some

/-- The chunks of the scope combined, and the completed buckets staged. `pinnedChunks` is there when a value is pinned.
-/
def collectWatch (u : UnicodeTables) (s : StageSettings) (groupedChunks totalsChunks : List (List PwBucketOutcome))
    (pinnedChunks : Option (List (List PwBucketOutcome))) (values : TrackedValues) :
    Except Exc (List StagedBucket) := do
  let grouped ← combineChunks groupedChunks
  let totals ← combineChunks totalsChunks
  let pinnedOut ← combinePinned pinnedChunks
  let count ← collectedPrefix grouped totals pinnedOut
  foldAndStage u s grouped totals pinnedOut count values

end QRadarDashboard.Collectors
