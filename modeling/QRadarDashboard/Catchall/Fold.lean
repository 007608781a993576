import QRadarDashboard.Catchall.KeyedSearch
import QRadarDashboard.Waf.Admission

/-!
# The fold of one catch-all source (`app/catchall/fold.py`)

A tracked sender is always kept; an unseen one goes through the admission of the endpoints.
-/

namespace QRadarDashboard.Catchall
open Lib Waf

def identifierMax : Nat := 255

def sanitizeIdentifier (u : UnicodeTables) (raw : Option String) : Option String :=
  match raw with
  | none => none
  | some raw =>
    let value := u.strip raw.toList
    if value = [] ∨ identifierMax < value.length ∨ value.all u.isprintable = false then none
    else some (String.ofList value)

structure SenderLedger where
  active : Finset String := ∅

def senderCandidate (item : String × Nat) : AdmissionCandidate := ⟨none, item.1, "", item.2⟩

inductive CatchallMeasurement where
  | exact | lowerBound
deriving DecidableEq

structure CatchallBucketFact where
  measurement : CatchallMeasurement
  events : Nat
  records : Nat
  distinctSenders : Nat
  distinctSendersLowerBound : Bool
  topSenders : List (String × Nat)
  admitted : Nat
  belowAdmissionThreshold : Nat
  rejectedOverQuota : Nat
  untrackedSenders : Nat
  untrackedEvents : Nat
  admittedIdentifiers : List String
  trackedEvents : Dict String Nat

def identified (u : UnicodeTables) (rows : List CatchallSenderRow) : List (String × CatchallSenderRow) :=
  rows.filterMap (fun row => (sanitizeIdentifier u row.sender).map (fun identifier => (identifier, row)))

def invalidRows (u : UnicodeTables) (rows : List CatchallSenderRow) : List CatchallSenderRow :=
  rows.filter (fun row => (sanitizeIdentifier u row.sender).isNone)

/-- `merged[identifier] += row.events` over the rows. -/
def mergedSenders (u : UnicodeTables) (rows : List CatchallSenderRow) : Dict String Nat :=
  (identified u rows).foldl (Dict.file (fun item => item.1) (fun item events => events.getD 0 + item.2.events)) []

def topOrder (item : String × Nat) : ℤ ×ₗ String := toLex (-(item.2 : Int), item.1)

/-- `fold_source_bucket`: the fact, and the ledger with the senders admitted here. -/
def foldSourceBucket (u : UnicodeTables) (rows : List CatchallSenderRow) (ledger : SenderLedger)
    (measurement : CatchallMeasurement) (policy : AdmissionPolicy) (topN : Int) :
    Except Exc (CatchallBucketFact × SenderLedger) :=
  if topN < 1 then .error (.value "top_n must be positive")
  else
    let merged := mergedSenders u rows
    let invalid := invalidRows u rows
    let tracked := merged.filter (fun item => decide (item.1 ∈ ledger.active))
    let unseen := merged.filter (fun item => decide (item.1 ∉ ledger.active))
    let decision := decideAdmission senderCandidate unseen ledger.active.card policy
    let admitted := sortOn id (decision.admitted.map (fun item => item.1))
    let stored := decision.admitted.foldl (fun (tracked : Dict String Nat) item => tracked.set item.1 item.2) tracked
    .ok
      ({ measurement := measurement
         events := (rows.map (fun row => row.events)).sum
         records := (rows.map (fun row => row.records)).sum
         distinctSenders := merged.length + invalid.length
         distinctSendersLowerBound := measurement = .lowerBound
         topSenders := (sortOn topOrder stored).take topN.toNat
         admitted := admitted.length
         belowAdmissionThreshold := decision.belowThreshold.length
         rejectedOverQuota := decision.overQuota.length
         untrackedSenders := decision.untracked.length + invalid.length
         untrackedEvents :=
           (decision.untracked.map (fun item => item.2)).sum + (invalid.map (fun row => row.events)).sum
         admittedIdentifiers := admitted
         trackedEvents := stored },
        ⟨ledger.active ∪ admitted.toFinset⟩)

def foldSourceBuckets (u : UnicodeTables) (policy : AdmissionPolicy) (topN : Int) :
    SenderLedger → List (List CatchallSenderRow × CatchallMeasurement) →
      Except Exc (List CatchallBucketFact × SenderLedger)
  | ledger, [] => .ok ([], ledger)
  | ledger, bucket :: buckets => do
      let (fact, ledger) ← foldSourceBucket u bucket.1 ledger bucket.2 policy topN
      let (facts, ledger) ← foldSourceBuckets u policy topN ledger buckets
      return (fact :: facts, ledger)

end QRadarDashboard.Catchall
