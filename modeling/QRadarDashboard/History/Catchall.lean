import QRadarDashboard.Catchall.KeyedSearch
import QRadarDashboard.History.Planner
import Mathlib.Data.List.SplitBy

/-!
# The chunk results of the catch-all family (`app/history/catchall.py`)
-/

namespace QRadarDashboard.History.Catchall
open Lib Ips QRadarDashboard.Catchall

variable {φ : Type} [PyFloat φ]

def runs (outcomes : List CatchallBucketOutcome) : List (List CatchallBucketOutcome) :=
  outcomes.splitBy (fun a b => a.state = b.state)

def freeResult (span : Span Int) (status : SearchStatus) (rows nonSilentBuckets : Nat) : ChunkResult where
  span := span
  status := status
  rows := rows
  nonSilentBuckets := nonSilentBuckets
  searches := 0
  searches_nonneg := le_refl 0

def runResults (width : Int) (run : List CatchallBucketOutcome) : List ChunkResult :=
  match run.head?, run.getLast? with
  | some first, some last =>
    let span : Span Int := ⟨first.bucketStart, last.bucketStart + width⟩
    match first.state with
    | .complete => [freeResult span .complete (run.map (fun o => o.rows.length)).sum
        (run.countP (fun o => !o.rows.isEmpty))]
    | .lowerBound => run.map (fun o => freeResult ⟨o.bucketStart, o.bucketStart + width⟩ .truncated o.rows.length
        (if o.rows.isEmpty then 0 else 1))
    | .failed => [freeResult span .failed 0 0]
    | .rejected => [freeResult span .failed 0 0]
    | .notCollected => [freeResult span .notRun 0 0]
  | _, _ => []

/-- `results[0] = replace(results[0], searches=searches)` -/
def chargeFirst (searches : Nat) : List ChunkResult → List ChunkResult
  | [] => []
  | first :: rest =>
    { first with searches := searches, searches_nonneg := Int.natCast_nonneg searches } :: rest

def chunkResults (outcomes : List CatchallBucketOutcome) (bucketSeconds : Int) (searches : Nat) :
    List ChunkResult :=
  chargeFirst searches ((runs outcomes).flatMap (runResults (seconds bucketSeconds)))

/-- What `chunk_results` is given of a span that was read. -/
structure SpanRead where
  outcomes : List CatchallBucketOutcome
  searches : Nat

def SpanRead.results (bucketSeconds : Int) (read : SpanRead) : List ChunkResult :=
  chunkResults read.outcomes bucketSeconds read.searches

def settleReads (progress : ScopeProgress Int φ) (reads : List SpanRead) (bucketSeconds stop : Int)
    (st : PlannerSettings φ) : Except Exc (StepSettlement φ) :=
  settleStep progress (reads.flatMap (fun read => read.results bucketSeconds)) stop st

end QRadarDashboard.History.Catchall
