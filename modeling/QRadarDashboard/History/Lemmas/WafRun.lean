import QRadarDashboard.History.Lemmas.WafWindow

/-!
# Runs of WAF history calls
-/

namespace QRadarDashboard.History
open Lib Waf

variable {φ : Type} [PyFloat φ] {supply : Nat → String} {a : WafHistoryArgs φ} {st : WafFoldState}

def withNormalizer (normalizer : Normalizer) (folded : List (FoldedVolume φ)) :
    List (Normalizer × FoldedVolume φ) :=
  folded.map (fun f => (normalizer, f))

abbrev WafCall (φ : Type) := WafHistoryArgs φ × List (HistoryVolumeBucket φ)

abbrev WafStored := List HistoryEndpoint × Nat

def wafStep (φ : Type) [PyFloat φ] (stored : WafStored) (call : WafCall φ) : Except Exc (WafHistoryFold φ) :=
  foldVolumeHistory call.1 call.2 stored.1 stored.2

def wafNext (fold : WafHistoryFold φ) : WafStored := (fold.endpoints, fold.issued)

abbrev WafTrace (φ : Type) := List (Taken WafStored (WafCall φ) (WafHistoryFold φ))

def WafInOrder (tr : WafTrace φ) : Prop :=
  (tr.flatMap (fun e => e.input.2)).Pairwise (fun left right => left.batch.windowStart < right.batch.windowStart)

omit [PyFloat φ] in
theorem wafInOrder_iff (tr : WafTrace φ) : WafInOrder tr ↔
    ((tr.flatMap (fun e => e.input.2)).map (fun item => item.batch.windowStart)).Pairwise (· < ·) :=
  List.pairwise_map.symm

instance (tr : WafTrace φ) : Decidable (WafInOrder tr) := decidable_of_iff' _ (wafInOrder_iff tr)

def foldedOf (tr : WafTrace φ) : List (Normalizer × FoldedVolume φ) :=
  tr.flatMap (fun e => withNormalizer e.input.1.normalizer e.output.folded)

def written (tr : WafTrace φ) : List (WafMetricRow φ) := tr.flatMap (fun e => e.output.metrics)

omit [PyFloat φ] in
theorem pairwise_foldedOf {tr : WafTrace φ} (hbatches : (foldedOf tr).map (fun p => p.2.batch) =
    (tr.flatMap (fun e => e.input.2)).map (fun item => item.batch)) (horder : WafInOrder tr) :
    (foldedOf tr).Pairwise (fun p q => p.2.batch.windowStart < q.2.batch.windowStart) := by
  have hsame : (foldedOf tr).map (fun p => p.2.batch.windowStart) =
      (tr.flatMap (fun e => e.input.2)).map (fun item => item.batch.windowStart) := by
    simpa [Function.comp_def] using congrArg (List.map (fun b => b.windowStart)) hbatches
  rw [wafInOrder_iff, ← hsame] at horder
  exact List.pairwise_map.mp horder

end QRadarDashboard.History
