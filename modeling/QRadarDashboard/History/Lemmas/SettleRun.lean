import QRadarDashboard.History.Lemmas.Settle
import QRadarDashboard.Lib.Run

/-!
# Runs of settled steps
-/

namespace QRadarDashboard.History
open Lib

variable {φ : Type} [PyFloat φ] {st : PlannerSettings φ}

/-- A settled step of a run: the progress before it, the results and the end it was given, and the
settlement. -/
abbrev SettledStep (φ : Type) := Taken (ScopeProgress Int φ) (List ChunkResult × Int) (StepSettlement φ)

abbrev SettleRun (st : PlannerSettings φ) (p₀ : ScopeProgress Int φ) :
    List (SettledStep φ) → ScopeProgress Int φ → Prop :=
  Run (fun p i => settleStep p i.1 i.2 st) (·.progress) p₀

/-- Everything a settlement accounts for, in order of time: the spans to write, then the gap. -/
def StepSettlement.spans (o : StepSettlement φ) : List (Int × Int) :=
  o.writeSpans.map Span.pair ++ o.newGap.toList.map (·.span.pair)

def coveredSpans (tr : List (SettledStep φ)) : List (Int × Int) := tr.flatMap (·.output.spans)

def writtenSpans (tr : List (SettledStep φ)) : List (Span Int) := tr.flatMap (·.output.writeSpans)

def recordedGaps (tr : List (SettledStep φ)) : List (Gap Int) := tr.flatMap (·.output.newGap.toList)

/-! ## What one step covers -/

theorem Settled.tiles_spans {p rs o start mid next} (h : Settled st p rs o start mid next) :
    Tiles start o.spans next := by
  have hw : o.writeSpans.map Span.pair = (donePrefix st rs).map (·.span.pair) := by
    rw [h.write, List.map_map]; rfl
  have hnext := h.stop_cases
  unfold StepSettlement.spans
  rw [hw]
  cases h.effect with
  | clean _ _ hg | held _ _ _ _ hg | counted _ _ _ _ hg _ =>
    simp only [hg] at hnext
    simpa [hg, hnext] using h.tiles
  | gap b g hb _ _ hg hspan _ _ =>
    simp only [hg] at hnext
    obtain ⟨hstart, hlt, _⟩ := h.blocked b hb
    have hstop : g.stop = b.span.stop := congrArg Span.stop hspan
    have hgs : g.span.pair = (mid, next) := by rw [hnext, hstop, ← hstart, hspan]; rfl
    have hlt' : mid < next := by rw [hnext, hstop]; exact hlt
    rw [hg]
    exact h.tiles.append (by simpa [hgs] using Tiles.singleton hlt')

theorem Settled.gap_aligned {p rs o start mid next} (h : Settled st p rs o start mid next) :
    ∀ g ∈ o.newGap.toList, g.span.Aligned st := by
  intro g hg
  cases h.effect with
  | clean _ _ hn | held _ _ _ _ hn | counted _ _ _ _ hn _ => simp [hn] at hg
  | gap b g' hb _ _ hn hspan _ _ =>
    simp only [hn, Option.toList_some, List.mem_singleton] at hg
    subst hg
    rw [hspan]
    exact (h.blocked b hb).2.2

theorem Settled.gaps_le {p rs o start mid next} (h : Settled st p rs o start mid next)
    (hle : (p.gaps.length : Int) ≤ st.maxGaps) : (o.progress.gaps.length : Int) ≤ st.maxGaps := by
  rw [h.gaps]
  cases h.effect with
  | clean _ _ hg | held _ _ _ _ hg | counted _ _ _ _ hg _ => simpa [hg] using hle
  | gap b g _ _ _ hg _ _ hroom =>
    simp only [hg, Option.toList_some, List.length_append, List.length_singleton]
    omega

theorem sum_counts_mul {l : List (Span Int)} (h : ∀ s ∈ l, s.Aligned st) :
    (l.map (Span.count st)).sum * st.bucket = ((l.map Span.pair).map (fun s => s.2 - s.1)).sum := by
  induction l with
  | nil => simp
  | cons s l ih =>
    simp only [List.map_cons, List.sum_cons, add_mul]
    rw [ih (fun t ht => h t (List.mem_cons_of_mem _ ht)), Span.count_mul (h s List.mem_cons_self)]
    rfl

omit [PyFloat φ] in
theorem sum_coveredSpans (tr : List (SettledStep φ)) :
    ((coveredSpans tr).map (fun s => s.2 - s.1)).sum =
      (((writtenSpans tr).map Span.pair).map (fun s => s.2 - s.1)).sum +
      (((recordedGaps tr).map Gap.span).map Span.pair |>.map (fun s => s.2 - s.1)).sum := by
  induction tr with
  | nil => rfl
  | cons e tr ih =>
    simp only [coveredSpans, writtenSpans, recordedGaps, StepSettlement.spans, List.flatMap_cons,
      List.map_append, List.sum_append, List.map_map] at ih ⊢
    rw [ih]
    simp only [Function.comp_def]
    ring

/-! ## The invariant of a run -/

structure RunAccounts (st : PlannerSettings φ) (floor : Int) (tr : List (SettledStep φ))
    (p : ScopeProgress Int φ) (next : Int) : Prop where
  floor_eq : p.floor = some floor
  next_eq : nextStart p st = some next
  tiles : Tiles floor (coveredSpans tr) next
  gaps : p.gaps = recordedGaps tr
  gaps_le : (p.gaps.length : Int) ≤ st.maxGaps
  read : p.bucketsRead = ((writtenSpans tr).map (Span.count st)).sum
  written_aligned : ∀ s ∈ writtenSpans tr, s.Aligned st
  gaps_aligned : ∀ g ∈ p.gaps, g.span.Aligned st
  forward : ∀ e ∈ tr, ∃ a b, nextStart e.before st = some a ∧
    nextStart e.output.progress st = some b ∧ a ≤ b

theorem RunAccounts.total {floor next tr p} (acc : RunAccounts st floor tr p next) :
    (p.bucketsRead + (p.gaps.map (·.span.count st)).sum) * st.bucket = next - floor := by
  have hlen := acc.tiles.sum_lengths
  have hgaps : ∀ s ∈ p.gaps.map Gap.span, s.Aligned st := by
    intro s hs
    obtain ⟨g, hg, rfl⟩ := List.mem_map.mp hs
    exact acc.gaps_aligned g hg
  have hsum := sum_counts_mul hgaps
  rw [List.map_map] at hsum
  rw [sum_coveredSpans, ← acc.gaps, ← sum_counts_mul acc.written_aligned, ← acc.read] at hlen
  rw [add_mul, ← hlen, ← hsum]
  rfl

theorem RunAccounts.covered_aligned {floor next tr p} (acc : RunAccounts st floor tr p next) :
    ∀ s ∈ coveredSpans tr, st.bucket ∣ s.1 ∧ st.bucket ∣ s.2 := by
  intro s hs
  obtain ⟨e, he, hs⟩ := List.mem_flatMap.mp hs
  rcases List.mem_append.mp hs with hs | hs
  · obtain ⟨w, hw, rfl⟩ := List.mem_map.mp hs
    exact acc.written_aligned w (List.mem_flatMap.mpr ⟨e, he, hw⟩)
  · obtain ⟨g, hg, rfl⟩ := List.mem_map.mp hs
    exact acc.gaps_aligned g (by rw [acc.gaps]; exact List.mem_flatMap.mpr ⟨e, he, hg⟩)

theorem RunAccounts.floor_aligned {floor next tr p} (acc : RunAccounts st floor tr p next) (hne : coveredSpans tr ≠ []) :
    st.bucket ∣ floor := by
  obtain ⟨s, l, hl⟩ := List.exists_cons_of_ne_nil hne
  have htiles := acc.tiles
  rw [hl] at htiles
  rw [← htiles.1]
  exact (acc.covered_aligned s (by rw [hl]; exact List.mem_cons_self)).1

theorem RunAccounts.next_aligned {floor next tr p} (acc : RunAccounts st floor tr p next) (hf : st.bucket ∣ floor) :
    st.bucket ∣ next :=
  acc.tiles.right hf (fun s hs => (acc.covered_aligned s hs).2)

theorem RunAccounts.written_buckets {floor next tr p} (acc : RunAccounts st floor tr p next) :
    ∀ s ∈ writtenSpans tr, s.buckets st = .ok (s.count st) := by
  intro s hs
  refine bucketsBetween_aligned (acc.written_aligned s hs) (le_of_lt (acc.tiles.nonempty s.pair ?_))
  obtain ⟨e, he, hs⟩ := List.mem_flatMap.mp hs
  exact List.mem_flatMap.mpr ⟨e, he, List.mem_append_left _ (List.mem_map_of_mem hs)⟩

theorem RunAccounts.gap_buckets {floor next tr p} (acc : RunAccounts st floor tr p next) :
    ∀ g ∈ p.gaps, g.span.buckets st = .ok (g.span.count st) := by
  intro g hg
  refine bucketsBetween_aligned (acc.gaps_aligned g hg) (le_of_lt (acc.tiles.nonempty g.span.pair ?_))
  rw [acc.gaps] at hg
  obtain ⟨e, he, hg⟩ := List.mem_flatMap.mp hg
  refine List.mem_flatMap.mpr ⟨e, he, List.mem_append_right _ ?_⟩
  exact List.mem_map.mpr ⟨g, hg, rfl⟩

theorem RunAccounts.init {p floor} (hf : p.floor = some floor) (ht : p.through = none) (hg : p.gaps = [])
    (hr : p.bucketsRead = 0) : RunAccounts st floor [] p floor  where
  floor_eq := hf
  next_eq := by simp [nextStart, hf, ht]
  tiles := rfl
  gaps := hg
  gaps_le := by
    have := st.counts_ok.2.1
    simp only [hg, List.length_nil]
    omega
  read := hr
  written_aligned := by simp [writtenSpans]
  gaps_aligned := by simp [hg]
  forward := by simp

theorem RunAccounts.step {floor tr p n i o} (acc : RunAccounts st floor tr p n) (h : settleStep p i.1 i.2 st = .ok o) :
    ∃ n', RunAccounts st floor (tr ++ [⟨p, i, o⟩]) o.progress n' := by
  obtain ⟨start, mid, next, s⟩ := settleStep_ok h
  have hstart : n = start := Option.some.inj (acc.next_eq.symm.trans s.start_eq)
  subst hstart
  have hcov : coveredSpans (tr ++ [⟨p, i, o⟩]) = coveredSpans tr ++ o.spans := by simp [coveredSpans]
  have hwr : writtenSpans (tr ++ [⟨p, i, o⟩]) = writtenSpans tr ++ o.writeSpans := by
    simp [writtenSpans]
  refine ⟨next, s.floor.trans acc.floor_eq, s.stop_eq, ?_, ?_, s.gaps_le acc.gaps_le, ?_, ?_, ?_, ?_⟩
  · rw [hcov]; exact acc.tiles.append s.tiles_spans
  · rw [s.gaps, acc.gaps]; simp [recordedGaps]
  · rw [s.read, acc.read, hwr, List.map_append, List.sum_append, s.write, List.map_map]; rfl
  · intro sp hsp
    rw [hwr, s.write] at hsp
    rcases List.mem_append.mp hsp with hsp | hsp
    · exact acc.written_aligned sp hsp
    · obtain ⟨r, hr, rfl⟩ := List.mem_map.mp hsp
      exact s.aligned r hr
  · intro g hg
    rw [s.gaps] at hg
    rcases List.mem_append.mp hg with hg | hg
    · exact acc.gaps_aligned g hg
    · exact s.gap_aligned g hg
  · intro e he
    rcases List.mem_append.mp he with he | he
    · exact acc.forward e he
    · rw [List.mem_singleton.mp he]
      exact ⟨n, next, s.start_eq, s.stop_eq, s.tiles_spans.le⟩

theorem SettleRun.accounts {p₀ p tr floor} (hf : p₀.floor = some floor) (ht : p₀.through = none) (hg : p₀.gaps = [])
    (hr : p₀.bucketsRead = 0) (h : SettleRun st p₀ tr p) : ∃ n, RunAccounts st floor tr p n :=
  h.invariant' (fun tr p => ∃ n, RunAccounts st floor tr p n) ⟨_, .init hf ht hg hr⟩
    (fun ⟨_, acc⟩ hs => acc.step hs)

end QRadarDashboard.History
