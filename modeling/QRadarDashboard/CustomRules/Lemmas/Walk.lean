import QRadarDashboard.CustomRules.Reading

/-!
# Walking the buckets
-/

namespace QRadarDashboard.CustomRules
open Lib

variable {interval limit : Int}

def holes (interval cursor point : Int) : List Int :=
  (holeSteps interval cursor point).map (fun step : Nat => cursor + seconds (step * interval))

def walkAll (interval : Int) : Int → List Int → List Int
  | _, [] => []
  | cursor, point :: points => holes interval cursor point ++ point :: walkAll interval point points

/-! ## The limit -/

theorem fillHole_eq (interval cursor : Int) : ∀ (steps : List Nat) (grid : List Int), (grid.length : Int) < limit →
    fillHole interval limit cursor grid steps =
      let filled := grid ++ steps.map (fun step : Nat => cursor + seconds (step * interval))
      if (filled.length : Int) < limit then .ok filled else .error (filled.take limit.toNat) := by
  intro steps
  induction steps with
  | nil =>
    intro grid hlt
    simp [fillHole, hlt]
  | cons step steps ih =>
    intro grid hlt
    simp only [fillHole]
    split
    · rename_i hfull
      -- the hole is cut at its first step beyond the limit
      have hlength : limit.toNat = (grid ++ [cursor + seconds (step * interval)]).length := by
        simp only [List.length_append, List.length_singleton] at hfull ⊢
        omega
      have hmore : ¬ ((grid ++ (step :: steps).map (fun step : Nat => cursor + seconds (step * interval))).length : Int) <
          limit := by
        simp only [List.length_append, List.length_map, List.length_cons, List.length_nil] at hfull ⊢
        omega
      simp only [if_neg hmore]
      rw [hlength, List.map_cons, List.append_cons grid _ (steps.map _), List.take_left]
    · rename_i hroom
      rw [ih _ (not_le.mp hroom)]
      simp only [List.map_cons, List.append_assoc, List.singleton_append]

theorem walkPoints_eq : ∀ (points : List Int) (cursor : Int) (grid : List Int), (grid.length : Int) < limit →
    walkPoints interval limit cursor grid points = (grid ++ walkAll interval cursor points).take limit.toNat := by
  intro points
  induction points with
  | nil =>
    intro cursor grid hlt
    rw [walkPoints, walkAll, List.append_nil, List.take_of_length_le (by omega)]
  | cons point points ih =>
    intro cursor grid hlt
    have hfill := fillHole_eq interval cursor (holeSteps interval cursor point) grid hlt
    change fillHole interval limit cursor grid (holeSteps interval cursor point) =
      if ((grid ++ holes interval cursor point).length : Int) < limit then .ok (grid ++ holes interval cursor point)
      else .error ((grid ++ holes interval cursor point).take limit.toNat) at hfill
    rw [walkAll]
    by_cases hroom : ((grid ++ holes interval cursor point).length : Int) < limit
    · rw [if_pos hroom] at hfill
      simp only [walkPoints, hfill]
      split
      · rename_i hfull
        have hlength : limit.toNat = (grid ++ holes interval cursor point ++ [point]).length := by
          simp only [List.length_append, List.length_singleton] at hfull hroom ⊢
          omega
        rw [← List.append_assoc, List.append_cons _ point (walkAll interval point points), hlength, List.take_left]
      · rename_i hmore
        rw [ih point _ (not_le.mp hmore)]
        simp only [List.append_assoc, List.singleton_append]
    · rw [if_neg hroom] at hfill
      simp only [walkPoints, hfill]
      have hlength : limit.toNat ≤ (grid ++ holes interval cursor point).length := by omega
      rw [← List.append_assoc, List.take_append_of_le_length hlength]

/-! ## Holes -/

theorem roundHalfEven_intCast (n : Int) : roundHalfEven (n : ℚ) = n := by
  simp [roundHalfEven]

theorem holeSteps_eq {cursor point d} (hinterval : 1 ≤ interval) (hd : point = cursor + seconds d) (hpos : 0 < d) :
    holeSteps interval cursor point = if d % interval = 0 then List.range' 1 ((d / interval).toNat - 1) else [] := by
  have hdelta : roundHalfEven ((point - cursor : Int) / 1000000) = d := by
    have hseconds : ((point - cursor : Int) : ℚ) / 1000000 = d := by
      rw [hd]
      simp [seconds]
    rw [hseconds, roundHalfEven_intCast]
  unfold holeSteps
  simp only [hdelta]
  by_cases hmultiple : d % interval = 0
  · rw [if_pos hmultiple]
    by_cases hlong : d > interval
    · rw [if_pos ⟨hlong, hmultiple⟩]
    · -- a distance of one interval has no step in between
      have hone : d / interval = 1 := by
        obtain ⟨n, rfl⟩ := Int.dvd_of_emod_eq_zero hmultiple
        have hn : n = 1 := by nlinarith
        rw [hn, mul_one, Int.ediv_self (by omega)]
      rw [if_neg (fun h => hlong h.1), hone]
      rfl
  · rw [if_neg hmultiple, if_neg (fun h => hmultiple h.2)]

theorem mem_holes {cursor point d x} (hinterval : 1 ≤ interval) (hd : point = cursor + seconds d) (hpos : 0 < d) :
    x ∈ holes interval cursor point ↔
      ∃ n k, d = n * interval ∧ 1 ≤ k ∧ k < n ∧ x = cursor + seconds (k * interval) := by
  rw [holes, holeSteps_eq hinterval hd hpos]
  constructor
  · intro hx
    obtain ⟨step, hstep, rfl⟩ := List.mem_map.mp hx
    by_cases hmultiple : d % interval = 0
    · rw [if_pos hmultiple, List.mem_range'_1] at hstep
      exact ⟨d / interval, step, (Int.ediv_mul_cancel (Int.dvd_of_emod_eq_zero hmultiple)).symm, by omega, by omega, rfl⟩
    · rw [if_neg hmultiple] at hstep
      cases hstep
  · rintro ⟨n, k, rfl, hk, hlt, rfl⟩
    rw [Int.mul_emod_left, if_pos rfl, Int.mul_ediv_cancel _ (by omega)]
    exact List.mem_map.mpr ⟨k.toNat, List.mem_range'_1.mpr (by omega), by rw [Int.toNat_of_nonneg (by omega)]⟩

theorem holes_between {cursor point d} (hinterval : 1 ≤ interval) (hd : point = cursor + seconds d) (hpos : 0 < d) :
    ∀ x ∈ holes interval cursor point, cursor < x ∧ x < point := by
  intro x hx
  obtain ⟨n, k, hn, hk, hlt, rfl⟩ := (mem_holes hinterval hd hpos).mp hx
  have hlow : 0 < k * interval := Int.mul_pos (by omega) (by omega)
  have hhigh : k * interval < n * interval := Int.mul_lt_mul_of_pos_right hlt (by omega)
  rw [hd, hn]
  unfold seconds
  omega

theorem holes_increasing {cursor point d} (hinterval : 1 ≤ interval) (hd : point = cursor + seconds d)
    (hpos : 0 < d) : (holes interval cursor point).Pairwise (· < ·) := by
  rw [holes, holeSteps_eq hinterval hd hpos, List.pairwise_map]
  have hstep : ∀ a b : Nat, a < b → cursor + seconds (a * interval) < cursor + seconds (b * interval) := by
    intro a b hab
    have : (a : Int) * interval < b * interval := Int.mul_lt_mul_of_pos_right (by omega) (by omega)
    unfold seconds
    omega
  split
  · exact (List.pairwise_lt_range' 1).imp (fun hab => hstep _ _ hab)
  · exact .nil

theorem holes_resume {cursor point d} (hinterval : 1 ≤ interval) (hd : point = cursor + seconds d) (hpos : 0 < d)
    {filled rest last} (hsplit : holes interval cursor point = filled ++ rest)
    (hlast : filled.getLast? = some last) : holes interval last point = rest := by
  have hmem : last ∈ holes interval cursor point := by
    rw [hsplit]
    exact List.mem_append_left _ (List.mem_of_getLast? hlast)
  obtain ⟨n, -, hn, -, -, -⟩ := (mem_holes hinterval hd hpos).mp hmem
  subst hn
  have hsteps : holeSteps interval cursor point = List.range' 1 (n.toNat - 1) := by
    rw [holeSteps_eq hinterval hd hpos, Int.mul_emod_left, if_pos rfl, Int.mul_ediv_cancel _ (by omega)]
  rw [holes, hsteps] at hsplit
  obtain ⟨front, back, hrange, rfl, rfl⟩ := List.map_eq_append_iff.mp hsplit
  obtain ⟨k, hk, hlast_eq⟩ : ∃ k, front.getLast? = some k ∧ cursor + seconds ((k : Nat) * interval) = last := by
    rw [List.getLast?_map, Option.map_eq_some_iff] at hlast
    exact hlast
  obtain ⟨m, hm, hfront, hback⟩ := List.range'_eq_append_iff.mp hrange
  have hkm : k = m := by
    rw [hfront, List.getLast?_range'] at hk
    split at hk
    · cases hk
    · cases hk
      omega
  subst hkm
  have hknonneg : 0 < front.length := List.length_pos_of_mem (List.mem_of_getLast? hk)
  have hrest : point = last + seconds ((n - k) * interval) := by
    rw [hd, ← hlast_eq]
    unfold seconds
    ring
  have hlt : (k : Int) < n := by
    rw [hfront, List.length_range'] at hknonneg
    omega
  rw [holes, holeSteps_eq hinterval hrest (Int.mul_pos (by omega) (by omega)), Int.mul_emod_left, if_pos rfl,
    Int.mul_ediv_cancel _ (by omega), hback, ← hlast_eq,
    show 1 + k * 1 = k + 1 by omega, ← List.map_add_range', List.map_map,
    show (n - k).toNat - 1 = n.toNat - 1 - k by omega]
  refine List.map_congr_left (fun step _ => ?_)
  simp only [Function.comp_apply, Nat.cast_add, seconds]
  ring

/-! ## The whole walk -/

structure Ascends (cursor : Int) (points : List Int) : Prop where
  later : ∀ point ∈ points, cursor < point
  increasing : points.Pairwise (· < ·)
  whole : (1000000 : Int) ∣ cursor ∧ ∀ point ∈ points, (1000000 : Int) ∣ point

theorem Ascends.tail {cursor point points} (h : Ascends cursor (point :: points)) : Ascends point points := by
  obtain ⟨hlater, hincreasing⟩ := List.pairwise_cons.mp h.increasing
  exact ⟨hlater, hincreasing, h.whole.2 point List.mem_cons_self, fun t ht => h.whole.2 t (List.mem_cons_of_mem _ ht)⟩

theorem Ascends.distance {cursor point points} (h : Ascends cursor (point :: points)) :
    ∃ d, point = cursor + seconds d ∧ 0 < d := by
  have hlt := h.later point List.mem_cons_self
  obtain ⟨c, hc⟩ := h.whole.1
  obtain ⟨q, hq⟩ := h.whole.2 point List.mem_cons_self
  refine ⟨q - c, ?_, by omega⟩
  unfold seconds
  omega

theorem mem_walkAll {points} : ∀ {cursor point : Int}, point ∈ points → point ∈ walkAll interval cursor points := by
  induction points with
  | nil => exact fun h => by cases h
  | cons first points ih =>
    intro cursor point h
    rw [walkAll]
    rcases List.mem_cons.mp h with rfl | h
    · exact List.mem_append_right _ List.mem_cons_self
    · exact List.mem_append_right _ (List.mem_cons_of_mem _ (ih h))

theorem walkAll_after (hinterval : 1 ≤ interval) {points} : ∀ {cursor : Int}, Ascends cursor points →
    ∀ x ∈ walkAll interval cursor points, cursor < x ∧ ∃ point ∈ points, x ≤ point := by
  induction points with
  | nil => exact fun _ _ hx => by cases hx
  | cons point points ih =>
    intro cursor h x hx
    obtain ⟨d, hd, hpos⟩ := h.distance
    have hlt := h.later point List.mem_cons_self
    rw [walkAll] at hx
    rcases List.mem_append.mp hx with hx | hx
    · obtain ⟨hlow, hhigh⟩ := holes_between hinterval hd hpos x hx
      exact ⟨hlow, point, List.mem_cons_self, hhigh.le⟩
    · rcases List.mem_cons.mp hx with rfl | hx
      · exact ⟨hlt, x, List.mem_cons_self, Int.le_refl x⟩
      · obtain ⟨hlow, q, hq, hle⟩ := ih h.tail x hx
        exact ⟨hlt.trans hlow, q, List.mem_cons_of_mem _ hq, hle⟩

theorem walkAll_increasing (hinterval : 1 ≤ interval) {points} : ∀ {cursor : Int}, Ascends cursor points →
    (walkAll interval cursor points).Pairwise (· < ·) := by
  induction points with
  | nil => exact fun _ => .nil
  | cons point points ih =>
    intro cursor h
    obtain ⟨d, hd, hpos⟩ := h.distance
    have hafter := walkAll_after hinterval h.tail
    rw [walkAll, List.pairwise_append]
    refine ⟨holes_increasing hinterval hd hpos, List.pairwise_cons.mpr ⟨fun x hx => (hafter x hx).1, ih h.tail⟩, ?_⟩
    intro a ha b hb
    have hlt := (holes_between hinterval hd hpos a ha).2
    rcases List.mem_cons.mp hb with rfl | hb
    · exact hlt
    · exact hlt.trans (hafter b hb).1

theorem walkAll_complete (hinterval : 1 ≤ interval) {points} : ∀ {cursor : Int}, Ascends cursor points →
    ∀ {a b n k : Int}, (a = cursor ∨ a ∈ points) → b ∈ points → (∀ t ∈ points, ¬ (a < t ∧ t < b)) →
      b = a + seconds (n * interval) → 1 ≤ k → k < n → a + seconds (k * interval) ∈ walkAll interval cursor points := by
  induction points with
  | nil => exact fun _ _ _ _ _ _ hb => by cases hb
  | cons point points ih =>
    intro cursor h a b n k ha hb hnext hn hk hlt
    obtain ⟨d, hd, hpos⟩ := h.distance
    have hlater := (List.pairwise_cons.mp h.increasing).1
    have hfirst := h.later point List.mem_cons_self
    have hab : a < b := by
      have : 0 < n * interval := Int.mul_pos (by omega) (by omega)
      rw [hn]
      unfold seconds
      omega
    rw [walkAll]
    rcases ha with rfl | ha
    · -- the next point after the cursor is the first one
      have hbp : b = point := by
        rcases List.mem_cons.mp hb with hb | hb
        · exact hb
        · exact absurd ⟨hfirst, hlater b hb⟩ (hnext point List.mem_cons_self)
      refine List.mem_append_left _ ((mem_holes hinterval hd hpos).mpr ⟨n, k, ?_, hk, hlt, rfl⟩)
      rw [← hbp, hn] at hd
      unfold seconds at hd
      omega
    · refine List.mem_append_right _ (List.mem_cons_of_mem _ (ih h.tail (List.mem_cons.mp ha) ?_ ?_ hn hk hlt))
      · rcases List.mem_cons.mp hb with rfl | hb
        · rcases List.mem_cons.mp ha with rfl | ha
          · exact absurd hab (lt_irrefl _)
          · exact absurd hab (not_lt.mpr (hlater a ha).le)
        · exact hb
      · exact fun t ht => hnext t (List.mem_cons_of_mem _ ht)

theorem walkAll_resume (hinterval : 1 ≤ interval) {points} : ∀ {cursor : Int}, Ascends cursor points →
    ∀ {walked rest : List Int} {last : Int}, walkAll interval cursor points = walked ++ rest →
      walked.getLast? = some last → walkAll interval last (points.filter (fun point => last < point)) = rest := by
  induction points with
  | nil =>
    intro cursor _ walked rest last hsplit hlast
    obtain ⟨rfl, rfl⟩ := List.append_eq_nil_iff.mp hsplit.symm
    cases hlast
  | cons point points ih =>
    intro cursor h walked rest last hsplit hlast
    obtain ⟨d, hd, hpos⟩ := h.distance
    have hlater := (List.pairwise_cons.mp h.increasing).1
    have hkeep : points.filter (fun q => point < q) = points :=
      List.filter_eq_self.mpr (fun q hq => decide_eq_true (hlater q hq))
    have hbefore : ∀ t, t < point → (point :: points).filter (fun q => t < q) = point :: points := by
      intro t ht
      refine List.filter_eq_self.mpr (fun q hq => decide_eq_true ?_)
      rcases List.mem_cons.mp hq with rfl | hq
      · exact ht
      · exact ht.trans (hlater q hq)
    rw [walkAll] at hsplit
    rcases List.append_eq_append_iff.mp hsplit with ⟨front, hwalked, hrest⟩ | ⟨back, hholes, hrest⟩
    · cases front with
      | nil =>
        -- the walk stopped at the end of the hole
        rw [List.append_nil] at hwalked
        subst hwalked
        have hlt := (holes_between hinterval hd hpos last (List.mem_of_getLast? hlast)).2
        have hnone : holes interval last point = [] :=
          holes_resume hinterval hd hpos (List.append_nil _).symm hlast
        rw [hbefore last hlt, walkAll, hnone]
        exact hrest
      | cons first front =>
        obtain ⟨rfl, hwalk⟩ := List.cons.inj hrest
        rw [hwalked, List.getLast?_append_of_ne_nil _ (List.cons_ne_nil _ _)] at hlast
        cases front with
        | nil =>
          obtain rfl : point = last := Option.some.inj hlast
          rw [List.filter_cons_of_neg (by simp), hkeep]
          exact hwalk
        | cons second front =>
          rw [List.getLast?_cons_cons] at hlast
          have hmem : last ∈ walkAll interval point points := by
            rw [hwalk]
            exact List.mem_append_left _ (List.mem_of_getLast? hlast)
          have hlt := (walkAll_after hinterval h.tail last hmem).1
          rw [List.filter_cons_of_neg (by simp [hlt.le])]
          exact ih h.tail hwalk hlast
    · have hlt := (holes_between hinterval hd hpos last
        (hholes ▸ List.mem_append_left _ (List.mem_of_getLast? hlast))).2
      rw [hbefore last hlt, walkAll,
        holes_resume hinterval hd hpos hholes hlast]
      exact hrest.symm

/-! ## Calls -/

variable {observed : List Int} {watermark closed : Int}

theorem mem_observedPoints {point} :
    point ∈ observedPoints observed watermark closed ↔ point ∈ observed ∧ watermark < point ∧ point ≤ closed := by
  simp [observedPoints]

theorem observedPoints_increasing (observed : List Int) (watermark closed : Int) :
    (observedPoints observed watermark closed).Pairwise (· < ·) := by
  refine pairwise_lt_sortOn ?_
  rw [List.map_id']
  exact List.nodup_dedup _

theorem observedPoints_ascends (hwatermark : (1000000 : Int) ∣ watermark)
    (hobserved : ∀ t ∈ observed, (1000000 : Int) ∣ t) (closed : Int) :
    Ascends watermark (observedPoints observed watermark closed)  where
  later := fun _ hpoint => (mem_observedPoints.mp hpoint).2.1
  increasing := observedPoints_increasing observed watermark closed
  whole := ⟨hwatermark, fun point hpoint => hobserved point (mem_observedPoints.mp hpoint).1⟩

theorem observedPoints_later {last} (h : watermark ≤ last) : observedPoints observed last closed =
    (observedPoints observed watermark closed).filter (fun point => last < point) := by
  refine (observedPoints_increasing observed last closed).eq_of_mem_iff
    ((observedPoints_increasing observed watermark closed).filter _) (fun point => ?_)
  rw [List.mem_filter, mem_observedPoints, mem_observedPoints, decide_eq_true_eq]
  constructor
  · rintro ⟨hmem, hlater, hclosed⟩
    exact ⟨⟨hmem, by omega, hclosed⟩, hlater⟩
  · rintro ⟨⟨hmem, _, hclosed⟩, hlater⟩
    exact ⟨hmem, hlater, hclosed⟩

theorem walkBuckets_eq (hinterval : 1 ≤ interval) (hlimit : 1 ≤ limit) :
    walkBuckets observed watermark interval limit closed =
      .ok ((walkAll interval watermark (observedPoints observed watermark closed)).take limit.toNat) := by
  rw [walkBuckets, if_neg (by omega), if_neg (by omega), walkPoints_eq _ _ _ (by simp; omega), List.nil_append]

/-- The calls made one after the other until one returns nothing, each from the last time of the one before. -/
inductive WalkedTo (observed : List Int) (interval closed : Int) : Int → List Int → List Int → Prop
  | done {watermark limit : Int} (h : walkBuckets observed watermark interval limit closed = .ok []) :
      WalkedTo observed interval closed watermark [limit] []
  | more {watermark limit last : Int} {limits grid rest : List Int}
      (h : walkBuckets observed watermark interval limit closed = .ok grid) (hlast : grid.getLast? = some last)
      (hrest : WalkedTo observed interval closed last limits rest) :
      WalkedTo observed interval closed watermark (limit :: limits) (grid ++ rest)

structure Resumes (observed : List Int) (interval closed watermark limit last : Int) (grid rest : List Int) : Prop where
  call : walkBuckets observed watermark interval limit closed = .ok grid
  ends : grid.getLast? = some last
  whole : walkAll interval watermark (observedPoints observed watermark closed) = grid ++ rest
  resumed : walkAll interval last (observedPoints observed last closed) = rest
  onGrid : (1000000 : Int) ∣ last

theorem dvd_of_mem_walkAll (hinterval : 1 ≤ interval) {points} : ∀ {cursor : Int}, Ascends cursor points →
    ∀ x ∈ walkAll interval cursor points, (1000000 : Int) ∣ x := by
  induction points with
  | nil => exact fun _ _ hx => by cases hx
  | cons point points ih =>
    intro cursor h x hx
    obtain ⟨d, hd, hpos⟩ := h.distance
    rw [walkAll] at hx
    rcases List.mem_append.mp hx with hx | hx
    · obtain ⟨n, k, -, -, -, rfl⟩ := (mem_holes hinterval hd hpos).mp hx
      exact dvd_add h.whole.1 (Dvd.intro_left _ rfl)
    · rcases List.mem_cons.mp hx with rfl | hx
      · exact h.whole.2 x List.mem_cons_self
      · exact ih h.tail x hx

theorem exists_resumes (hinterval : 1 ≤ interval) (hlimit : 1 ≤ limit) (hwatermark : (1000000 : Int) ∣ watermark)
    (hobserved : ∀ t ∈ observed, (1000000 : Int) ∣ t)
    (hmore : walkAll interval watermark (observedPoints observed watermark closed) ≠ []) :
    ∃ last grid rest, Resumes observed interval closed watermark limit last grid rest := by
  have hascends := observedPoints_ascends hwatermark hobserved closed
  generalize hwhole : walkAll interval watermark (observedPoints observed watermark closed) = whole at hmore
  have hgrid : whole.take limit.toNat ≠ [] := by
    rw [Ne, List.take_eq_nil_iff]
    exact fun h => h.elim (fun h => by omega) hmore
  have hlast := List.getLast?_eq_some_getLast hgrid
  generalize (whole.take limit.toNat).getLast hgrid = last at hlast
  have hsplit : walkAll interval watermark (observedPoints observed watermark closed) =
      whole.take limit.toNat ++ whole.drop limit.toNat := by rw [hwhole, List.take_append_drop]
  have hmem : last ∈ walkAll interval watermark (observedPoints observed watermark closed) :=
    hwhole ▸ List.mem_of_mem_take (List.mem_of_getLast? hlast)
  refine ⟨last, _, _, ?_, hlast, hsplit, ?_, dvd_of_mem_walkAll hinterval hascends last hmem⟩
  · rw [walkBuckets_eq hinterval hlimit, hwhole]
  · rw [observedPoints_later (walkAll_after hinterval hascends last hmem).1.le]
    exact walkAll_resume hinterval hascends hsplit hlast

theorem WalkedTo.times_eq {limits times} (h : WalkedTo observed interval closed watermark limits times)
    (hinterval : 1 ≤ interval) (hwatermark : (1000000 : Int) ∣ watermark)
    (hobserved : ∀ t ∈ observed, (1000000 : Int) ∣ t) (hlimits : ∀ limit ∈ limits, 1 ≤ limit) :
    times = walkAll interval watermark (observedPoints observed watermark closed) := by
  induction h with
  | @done watermark limit hcall =>
    rw [walkBuckets_eq hinterval (hlimits limit List.mem_cons_self)] at hcall
    rcases List.take_eq_nil_iff.mp (Except.ok.inj hcall) with hzero | hnil
    · have := hlimits limit List.mem_cons_self
      omega
    · exact hnil.symm
  | @more watermark limit limits grid last rest hcall hlast _ ih =>
    have hlimit := hlimits limit List.mem_cons_self
    have hmore : walkAll interval watermark (observedPoints observed watermark closed) ≠ [] := by
      intro hnil
      rw [walkBuckets_eq hinterval hlimit, hnil, List.take_nil] at hcall
      cases hcall
      cases hlast
    obtain ⟨last', grid', rest', hresumes⟩ := exists_resumes hinterval hlimit hwatermark hobserved hmore
    cases hcall.symm.trans hresumes.call
    cases hlast.symm.trans hresumes.ends
    rw [hresumes.whole, ih hresumes.onGrid (fun limit h => hlimits limit (List.mem_cons_of_mem _ h)), hresumes.resumed]

theorem exists_walkedTo (hinterval : 1 ≤ interval) (hobserved : ∀ t ∈ observed, (1000000 : Int) ∣ t) :
    ∀ (size : Nat) (limits : Nat → Int), (∀ i, 1 ≤ limits i) → ∀ {watermark : Int}, (1000000 : Int) ∣ watermark →
      (walkAll interval watermark (observedPoints observed watermark closed)).length ≤ size →
      ∃ n times, WalkedTo observed interval closed watermark ((List.range n).map limits) times := by
  intro size
  induction size with
  | zero =>
    intro limits hlimits watermark hwatermark hsize
    refine ⟨1, [], .done ?_⟩
    rw [walkBuckets_eq hinterval (hlimits 0), List.length_eq_zero_iff.mp (Nat.le_zero.mp hsize), List.take_nil]
  | succ size ih =>
    intro limits hlimits watermark hwatermark hsize
    by_cases hmore : walkAll interval watermark (observedPoints observed watermark closed) = []
    · refine ⟨1, [], .done ?_⟩
      rw [walkBuckets_eq hinterval (hlimits 0), hmore, List.take_nil]
    · obtain ⟨last, grid, rest, hresumes⟩ := exists_resumes hinterval (hlimits 0) hwatermark hobserved hmore
      have hpos : 0 < grid.length := List.length_pos_of_mem (List.mem_of_getLast? hresumes.ends)
      have hshorter : (walkAll interval last (observedPoints observed last closed)).length ≤ size := by
        rw [hresumes.whole, List.length_append] at hsize
        rw [hresumes.resumed]
        omega
      obtain ⟨n, times, hrest⟩ := ih (fun i => limits (i + 1)) (fun i => hlimits (i + 1)) hresumes.onGrid hshorter
      refine ⟨n + 1, grid ++ times, ?_⟩
      rw [List.range_succ_eq_map, List.map_cons, List.map_map]
      exact .more hresumes.call hresumes.ends hrest

end QRadarDashboard.CustomRules
