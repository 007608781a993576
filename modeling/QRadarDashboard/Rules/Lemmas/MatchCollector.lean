import QRadarDashboard.Rules.MatchCollector

/-!
# What becomes of a folded batch
-/

namespace QRadarDashboard.Rules
open Lib

/-! ## The grid -/

section Grid

theorem windowStep_pos {windowSeconds} (h : 0 < windowSeconds) : 0 < windowStep windowSeconds := by
  unfold windowStep secondMicros
  omega

theorem floorToWindow_dvd (value : Int) (windowSeconds : Nat) :
    windowStep windowSeconds ∣ floorToWindow value windowSeconds := by
  unfold windowStep floorToWindow
  exact Int.mul_dvd_mul_right _ (Int.dvd_self_sub_emod)

theorem tdiv_second_mono {v v' : Int} (h : v ≤ v') : v.tdiv secondMicros ≤ v'.tdiv secondMicros := by
  have hsign : Int.sign 1000000 = 1 := rfl
  simp only [secondMicros, Int.tdiv_eq_ediv, hsign]
  split <;> split <;> omega

theorem floorToWindow_mono {v v' windowSeconds} (hpos : 0 < windowSeconds) (h : v ≤ v') :
    floorToWindow v windowSeconds ≤ floorToWindow v' windowSeconds := by
  have hfloor (x : Int) : x - x % windowSeconds = windowSeconds * (x / windowSeconds) := by
    rw [Int.emod_def]
    omega
  have hquot : v.tdiv secondMicros / windowSeconds ≤ v'.tdiv secondMicros / windowSeconds :=
    Int.ediv_le_ediv (by omega) (tdiv_second_mono h)
  simp only [floorToWindow, hfloor]
  exact Int.mul_le_mul_of_nonneg_right (Int.mul_le_mul_of_nonneg_left hquot (by omega)) (by decide)

theorem lt_floorToWindow (v : Int) {windowSeconds} (hpos : 0 < windowSeconds) :
    v - windowStep windowSeconds < floorToWindow v windowSeconds := by
  have htrunc : v < (v.tdiv secondMicros + 1) * secondMicros := by
    have hsign : Int.sign 1000000 = 1 := rfl
    simp only [secondMicros, Int.tdiv_eq_ediv, hsign]
    split <;> omega
  have hmod : v.tdiv secondMicros % windowSeconds < windowSeconds := Int.emod_lt_of_pos _ (by omega)
  simp only [floorToWindow, windowStep, secondMicros] at *
  omega

theorem settledUntil_mono {now now' windowSeconds settleSeconds} (hpos : 0 < windowSeconds)
    (h : now ≤ now') : settledUntil now windowSeconds settleSeconds ≤ settledUntil now' windowSeconds settleSeconds :=
  floorToWindow_mono hpos (by omega)

theorem mem_windowsBetween {first until_ step s} (hstep : 0 < step) :
    s ∈ windowsBetween first until_ step ↔ ∃ k : Nat, s = first + k * step ∧ s + step ≤ until_ := by
  have hcount (k : Nat) : k < ((until_ - first) / step).toNat ↔ first + k * step + step ≤ until_ := by
    have hle : ((k + 1 : Nat) : Int) ≤ (until_ - first) / step ↔ ((k + 1 : Nat) : Int) * step ≤ until_ - first :=
      Int.le_ediv_iff_mul_le hstep
    have hmul : ((k + 1 : Nat) : Int) * step = k * step + step := by
      rw [Int.natCast_add, Int.add_mul]
      simp
    omega
  simp only [windowsBetween, List.mem_map, List.mem_range]
  constructor
  · rintro ⟨k, hk, rfl⟩
    exact ⟨k, rfl, (hcount k).mp hk⟩
  · rintro ⟨k, rfl, hk⟩
    exact ⟨k, (hcount k).mpr hk, rfl⟩

theorem first_le_of_mem_windowsBetween {first until_ step s} (hstep : 0 < step)
    (h : s ∈ windowsBetween first until_ step) : first ≤ s := by
  obtain ⟨k, rfl, -⟩ := (mem_windowsBetween hstep).mp h
  have := Int.mul_nonneg (Int.natCast_nonneg k) (Int.le_of_lt hstep)
  omega

theorem pairwise_windowsBetween {first until_ step} (hstep : 0 < step) :
    (windowsBetween first until_ step).Pairwise (· < ·) := by
  refine List.pairwise_map.mpr (List.pairwise_lt_range.imp ?_)
  intro a b hab
  have hlt : (a : Int) * step < b * step := Int.mul_lt_mul_of_pos_right (by omega) hstep
  omega

theorem windowsBetween_last {until_ step s} (hstep : 0 < step)
    (h : s ∈ windowsBetween (until_ - step) until_ step) : s = until_ - step := by
  have hfirst := first_le_of_mem_windowsBetween hstep h
  obtain ⟨_, _, hend⟩ := (mem_windowsBetween hstep).mp h
  omega

end Grid

/-! ## The fold -/

section Fold

variable {ruleIds : Dict Int Nat}

theorem get?_addMatch (totals : Dict Nat (Nat × Nat)) (row : RuleMatchRow) (i : Nat) :
    ((addMatch ruleIds totals row).get? i).isSome =
      ((totals.get? i).isSome || decide (ruleIds.get? row.qradarRuleId = some i)) := by
  unfold addMatch
  cases hid : ruleIds.get? row.qradarRuleId with
  | none => simp
  | some j =>
    simp only [Dict.get?_set, Option.some.injEq]
    by_cases hij : i = j
    · simp [hij]
    · simp [hij, Ne.symm hij]

theorem get?_foldl_addMatch (rows : List RuleMatchRow) (totals : Dict Nat (Nat × Nat)) (i : Nat) :
    ((rows.foldl (addMatch ruleIds) totals).get? i).isSome =
      ((totals.get? i).isSome || rows.any (fun row => ruleIds.get? row.qradarRuleId = some i)) := by
  induction rows generalizing totals with
  | nil => simp
  | cons row rows ih => rw [List.foldl_cons, ih, get?_addMatch, List.any_cons, Bool.or_assoc]

theorem exists_row_of_known {batch row i} (start : Int) (windowSeconds : Nat)
    (hrow : row ∈ batch.rows) (hid : ruleIds.get? row.qradarRuleId = some i) :
    ∃ w ∈ (foldRuleMatches batch ruleIds start windowSeconds).rows, w.ruleId = i := by
  have hsome : ((batch.rows.foldl (addMatch ruleIds) []).get? i).isSome := by
    rw [get?_foldl_addMatch]
    simp only [Dict.get?_nil, Option.isSome_none, Bool.false_or, List.any_eq_true, decide_eq_true_eq]
    exact ⟨row, hrow, hid⟩
  obtain ⟨total, htotal⟩ := Option.isSome_iff_exists.mp hsome
  exact ⟨_, List.mem_map_of_mem (Dict.mem_of_get? htotal), rfl⟩

end Fold

/-! ## The inventory -/

section Inventory

variable {cfg : MatchConfig} {rules : List AnalyticsRule} {dto : AnalyticsRuleDto} {now : Int}

def Distinct (rules : List AnalyticsRule) : Prop := (rules.map AnalyticsRule.qradarId).Nodup

def Sound (rules : List AnalyticsRule) (ruleIds : Dict Int Nat) : Prop :=
  ∀ q i, ruleIds.get? q = some i → (rules[i]?).map AnalyticsRule.qradarId = some q

theorem ruleIdMap_sound (rules : List AnalyticsRule) : Sound rules (ruleIdMap rules) := by
  intro q i h
  obtain ⟨⟨rule, j⟩, hmem, heq⟩ := List.mem_map.mp (Dict.mem_of_get? h)
  simp only [Prod.mk.injEq] at heq
  obtain ⟨rfl, rfl⟩ := heq
  rw [List.mem_zipIdx_iff_getElem?] at hmem
  rw [hmem, Option.map_some]

theorem applyQradarFields_qradarId (row : AnalyticsRule) : (row.applyQradarFields cfg dto).qradarId = row.qradarId := rfl

theorem syncRule_qradarIds (rules : List AnalyticsRule) (dto : AnalyticsRuleDto) (now : Int) :
    (syncRule cfg rules dto now).map AnalyticsRule.qradarId =
      if dto.qradarId ∈ rules.map AnalyticsRule.qradarId then rules.map AnalyticsRule.qradarId
      else rules.map AnalyticsRule.qradarId ++ [dto.qradarId] := by
  unfold syncRule
  cases hfind : rules.findIdx? (fun row => row.qradarId = dto.qradarId) with
  | none =>
    have hnew : dto.qradarId ∉ rules.map AnalyticsRule.qradarId := by
      intro hmem
      obtain ⟨row, hrow, hid⟩ := List.mem_map.mp hmem
      have := List.findIdx?_eq_none_iff.mp hfind row hrow
      simp [hid] at this
    rw [if_neg hnew, List.map_append]
    rfl
  | some i =>
    obtain ⟨hlt, hid, -⟩ := List.findIdx?_eq_some_iff_getElem.mp hfind
    have hold : dto.qradarId ∈ rules.map AnalyticsRule.qradarId :=
      List.mem_map.mpr ⟨rules[i], List.getElem_mem hlt, by simpa using hid⟩
    rw [if_pos hold]
    refine List.ext_getElem? (fun j => ?_)
    rw [List.getElem?_map, List.getElem?_map, List.getElem?_modify]
    cases rules[j]? with
    | none => rfl
    | some row =>
      by_cases hij : i = j
      · simp [hij, AnalyticsRule.update, applyQradarFields_qradarId]
      · simp [hij]

theorem Distinct.sync (h : Distinct rules) : Distinct (syncRule cfg rules dto now) := by
  unfold Distinct
  rw [syncRule_qradarIds]
  split
  · exact h
  · rename_i hnew
    exact List.nodup_append.mpr ⟨h, by simp, fun a ha b hb heq => hnew (by rw [← List.mem_singleton.mp hb, ← heq]; exact ha)⟩

theorem Sound.sync {ruleIds} (h : Sound rules ruleIds) : Sound (syncRule cfg rules dto now) ruleIds := by
  intro q i hq
  have hold := h q i hq
  rw [← List.getElem?_map] at hold ⊢
  rw [syncRule_qradarIds]
  split
  · exact hold
  · obtain ⟨hlt, -⟩ := List.getElem?_eq_some_iff.mp hold
    rw [List.getElem?_append_left hlt, hold]

theorem mem_syncRule {rule} (h : rule ∈ syncRule cfg rules dto now) :
    rule.qradarId = dto.qradarId ∨ ∃ old ∈ rules, old.qradarId = rule.qradarId := by
  have hid : rule.qradarId ∈ (syncRule cfg rules dto now).map AnalyticsRule.qradarId := List.mem_map_of_mem h
  rw [syncRule_qradarIds] at hid
  split at hid
  · exact .inr (List.mem_map.mp hid)
  · rcases List.mem_append.mp hid with hid | hid
    · exact .inr (List.mem_map.mp hid)
    · exact .inl (List.mem_singleton.mp hid)

end Inventory

/-! ## The tables -/

section Tables

variable {κ α : Type} [DecidableEq κ]

theorem get?_insertNew (d : Dict κ α) (k k' : κ) (v : α) :
    (insertNew d k v).get? k' = if k' = k then (d.get? k).or (some v) else d.get? k' := by
  unfold insertNew
  cases h : d.get? k with
  | none => rw [Dict.get?_set, Option.none_or]
  | some old =>
    by_cases hk : k' = k
    · simp [hk, h]
    · simp [hk]

theorem keys_insertNew {d} (h : d.keys.Nodup) (k : κ) (v : α) : (insertNew d k v).keys.Nodup := by
  unfold insertNew
  split
  · exact Dict.nodup_keys_set h k v
  · exact h

theorem isSome_foldl_insertNew {β : Type} (key : β → κ) (val : β → α) (l : List β) (d : Dict κ α) (k : κ) :
    ((l.foldl (fun d b => insertNew d (key b) (val b)) d).get? k).isSome =
      ((d.get? k).isSome || l.any (fun b => key b = k)) := by
  induction l generalizing d with
  | nil => simp
  | cons b l ih =>
    rw [List.foldl_cons, ih, get?_insertNew, List.any_cons, ← Bool.or_assoc]
    by_cases hk : k = key b
    · simp [hk]
    · simp [hk, Ne.symm hk]

theorem isSome_foldl_set {β : Type} (key : β → κ) (val : β → α) (l : List β) (d : Dict κ α) (k : κ) :
    ((l.foldl (fun d b => d.set (key b) (val b)) d).get? k).isSome =
      ((d.get? k).isSome || l.any (fun b => key b = k)) := by
  induction l generalizing d with
  | nil => simp
  | cons b l ih =>
    rw [List.foldl_cons, ih, Dict.get?_set, List.any_cons, ← Bool.or_assoc]
    by_cases hk : k = key b
    · simp [hk]
    · simp [hk, Ne.symm hk]

variable {cfg : MatchConfig} {st : MatchState} {start s : Int} {i : Nat}

def MatchState.Stored (st : MatchState) (i : Nat) (start : Int) : Prop := (st.metrics.get? (i, start)).isSome

def MatchState.originAt (st : MatchState) (start : Int) : Option HistoryOrigin :=
  (st.windows.get? start).map RuleMatchWindow.origin

theorem stored_writeRows (rows : List MatchRowToWrite) (hstart : s ≠ start) :
    (st.writeRows cfg start rows).Stored i s ↔ st.Stored i s := by
  have hrest : (Dict.get? (st.metrics.filter (fun item => ¬ (item.1.2 = start ∧ item.1.1 < st.rules.length))) (i, s)) =
      st.metrics.get? (i, s) := by
    rw [Dict.get?_filter st.metrics (fun key => ¬ (key.2 = start ∧ key.1 < st.rules.length)) (i, s)]
    simp [hstart]
  unfold MatchState.Stored MatchState.writeRows
  rw [isSome_foldl_set (fun row : MatchRowToWrite => (row.ruleId, start)), hrest]
  simp [Ne.symm hstart]

theorem stored_writeRows_self {rows w} (hw : w ∈ rows) : (st.writeRows cfg start rows).Stored w.ruleId start := by
  unfold MatchState.Stored MatchState.writeRows
  rw [isSome_foldl_set (fun row : MatchRowToWrite => (row.ruleId, start))]
  simp only [Bool.or_eq_true, List.any_eq_true, decide_eq_true_eq]
  exact .inr ⟨w, hw, rfl⟩

theorem stored_writeHistory (fold : MatchFold) :
    (st.writeHistory cfg fold).Stored i s ↔ st.Stored i s ∨ ∃ w ∈ fold.rows, (w.ruleId, fold.window.windowStart) = (i, s) := by
  unfold MatchState.Stored MatchState.writeHistory
  rw [isSome_foldl_insertNew (fun row : MatchRowToWrite => (row.ruleId, fold.window.windowStart))]
  simp only [Bool.or_eq_true, List.any_eq_true, decide_eq_true_eq]

theorem writeWindow_frame (st : MatchState) (window : WindowRecord) (attempts : Nat) :
    (st.writeWindow window attempts).rules = st.rules ∧ (st.writeWindow window attempts).metrics = st.metrics ∧
      (st.writeWindow window attempts).watermark = st.watermark ∧ (st.writeWindow window attempts).run = st.run ∧
      (st.writeWindow window attempts).lastRunAt = st.lastRunAt ∧ (st.writeWindow window attempts).seen = st.seen := by
  unfold MatchState.writeWindow
  split
  · exact ⟨rfl, rfl, rfl, rfl, rfl, rfl⟩
  · split <;> exact ⟨rfl, rfl, rfl, rfl, rfl, rfl⟩

theorem originAt_writeWindow (st : MatchState) (window : WindowRecord) (attempts : Nat) (s : Int) :
    (st.writeWindow window attempts).originAt s =
      if s = window.windowStart then some ((st.originAt s).getD .LIVE) else st.originAt s := by
  unfold MatchState.writeWindow MatchState.originAt
  cases hold : st.windows.get? window.windowStart with
  | none =>
    rw [Dict.get?_set]
    by_cases hs : s = window.windowStart
    · simp [hs, hold, WindowRecord.row]
    · simp [hs]
  | some old =>
    by_cases hkeep : window.status = .FAILED ∧ old.status = .COMPLETE
    · by_cases hs : s = window.windowStart
      · simp [hkeep, hs, hold]
      · simp [hkeep, hs]
    · simp only [hkeep, if_false]
      rw [Dict.get?_set]
      by_cases hs : s = window.windowStart
      · simp [hs, hold, WindowRecord.row]
      · simp [hs]

theorem keys_writeWindow (h : st.windows.keys.Nodup) (window : WindowRecord) (attempts : Nat) :
    (st.writeWindow window attempts).windows.keys.Nodup := by
  unfold MatchState.writeWindow
  split
  · exact Dict.nodup_keys_set h _ _
  · split
    · exact h
    · exact Dict.nodup_keys_set h _ _

end Tables

/-! ## The order of the windows -/

section Order

variable {cfg : MatchConfig} {st : MatchState} {start s : Int}

def lastWindow (cfg : MatchConfig) (now : Int) : Int :=
  settledUntil now cfg.windowSeconds cfg.settleLagSeconds - windowStep cfg.windowSeconds

/-- The windows of the live pass go forward: what was folded, and the oldest live window, are behind the watermark or
before the window that a first run would take. -/
structure InOrder (cfg : MatchConfig) (st : MatchState) : Prop where
  keys : st.windows.keys.Nodup
  behind : ∀ w, st.watermark = some w → ∀ b ∈ st.seen, b.start ≤ w
  unstarted : st.watermark = none → ∀ b ∈ st.seen, ∃ last, st.lastRunAt = some last ∧ b.start < lastWindow cfg last
  anchored : ∀ w, st.watermark = some w → ∃ s ≤ w, st.originAt s = some .LIVE
  waiting : st.watermark = none → ∀ s, st.originAt s = some .LIVE →
    ∃ last, st.lastRunAt = some last ∧ s ≤ lastWindow cfg last
  history : ∀ s, st.originAt s = some .HISTORY → ∃ b ∈ st.seen, b.start = s
  increasing : ∀ run, st.run = some run → run.starts.Pairwise (· < ·)
  ahead : ∀ run, st.run = some run → ∀ s ∈ run.starts, (∀ w, st.watermark = some w → w < s) ∧
    (st.watermark = none → ∃ last, st.lastRunAt = some last ∧ s = lastWindow cfg last)

theorem inOrder_initial : InOrder cfg {} := by
  constructor <;> simp [Dict.keys, MatchState.originAt]

theorem InOrder.fresh (h : InOrder cfg st) {run} (hrun : st.run = some run) (hs : s ∈ run.starts) :
    ∀ b ∈ st.seen, b.start < s := by
  intro b hb
  obtain ⟨hafter, hfirst⟩ := h.ahead run hrun s hs
  cases hw : st.watermark with
  | none =>
    obtain ⟨last, hlast, hlt⟩ := h.unstarted hw b hb
    obtain ⟨last', hlast', rfl⟩ := hfirst hw
    cases hlast.symm.trans hlast'
    exact hlt
  | some w => exact Int.lt_of_le_of_lt (h.behind w hw b hb) (hafter w hw)

theorem InOrder.live (h : InOrder cfg st) {run} (hrun : st.run = some run) (hs : s ∈ run.starts) :
    (st.originAt s).getD .LIVE = .LIVE := by
  cases horigin : st.originAt s with
  | none => rfl
  | some origin =>
    cases origin with
    | LIVE => rfl
    | HISTORY =>
      obtain ⟨b, hb, rfl⟩ := h.history s horigin
      exact absurd (h.fresh hrun hs b hb) (Int.lt_irrefl _)

theorem InOrder.beforeAnchor (h : InOrder cfg st) {anchor} (hanchor : st.anchor cfg = some anchor)
    (hlt : start < anchor) (hgrid : floorToWindow start cfg.windowSeconds = start) :
    (∀ w, st.watermark = some w → start ≤ w) ∧
      (st.watermark = none → ∃ last, st.lastRunAt = some last ∧ start < lastWindow cfg last) := by
  obtain ⟨oldest, hmin, rfl⟩ := Option.map_eq_some_iff.mp hanchor
  obtain ⟨hmem, hleast⟩ := List.min?_eq_some_iff.mp hmin
  have hlive (s : Int) : s ∈ (st.windows.filter (fun item => item.2.origin = .LIVE)).map Prod.fst ↔
      st.originAt s = some .LIVE := by
    simp only [List.mem_map, List.mem_filter, decide_eq_true_eq, MatchState.originAt, Option.map_eq_some_iff,
      Dict.get?_eq_some_iff h.keys]
    constructor
    · rintro ⟨⟨s, row⟩, ⟨hrow, horigin⟩, rfl⟩
      exact ⟨row, hrow, horigin⟩
    · rintro ⟨row, hrow, horigin⟩
      exact ⟨(s, row), ⟨hrow, horigin⟩, rfl⟩
  have hbefore : start < oldest := by
    refine Int.not_le.mp (fun hle => ?_)
    have := floorToWindow_mono cfg.windowSeconds_pos hle
    omega
  refine ⟨fun w hw => ?_, fun hw => ?_⟩
  · obtain ⟨s, hsw, horigin⟩ := h.anchored w hw
    have := hleast s ((hlive s).mpr horigin)
    omega
  · obtain ⟨last, hlast, hle⟩ := h.waiting hw oldest ((hlive oldest).mp hmem)
    exact ⟨last, hlast, by omega⟩

theorem InOrder.forward {st'} (h : InOrder cfg st) {rest ruleIds ruleIds'}
    (hrun : st.run = some ⟨start :: rest, ruleIds⟩) (hkeys : st'.windows.keys.Nodup)
    (hwatermark : st'.watermark = some start) (hrun' : st'.run = some ⟨rest, ruleIds'⟩)
    (horigin : ∀ s, st'.originAt s = if s = start then some ((st.originAt s).getD .LIVE) else st.originAt s)
    (hkept : ∀ b ∈ st.seen, b ∈ st'.seen) (hseen : ∀ b ∈ st'.seen, b ∈ st.seen ∨ b.start = start) : InOrder cfg st' := by
  have hfresh := h.fresh hrun List.mem_cons_self
  have hlive := h.live hrun List.mem_cons_self
  have hpairs := List.pairwise_cons.mp (h.increasing _ hrun)
  refine ⟨hkeys, ?_, fun hnone => ?_, ?_, fun hnone => ?_, ?_, ?_, ?_⟩
  · intro w hw b hb
    cases hwatermark.symm.trans hw
    rcases hseen b hb with hold | heq
    · exact Int.le_of_lt (hfresh b hold)
    · exact Int.le_of_eq heq
  · cases hwatermark.symm.trans hnone
  · intro w hw
    cases hwatermark.symm.trans hw
    exact ⟨start, Int.le_refl _, by rw [horigin, if_pos rfl, hlive]⟩
  · cases hwatermark.symm.trans hnone
  · intro s hs
    rw [horigin] at hs
    by_cases heq : s = start
    · rw [if_pos heq, heq, hlive] at hs
      cases hs
    · rw [if_neg heq] at hs
      obtain ⟨b, hb, hstart⟩ := h.history s hs
      exact ⟨b, hkept b hb, hstart⟩
  · intro run hopen
    cases hrun'.symm.trans hopen
    exact hpairs.2
  · intro run hopen s hs
    cases hrun'.symm.trans hopen
    refine ⟨fun w hw => ?_, fun hnone => ?_⟩
    · cases hwatermark.symm.trans hw
      exact hpairs.1 s hs
    · cases hwatermark.symm.trans hnone

theorem InOrder.stop {st'} (h : InOrder cfg st) {rest ruleIds ruleIds'} (hrun : st.run = some ⟨start :: rest, ruleIds⟩)
    (hkeys : st'.windows.keys.Nodup) (hwatermark : st'.watermark = st.watermark) (hrun' : st'.run = some ⟨[], ruleIds'⟩)
    (hlast : st'.lastRunAt = st.lastRunAt)
    (horigin : ∀ s, st'.originAt s = if s = start then some ((st.originAt s).getD .LIVE) else st.originAt s)
    (hseen : st'.seen = st.seen) : InOrder cfg st' := by
  have hlive := h.live hrun List.mem_cons_self
  obtain ⟨-, hfirst⟩ := h.ahead _ hrun start List.mem_cons_self
  refine ⟨hkeys, ?_, ?_, ?_, ?_, ?_, ?_, ?_⟩
  · rw [hwatermark, hseen]
    exact h.behind
  · rw [hwatermark, hseen, hlast]
    exact h.unstarted
  · intro w hw
    obtain ⟨s, hsw, hs⟩ := h.anchored w (hwatermark ▸ hw)
    refine ⟨s, hsw, ?_⟩
    rw [horigin]
    split <;> simp [hs]
  · intro hnone s hs
    rw [hlast]
    rw [hwatermark] at hnone
    rw [horigin] at hs
    by_cases heq : s = start
    · obtain ⟨last, hlast, hstart⟩ := hfirst hnone
      exact ⟨last, hlast, Int.le_of_eq (heq.trans hstart)⟩
    · rw [if_neg heq] at hs
      exact h.waiting hnone s hs
  · intro s hs
    rw [horigin] at hs
    rw [hseen]
    by_cases heq : s = start
    · rw [if_pos heq, heq, hlive] at hs
      cases hs
    · rw [if_neg heq] at hs
      exact h.history s hs
  · intro run hopen
    cases hrun'.symm.trans hopen
    exact .nil
  · intro run hopen s hs
    cases hrun'.symm.trans hopen
    cases hs

theorem InOrder.recordWindow (h : InOrder cfg st) {rest ruleIds}
    (hrun : st.run = some ⟨start :: rest, ruleIds⟩) (batch : RuleMatchBatch) (joined : Dict Int Nat) :
    InOrder cfg { st.recordWindow cfg start batch joined with run := some ⟨rest, ruleIds⟩ } := by
  let fold := foldRuleMatches batch joined start cfg.windowSeconds
  have hkeys : (st.writeRows cfg start fold.rows).windows.keys.Nodup := h.keys
  refine h.forward hrun (keys_writeWindow hkeys fold.window (st.priorAttempts start + 1)) rfl rfl
    (originAt_writeWindow (st.writeRows cfg start fold.rows) fold.window (st.priorAttempts start + 1)) ?_ ?_
  · exact fun b hb => List.mem_append_left _ hb
  · intro b hb
    rcases List.mem_append.mp hb with hb | hb
    · exact .inl hb
    · exact .inr (by rw [List.mem_singleton.mp hb])

theorem InOrder.failWindow (h : InOrder cfg st) {rest ruleIds}
    (hrun : st.run = some ⟨start :: rest, ruleIds⟩) : InOrder cfg (st.failWindow cfg start rest ruleIds) := by
  let window := failedWindow start cfg.windowSeconds cfg.maxRows failedQueryVersion
  have hkeys := keys_writeWindow h.keys window (st.priorAttempts start + 1)
  have horigin := originAt_writeWindow st window (st.priorAttempts start + 1)
  obtain ⟨-, -, hwatermark, -, hlast, hseen⟩ := writeWindow_frame st window (st.priorAttempts start + 1)
  unfold MatchState.failWindow
  simp only
  split
  · exact h.forward hrun hkeys rfl rfl horigin (fun b hb => hseen ▸ hb) (fun b hb => .inl (hseen ▸ hb))
  · exact h.stop hrun hkeys hwatermark rfl hlast horigin hseen

theorem InOrder.historyWindow (h : InOrder cfg st) {anchor} (hanchor : st.anchor cfg = some anchor)
    (hlt : start < anchor) (hgrid : floorToWindow start cfg.windowSeconds = start) (batch : RuleMatchBatch)
    (joined : Dict Int Nat) (ruleIds : Option (Dict Int Nat)) :
    InOrder cfg { st.writeHistory cfg (foldRuleMatches batch joined start cfg.windowSeconds) with
      run := some ⟨[], ruleIds⟩, seen := st.seen ++ [⟨start, batch, joined⟩] } := by
  obtain ⟨hbehind, hunstarted⟩ := h.beforeAnchor hanchor hlt hgrid
  let fold := foldRuleMatches batch joined start cfg.windowSeconds
  have horigin (s : Int) : (st.writeHistory cfg fold).originAt s =
      if s = start then (st.originAt s).or (some .HISTORY) else st.originAt s := by
    have hget : (st.writeHistory cfg fold).windows.get? s =
        if s = start then (st.windows.get? start).or (some (fold.window.row .HISTORY 1)) else st.windows.get? s :=
      get?_insertNew st.windows start s _
    unfold MatchState.originAt
    rw [hget]
    by_cases hs : s = start
    · rw [if_pos hs, if_pos hs, hs]
      cases st.windows.get? start <;> rfl
    · rw [if_neg hs, if_neg hs]
  refine ⟨keys_insertNew h.keys _ _, ?_, ?_, ?_, ?_, ?_, ?_, ?_⟩
  · intro w hw b hb
    rcases List.mem_append.mp hb with hb | hb
    · exact h.behind w hw b hb
    · rw [List.mem_singleton.mp hb]
      exact hbehind w hw
  · intro hnone b hb
    rcases List.mem_append.mp hb with hb | hb
    · exact h.unstarted hnone b hb
    · rw [List.mem_singleton.mp hb]
      exact hunstarted hnone
  · intro w hw
    obtain ⟨s, hsw, hs⟩ := h.anchored w hw
    refine ⟨s, hsw, (horigin s).trans ?_⟩
    split <;> simp [hs]
  · intro hnone s hs
    have hs := (horigin s).symm.trans hs
    refine h.waiting hnone s ?_
    split at hs
    · cases hold : st.originAt s with
      | none => simp [hold] at hs
      | some origin => simpa [hold] using hs
    · exact hs
  · intro s hs
    have hs := (horigin s).symm.trans hs
    by_cases heq : s = start
    · exact ⟨_, List.mem_append_right _ (List.mem_singleton_self _), heq.symm⟩
    · rw [if_neg heq] at hs
      obtain ⟨b, hb, hstart⟩ := h.history s hs
      exact ⟨b, List.mem_append_left _ hb, hstart⟩
  · rintro run ⟨⟩
    exact .nil
  · rintro run ⟨⟩ s hs
    cases hs

theorem originAt_skipped (l : List Int) (row : Int → RuleMatchWindow) (hlive : ∀ s, (row s).origin = .LIVE)
    (d : Dict Int RuleMatchWindow) (s : Int) :
    ((l.foldl (fun d start => insertNew d start (row start)) d).get? s).map RuleMatchWindow.origin =
      ((d.get? s).map RuleMatchWindow.origin).or (if s ∈ l then some .LIVE else none) := by
  induction l generalizing d with
  | nil => simp
  | cons start l ih =>
    rw [List.foldl_cons, ih, get?_insertNew]
    by_cases hs : s = start
    · subst hs
      cases d.get? s <;> simp [hlive]
    · simp [hs]

theorem keys_skipped (l : List Int) (row : Int → RuleMatchWindow) {d} (h : d.keys.Nodup) :
    (l.foldl (fun d start => insertNew d start (row start)) d).keys.Nodup := by
  induction l generalizing d with
  | nil => exact h
  | cons start l ih => exact ih (keys_insertNew h start (row start))

structure Skipped (st st' : MatchState) : Prop where
  rules : st'.rules = st.rules
  metrics : st'.metrics = st.metrics
  run : st'.run = st.run
  lastRunAt : st'.lastRunAt = st.lastRunAt
  seen : st'.seen = st.seen
  keys : st.windows.keys.Nodup → st'.windows.keys.Nodup
  kept : ∀ s origin, st.originAt s = some origin → st'.originAt s = some origin
  history : ∀ s, st'.originAt s = some .HISTORY → st.originAt s = some .HISTORY
  none : st.watermark = none → st' = st
  later : ∀ w, st.watermark = some w → ∃ w', st'.watermark = some w' ∧ w ≤ w'

theorem firstStart_spec {first} (h : st.firstStart cfg = some first) :
    windowStep cfg.windowSeconds ∣ first ∧ ∀ w, st.watermark = some w → w < first := by
  obtain ⟨w, hw, rfl⟩ := Option.map_eq_some_iff.mp h
  have hdvd := floorToWindow_dvd (w + windowStep cfg.windowSeconds) cfg.windowSeconds
  have hafter := lt_floorToWindow (w + windowStep cfg.windowSeconds) cfg.windowSeconds_pos
  have hlt : ¬ floorToWindow (w + windowStep cfg.windowSeconds) cfg.windowSeconds ≤ w := by omega
  simp only [hlt, if_false]
  refine ⟨hdvd, fun w' hw' => ?_⟩
  cases hw.symm.trans hw'
  omega

theorem horizon_dvd (cfg : MatchConfig) (now : Int) : windowStep cfg.windowSeconds ∣
    min (floorToWindow (settledUntil now cfg.windowSeconds cfg.settleLagSeconds - cfg.maxCatchupSeconds * secondMicros)
      cfg.windowSeconds) (settledUntil now cfg.windowSeconds cfg.settleLagSeconds - windowStep cfg.windowSeconds) := by
  rw [Int.min_def]
  split
  · exact floorToWindow_dvd _ _
  · exact Int.dvd_sub (floorToWindow_dvd _ _) (Int.dvd_refl _)

theorem skipBeyondHorizon_skipped (cfg : MatchConfig) (st : MatchState) (now : Int) :
    Skipped st (st.skipBeyondHorizon cfg now) := by
  have hsame : Skipped st st := ⟨rfl, rfl, rfl, rfl, rfl, fun h => h, fun _ _ h => h, fun _ h => h, fun _ => rfl,
    fun w hw => ⟨w, hw, Int.le_refl _⟩⟩
  unfold MatchState.skipBeyondHorizon
  cases hfirst : st.firstStart cfg with
  | none => exact hsame
  | some first =>
    obtain ⟨hdvd, hafter⟩ := firstStart_spec hfirst
    generalize hhorizon : min (floorToWindow (settledUntil now cfg.windowSeconds cfg.settleLagSeconds -
      cfg.maxCatchupSeconds * secondMicros) cfg.windowSeconds)
      (settledUntil now cfg.windowSeconds cfg.settleLagSeconds - windowStep cfg.windowSeconds) = horizon
    have hgrid : windowStep cfg.windowSeconds ∣ horizon := hhorizon ▸ horizon_dvd cfg now
    simp only [hhorizon]
    split
    · exact hsame
    · rename_i hbeyond
      have hskipped := originAt_skipped (windowsBetween first horizon (windowStep cfg.windowSeconds))
        (fun start => (failedWindow start cfg.windowSeconds cfg.maxRows failedQueryVersion).row .LIVE 0) (fun _ => rfl)
        st.windows
      refine ⟨rfl, rfl, rfl, rfl, rfl, fun h => keys_skipped _ _ h, fun s origin hs => ?_, fun s hs => ?_, fun hnone => ?_,
        fun w hw => ⟨_, rfl, ?_⟩⟩
      · refine (hskipped s).trans ?_
        rw [show (st.windows.get? s).map RuleMatchWindow.origin = some origin from hs, Option.some_or]
      · have hs := (hskipped s).symm.trans hs
        cases hold : st.originAt s with
        | none =>
          rw [show (st.windows.get? s).map RuleMatchWindow.origin = none from hold] at hs
          split at hs <;> cases hs
        | some origin =>
          rw [show (st.windows.get? s).map RuleMatchWindow.origin = some origin from hold] at hs
          exact hs
      · simp [MatchState.firstStart, hnone] at hfirst
      · have hgap := Int.le_of_dvd (by omega) (Int.dvd_sub hgrid hdvd)
        have := hafter w hw
        omega

theorem windowsToCollect_spec {now limit} (h : s ∈ st.windowsToCollect cfg now limit) :
    (∀ w, st.watermark = some w → w < s) ∧ (st.watermark = none → s = lastWindow cfg now) := by
  have hpos := windowStep_pos cfg.windowSeconds_pos
  have hmem := List.mem_of_mem_take h
  refine ⟨fun w hw => ?_, fun hnone => ?_⟩
  · cases hfirst : st.firstStart cfg with
    | none => simp [MatchState.firstStart, hw] at hfirst
    | some first =>
      rw [hfirst] at hmem
      exact Int.lt_of_lt_of_le ((firstStart_spec hfirst).2 w hw) (first_le_of_mem_windowsBetween hpos hmem)
  · rw [show st.firstStart cfg = none by simp [MatchState.firstStart, hnone]] at hmem
    exact windowsBetween_last hpos hmem

theorem InOrder.collect (h : InOrder cfg st) {now} (hclock : ∀ last, st.lastRunAt = some last → last ≤ now)
    (limit : Nat) (ruleIds : Option (Dict Int Nat)) :
    InOrder cfg { st.skipBeyondHorizon cfg now with
      run := some ⟨(st.skipBeyondHorizon cfg now).windowsToCollect cfg now limit, ruleIds⟩
      lastRunAt := some now } := by
  have hskip := skipBeyondHorizon_skipped cfg st now
  generalize st.skipBeyondHorizon cfg now = st' at hskip
  have hlater (last : Int) (hlast : st.lastRunAt = some last) : lastWindow cfg last ≤ lastWindow cfg now :=
    Int.sub_le_sub_right (settledUntil_mono cfg.windowSeconds_pos (hclock last hlast)) _
  have hunmoved (hnone : st'.watermark = none) : st' = st := by
    cases hw : st.watermark with
    | none => exact hskip.none hw
    | some w =>
      obtain ⟨w', hw', -⟩ := hskip.later w hw
      cases hnone.symm.trans hw'
  refine ⟨hskip.keys h.keys, ?_, ?_, ?_, ?_, ?_, ?_, ?_⟩
  · intro w' hw' b hb
    rw [hskip.seen] at hb
    cases hw : st.watermark with
    | none =>
      rw [hskip.none hw] at hw'
      cases hw.symm.trans hw'
    | some w =>
      obtain ⟨found, hfound, hle⟩ := hskip.later w hw
      cases hfound.symm.trans hw'
      exact Int.le_trans (h.behind w hw b hb) hle
  · intro hnone b hb
    cases hunmoved hnone
    obtain ⟨last, hlast, hlt⟩ := h.unstarted hnone b hb
    exact ⟨now, rfl, Int.lt_of_lt_of_le hlt (hlater last hlast)⟩
  · intro w' hw'
    cases hw : st.watermark with
    | none =>
      rw [hskip.none hw] at hw'
      cases hw.symm.trans hw'
    | some w =>
      obtain ⟨found, hfound, hle⟩ := hskip.later w hw
      cases hfound.symm.trans hw'
      obtain ⟨s, hsw, hs⟩ := h.anchored w hw
      exact ⟨s, Int.le_trans hsw hle, hskip.kept s _ hs⟩
  · intro hnone s hs
    cases hunmoved hnone
    obtain ⟨last, hlast, hle⟩ := h.waiting hnone s hs
    exact ⟨now, rfl, Int.le_trans hle (hlater last hlast)⟩
  · intro s hs
    obtain ⟨b, hb, hstart⟩ := h.history s (hskip.history s hs)
    exact ⟨b, hskip.seen ▸ hb, hstart⟩
  · rintro run ⟨⟩
    exact (pairwise_windowsBetween (windowStep_pos cfg.windowSeconds_pos)).sublist (List.take_sublist _ _)
  · rintro run ⟨⟩ s hs
    obtain ⟨hafter, hfirst⟩ := windowsToCollect_spec hs
    exact ⟨hafter, fun hnone => ⟨now, rfl, hfirst hnone⟩⟩

inductive MatchStep (cfg : MatchConfig) (st : MatchState) : MatchEvent → MatchState → Prop
  | sync (dto : AnalyticsRuleDto) (now : Int) : MatchStep cfg st (.sync dto now)
      { st with rules := syncRule cfg st.rules dto now }
  | collect (now : Int) (cadence : Nat) (starts : List Int)
      (due : starts = (st.skipBeyondHorizon cfg now).windowsToCollect cfg now (runLimit cfg cadence))
      (clock : ∀ last, st.lastRunAt = some last → last ≤ now) : MatchStep cfg st (.collect now cadence)
        { st.skipBeyondHorizon cfg now with
          run := some ⟨starts, if starts = [] then none else some (ruleIdMap st.rules)⟩
          lastRunAt := some now }
  | failed {start rest ruleIds} (running : st.run = some ⟨start :: rest, ruleIds⟩) :
      MatchStep cfg st (.window none) (st.failWindow cfg start rest ruleIds)
  | recorded {start rest ruleIds} (running : st.run = some ⟨start :: rest, ruleIds⟩) (batch : RuleMatchBatch) :
      MatchStep cfg st (.window (some batch))
        { st.recordWindow cfg start batch (ruleIds.getD []) with run := some ⟨rest, ruleIds⟩ }
  | history {start ruleIds anchor} (running : st.run = some ⟨[], ruleIds⟩) (batch : RuleMatchBatch)
      (anchored : st.anchor cfg = some anchor) (before : start < anchor)
      (grid : floorToWindow start cfg.windowSeconds = start) : MatchStep cfg st (.history start batch)
        { st.writeHistory cfg (foldRuleMatches batch (ruleIds.getD (ruleIdMap st.rules)) start cfg.windowSeconds) with
          run := some ⟨[], some (ruleIds.getD (ruleIdMap st.rules))⟩
          seen := st.seen ++ [⟨start, batch, ruleIds.getD (ruleIdMap st.rules)⟩] }
  | close : MatchStep cfg st .close { st with run := none }

theorem step_cases {ev st'} (h : st.step cfg ev = .ok st') : MatchStep cfg st ev st' := by
  cases ev with
  | sync dto now =>
    cases h
    exact .sync dto now
  | collect now cadence =>
    simp only [MatchState.step] at h
    split at h
    · cases h
    · rename_i hidle
      cases h
      refine .collect now cadence _ rfl (fun last hlast => ?_)
      rw [hlast] at hidle
      simpa using (not_or.mp hidle).2
  | window answer =>
    simp only [MatchState.step] at h
    split at h
    · rename_i hrun
      cases answer with
      | none =>
        cases h
        exact .failed hrun
      | some batch =>
        cases h
        exact .recorded hrun batch
    · cases h
  | history start batch =>
    simp only [MatchState.step] at h
    split at h
    · rename_i hrun
      split at h
      · cases h
      · rename_i hguard
        cases h
        rw [not_or, not_or, Decidable.not_not] at hguard
        obtain ⟨hanchor, hbefore, hgrid⟩ := hguard
        obtain ⟨anchor, hanchor⟩ := Option.ne_none_iff_exists'.mp hanchor
        exact .history hrun batch hanchor (by simpa [hanchor] using hbefore) hgrid
    · cases h
  | close =>
    simp only [MatchState.step] at h
    split at h
    · cases h
      exact .close
    · cases h

theorem InOrder.step (h : InOrder cfg st) {ev st'} (hstep : st.step cfg ev = .ok st') : InOrder cfg st' := by
  cases step_cases hstep with
  | sync => exact ⟨h.keys, h.behind, h.unstarted, h.anchored, h.waiting, h.history, h.increasing, h.ahead⟩
  | collect now cadence starts hdue hclock =>
    rw [hdue]
    exact h.collect hclock _ _
  | failed hrun => exact h.failWindow hrun
  | recorded hrun batch => exact h.recordWindow hrun batch _
  | history hrun batch hanchor hbefore hgrid => exact h.historyWindow hanchor hbefore hgrid batch _ _
  | close => exact ⟨h.keys, h.behind, h.unstarted, h.anchored, h.waiting, h.history, nofun, nofun⟩

end Order

/-! ## The rows of the folded batches -/

section Remembered

variable {cfg : MatchConfig} {st st' : MatchState} {ev : MatchEvent}

def RuleMatchBatch.JoinsTo (batch : RuleMatchBatch) (rules : List AnalyticsRule) (ruleIds : Dict Int Nat) : Prop :=
  ∀ row ∈ batch.rows, ∀ rule ∈ rules, rule.qradarId = row.qradarRuleId → (ruleIds.get? row.qradarRuleId).isSome

/-- The rows of every folded batch that name a rule of the inventory are stored under that rule. -/
structure Remembered (st : MatchState) : Prop where
  distinct : Distinct st.rules
  sound : ∀ b ∈ st.seen, Sound st.rules b.ruleIds
  runSound : ∀ run ids, st.run = some run → run.ruleIds = some ids → Sound st.rules ids
  stored : ∀ b ∈ st.seen, ∀ row ∈ b.batch.rows, ∀ i, b.ruleIds.get? row.qradarRuleId = some i → st.Stored i b.start

theorem remembered_initial : Remembered {} := ⟨by simp [Distinct], by simp, nofun, by simp⟩

theorem sound_nil (rules : List AnalyticsRule) : Sound rules [] := nofun

theorem Remembered.runMap (h : Remembered st) {starts ruleIds other}
    (hrun : st.run = some ⟨starts, ruleIds⟩) (hother : Sound st.rules other) : Sound st.rules (ruleIds.getD other) := by
  cases ruleIds with
  | none => exact hother
  | some ids => exact h.runSound _ ids hrun rfl

theorem failWindow_frame (cfg : MatchConfig) (st : MatchState) (start : Int) (rest : List Int)
    (ruleIds : Option (Dict Int Nat)) :
    (st.failWindow cfg start rest ruleIds).rules = st.rules ∧ (st.failWindow cfg start rest ruleIds).metrics = st.metrics ∧
      (st.failWindow cfg start rest ruleIds).seen = st.seen ∧
      ∃ starts, (st.failWindow cfg start rest ruleIds).run = some ⟨starts, ruleIds⟩ := by
  obtain ⟨hrules, hmetrics, -, -, -, hseen⟩ := writeWindow_frame st
    (failedWindow start cfg.windowSeconds cfg.maxRows failedQueryVersion) (st.priorAttempts start + 1)
  unfold MatchState.failWindow
  simp only
  split
  · exact ⟨hrules, hmetrics, hseen, rest, rfl⟩
  · exact ⟨hrules, hmetrics, hseen, [], rfl⟩

theorem Remembered.recordWindow (h : Remembered st) (horder : InOrder cfg st) {start rest ruleIds}
    (hrun : st.run = some ⟨start :: rest, ruleIds⟩) (batch : RuleMatchBatch) :
    Remembered { st.recordWindow cfg start batch (ruleIds.getD []) with run := some ⟨rest, ruleIds⟩ } := by
  have hsound := h.runMap hrun (sound_nil st.rules)
  generalize ruleIds.getD [] = joined at hsound
  let fold := foldRuleMatches batch joined start cfg.windowSeconds
  obtain ⟨hrules, hmetrics, -⟩ := writeWindow_frame (st.writeRows cfg start fold.rows) fold.window (st.priorAttempts start + 1)
  have hstored (i : Nat) (s : Int) : (st.recordWindow cfg start batch joined).Stored i s ↔
      (st.writeRows cfg start fold.rows).Stored i s := by
    unfold MatchState.Stored
    exact iff_of_eq (congrArg (fun metrics => (Dict.get? metrics (i, s)).isSome = true) hmetrics)
  refine ⟨?_, ?_, ?_, ?_⟩
  · exact (congrArg Distinct hrules).mpr h.distinct
  · intro b hb
    refine (congrArg (Sound · b.ruleIds) hrules).mpr ?_
    rcases List.mem_append.mp hb with hb | hb
    · exact h.sound b hb
    · rw [List.mem_singleton.mp hb]
      exact hsound
  · rintro run ids ⟨⟩ hids
    exact (congrArg (Sound · ids) hrules).mpr (h.runSound _ ids hrun hids)
  · intro b hb row hrow i hid
    refine (hstored i b.start).mpr ?_
    rcases List.mem_append.mp hb with hb | hb
    · rw [stored_writeRows fold.rows (Int.ne_of_lt (horder.fresh hrun List.mem_cons_self b hb))]
      exact h.stored b hb row hrow i hid
    · cases List.mem_singleton.mp hb
      obtain ⟨w, hw, rfl⟩ := exists_row_of_known start cfg.windowSeconds hrow hid
      exact stored_writeRows_self hw

theorem Remembered.step (h : Remembered st) (horder : InOrder cfg st) (hstep : st.step cfg ev = .ok st') :
    Remembered st' := by
  cases step_cases hstep with
  | sync =>
    exact ⟨h.distinct.sync, fun b hb => (h.sound b hb).sync, fun run ids hrun hids => (h.runSound run ids hrun hids).sync,
      h.stored⟩
  | collect now cadence starts =>
    have hskip := skipBeyondHorizon_skipped cfg st now
    refine ⟨?_, ?_, ?_, ?_⟩
    · exact (congrArg Distinct hskip.rules).mpr h.distinct
    · intro b hb
      exact (congrArg (Sound · b.ruleIds) hskip.rules).mpr (h.sound b (hskip.seen ▸ hb))
    · rintro run ids ⟨⟩ hids
      refine (congrArg (Sound · ids) hskip.rules).mpr ?_
      simp only at hids
      split at hids
      · cases hids
      · cases hids
        exact ruleIdMap_sound st.rules
    · intro b hb row hrow i hid
      unfold MatchState.Stored
      simp only [hskip.metrics]
      exact h.stored b (hskip.seen ▸ hb) row hrow i hid
  | @failed start rest ruleIds hrun =>
    obtain ⟨hrules, hmetrics, hseen, starts, hrun'⟩ := failWindow_frame cfg st start rest ruleIds
    refine ⟨hrules ▸ h.distinct, ?_, ?_, ?_⟩
    · rw [hrules, hseen]
      exact h.sound
    · intro run ids hopen hids
      cases hrun'.symm.trans hopen
      rw [hrules]
      exact h.runSound _ ids hrun hids
    · rw [hseen]
      unfold MatchState.Stored
      rw [hmetrics]
      exact h.stored
  | recorded hrun batch => exact h.recordWindow horder hrun batch
  | @history start ruleIds anchor hrun batch =>
    have hsound := h.runMap hrun (ruleIdMap_sound st.rules)
    generalize ruleIds.getD (ruleIdMap st.rules) = joined at hsound
    refine ⟨h.distinct, ?_, ?_, ?_⟩
    · intro b hb
      rcases List.mem_append.mp hb with hb | hb
      · exact h.sound b hb
      · rw [List.mem_singleton.mp hb]
        exact hsound
    · rintro run ids ⟨⟩ ⟨⟩
      exact hsound
    · intro b hb row hrow i hid
      refine (stored_writeHistory (foldRuleMatches batch joined start cfg.windowSeconds)).mpr ?_
      rcases List.mem_append.mp hb with hb | hb
      · exact .inl (h.stored b hb row hrow i hid)
      · cases List.mem_singleton.mp hb
        obtain ⟨w, hw, rfl⟩ := exists_row_of_known start cfg.windowSeconds hrow hid
        exact .inr ⟨w, hw, rfl⟩
  | close => exact ⟨h.distinct, h.sound, nofun, h.stored⟩

/-! ### What the inventory lacked -/

/-- No rule of the inventory has an id that a folded batch held and its map did not. -/
def AllJoined (st : MatchState) : Prop := ∀ b ∈ st.seen, b.batch.JoinsTo st.rules b.ruleIds

abbrev MatchTaken := Taken MatchState MatchEvent MatchState

/-- A rule new to the inventory has an id that no folded batch held, and a batch is joined to a map that has every id of
it that the inventory has. -/
def MatchTaken.KeepsJoined (e : MatchTaken) : Prop :=
  match e.input with
  | .sync dto _ => (∀ rule ∈ e.before.rules, rule.qradarId ≠ dto.qradarId) →
      ∀ b ∈ e.before.seen, ∀ row ∈ b.batch.rows, row.qradarRuleId ≠ dto.qradarId
  | .window (some batch) => ∀ run, e.before.run = some run → batch.JoinsTo e.before.rules (run.ruleIds.getD [])
  | .history _ batch => ∀ run, e.before.run = some run →
      batch.JoinsTo e.before.rules (run.ruleIds.getD (ruleIdMap e.before.rules))
  | .window none | .collect _ _ | .close => True

theorem AllJoined.step (h : AllJoined st) (hkeep : MatchTaken.KeepsJoined ⟨st, ev, st'⟩)
    (hstep : st.step cfg ev = .ok st') : AllJoined st' := by
  cases step_cases hstep with
  | sync dto now =>
    intro b hb row hrow rule hrule hid
    rcases mem_syncRule hrule with hnew | ⟨old, hold, hsame⟩
    · by_cases hknown : ∀ rule ∈ st.rules, rule.qradarId ≠ dto.qradarId
      · exact absurd (hid.symm.trans hnew) (hkeep hknown b hb row hrow)
      · simp only [not_forall, Decidable.not_not] at hknown
        obtain ⟨old, hold, hsame⟩ := hknown
        exact h b hb row hrow old hold (hsame.trans (hnew.symm.trans hid))
    · exact h b hb row hrow old hold (hsame.trans hid)
  | collect now =>
    have hskip := skipBeyondHorizon_skipped cfg st now
    unfold AllJoined
    simp only [hskip.seen, hskip.rules]
    exact h
  | @failed start rest ruleIds =>
    obtain ⟨hrules, -, hseen, -⟩ := failWindow_frame cfg st start rest ruleIds
    unfold AllJoined
    rw [hrules, hseen]
    exact h
  | @recorded start rest ruleIds hrun batch =>
    let fold := foldRuleMatches batch (ruleIds.getD []) start cfg.windowSeconds
    obtain ⟨hrules, -⟩ := writeWindow_frame (st.writeRows cfg start fold.rows) fold.window (st.priorAttempts start + 1)
    intro b hb
    refine (congrArg (b.batch.JoinsTo · b.ruleIds) hrules).mpr ?_
    rcases List.mem_append.mp hb with hb | hb
    · exact h b hb
    · rw [List.mem_singleton.mp hb]
      exact hkeep _ hrun
  | history hrun =>
    intro b hb
    rcases List.mem_append.mp hb with hb | hb
    · exact h b hb
    · rw [List.mem_singleton.mp hb]
      exact hkeep _ hrun
  | close => exact h

theorem Remembered.stored_of_mem (h : Remembered st) (hjoined : AllJoined st) {i rule}
    (hrule : st.rules[i]? = some rule) {b} (hb : b ∈ st.seen) {row}
    (hrow : row ∈ b.batch.rows) (hid : row.qradarRuleId = rule.qradarId) : st.Stored i b.start := by
  obtain ⟨j, hj⟩ := Option.isSome_iff_exists.mp (hjoined b hb row hrow rule (List.mem_of_getElem? hrule) hid.symm)
  have hsound := h.sound b hb _ j hj
  have hi : (st.rules.map AnalyticsRule.qradarId)[i]? = some row.qradarRuleId := by
    rw [List.getElem?_map, hrule, Option.map_some, hid]
  rw [← List.getElem?_map] at hsound
  have hlt := (List.getElem?_eq_some_iff.mp hi).1
  have heq : i = j := (List.getElem?_inj hlt h.distinct).mp (hi.trans hsound.symm)
  exact h.stored b hb row hrow i (heq ▸ hj)

end Remembered

end QRadarDashboard.Rules
