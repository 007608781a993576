import QRadarDashboard.Collectors.OffenseCollector

/-!
# What the watermark of the offenses vouches for
-/

namespace QRadarDashboard.Collectors
open Lib

variable {κ : Type} {env : OffenseEnv κ}

theorem reduceOption_map_some {α : Type} (l : List α) : (l.map some).reduceOption = l := by
  show (l.map some).filterMap id = l
  simp

/-- The page is one of `rows`, or the request fails. -/
def ServesPage {ε α : Type} (size : Nat) (rows : List α) (page : Nat) (answer : Except ε (Option (List (Option α)))) : Prop :=
  answer = .ok (some (((rows.drop (page * size)).take size).map some)) ∨ ∃ e, answer = .error e

theorem paginate_served {ε α : Type} {size rows} {request : Nat → Except ε (Option (List (Option α)))}
    (hserves : ∀ page, ServesPage size rows page (request page)) : ∀ {pages page : Nat} {got : List α},
    paginate size request pages page = .ok got → got = (rows.drop (page * size)).take (pages * size) := by
  intro pages
  induction pages with
  | zero =>
    intro page got h
    cases h
    simp
  | succ pages ih =>
    intro page got h
    rw [paginate] at h
    rcases hserves page with hpage | ⟨e, hpage⟩
    · simp only [hpage, List.length_map] at h
      split_ifs at h with hshort
      · cases h
        have hlen : (rows.drop (page * size)).length ≤ size := by
          rw [List.length_take] at hshort
          omega
        rw [reduceOption_map_some, List.take_of_length_le hlen, List.take_of_length_le]
        exact hlen.trans (Nat.le_mul_of_pos_left size pages.succ_pos)
      · cases hrest : paginate size request pages (page + 1) with
        | error e => simp [hrest, Except.map] at h
        | ok rest =>
          simp only [hrest, Except.map, Except.ok.injEq] at h
          rw [← h, reduceOption_map_some, ih hrest, Nat.succ_mul page size, Nat.succ_mul pages size,
            Nat.add_comm (pages * size), List.take_add, List.drop_drop]
    · simp [hpage] at h

/-! ## Snapshots -/

variable (env) in
theorem storeOffense_captured {now snapshots} (h : ∀ s ∈ snapshots, s.capturedAt ≤ now)
    (dto : OffenseDTO κ) : ∀ s ∈ storeOffense env now snapshots dto, s.capturedAt ≤ now := by
  intro s hs
  rw [storeOffense] at hs
  split_ifs at hs
  · exact h s hs
  · rcases List.mem_append.mp hs with hs | hs
    · exact h s (List.mem_of_mem_filter hs)
    · rw [List.mem_singleton.mp hs]

theorem latestHash_storeOffense {now snapshots} (h : ∀ s ∈ snapshots, s.capturedAt ≤ now)
    (dto : OffenseDTO κ) (id : Int) : latestHash (storeOffense env now snapshots dto) id =
      if dto.qradarId = id then some (env.offenseContentHash dto.content) else latestHash snapshots id := by
  rw [storeOffense]
  split_ifs with hsame hid hid
  · rw [← hid, hsame]
  · rfl
  · rw [latestHash, List.filter_append, List.filter_cons_of_pos (by simpa using hid), List.filter_nil, sortOn_append]
    · simp [sortOn]
    · intro a ha b hb
      rw [List.mem_singleton.mp hb]
      exact h a (List.mem_of_mem_filter (List.mem_of_mem_filter ha))
  · rw [latestHash, List.filter_append, List.filter_cons_of_neg (by simpa using hid), List.filter_nil, List.append_nil,
      List.filter_filter, latestHash]
    have hfilter : ∀ s : OffenseSnapshot κ, (decide (s.offense.qradarId = id) &&
        decide (¬ (s.offense.qradarId = dto.qradarId ∧ s.capturedAt = now))) = decide (s.offense.qradarId = id) := by
      grind
    simp only [hfilter]

/-- What a tick stores of an offense, when all it reads of it has one content. -/
theorem latestHash_foldl {now id hash} : ∀ {offenses : List (OffenseDTO κ)}
    {snapshots : List (OffenseSnapshot κ)}, (∀ s ∈ snapshots, s.capturedAt ≤ now) →
    (∀ dto ∈ offenses, dto.qradarId = id → env.offenseContentHash dto.content = hash) →
    latestHash (offenses.foldl (storeOffense env now) snapshots) id = some hash ∨
      (∀ dto ∈ offenses, dto.qradarId ≠ id) ∧
        latestHash (offenses.foldl (storeOffense env now) snapshots) id = latestHash snapshots id
  | [], _, _, _ => Or.inr ⟨nofun, rfl⟩
  | dto :: offenses, snapshots, hcaptured, hhash => by
      have hrest := latestHash_foldl (storeOffense_captured env hcaptured dto) (fun d hd => hhash d (List.mem_cons_of_mem _ hd))
      rcases hrest with hstored | ⟨hother, hkept⟩
      · exact Or.inl hstored
      · rw [List.foldl_cons, hkept, latestHash_storeOffense hcaptured dto id]
        split_ifs with hid
        · exact Or.inl (by rw [hhash dto (List.mem_cons_self ..) hid])
        · exact Or.inr ⟨List.forall_mem_cons.mpr ⟨hid, hother⟩, rfl⟩

theorem le_highWater (offenses : List (OffenseDTO κ)) : ∀ since, since ≤ highWater since offenses := by
  induction offenses with
  | nil => exact fun _ => le_rfl
  | cons dto offenses ih => exact fun since => (le_max_left since _).trans (ih _)

theorem watermark_step {s s' : OffenseStore κ} {move} (h : s.step env move = .ok s') {w}
    (hw : s.watermark.watermarkAt = some w) : ∃ w', s'.watermark.watermarkAt = some w' ∧ w ≤ w' := by
  cases move with
  | persist o => cases h; exact ⟨w, hw, le_rfl⟩
  | collect tick =>
    rw [OffenseStore.step] at h
    split_ifs at h
    · cases h; exact ⟨w, hw, le_rfl⟩
    · split at h <;> cases h
      · exact ⟨w, hw, le_rfl⟩
      · simp only [OffenseStore.write, resumePoint, hw]
        split_ifs
        · exact ⟨w, rfl, le_rfl⟩
        · exact ⟨_, rfl, (le_max_left w _).trans (le_highWater _ _)⟩

/-! ## Runs -/

abbrev OffenseTaken (κ : Type) := Taken (OffenseStore κ) (OffenseMove κ) (OffenseStore κ)

/-- QRadar persists an offense after the watermark. A tick with the lock has a clock that is not behind, and walks over
the offenses persisted after its resume point, under the page ceiling; any request may fail. -/
def OffenseTaken.Faithful (env : OffenseEnv κ) (e : OffenseTaken κ) : Prop :=
  match e.input with
  | .persist o => ∀ w, e.before.watermark.watermarkAt = some w → w < o.persistedTime * 1000
  | .collect tick => tick.acquired → (∀ s ∈ e.before.snapshots, s.capturedAt ≤ tick.now) ∧
      ∃ rows : List (ConsoleOffense κ), rows.length ≤ env.offenseMaxPages * env.pageSize ∧
        (∀ o, o ∈ rows ↔ o ∈ e.before.console ∧ env.epochMs (resumePoint env e.before.watermark tick.now) < o.persistedTime) ∧
        ∀ page, ServesPage env.pageSize rows page (tick.request page)

/-- The offense was persisted before the backfill limit of a tick. -/
def BeforeBackfill (env : OffenseEnv κ) (tr : List (OffenseTaken κ)) (o : ConsoleOffense κ) : Prop :=
  ∃ e ∈ tr, ∃ tick, e.input = .collect tick ∧ o.persistedTime ≤ env.epochMs (backfillFloor env tick.now)

theorem BeforeBackfill.snoc {tr e o} (h : BeforeBackfill env tr o) : BeforeBackfill env (tr ++ [e]) o := by
  obtain ⟨e', he', h⟩ := h
  exact ⟨e', List.mem_append_left _ he', h⟩

structure Caught (env : OffenseEnv κ) (tr : List (OffenseTaken κ)) (s : OffenseStore κ) : Prop where
  ids : ∀ o ∈ s.console, ∀ o' ∈ s.console, o.qradarId = o'.qradarId → o = o'
  caught : ∀ o ∈ s.console, ∀ w, s.watermark.watermarkAt = some w → o.persistedTime * 1000 ≤ w →
    BeforeBackfill env tr o ∨ latestHash s.snapshots o.qradarId = some (env.offenseContentHash o.content)

theorem Caught.write {tr s e tick} {rows : List (ConsoleOffense κ)} (henv : ∀ t, env.epochMs t * 1000 ≤ t)
    (h : Caught env tr s) (he : e.input = .collect tick)
    (hcaptured : ∀ snapshot ∈ s.snapshots, snapshot.capturedAt ≤ tick.now)
    (hrows : ∀ o, o ∈ rows ↔ o ∈ s.console ∧ env.epochMs (resumePoint env s.watermark tick.now) < o.persistedTime) :
    Caught env (tr ++ [e]) (s.write env tick.now (rows.map toOffense)) := by
  refine ⟨h.ids, fun o ho w hw hle => ?_⟩
  -- whatever is stored of the offense is what QRadar has of it
  have hstored : latestHash (s.write env tick.now (rows.map toOffense)).snapshots o.qradarId = some _ ∨ _ :=
    latestHash_foldl hcaptured (fun dto hdto hid => by
      obtain ⟨o', ho', rfl⟩ := List.mem_map.mp (List.mem_of_mem_filter hdto)
      rw [h.ids o' ((hrows o').mp ho').1 o ho hid, toOffense])
  rcases hstored with hstored | ⟨hother, hkept⟩
  · exact Or.inr hstored
  · have hold : ∀ w₀, s.watermark.watermarkAt = some w₀ → o.persistedTime * 1000 ≤ w₀ → BeforeBackfill env (tr ++ [e]) o ∨ _ :=
      fun w₀ hw₀ hle₀ => (h.caught o ho w₀ hw₀ hle₀).imp BeforeBackfill.snoc hkept.trans
    by_cases hdropped : ((rows.map toOffense).filter env.storable).length < (rows.map toOffense).length
    · rw [OffenseStore.write, if_pos hdropped] at hw
      exact hold w hw hle
    · -- nothing was dropped, so the offense was not asked for
      have hall : (rows.map toOffense).filter env.storable = rows.map toOffense :=
        List.filter_sublist.eq_of_length_le (not_lt.mp hdropped)
      have hasked : ¬ env.epochMs (resumePoint env s.watermark tick.now) < o.persistedTime := fun hlt =>
        hother (toOffense o) (by rw [hall]; exact List.mem_map_of_mem ((hrows o).mpr ⟨ho, hlt⟩)) rfl
      have hfloor : resumePoint env s.watermark tick.now = backfillFloor env tick.now → BeforeBackfill env (tr ++ [e]) o :=
        fun heq => ⟨e, by simp, tick, he, heq ▸ not_lt.mp hasked⟩
      cases hw₀ : s.watermark.watermarkAt with
      | none => exact Or.inl (hfloor (by rw [resumePoint, hw₀]))
      | some w₀ =>
        have hpoint : resumePoint env s.watermark tick.now = max w₀ (backfillFloor env tick.now) := by rw [resumePoint, hw₀]
        rcases max_cases w₀ (backfillFloor env tick.now) with ⟨hmax, -⟩ | ⟨hmax, -⟩
        · have hms := henv w₀
          rw [hpoint, hmax] at hasked
          exact hold w₀ hw₀ (by omega)
        · exact Or.inl (hfloor (hpoint.trans hmax))

theorem Caught.step {tr s s' move}
    (henv : ∀ t, env.epochMs t * 1000 ≤ t) (h : Caught env tr s) (hfaithful : OffenseTaken.Faithful env ⟨s, move, s'⟩)
    (hstep : s.step env move = .ok s') : Caught env (tr ++ [⟨s, move, s'⟩]) s' := by
  have hkept : ∀ o ∈ s.console, ∀ w, s.watermark.watermarkAt = some w → o.persistedTime * 1000 ≤ w →
      BeforeBackfill env (tr ++ [⟨s, move, s'⟩]) o ∨
        latestHash s.snapshots o.qradarId = some (env.offenseContentHash o.content) :=
    fun o ho w hw hle => (h.caught o ho w hw hle).imp_left BeforeBackfill.snoc
  cases move with
  | persist o =>
    cases hstep
    refine ⟨?_, fun o' ho' w hw hle => ?_⟩
    · simp only [List.mem_append, List.mem_filter, List.mem_singleton, decide_eq_true_eq]
      rintro a (⟨ha, hne⟩ | rfl) b (⟨hb, hne'⟩ | rfl) hab
      · exact h.ids a ha b hb hab
      · exact absurd hab hne
      · exact absurd hab.symm hne'
      · rfl
    · rcases List.mem_append.mp ho' with ho' | ho'
      · exact hkept o' (List.mem_of_mem_filter ho') w hw hle
      · have hlt := hfaithful w hw
        rw [List.mem_singleton.mp ho'] at hle
        omega
  | collect tick =>
    rw [OffenseStore.step] at hstep
    cases hacquired : tick.acquired with
    | false =>
      simp only [hacquired, Bool.not_false, if_true, Except.ok.injEq] at hstep
      exact hstep ▸ ⟨h.ids, hstep ▸ hkept⟩
    | true =>
      obtain ⟨hcaptured, rows, hlen, hrows, hserves⟩ := hfaithful hacquired
      simp only [hacquired, Bool.not_true, Bool.false_eq_true, if_false] at hstep
      split at hstep
      · cases hstep
        exact ⟨h.ids, hkept⟩
      · next got hgot =>
          have hwalk : got = rows := by
            rw [paginate_served hserves hgot, Nat.zero_mul, List.drop_zero, List.take_of_length_le hlen]
          subst hwalk
          exact Except.ok.inj hstep ▸ h.write henv rfl hcaptured hrows

end QRadarDashboard.Collectors
