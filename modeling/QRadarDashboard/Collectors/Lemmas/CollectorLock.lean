import QRadarDashboard.Collectors.CollectorLock

/-!
# The watermark under concurrent runs
-/

namespace QRadarDashboard.Collectors
open Lib Lib.ReadCommitted

variable {τ : Type}

abbrev CollectTaken (τ : Type) := Taken (CollectDb τ) (Move τ CollectRun) (CollectDb τ)

def CollectTaken.committing (e : CollectTaken τ) : Option (CollectRun × Bool × CollectionWatermark) :=
  match e.input with
  | .start _ _ => none
  | .advance t =>
    match e.before.session t with
    | some (.released run isNew watermark) => some (run, isNew, watermark)
    | _ => none

/-- No run reads the watermark while another one has released the lock and not committed. -/
def CollectTaken.ReadsSettled (e : CollectTaken τ) : Prop :=
  ∀ t run, e.input = .advance t → e.before.session t = some (.locked run) →
    ∀ u run' isNew watermark, u ≠ t → e.before.session u ≠ some (.released run' isNew watermark)

def CollectDb.intervals (db : CollectDb τ) : Int := (db.committed.map (fun row => row.intervalsCollected)).getD 0

def CollectTaken.collected (e : CollectTaken τ) : Nat :=
  match CollectTaken.committing e with
  | none => 0
  | some (run, _, watermark) => (bucketsWritten run watermark).length

def CollectTaken.Forward (e : CollectTaken τ) : Prop :=
  ∀ row watermarkAt, e.before.committed = some row → row.watermarkAt = some watermarkAt →
    ∃ row' watermarkAt', e.output.committed = some row' ∧ row'.watermarkAt = some watermarkAt' ∧ watermarkAt ≤ watermarkAt'

/-! ## One run -/

theorem next_le_of_mem_intervals {run watermark watermarkAt cursor} (h : watermark.watermarkAt = some watermarkAt)
    (hmem : cursor ∈ intervalsToCollect run watermark) : watermarkAt + seconds run.interval ≤ cursor := by
  rw [intervalsToCollect, h] at hmem
  obtain ⟨index, _, rfl⟩ := List.mem_map.mp ((List.takeWhile_prefix _).subset hmem)
  have hpos := run.interval_pos
  have hindex : 0 ≤ run.interval * (index : Int) := Int.mul_nonneg (by omega) (by omega)
  simp only [seconds]
  omega

theorem le_of_mem_intervals {run watermark watermarkAt cursor} (h : watermark.watermarkAt = some watermarkAt)
    (hmem : cursor ∈ intervalsToCollect run watermark) : watermarkAt ≤ cursor := by
  have hnext := next_le_of_mem_intervals h hmem
  have hpos := run.interval_pos
  simp only [seconds] at hnext
  omega

theorem advanced_forward (run : CollectRun) {watermark watermarkAt} (h : watermark.watermarkAt = some watermarkAt) :
    ∃ watermarkAt', (advanced run watermark).watermarkAt = some watermarkAt' ∧ watermarkAt ≤ watermarkAt' := by
  simp only [advanced]
  cases hlast : (bucketsWritten run watermark).getLast? with
  | none => exact ⟨watermarkAt, by rw [Option.none_or, h], le_rfl⟩
  | some done =>
    have hmem : done ∈ bucketsWritten run watermark := List.mem_of_getLast? hlast
    exact ⟨done, rfl, le_of_mem_intervals h ((List.takeWhile_prefix _).subset hmem)⟩

@[simp] theorem flush_loaded (loaded current : CollectionWatermark) : loaded.flush current loaded = current := by
  simp [CollectionWatermark.flush]

/-! ## The invariant -/

/-- The row a run has read or inserted: `some none` where it found none. -/
def CollectTx.read : CollectTx → Option (Option CollectionWatermark)
  | .absent _ => some none
  | .collecting _ isNew watermark | .flushed _ isNew watermark | .released _ isNew watermark =>
    some (if isNew then none else some watermark)
  | _ => none

def CollectTx.holds : CollectTx → Bool
  | .locked _ | .absent _ | .collecting _ _ _ | .flushed _ _ _ | .raising => true
  | _ => false

def CollectTx.Fresh : CollectTx → Prop
  | .collecting _ isNew watermark | .flushed _ isNew watermark | .released _ isNew watermark =>
    isNew = true → watermark = {}
  | _ => True

structure CollectOk (db : CollectDb τ) : Prop where
  holder : ∀ {t tx}, db.session t = some tx → tx.holds = true → db.advisory = some t
  current : ∀ {t tx row}, db.session t = some tx → tx.read = some row → db.committed = row
  alone : ∀ {t u tx tx'}, t ≠ u → db.session t = some tx → db.session u = some tx' → tx.read.isSome = true →
    tx'.read = none
  fresh : ∀ {t tx}, db.session t = some tx → tx.Fresh

variable {db db' : CollectDb τ} {t : τ} {tx : CollectTx}

theorem CollectOk.reads_alone (h : CollectOk db) (hopen : db.session t = some tx) (hholds : tx.holds = true)
    (hsettled : ∀ u run isNew watermark, u ≠ t → db.session u ≠ some (.released run isNew watermark)) {u tx'}
    (hu : u ≠ t) (hother : db.session u = some tx') : tx'.read = none := by
  have hmine : db.advisory = some t := h.holder hopen hholds
  cases tx' with
  | absent run | collecting run isNew watermark | flushed run isNew watermark =>
    have hits : db.advisory = some u := h.holder hother rfl
    exact absurd (Option.some.inj (hits.symm.trans hmine)) hu
  | released run isNew watermark => exact absurd hother (hsettled u run isNew watermark hu)
  | _ => rfl

theorem CollectOk.keeps (h : CollectOk db) (hopen : db.session t = some tx) (row : Option CollectionWatermark)
    (hrow : tx.read = some row) : db.committed = row ∧ ∀ u tx', u ≠ t → db.session u = some tx' → tx'.read = none :=
  ⟨h.current hopen hrow, fun _ _ hu hother => h.alone hu.symm hopen hother (by rw [hrow]; rfl)⟩

theorem collectOk_quiet (row : Option CollectionWatermark) : CollectOk (⟨row, none, none, fun _ => none⟩ : CollectDb τ) :=
  ⟨nofun, nofun, nofun, nofun⟩

variable [DecidableEq τ]

theorem CollectOk.goto (h : CollectOk db) {next} (hsession : db'.session = Function.update db.session t (some next))
    (hcommitted : db'.committed = db.committed) (hadvisory : ∀ u, u ≠ t → db.advisory = some u → db'.advisory = some u)
    (hholds : next.holds = true → db'.advisory = some t) (hread : ∀ row, next.read = some row → db.committed = row ∧
      ∀ u tx', u ≠ t → db.session u = some tx' → tx'.read = none) (hfresh : next.Fresh) : CollectOk db' := by
  have hself : ∀ {x}, db'.session t = some x → x = next := by
    intro x hx
    rw [hsession, Function.update_self] at hx
    exact (Option.some.inj hx).symm
  have hother : ∀ {u}, u ≠ t → db'.session u = db.session u := by
    intro u hu
    rw [hsession, Function.update_of_ne hu]
  refine ⟨fun {u x} hx hx' => ?_, fun {u x row} hx hx' => ?_, fun {u v x x'} huv hx hx' hsome => ?_, fun {u x} hx => ?_⟩
  · by_cases hu : u = t
    · subst hu
      rw [hself hx] at hx'
      exact hholds hx'
    · exact hadvisory u hu (h.holder (hother hu ▸ hx) hx')
  · rw [hcommitted]
    by_cases hu : u = t
    · subst hu
      rw [hself hx] at hx'
      exact (hread row hx').1
    · exact h.current (hother hu ▸ hx) hx'
  · by_cases hu : u = t
    · subst hu
      rw [hself hx] at hsome
      obtain ⟨row, hrow⟩ := Option.isSome_iff_exists.mp hsome
      exact (hread row hrow).2 v x' huv.symm (hother huv.symm ▸ hx')
    · rw [hother hu] at hx
      by_cases hv : v = t
      · subst hv
        rw [hself hx']
        cases hrow : next.read with
        | none => rfl
        | some row =>
          rw [(hread row hrow).2 u x hu hx] at hsome
          cases hsome
      · exact h.alone huv hx (hother hv ▸ hx') hsome
  · by_cases hu : u = t
    · subst hu
      rw [hself hx]
      exact hfresh
    · exact h.fresh (hother hu ▸ hx)

theorem CollectOk.close (h : CollectOk db) (hsession : db'.session = Function.update db.session t none)
    (hadvisory : ∀ u, u ≠ t → db.advisory = some u → db'.advisory = some u)
    (hcommitted : db'.committed = db.committed ∨ ∀ u tx', u ≠ t → db.session u = some tx' → tx'.read = none) :
    CollectOk db' := by
  have hself : ∀ {x}, db'.session t ≠ some x := by
    intro x hx
    rw [hsession, Function.update_self] at hx
    cases hx
  have hother : ∀ {u x}, db'.session u = some x → u ≠ t ∧ db.session u = some x := by
    intro u x hx
    have hu : u ≠ t := fun hu => hself (hu ▸ hx)
    exact ⟨hu, by rwa [hsession, Function.update_of_ne hu] at hx⟩
  refine ⟨fun hx hx' => ?_, fun hx hx' => ?_, fun huv hx hx' hsome => ?_, fun hx => h.fresh (hother hx).2⟩
  · obtain ⟨hu, hbefore⟩ := hother hx
    exact hadvisory _ hu (h.holder hbefore hx')
  · obtain ⟨hu, hbefore⟩ := hother hx
    rcases hcommitted with hsame | hnone
    · rw [hsame]
      exact h.current hbefore hx'
    · rw [hnone _ _ hu hbefore] at hx'
      cases hx'
  · exact h.alone huv (hother hx).2 (hother hx').2 hsome

theorem free_unless {owner} (hfree : CollectDb.free t owner = true) {u} (hu : u ≠ t) : owner ≠ some u := by
  rintro rfl
  simp [CollectDb.free, hu] at hfree

theorem unlock_of_ne {u} (hu : u ≠ t) (h : db.advisory = some u) : (db.unlock t).advisory = some u := by
  rw [CollectDb.unlock, if_neg (fun hmine => hu (Option.some.inj (h.symm.trans hmine)))]
  exact h

theorem CollectOk.committed_released (h : CollectOk db) {run isNew watermark}
    (hopen : db.session t = some (.released run isNew watermark))
    (hstep : db.advance t (.released run isNew watermark) = .ok db') :
    db'.committed = some (advanced run watermark) ∧
      (db.committed = some watermark ∨ (db.committed = none ∧ watermark = {})) := by
  have hrow : db.committed = if isNew then none else some watermark := h.current hopen rfl
  rw [CollectDb.advance] at hstep
  cases hstep
  cases isNew with
  | true => exact ⟨rfl, Or.inr ⟨hrow, h.fresh hopen rfl⟩⟩
  | false =>
    rw [if_neg Bool.false_ne_true] at hrow
    refine ⟨?_, Or.inl hrow⟩
    simp [CollectDb.close, hrow]

theorem advance_committed (hstep : db.advance t tx = .ok db') :
    db'.committed = db.committed ∨ ∃ run isNew watermark, tx = .released run isNew watermark := by
  cases tx with
  | released run isNew watermark => exact Or.inr ⟨run, isNew, watermark, rfl⟩
  | _ =>
    refine Or.inl ?_
    simp only [CollectDb.advance] at hstep
    repeat' split at hstep
    all_goals cases hstep <;> rfl

theorem CollectOk.advance (h : CollectOk db) (hopen : db.session t = some tx) (hsettled : ∀ run, tx = .locked run →
      ∀ u run' isNew watermark, u ≠ t → db.session u ≠ some (.released run' isNew watermark))
    (hstep : db.advance t tx = .ok db') : CollectOk db' := by
  have hkeeps := h.keeps hopen
  have hstays : ∀ u, u ≠ t → db.advisory = some u → db.advisory = some u := fun _ _ hu => hu
  cases tx with
  | starting run =>
    rw [CollectDb.advance] at hstep
    split_ifs at hstep with hfree <;> cases hstep
    · exact h.goto rfl rfl (fun u hu hits => absurd hits (free_unless hfree hu)) (fun _ => rfl) (fun _ hx => by cases hx) trivial
    · exact h.goto rfl rfl hstays (fun hx => by cases hx) (fun _ hx => by cases hx) trivial
  | skipped =>
    rw [CollectDb.advance] at hstep
    cases hstep
    exact h.close rfl hstays (Or.inl rfl)
  | locked run =>
    have hmine : db.advisory = some t := h.holder hopen rfl
    have halone : ∀ u tx', u ≠ t → db.session u = some tx' → tx'.read = none :=
      fun u tx' hu => h.reads_alone hopen rfl (hsettled run rfl) hu
    rw [CollectDb.advance] at hstep
    split at hstep <;> cases hstep
    · next hnone => exact h.goto rfl rfl hstays (fun _ => hmine) (fun _ hrow => by cases hrow; exact ⟨hnone, halone⟩) trivial
    · next watermark hsome =>
      exact h.goto rfl rfl hstays (fun _ => hmine) (fun _ hrow => by cases hrow; exact ⟨hsome, halone⟩) (fun hx => by cases hx)
  | absent run =>
    have hmine : db.advisory = some t := h.holder hopen rfl
    rw [CollectDb.advance] at hstep
    split_ifs at hstep
    split at hstep <;> cases hstep
    · exact h.close rfl hstays (Or.inl rfl)
    · exact h.goto rfl rfl hstays (fun _ => hmine) hkeeps (fun _ => rfl)
  | collecting run isNew watermark =>
    have hmine : db.advisory = some t := h.holder hopen rfl
    have hfresh : isNew = true → watermark = {} := h.fresh hopen
    rw [CollectDb.advance] at hstep
    split_ifs at hstep <;> cases hstep
    · exact h.goto rfl rfl hstays (fun _ => hmine) (fun _ hx => by cases hx) trivial
    · exact h.goto rfl rfl hstays (fun _ => hmine) hkeeps hfresh
  | flushed run isNew watermark =>
    have hfresh : isNew = true → watermark = {} := h.fresh hopen
    rw [CollectDb.advance] at hstep
    split_ifs at hstep <;> cases hstep
    · exact h.goto rfl rfl hstays (fun _ => h.holder hopen rfl) (fun _ hx => by cases hx) trivial
    · exact h.goto rfl rfl (fun u hu => unlock_of_ne hu) (fun hx => by cases hx) hkeeps hfresh
  | raising =>
    rw [CollectDb.advance] at hstep
    cases hstep
    exact h.close rfl (fun u hu => unlock_of_ne hu) (Or.inl rfl)
  | released run isNew watermark =>
    rw [CollectDb.advance] at hstep
    cases hstep
    exact h.close rfl hstays (Or.inr (hkeeps _ rfl).2)

theorem CollectOk.step (h : CollectOk db) {move} (hstep : db.step move = .ok db')
    (hsettled : CollectTaken.ReadsSettled ⟨db, move, db'⟩) : CollectOk db' := by
  cases move with
  | start t run =>
    rw [CollectDb.step] at hstep
    split at hstep <;> cases hstep
    exact h.goto rfl rfl (fun _ _ hu => hu) (fun hx => by cases hx) (fun _ hx => by cases hx) trivial
  | advance t =>
    rw [CollectDb.step] at hstep
    split at hstep
    · cases hstep
    · next tx hopen => exact h.advance hopen (fun run hrun => hsettled t run rfl (hrun ▸ hopen)) hstep

/-! ## What a step commits -/

theorem CollectOk.commits (h : CollectOk db) {move} (hstep : db.step move = .ok db') :
    (CollectTaken.committing ⟨db, move, db'⟩ = none ∧ db'.committed = db.committed) ∨
      ∃ run isNew watermark, CollectTaken.committing ⟨db, move, db'⟩ = some (run, isNew, watermark) ∧
        db'.committed = some (advanced run watermark) ∧
        (db.committed = some watermark ∨ (db.committed = none ∧ watermark = {})) := by
  cases move with
  | start t run =>
    rw [CollectDb.step] at hstep
    split at hstep <;> cases hstep
    exact Or.inl ⟨rfl, rfl⟩
  | advance t =>
    rw [CollectDb.step] at hstep
    split at hstep
    · cases hstep
    · next tx hopen =>
      cases tx with
      | released run isNew watermark =>
        obtain ⟨hafter, hbefore⟩ := h.committed_released hopen hstep
        exact Or.inr ⟨run, isNew, watermark, by simp [CollectTaken.committing, hopen], hafter, hbefore⟩
      | _ =>
        rcases advance_committed hstep with hsame | ⟨run, isNew, watermark, htx⟩
        · exact Or.inl ⟨by simp [CollectTaken.committing, hopen], hsame⟩
        · cases htx

theorem CollectOk.counted (h : CollectOk db) {move} (hstep : db.step move = .ok db') :
    CollectTaken.Forward ⟨db, move, db'⟩ ∧
      db'.intervals = db.intervals + (CollectTaken.collected ⟨db, move, db'⟩ : Int) := by
  rcases h.commits hstep with ⟨hnone, hsame⟩ | ⟨run, isNew, watermark, hcommitting, hafter, hbefore⟩
  · refine ⟨fun row watermarkAt hrow hat => ⟨row, watermarkAt, hsame.trans hrow, hat, le_rfl⟩, ?_⟩
    simp [CollectDb.intervals, CollectTaken.collected, hnone, hsame]
  · have hintervals : db.intervals = watermark.intervalsCollected := by
      rcases hbefore with hsome | ⟨hnone, rfl⟩
      · rw [CollectDb.intervals, hsome]
        rfl
      · rw [CollectDb.intervals, hnone]
        rfl
    refine ⟨fun row watermarkAt hrow hat => ?_, ?_⟩
    · have hread : row = watermark := by
        rcases hbefore with hsome | ⟨hnone, _⟩
        · exact Option.some.inj (hrow.symm.trans hsome)
        · rw [hnone] at hrow
          cases hrow
      obtain ⟨watermarkAt', hat', hle⟩ := advanced_forward run (hread ▸ hat)
      exact ⟨_, watermarkAt', hafter, hat', hle⟩
    · rw [hintervals]
      simp [CollectDb.intervals, CollectTaken.collected, hcommitting, hafter, advanced]

end QRadarDashboard.Collectors
