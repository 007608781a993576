import QRadarDashboard.Alerts.Dispatcher
import QRadarDashboard.Security.Lemmas.Redaction

/-!
# Notifications under overlapping runs

While at most one run has selected a row, nobody else writes it, and the run sends what is stored.
-/

namespace QRadarDashboard.Alerts
open Lib Lib.ReadCommitted Security

variable {τ : Type}

abbrev DispatchTaken (τ : Type) :=
  Taken (Db Notifications Unit τ DispatchTx) (Move τ DispatchRun) (Db Notifications Unit τ DispatchTx)

def DispatchTx.selected : DispatchTx → List Notification
  | .selecting _ => []
  | .sending _ attempted due => attempted.map (fun pair => pair.1) ++ due

def DispatchTx.attempted : DispatchTx → List (Notification × Notification)
  | .selecting _ => []
  | .sending _ attempted _ => attempted

theorem selected_of_attempted {tx : DispatchTx} {pair} (h : pair ∈ tx.attempted) : pair.1 ∈ tx.selected := by
  cases tx with
  | selecting _ => cases h
  | sending _ _ _ => exact List.mem_append_left _ (List.mem_map_of_mem h)

def DispatchTaken.attempting (e : DispatchTaken τ) : Option (DispatchRun × Nat × Notification) :=
  match e.input with
  | .start _ _ => none
  | .advance t =>
    match e.before.session t with
    | some (.sending run attempted (notif :: _)) => some (run, attempted.length, notif)
    | _ => none

def DispatchTaken.attempts (id : String) (e : DispatchTaken τ) : Bool :=
  (DispatchTaken.attempting e).any (fun a => a.2.2.id = id)

def DispatchTaken.sends (id : String) (e : DispatchTaken τ) : Bool :=
  (DispatchTaken.attempting e).any (fun a => a.2.2.id = id && registered a.1 a.2.2)

def DispatchTaken.delivers (id : String) (e : DispatchTaken τ) : Bool :=
  (DispatchTaken.attempting e).any
    (fun a => a.2.2.id = id && registered a.1 a.2.2 && decide (a.1.outcome a.2.1 = .delivered))

def DispatchTaken.hasNotifier (e : DispatchTaken τ) : Bool :=
  (DispatchTaken.attempting e).all (fun a => registered a.1 a.2.2)

def DispatchTaken.Exclusive (e : DispatchTaken τ) : Prop :=
  ∀ t run, e.input = .advance t → e.before.session t = some (.selecting run) →
    ∀ u tx, u ≠ t → e.before.session u = some tx →
      ∀ notif ∈ selectDue run e.before.committed, ∀ other ∈ tx.selected, notif.id ≠ other.id

/-! ## One attempt -/

theorem attempt_frame (run : DispatchRun) (position : Nat) (notif : Notification) :
    (attempt run position notif).id = notif.id ∧ (attempt run position notif).maxAttempts = notif.maxAttempts ∧
    (attempt run position notif).attempts = notif.attempts + 1 := by
  rw [attempt]
  dsimp only
  split_ifs
  · exact ⟨rfl, rfl, rfl⟩
  · split
    · rw [handleFailure]
      dsimp only
      split_ifs <;> exact ⟨rfl, rfl, rfl⟩
    · exact ⟨rfl, rfl, rfl⟩

theorem attempt_status (run : DispatchRun) (position : Nat) (notif : Notification) :
    ((attempt run position notif).status = .sent ↔ registered run notif = true ∧ run.outcome position = .delivered) ∧
    ((attempt run position notif).waiting = true → notif.attempts + 1 < notif.maxAttempts) := by
  rw [attempt]
  dsimp only
  cases hregistered : registered run notif with
  | false => simp [Notification.waiting]
  | true =>
    cases houtcome : run.outcome position with
    | delivered => simp [Notification.waiting]
    | failure message permanent =>
      simp only [Bool.not_true, Bool.false_eq_true, if_false, handleFailure]
      split_ifs with hdead
      · simp [Notification.waiting]
      · rw [Bool.or_eq_true, decide_eq_true_eq, not_or, not_le] at hdead
        simp [hdead.2]

theorem attempt_channel (run : DispatchRun) (position : Nat) (notif : Notification) :
    (attempt run position notif).channel = notif.channel := by
  rw [attempt]
  dsimp only
  split_ifs
  · rfl
  · split
    · rw [handleFailure]
      dsimp only
      split_ifs <;> rfl
    · rfl

theorem flush_attempt (run : DispatchRun) (position : Nat) (notif : Notification) :
    notif.flush (attempt run position notif) notif = attempt run position notif := by
  obtain ⟨hid, hmax, _⟩ := attempt_frame run position notif
  have hchannel := attempt_channel run position notif
  cases hattempt : attempt run position notif
  rw [hattempt] at hid hmax hchannel
  simp [Notification.flush, ← hid, ← hmax, ← hchannel]

/-! ## What a run of steps keeps -/

variable [DecidableEq τ]

structure DispatchOk (db : Db Notifications Unit τ DispatchTx) : Prop where
  stored : ∀ {t tx}, db.session t = some tx → ∀ notif ∈ tx.selected, notif ∈ db.committed.rows ∧ notif.waiting = true
  nodup : ∀ {t tx}, db.session t = some tx → (tx.selected.map (fun notif => notif.id)).Nodup
  alone : ∀ {t u tx tx'}, t ≠ u → db.session t = some tx → db.session u = some tx' →
    ∀ notif ∈ tx.selected, ∀ other ∈ tx'.selected, notif.id ≠ other.id
  attempted : ∀ {t tx}, db.session t = some tx → ∀ pair ∈ tx.attempted, ∃ run position,
    pair.2 = attempt run position pair.1
  limits : ∀ notif ∈ db.committed.rows, notif.attempts ≤ notif.maxAttempts ∧
    (notif.waiting = true → notif.attempts < notif.maxAttempts)

theorem mem_selectDue {run table notif}
    (h : notif ∈ selectDue run table) : notif ∈ table.rows ∧ notif.waiting = true := by
  have hmem := List.mem_filter.mp (mem_sortOn.mp (List.mem_of_mem_take h))
  rw [isDue, Bool.and_eq_true] at hmem
  exact ⟨hmem.1, hmem.2.1⟩

theorem nodup_selectDue (run : DispatchRun) (table : Notifications) :
    ((selectDue run table).map (fun notif => notif.id)).Nodup := by
  have hfilter : ((table.rows.filter (isDue (run.clock 0))).map (fun notif => notif.id)).Nodup :=
    table.ids_nodup.sublist (List.filter_sublist.map _)
  rw [selectDue, List.map_take]
  exact (((sortOn_perm _).map _).nodup_iff.mpr hfilter).sublist (List.take_sublist _ _)

theorem Notifications.row_unique {table : Notifications} {a b} (ha : a ∈ table.rows)
    (hb : b ∈ table.rows) (h : a.id = b.id) : a = b :=
  List.inj_on_of_nodup_map table.ids_nodup ha hb h

/-! ## The steps -/

inductive DispatchStep (db : Db Notifications Unit τ DispatchTx) :
    Move τ DispatchRun → Db Notifications Unit τ DispatchTx → Prop
  | start (t : τ) (run : DispatchRun) (hsession : db.session t = none) :
      DispatchStep db (.start t run) { db with session := Function.update db.session t (some (.selecting run)) }
  | select (t : τ) (run : DispatchRun) (hsession : db.session t = some (.selecting run)) :
      DispatchStep db (.advance t)
        { db with session := Function.update db.session t (some (.sending run [] (selectDue run db.committed))) }
  | attempt (t : τ) (run : DispatchRun) (attempted : List (Notification × Notification)) (notif : Notification)
      (due : List Notification) (hsession : db.session t = some (.sending run attempted (notif :: due))) :
      DispatchStep db (.advance t) { db with
        session := Function.update db.session t
          (some (.sending run (attempted ++ [(notif, attempt run attempted.length notif)]) due)) }
  | commit (t : τ) (run : DispatchRun) (attempted : List (Notification × Notification))
      (hsession : db.session t = some (.sending run attempted [])) :
      DispatchStep db (.advance t)
        ⟨db.committed.flush attempted, db.locks.unlockAll t, Function.update db.session t none⟩

def noRows (_ : Notifications) (_ : Unit) : Option Unit := none

theorem dispatchStep {db db' : Db Notifications Unit τ DispatchTx} {move}
    (h : db.step noRows DispatchTx.selecting dispatchNext move = .ok db') : DispatchStep db move db' := by
  cases move with
  | start t run =>
    cases hsession : db.session t with
    | none =>
      rw [step_start h]
      exact .start t run hsession
    | some tx =>
      rw [Db.step, hsession] at h
      cases h
  | advance t =>
    obtain ⟨tx, hsession, hperform⟩ := step_advance h
    cases tx with
    | selecting run =>
      cases hperform
      exact .select t run hsession
    | sending run attempted due =>
      cases due with
      | nil =>
        cases hperform
        exact .commit t run attempted hsession
      | cons notif due =>
        cases hperform
        exact .attempt t run attempted notif due hsession

variable {db : Db Notifications Unit τ DispatchTx}

theorem DispatchOk.update (h : DispatchOk db) {t tx}
    (hstored : ∀ notif ∈ tx.selected, notif ∈ db.committed.rows ∧ notif.waiting = true)
    (hnodup : (tx.selected.map (fun notif => notif.id)).Nodup)
    (halone : ∀ u tx', u ≠ t → db.session u = some tx' → ∀ notif ∈ tx.selected, ∀ other ∈ tx'.selected, notif.id ≠ other.id)
    (hattempted : ∀ pair ∈ tx.attempted, ∃ run position, pair.2 = Alerts.attempt run position pair.1) :
    DispatchOk { db with session := Function.update db.session t (some tx) } where
  stored {u tx'} hu := by
    by_cases hut : u = t
    · subst hut
      obtain rfl : tx = tx' := by simpa using hu
      exact hstored
    · exact h.stored (by simpa [Function.update_of_ne hut] using hu)
  nodup {u tx'} hu := by
    by_cases hut : u = t
    · subst hut
      obtain rfl : tx = tx' := by simpa using hu
      exact hnodup
    · exact h.nodup (by simpa [Function.update_of_ne hut] using hu)
  alone {u v txu txv} huv hu hv notif hnotif other hother := by
    by_cases hut : u = t
    · subst hut
      obtain rfl : tx = txu := by simpa using hu
      exact halone v txv (Ne.symm huv) (by simpa [Function.update_of_ne (Ne.symm huv)] using hv) notif hnotif other hother
    · have hu' : db.session u = some txu := by simpa [Function.update_of_ne hut] using hu
      by_cases hvt : v = t
      · subst hvt
        obtain rfl : tx = txv := by simpa using hv
        exact (halone u txu hut hu' other hother notif hnotif).symm
      · exact h.alone huv hu' (by simpa [Function.update_of_ne hvt] using hv) notif hnotif other hother
  attempted {u tx'} hu := by
    by_cases hut : u = t
    · subst hut
      obtain rfl : tx = tx' := by simpa using hu
      exact hattempted
    · exact h.attempted (by simpa [Function.update_of_ne hut] using hu)
  limits := h.limits

omit [DecidableEq τ] in
theorem DispatchOk.flushRow (h : DispatchOk db) {t run attempted}
    (hsession : db.session t = some (.sending run attempted [])) {row} (hrow : row ∈ db.committed.rows) :
    (flushRow attempted row = row ∧ ∀ pair ∈ attempted, pair.1 ≠ row) ∨
    ∃ pair ∈ attempted, pair.1 = row ∧ flushRow attempted row = pair.2 := by
  rw [Alerts.flushRow]
  cases hfind : attempted.find? (fun pair => pair.1.id = row.id) with
  | none =>
    refine Or.inl ⟨rfl, fun pair hpair heq => ?_⟩
    have hnot := List.find?_eq_none.mp hfind pair hpair
    simp [heq] at hnot
  | some pair =>
    have hpair := List.mem_of_find?_eq_some hfind
    have hid : pair.1.id = row.id := by simpa using List.find?_some hfind
    have heq : pair.1 = row :=
      db.committed.row_unique (h.stored hsession _ (selected_of_attempted hpair)).1 hrow hid
    obtain ⟨run', position, hattempt⟩ := h.attempted hsession pair hpair
    refine Or.inr ⟨pair, hpair, heq, ?_⟩
    dsimp only
    rw [hattempt, ← heq]
    exact flush_attempt run' position pair.1

theorem DispatchOk.commit (h : DispatchOk db) {t run attempted}
    (hsession : db.session t = some (.sending run attempted [])) :
    DispatchOk ⟨db.committed.flush attempted, db.locks.unlockAll t, Function.update db.session t none⟩ := by
  have hother : ∀ {u tx}, Function.update db.session t none u = some tx → u ≠ t ∧ db.session u = some tx := by
    intro u tx hu
    by_cases hut : u = t
    · subst hut
      simp at hu
    · exact ⟨hut, by simpa [Function.update_of_ne hut] using hu⟩
  refine ⟨fun hu notif hnotif => ?_, fun hu => h.nodup (hother hu).2,
    fun huv hu hv => h.alone huv (hother hu).2 (hother hv).2, fun hu => h.attempted (hother hu).2, fun row hrow => ?_⟩
  · obtain ⟨hut, hu⟩ := hother hu
    obtain ⟨hstored, hwaiting⟩ := h.stored hu notif hnotif
    refine ⟨?_, hwaiting⟩
    rcases h.flushRow hsession hstored with ⟨hsame, _⟩ | ⟨pair, hpair, heq, _⟩
    · exact List.mem_map.mpr ⟨notif, hstored, hsame⟩
    · exact absurd (congrArg _ heq.symm) (h.alone hut hu hsession notif hnotif pair.1 (selected_of_attempted hpair))
  · obtain ⟨stored, hstored, rfl⟩ := List.mem_map.mp hrow
    rcases h.flushRow hsession hstored with ⟨hsame, _⟩ | ⟨pair, hpair, heq, hcurrent⟩
    · rw [hsame]
      exact h.limits stored hstored
    · obtain ⟨hmem, hwaiting⟩ := h.stored hsession pair.1 (selected_of_attempted hpair)
      obtain ⟨run', position, hattempt⟩ := h.attempted hsession pair hpair
      obtain ⟨_, hmax, hattempts⟩ := attempt_frame run' position pair.1
      have hlimit := (h.limits pair.1 hmem).2 hwaiting
      rw [hcurrent, hattempt, hmax, hattempts]
      exact ⟨by omega, (attempt_status run' position pair.1).2⟩

theorem DispatchOk.step (h : DispatchOk db) {db' move} (hstep : DispatchStep db move db')
    (hexclusive : DispatchTaken.Exclusive (⟨db, move, db'⟩ : DispatchTaken τ)) : DispatchOk db' := by
  cases hstep with
  | start t run hsession =>
    exact h.update (fun _ hmem => by cases hmem) List.nodup_nil (fun _ _ _ _ _ hmem => by cases hmem)
      (fun _ hmem => by cases hmem)
  | select t run hsession =>
    exact h.update (fun notif hmem => mem_selectDue hmem) (nodup_selectDue run db.committed)
      (fun u tx hut hu notif hmem => hexclusive t run rfl hsession u tx hut hu notif hmem) (fun _ hmem => by cases hmem)
  | attempt t run attempted notif due hsession =>
    have hsame : (DispatchTx.sending run (attempted ++ [(notif, Alerts.attempt run attempted.length notif)]) due).selected =
        (DispatchTx.sending run attempted (notif :: due)).selected := by
      simp [DispatchTx.selected]
    refine h.update (hsame ▸ h.stored hsession) (hsame ▸ h.nodup hsession) ?_ (fun pair hpair => ?_)
    · rw [hsame]
      exact fun u tx hut hu notif hnotif other hother => h.alone (Ne.symm hut) hsession hu notif hnotif other hother
    · rcases List.mem_append.mp hpair with hpair | hpair
      · exact h.attempted hsession pair hpair
      · rw [List.mem_singleton.mp hpair]
        exact ⟨run, attempted.length, rfl⟩
  | commit t run attempted hsession => exact h.commit hsession

/-! ## Counts -/

/-- The attempts stored of a row are those made of it, and at most one was a delivery. `s₀` is the table at the start. -/
structure DispatchCounts (s₀ : Notifications) (tr : List (DispatchTaken τ)) (db : Db Notifications Unit τ DispatchTx) :
    Prop where
  rows : ∀ row ∈ db.committed.rows, ∃ row₀ ∈ s₀.rows, row₀.id = row.id ∧ row₀.maxAttempts = row.maxAttempts
  idle : ∀ row ∈ db.committed.rows, ∀ row₀ ∈ s₀.rows, row₀.id = row.id →
    (∀ t tx, db.session t = some tx → ∀ pair ∈ tx.attempted, pair.1 ≠ row) →
    row.attempts = row₀.attempts + tr.countP (DispatchTaken.attempts row.id) ∧
    tr.countP (DispatchTaken.delivers row.id) ≤ 1 ∧
    (row.waiting = true → tr.countP (DispatchTaken.delivers row.id) = 0)
  held : ∀ t tx, db.session t = some tx → ∀ pair ∈ tx.attempted, ∀ row₀ ∈ s₀.rows, row₀.id = pair.1.id →
    pair.2.attempts = row₀.attempts + tr.countP (DispatchTaken.attempts pair.1.id) ∧
    tr.countP (DispatchTaken.delivers pair.1.id) = if pair.2.status = .sent then 1 else 0

omit [DecidableEq τ] in
theorem countP_idle {tr : List (DispatchTaken τ)} {e} (h : DispatchTaken.attempting e = none)
    (id : String) : (tr ++ [e]).countP (DispatchTaken.attempts id) = tr.countP (DispatchTaken.attempts id) ∧
      (tr ++ [e]).countP (DispatchTaken.delivers id) = tr.countP (DispatchTaken.delivers id) := by
  simp [List.countP_append, DispatchTaken.attempts, DispatchTaken.delivers, h]

omit [DecidableEq τ] in
theorem countP_attempt {tr : List (DispatchTaken τ)} {e run position notif}
    (h : DispatchTaken.attempting e = some (run, position, notif)) (id : String) :
    (tr ++ [e]).countP (DispatchTaken.attempts id) =
      tr.countP (DispatchTaken.attempts id) + (if notif.id = id then 1 else 0) ∧
    (tr ++ [e]).countP (DispatchTaken.delivers id) = tr.countP (DispatchTaken.delivers id) +
      (if notif.id = id ∧ (attempt run position notif).status = .sent then 1 else 0) := by
  simp only [List.countP_append, List.countP_singleton, DispatchTaken.attempts, DispatchTaken.delivers, h,
    Option.any_some, Bool.and_eq_true, decide_eq_true_eq, (attempt_status run position notif).1, and_assoc, and_self]

theorem DispatchCounts.update {s₀ tr} (h : DispatchCounts s₀ tr db) {t}
    {tx : DispatchTx} {e} (hbefore : ∀ tx, db.session t = some tx → tx.attempted = [])
    (hafter : tx.attempted = []) (he : DispatchTaken.attempting e = none) :
    DispatchCounts s₀ (tr ++ [e]) { db with session := Function.update db.session t (some tx) } where
  rows := h.rows
  idle row hrow row₀ hrow₀ hid hnone := by
    rw [(countP_idle he row.id).1, (countP_idle he row.id).2]
    refine h.idle row hrow row₀ hrow₀ hid (fun u tx' hu pair hpair => ?_)
    by_cases hut : u = t
    · subst hut
      rw [hbefore tx' hu] at hpair
      cases hpair
    · exact hnone u tx' (by simpa [Function.update_of_ne hut] using hu) pair hpair
  held u tx' hu pair hpair row₀ hrow₀ hid := by
    rw [(countP_idle he pair.1.id).1, (countP_idle he pair.1.id).2]
    by_cases hut : u = t
    · subst hut
      obtain rfl : tx = tx' := by simpa using hu
      rw [hafter] at hpair
      cases hpair
    · exact h.held u tx' (by simpa [Function.update_of_ne hut] using hu) pair hpair row₀ hrow₀ hid

theorem DispatchCounts.attempt {s₀ tr} (hok : DispatchOk db) (h : DispatchCounts s₀ tr db) {t run}
    {attempted : List (Notification × Notification)} {notif due e}
    (hsession : db.session t = some (.sending run attempted (notif :: due)))
    (he : DispatchTaken.attempting e = some (run, attempted.length, notif)) :
    DispatchCounts s₀ (tr ++ [e]) { db with
      session := Function.update db.session t
        (some (.sending run (attempted ++ [(notif, Alerts.attempt run attempted.length notif)]) due)) } := by
  have hmem : notif ∈ (DispatchTx.sending run attempted (notif :: due)).selected :=
    List.mem_append_right _ List.mem_cons_self
  obtain ⟨hstored, hwaiting⟩ := hok.stored hsession notif hmem
  -- nobody has attempted the row yet
  have hfresh : ∀ u tx, db.session u = some tx → ∀ pair ∈ tx.attempted, pair.1.id ≠ notif.id := by
    intro u tx hu pair hpair
    by_cases hut : u = t
    · subst hut
      cases Option.some.inj (hsession.symm.trans hu)
      have hnodup := hok.nodup hsession
      rw [DispatchTx.selected, List.map_append, List.nodup_append] at hnodup
      refine hnodup.2.2 _ (List.mem_map_of_mem (List.mem_map_of_mem hpair)) _ ?_
      exact List.mem_map_of_mem List.mem_cons_self
    · exact hok.alone hut hu hsession pair.1 (selected_of_attempted hpair) notif hmem
  have hother : ∀ id, notif.id ≠ id → (tr ++ [e]).countP (DispatchTaken.attempts id) = tr.countP (DispatchTaken.attempts id) ∧
      (tr ++ [e]).countP (DispatchTaken.delivers id) = tr.countP (DispatchTaken.delivers id) := by
    intro id hid
    rw [(countP_attempt he id).1, (countP_attempt he id).2, if_neg hid, if_neg (fun hboth => hid hboth.1)]
    exact ⟨rfl, rfl⟩
  refine ⟨h.rows, fun row hrow row₀ hrow₀ hid hnone => ?_, fun u tx hu pair hpair row₀ hrow₀ hid => ?_⟩
  · have hne : notif.id ≠ row.id := by
      intro heq
      obtain rfl := db.committed.row_unique hstored hrow heq
      refine hnone t _ (Function.update_self _ _ _) (notif, _) (List.mem_append_right _ (List.mem_singleton_self _)) rfl
    rw [(hother row.id hne).1, (hother row.id hne).2]
    refine h.idle row hrow row₀ hrow₀ hid (fun u tx hu pair hpair => ?_)
    by_cases hut : u = t
    · subst hut
      cases Option.some.inj (hsession.symm.trans hu)
      exact hnone u _ (Function.update_self _ _ _) pair (List.mem_append_left _ hpair)
    · exact hnone u tx (by simpa [Function.update_of_ne hut] using hu) pair hpair
  · have hold : ∀ u tx, db.session u = some tx → pair ∈ tx.attempted →
        pair.2.attempts = row₀.attempts + (tr ++ [e]).countP (DispatchTaken.attempts pair.1.id) ∧
        (tr ++ [e]).countP (DispatchTaken.delivers pair.1.id) = if pair.2.status = .sent then 1 else 0 := by
      intro u tx hu hpair
      have hne := (hfresh u tx hu pair hpair).symm
      rw [(hother pair.1.id hne).1, (hother pair.1.id hne).2]
      exact h.held u tx hu pair hpair row₀ hrow₀ hid
    by_cases hut : u = t
    · subst hut
      obtain rfl : DispatchTx.sending run _ due = tx := by simpa using hu
      rcases List.mem_append.mp hpair with hpair | hpair
      · exact hold u _ hsession hpair
      · rw [List.mem_singleton.mp hpair] at hid ⊢
        obtain ⟨hattempts, _, hnone⟩ := h.idle notif hstored row₀ hrow₀ hid
          (fun u tx hu pair hpair heq => hfresh u tx hu pair hpair (congrArg _ heq))
        rw [(countP_attempt he notif.id).1, (countP_attempt he notif.id).2, (attempt_frame _ _ _).2.2, if_pos rfl,
          hnone hwaiting, hattempts]
        refine ⟨by omega, ?_⟩
        simp
    · exact hold u tx (by simpa [Function.update_of_ne hut] using hu) hpair

theorem DispatchCounts.commit {s₀ tr} (hok : DispatchOk db) (h : DispatchCounts s₀ tr db) {t run attempted e}
    (hsession : db.session t = some (.sending run attempted [])) (he : DispatchTaken.attempting e = none) :
    DispatchCounts s₀ (tr ++ [e])
      ⟨db.committed.flush attempted, db.locks.unlockAll t, Function.update db.session t none⟩ := by
  refine ⟨fun row' hrow' => ?_, fun row' hrow' row₀ hrow₀ hid hnone => ?_, fun u tx hu pair hpair row₀ hrow₀ hid => ?_⟩
  · obtain ⟨row, hrow, rfl⟩ := List.mem_map.mp hrow'
    obtain ⟨row₀, hrow₀, hid, hmax⟩ := h.rows row hrow
    refine ⟨row₀, hrow₀, hid.trans (flushRow_id attempted row).symm, hmax.trans ?_⟩
    rcases hok.flushRow hsession hrow with ⟨hsame, _⟩ | ⟨pair, hpair, rfl, hcurrent⟩
    · rw [hsame]
    · obtain ⟨run', position, hattempt⟩ := hok.attempted hsession pair hpair
      rw [hcurrent, hattempt, (attempt_frame _ _ _).2.1]
  · rw [(countP_idle he row'.id).1, (countP_idle he row'.id).2]
    obtain ⟨row, hrow, rfl⟩ := List.mem_map.mp hrow'
    rw [flushRow_id] at hid ⊢
    rcases hok.flushRow hsession hrow with ⟨hsame, hnot⟩ | ⟨pair, hpair, rfl, hcurrent⟩
    · rw [hsame] at hnone ⊢
      refine h.idle row hrow row₀ hrow₀ hid (fun u tx hu pair hpair => ?_)
      by_cases hut : u = t
      · subst hut
        cases Option.some.inj (hsession.symm.trans hu)
        exact hnot pair hpair
      · exact hnone u tx (by simpa [Function.update_of_ne hut] using hu) pair hpair
    · obtain ⟨hattempts, hdelivers⟩ := h.held t _ hsession pair hpair row₀ hrow₀ hid
      rw [hcurrent, hdelivers]
      refine ⟨hattempts, by split_ifs <;> decide, fun hwaiting => ?_⟩
      rw [if_neg]
      intro hsent
      simp [Notification.waiting, hsent] at hwaiting
  · rw [(countP_idle he pair.1.id).1, (countP_idle he pair.1.id).2]
    by_cases hut : u = t
    · subst hut
      simp at hu
    · exact h.held u tx (by simpa [Function.update_of_ne hut] using hu) pair hpair row₀ hrow₀ hid

theorem DispatchCounts.step {s₀ tr} (hok : DispatchOk db) (h : DispatchCounts s₀ tr db) {db' move}
    (hstep : DispatchStep db move db') : DispatchCounts s₀ (tr ++ [⟨db, move, db'⟩]) db' := by
  cases hstep with
  | start t run hsession =>
    refine h.update (fun tx htx => ?_) rfl rfl
    rw [hsession] at htx
    cases htx
  | select t run hsession =>
    refine h.update (fun tx htx => ?_) rfl ?_
    · cases Option.some.inj (hsession.symm.trans htx)
      rfl
    · simp only [DispatchTaken.attempting, hsession]
  | attempt t run attempted notif due hsession =>
    exact h.attempt hok hsession (by simp only [DispatchTaken.attempting, hsession])
  | commit t run attempted hsession =>
    exact h.commit hok hsession (by simp only [DispatchTaken.attempting, hsession])

/-! ## Rows that wait no more -/

omit [DecidableEq τ] in
theorem sends_eq_attempts {e : DispatchTaken τ} (h : DispatchTaken.hasNotifier e = true) (id : String) :
    DispatchTaken.sends id e = DispatchTaken.attempts id e := by
  rw [DispatchTaken.hasNotifier] at h
  rw [DispatchTaken.sends, DispatchTaken.attempts]
  cases hattempting : DispatchTaken.attempting e with
  | none => rfl
  | some a =>
    rw [hattempting] at h
    have hregistered : registered a.1 a.2.2 = true := h
    simp [hregistered]

omit [DecidableEq τ] in
theorem DispatchOk.attempts_waiting {e : DispatchTaken τ} (h : DispatchOk e.before) {row}
    (hrow : row ∈ e.before.committed.rows) (hattempts : DispatchTaken.attempts row.id e = true) :
    row.waiting = true := by
  obtain ⟨before, move, after⟩ := e
  cases move with
  | start t run => cases hattempts
  | advance t =>
    rw [DispatchTaken.attempts, DispatchTaken.attempting] at hattempts
    dsimp only at hattempts
    split at hattempts
    · next run attempted notif due hsession =>
      have hid : notif.id = row.id := of_decide_eq_true hattempts
      obtain ⟨hstored, hwaiting⟩ := h.stored hsession notif (List.mem_append_right _ List.mem_cons_self)
      rw [← before.committed.row_unique hstored hrow hid]
      exact hwaiting
    · cases hattempts

theorem DispatchOk.settled (h : DispatchOk db) {db' : Db Notifications Unit τ DispatchTx} {move}
    (hstep : DispatchStep db move db') {row} (hrow : row ∈ db.committed.rows)
    (hsettled : row.waiting = false) : row ∈ db'.committed.rows := by
  cases hstep with
  | commit t run attempted hsession =>
    rcases h.flushRow hsession hrow with ⟨hsame, _⟩ | ⟨pair, hpair, rfl, _⟩
    · exact List.mem_map.mpr ⟨row, hrow, hsame⟩
    · have hwaiting := (h.stored hsession pair.1 (selected_of_attempted hpair)).2
      rw [hsettled] at hwaiting
      cases hwaiting
  | _ => exact hrow

structure DispatchInv (s₀ : Notifications) (tr : List (DispatchTaken τ)) (db : Db Notifications Unit τ DispatchTx) :
    Prop where
  ok : DispatchOk db
  counts : DispatchCounts s₀ tr db
  settled : ∀ e ∈ tr, ∀ row ∈ e.before.committed.rows, row.waiting = false → row ∈ db.committed.rows
  never : tr.Pairwise (fun e e' => ∀ row ∈ e.before.committed.rows, row.waiting = false →
    DispatchTaken.attempts row.id e' = false)

theorem DispatchInv.step {s₀ tr} (h : DispatchInv s₀ tr db) {db' move} (hstep : DispatchStep db move db')
    (hexclusive : DispatchTaken.Exclusive (⟨db, move, db'⟩ : DispatchTaken τ)) :
    DispatchInv s₀ (tr ++ [⟨db, move, db'⟩]) db'  where
  ok := h.ok.step hstep hexclusive
  counts := h.counts.step h.ok hstep
  settled e he row hrow hsettled := by
    rcases List.mem_append.mp he with he | he
    · exact h.ok.settled hstep (h.settled e he row hrow hsettled) hsettled
    · cases List.mem_singleton.mp he
      exact h.ok.settled hstep hrow hsettled
  never := by
    refine List.pairwise_append.mpr ⟨h.never, List.pairwise_singleton _ _, fun e he e' he' row hrow hsettled => ?_⟩
    cases List.mem_singleton.mp he'
    refine Bool.eq_false_iff.mpr (fun hattempts => ?_)
    have hwaiting := DispatchOk.attempts_waiting (e := ⟨db, move, db'⟩) h.ok (h.settled e he row hrow hsettled) hattempts
    rw [hsettled] at hwaiting
    cases hwaiting

omit [DecidableEq τ] in
theorem DispatchInv.within {s₀ : Notifications} {tr} (h : DispatchInv s₀ tr db)
    {row row₀} (hrow : row ∈ db.committed.rows) (hrow₀ : row₀ ∈ s₀.rows) (hid : row₀.id = row.id) :
    row₀.attempts + tr.countP (DispatchTaken.attempts row.id) ≤ row.maxAttempts ∧
    tr.countP (DispatchTaken.delivers row.id) ≤ 1 := by
  by_cases hidle : ∀ t tx, db.session t = some tx → ∀ pair ∈ tx.attempted, pair.1 ≠ row
  · obtain ⟨hattempts, hdelivers, _⟩ := h.counts.idle row hrow row₀ hrow₀ hid hidle
    exact ⟨hattempts ▸ (h.ok.limits row hrow).1, hdelivers⟩
  · push Not at hidle
    obtain ⟨t, tx, hsession, pair, hpair, rfl⟩ := hidle
    obtain ⟨hattempts, hdelivers⟩ := h.counts.held t tx hsession pair hpair row₀ hrow₀ hid
    obtain ⟨run, position, hattempt⟩ := h.ok.attempted hsession pair hpair
    have hlimit := (h.ok.limits pair.1 hrow).2 (h.ok.stored hsession pair.1 (selected_of_attempted hpair)).2
    rw [hattempt, (attempt_frame run position pair.1).2.2] at hattempts
    rw [← hattempts, hdelivers]
    exact ⟨by omega, by split_ifs <;> decide⟩

/-! ## The payload of a notification -/

variable {φ : Type}

theorem isTokenChar_digitChar : ∀ n < 16, isTokenChar (Nat.digitChar n) = true := by decide

theorem Uuid.isTokenChar_of_mem_digits {u : Uuid} {start stop c} (h : c ∈ u.digits start stop) :
    isTokenChar c = true := by
  obtain ⟨position, -, rfl⟩ := List.mem_map.mp h
  exact isTokenChar_digitChar _ (Nat.mod_lt _ (by decide))

theorem Uuid.tokenShaped_str (u : Uuid) : tokenShaped u.str.toList = true := by
  rw [Uuid.str, String.toList_ofList, tokenShaped, Bool.and_eq_true, decide_eq_true_eq, List.all_eq_true]
  constructor
  · simp [Uuid.digits]
  · intro c hc
    simp only [List.mem_append, List.mem_cons] at hc
    rcases hc with (((((hc | rfl | hc) | rfl | hc) | rfl | hc) | rfl | hc)) <;>
      first | exact Uuid.isTokenChar_of_mem_digits hc | rfl

@[simp] theorem ofValue_value (t : AlertTransition) : AlertTransition.ofValue t.value = some t := by cases t <;> decide

@[simp] theorem severityOfValue_value (s : Severity) : severityOfValue s.value = some s := by cases s <;> decide

theorem redactText_severity (s : Severity) : redactText s.value = s.value := by cases s <;> decide

theorem redactText_transition (t : AlertTransition) : redactText t.value = t.value := by cases t <;> decide

theorem redact_render (alert : Alert φ) (transition : AlertTransition) : redact (render alert transition) = .obj
    [("title", .str (redactText alert.title)),
      ("body", .str (redactText (orReason alert.description alert.title))),
      ("severity", .str alert.severity.value),
      ("transition", .str transition.value),
      ("alert_id", .str (redactText alert.id)),
      ("fingerprint", .str (redactText alert.fingerprint)),
      ("fields", .obj (redactMembers (renderFields alert)))] := by
  have hsecret : ["title", "body", "severity", "transition", "alert_id", "fingerprint", "fields"].all
      (fun key => !secretKey key && !decide (key ∈ identifierKeys)) = true := by decide
  simp only [List.all_cons, List.all_nil, Bool.and_true, Bool.and_eq_true, Bool.not_eq_true', decide_eq_false_iff_not] at hsecret
  simp only [render, redact, redactMembers, hsecret, Bool.false_eq_true, if_false, false_and, redactText_severity,
    redactText_transition]

def sentMessage (alert : Alert φ) (transition : AlertTransition) : NotificationMessage φ where
  title := .str (redactText alert.title)
  body := .str (redactText (orReason alert.description alert.title))
  severity := alert.severity
  transition := transition
  alertId := .str (redactText alert.id)
  fingerprint := .str (redactText alert.fingerprint)
  fields := .obj (redactMembers (renderFields alert))

theorem messageFromPayload_render [Zero φ] [DecidableEq φ] {notif : QueuedNotification φ} {alert transition}
    (h : notif.payload = redact (render alert transition)) :
    messageFromPayload notif = some (sentMessage alert transition) := by
  have hvalue : transition.value ≠ "" := by cases transition <;> decide
  simp [messageFromPayload, h, redact_render, isFalsy, Dict.get?, asText, hvalue, sentMessage]

theorem payload_of_mem_enqueue {settings} {clock : Nat → Int} {routes table alert transition}
    {notif : QueuedNotification φ} (h : notif ∈ enqueue settings clock routes table alert transition) :
    notif.payload = redact (render alert transition) := by
  rw [enqueue] at h
  split at h
  · cases h
  · refine List.foldlRecOn (motive := fun created => ∀ n ∈ created, n.payload = redact (render alert transition))
      routes.zipIdx _ (fun n hn => by cases hn) (fun created hcreated item _ n hn => ?_) notif h
    simp only at hn
    split at hn
    · exact hcreated n hn
    · rcases List.mem_append.mp hn with hn | hn
      · exact hcreated n hn
      · rw [List.mem_singleton.mp hn]

end QRadarDashboard.Alerts
