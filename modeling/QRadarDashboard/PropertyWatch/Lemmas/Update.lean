import QRadarDashboard.PropertyWatch.Update

/-!
# What a patch commits
-/

namespace QRadarDashboard.PropertyWatch
open Lib Lib.ReadCommitted

variable {φ : Type} [PyFloat φ] {u : UnicodeTables} {s : AuthoringSettings φ}

/-! ## The check of a patch -/

structure PatchWrite.Checked (w : PatchWrite) : Prop where
  token : w.request.payload.expectedUpdatedAt = w.loaded.updatedAt
  instance_kept : w.changed.scope = false → w.instanceId = w.loaded.instanceId

theorem checkPatch_some {request watch w}
    (h : checkPatch u s request watch = .ok (some w)) : w.request = request ∧ w.loaded = watch ∧ w.Checked := by
  rw [checkPatch] at h
  obtain ⟨_, htoken, h⟩ := bind_ok h
  obtain ⟨_, _, h⟩ := bind_ok h
  obtain ⟨_, _, h⟩ := bind_ok h
  split_ifs at h with hany
  · obtain ⟨_, _, h⟩ := bind_ok h
    cases h
    refine ⟨rfl, rfl, require_eq_ok.mp htoken, fun hscope => ?_⟩
    show (mergedScope _ _ _).1 = watch.instanceId
    rw [mergedScope, if_neg]
    exact ne_of_eq_of_ne hscope Bool.false_ne_true
  · cases h

/-! ## The row that is committed -/

/-- The patch switches the watch, and the columns that the switch resets are not yet as it leaves them. -/
def PatchWrite.WritesAgain (w : PatchWrite) : Prop :=
  (w.merged.enabled = true ∧ w.loaded.enabled = false ∧
    ¬ (w.loaded.evaluatedThrough = w.loaded.collectedThrough ∧ w.loaded.collectedThrough = none ∧
      w.loaded.lastStatus = none ∧ w.loaded.lastStatusReason = none)) ∨
  (w.loaded.enabled = true ∧ w.merged.enabled = false ∧
    ¬ (w.loaded.lastStatus = some .disabled ∧
      w.loaded.lastStatusReason = some s!"disabled by {w.request.subject}"))

variable (w : PatchWrite)

theorem switched_eq_edited_iff : w.switched = w.edited ↔ ¬ w.WritesAgain := by
  rw [PatchWrite.switched, PatchWrite.WritesAgain]
  split_ifs with henable hdisable
  · obtain ⟨hwants, hwas⟩ := henable
    simp only [PatchWrite.edited, PropertyWatchRow.mk.injEq, hwants, hwas]
    grind
  · obtain ⟨hwas, hwants⟩ := hdisable
    simp only [PatchWrite.edited, PropertyWatchRow.mk.injEq, hwants, hwas]
    grind
  · grind

theorem lt_bumped (previous now : Int) : previous < bumped previous now := by
  rw [bumped]
  split_ifs <;> omega

theorem settled_forward_iff : w.loaded.updatedAt < w.settled.updatedAt ↔
    (w.WritesAgain → w.loaded.updatedAt < w.request.writtenAt) := by
  rw [PatchWrite.settled]
  split_ifs with hsame
  · have hnot := (switched_eq_edited_iff w).mp hsame
    exact ⟨fun _ hagain => absurd hagain hnot, fun _ => lt_bumped _ _⟩
  · have hagain : w.WritesAgain := by
      by_contra hnot
      exact hsame ((switched_eq_edited_iff w).mpr hnot)
    exact ⟨fun hlt _ => hlt, fun hlt => hlt hagain⟩

theorem settled_eq : ∃ evaluated collected status reason token, w.settled = { w.edited with
    evaluatedThrough := evaluated, collectedThrough := collected, lastStatus := status, lastStatusReason := reason,
    updatedAt := token } := by
  rw [PatchWrite.settled, PatchWrite.switched]
  split_ifs <;> exact ⟨_, _, _, _, _, rfl⟩

@[simp] theorem settled_enabled : w.settled.enabled = w.merged.enabled := by
  obtain ⟨_, _, _, _, _, h⟩ := settled_eq w
  rw [h]
  rfl

/-! ## What it costs -/

variable {w} {inventory : Inventory}

theorem staticCost_settled (w : PatchWrite) : staticCost s.toPwSettings inventory.memberCount w.settled =
    staticCost s.toPwSettings inventory.memberCount w.edited := by
  obtain ⟨_, _, _, _, _, h⟩ := settled_eq w
  rw [h]
  rfl

theorem memberCount_of_label {watch watch'} (hinstance : watch.instanceId = watch'.instanceId)
    (hlabel : scopeLabel watch.scopeKind watch.logSourceId watch.scopeTypeId watch.scopeGroupId =
      scopeLabel watch'.scopeKind watch'.logSourceId watch'.scopeTypeId watch'.scopeGroupId) :
    watch.scopeKind = watch'.scopeKind ∧ inventory.memberCount watch = inventory.memberCount watch' := by
  rw [Inventory.memberCount, Inventory.memberCount, hinstance]
  cases hkind : watch.scopeKind <;> cases hkind' : watch'.scopeKind <;>
    simp only [hkind, hkind', scopeLabel, reduceCtorEq, ScopeLabel.logSource.injEq, ScopeLabel.logSourceType.injEq,
      ScopeLabel.logSourceGroup.injEq] at hlabel <;>
    exact ⟨rfl, by rw [hlabel]⟩

theorem enabled_kept (hclaims : w.needsCapacity = false) (henabled : w.merged.enabled = true) :
    w.loaded.enabled = true := by
  simp only [PatchWrite.needsCapacity, henabled, Bool.true_and, Bool.or_eq_false_iff, Bool.not_eq_false'] at hclaims
  exact hclaims.1

theorem staticCost_kept (h : w.Checked) (hclaims : w.needsCapacity = false) (henabled : w.merged.enabled = true) :
    staticCost s.toPwSettings inventory.memberCount w.edited =
      staticCost s.toPwSettings inventory.memberCount w.loaded := by
  simp only [PatchWrite.needsCapacity, henabled, Bool.true_and, Bool.or_eq_false_iff, Bool.not_eq_false'] at hclaims
  obtain ⟨-, ⟨⟨hscope, _⟩, hpins⟩, _⟩ := hclaims
  have hlabel : scopeLabel w.edited.scopeKind w.edited.logSourceId w.edited.scopeTypeId w.edited.scopeGroupId =
      scopeLabel w.loaded.scopeKind w.loaded.logSourceId w.loaded.scopeTypeId w.loaded.scopeGroupId := by
    simpa [PatchWrite.edited, PatchWrite.changed, changedFields] using hscope
  have hpinned : w.edited.pinnedValues = w.loaded.pinnedValues := by
    simpa [PatchWrite.edited, PatchWrite.changed, changedFields] using hpins
  obtain ⟨hkind, hmembers⟩ : w.edited.scopeKind = w.loaded.scopeKind ∧
      inventory.memberCount w.edited = inventory.memberCount w.loaded :=
    memberCount_of_label (h.instance_kept hscope) hlabel
  rw [staticCost, staticCost, hkind, hmembers, PropertyWatchRow.pinned, PropertyWatchRow.pinned, hpinned]

/-! ## The enabled watches of a table -/

variable {table : WatchTable} {id : String} {row new : PropertyWatchRow} (f : PropertyWatchRow → Nat)

theorem othersEnabled_of_not_mem (h : id ∉ table.keys) : othersEnabled table id = enabledWatches table := by
  rw [othersEnabled, enabledWatches]
  congr 1
  refine List.filter_congr (fun item hitem => ?_)
  have hne : item.1 ≠ id := fun heq => h (heq ▸ List.mem_map_of_mem hitem)
  simp [hne]

theorem sum_enabledWatches (hkeys : table.keys.Nodup) (hget : table.get? id = some row) :
    ((enabledWatches table).map f).sum = ((othersEnabled table id).map f).sum + (if row.enabled then f row else 0) := by
  induction table with
  | nil => cases hget
  | cons item table ih =>
    obtain ⟨hfresh, hkeys⟩ := List.nodup_cons.mp hkeys
    rw [Dict.get?_cons] at hget
    split_ifs at hget with hid
    · obtain rfl := Option.some.inj hget
      have hrest : othersEnabled table id = enabledWatches table := othersEnabled_of_not_mem (by rw [← hid]; exact hfresh)
      rw [othersEnabled, enabledWatches] at hrest ⊢
      cases henabled : item.2.enabled <;> simp_all [Nat.add_comm]
    · have hrest := ih hkeys hget
      rw [othersEnabled, enabledWatches] at hrest ⊢
      cases henabled : item.2.enabled <;> simp_all [Nat.add_assoc]

theorem othersEnabled_set_self : othersEnabled (table.set id row) id = othersEnabled table id := by
  rw [othersEnabled, othersEnabled, Dict.filter_set (by simp)]

theorem sum_enabledWatches_set (hkeys : table.keys.Nodup) : ((enabledWatches (table.set id new)).map f).sum =
    ((othersEnabled table id).map f).sum + (if new.enabled then f new else 0) := by
  have hget : Dict.get? (table.set id new) id = some new := by rw [Dict.get?_set, if_pos rfl]
  rw [sum_enabledWatches f (Dict.nodup_keys_set hkeys id new) hget, othersEnabled_set_self]

theorem sum_othersEnabled_set_le {id' old} (hkeys : table.keys.Nodup) (hne : id ≠ id') (hget : table.get? id = some row)
    (hold : table.get? id' = some old) (hle : (if new.enabled then f new else 0) ≤ if old.enabled then f old else 0) :
    ((othersEnabled (table.set id' new) id).map f).sum ≤ ((othersEnabled table id).map f).sum := by
  have hget' : Dict.get? (table.set id' new) id = some row := by rw [Dict.get?_set, if_neg hne, hget]
  have hafter := sum_enabledWatches f (Dict.nodup_keys_set hkeys id' new) hget'
  have hset : ((enabledWatches (table.set id' new)).map f).sum =
      ((othersEnabled table id').map f).sum + (if new.enabled then f new else 0) := sum_enabledWatches_set f hkeys
  have hbefore := sum_enabledWatches f hkeys hget
  have hother := sum_enabledWatches f hkeys hold
  omega

/-! ## The transaction -/

def PatchTx.write? : PatchTx → Option PatchWrite
  | .naming w | .slotting w | .flushing w | .weighing w | .ready w => some w
  | _ => none

def PatchTx.claimed : PatchTx → Bool
  | .flushing w | .weighing w | .ready w => w.needsCapacity
  | _ => false

inductive PatchMoves (s : AuthoringSettings φ) (table : WatchTable) : PatchTx → PatchTx → Prop where
  | refused {a} (e : PatchRefusal) : PatchMoves s table a (.refused e)
  | unchanged {a} : PatchMoves s table a .unchanged
  | checked {request : PatchRequest} {w : PatchWrite} {b} (hrequest : w.request = request)
      (hrow : table.get? request.watchId = some w.loaded) (hchecked : w.Checked) (hwrite : b.write? = some w)
      (hclaimed : b.claimed = false) (hready : ∀ w, b ≠ .ready w) : PatchMoves s table (.locking request) b
  | claimed {w : PatchWrite} : PatchMoves s table (.slotting w) (.flushing w)
  | goesOn {a b} {w : PatchWrite} (hbefore : a.write? = some w) (hwrite : b.write? = some w)
      (hclaimed : b.claimed = true → a.claimed = true)
      (hweighed : b = .ready w → w.needsCapacity = true → enableReasons s.toPwSettings w.request.inventory.memberCount
        (othersEnabled table w.request.watchId) w.edited = []) : PatchMoves s table a b

theorem guardRules_cases (w : PatchWrite) : guardRules w = .flushing w ∨ ∃ e, guardRules w = .refused e := by
  rw [guardRules]
  split
  · exact .inr ⟨_, rfl⟩
  · exact .inl rfl

theorem claimSlot_cases (w : PatchWrite) : claimSlot w = .slotting w ∨
    (w.needsCapacity = false ∧ claimSlot w = .flushing w) ∨ ∃ e, claimSlot w = .refused e := by
  rw [claimSlot]
  split_ifs with hneeds
  · exact .inl rfl
  · rcases guardRules_cases w with h | h
    · exact .inr (.inl ⟨Bool.eq_false_of_not_eq_true hneeds, h⟩)
    · exact .inr (.inr h)

theorem startPatch_moves (request : PatchRequest) (table : WatchTable) :
    PatchMoves s table (.locking request) (startPatch u s request table) := by
  rw [startPatch]
  cases hrow : table.get? request.watchId with
  | none => exact .refused _
  | some watch =>
    dsimp only
    cases hcheck : checkPatch u s request watch with
    | error e => exact .refused e
    | ok result =>
      cases result with
      | none => exact .unchanged
      | some w =>
        obtain ⟨hrequest, rfl, hchecked⟩ := checkPatch_some hcheck
        clear hcheck
        dsimp only
        split_ifs
        · exact .checked hrequest hrow hchecked rfl rfl (by simp)
        · rcases claimSlot_cases w with h | ⟨hneeds, h⟩ | ⟨e, h⟩ <;> rw [h]
          · exact .checked hrequest hrow hchecked rfl rfl (by simp)
          · exact .checked hrequest hrow hchecked rfl hneeds (by simp)
          · exact .refused e

theorem afterFlush_moves (w : PatchWrite) (table : WatchTable) : PatchMoves s table (.flushing w) (afterFlush w) := by
  rw [afterFlush]
  split_ifs with hneeds
  · exact .goesOn rfl rfl id nofun
  · exact .goesOn rfl rfl id (fun _ h => absurd h hneeds)

theorem patch_moves {a b table} (h : (patchNext u s a).Answers table b) : PatchMoves s table a b := by
  cases a with
  | locking request =>
    obtain ⟨f, hf, rfl⟩ | ⟨k, f, hf, rfl⟩ := h <;> cases hf
    exact startPatch_moves request table
  | naming w =>
    obtain ⟨f, hf, rfl⟩ | ⟨k, f, hf, rfl⟩ := h <;> cases hf
    dsimp only
    split_ifs
    · exact .refused _
    · rcases claimSlot_cases w with h | ⟨hneeds, h⟩ | ⟨e, h⟩ <;> rw [h]
      · exact .goesOn rfl rfl nofun nofun
      · exact .goesOn rfl rfl (fun h => absurd (hneeds.symm.trans h) Bool.false_ne_true) nofun
      · exact .refused e
  | slotting w =>
    obtain ⟨f, hf, rfl⟩ | ⟨k, f, hf, rfl⟩ := h <;> cases hf
    rcases guardRules_cases w with h | ⟨e, h⟩ <;> rw [h]
    · exact .claimed
    · exact .refused e
  | flushing w =>
    rw [patchNext] at h
    split_ifs at h
    · obtain ⟨f, hf, rfl⟩ | ⟨k, f, hf, rfl⟩ := h <;> cases hf
      dsimp only
      split_ifs
      · exact .refused _
      · exact afterFlush_moves w table
    · obtain ⟨f, hf, rfl⟩ | ⟨k, f, hf, rfl⟩ := h <;> cases hf
      exact afterFlush_moves w table
  | weighing w =>
    obtain ⟨f, hf, rfl⟩ | ⟨k, f, hf, rfl⟩ := h <;> cases hf
    rw [weigh]
    split_ifs with hreasons
    · exact .goesOn rfl rfl id (fun _ _ => hreasons)
    · exact .refused _
  | ready w => obtain ⟨f, hf, _⟩ | ⟨k, f, hf, _⟩ := h <;> cases hf
  | unchanged => obtain ⟨f, hf, _⟩ | ⟨k, f, hf, _⟩ := h <;> cases hf
  | refused e => obtain ⟨f, hf, _⟩ | ⟨k, f, hf, _⟩ := h <;> cases hf

def PatchTx.Knows (a : PatchTx) (k : WatchLock) (row : Option (Option PropertyWatchRow)) : Prop :=
  ∀ w, a.write? = some w → k = .watch w.request.watchId → row = some (some w.loaded)

def PatchTx.Owns (a : PatchTx) (k : WatchLock) : Prop :=
  ∃ w, a.write? = some w ∧ (k = .watch w.request.watchId ∨ (a.claimed = true ∧ k = .enabledCap))

theorem PatchMoves.owns {a b table} (h : PatchMoves s table a b) {k}
    (hk : b.Owns k) : (a.Owns k ∧ (a.Knows k (lockable table k) → b.Knows k (lockable table k))) ∨
      (lockable table k).isSome = true ∧ b.Knows k (lockable table k) ∧
        ((∃ request, a = .locking request ∧ k = .watch request.watchId) ∨ ∃ w, a = .slotting w ∧ k = .enabledCap) := by
  obtain ⟨w, hw, hk⟩ := hk
  cases h with
  | refused e => cases hw
  | unchanged => cases hw
  | @checked request w' b hrequest hrow hchecked hwrite hclaimed hready =>
    obtain rfl : w' = w := Option.some.inj (hwrite.symm.trans hw)
    rw [hclaimed] at hk
    obtain rfl : k = .watch w'.request.watchId := by simpa using hk
    rw [hrequest]
    refine .inr ⟨by simp [lockable, hrow], fun w hw _ => ?_, .inl ⟨request, rfl, rfl⟩⟩
    obtain rfl : w' = w := Option.some.inj (hwrite.symm.trans hw)
    simp [lockable, hrow]
  | @claimed w' =>
    obtain rfl : w' = w := Option.some.inj hw
    rcases hk with rfl | ⟨_, rfl⟩
    · exact .inl ⟨⟨w', rfl, .inl rfl⟩, fun hknows => hknows⟩
    · exact .inr ⟨rfl, fun _ _ h => by simp at h, .inr ⟨w', rfl, rfl⟩⟩
  | @goesOn a b w' hbefore hwrite hclaimed hweighed =>
    obtain rfl : w' = w := Option.some.inj (hwrite.symm.trans hw)
    refine .inl ⟨⟨w', hbefore, hk.imp_right (And.imp_left hclaimed)⟩, fun hknows w hw => ?_⟩
    exact hknows w (hbefore.trans (hwrite.symm.trans hw))

def patchDiscipline (u : UnicodeTables) (s : AuthoringSettings φ) :
    Discipline lockable enterPatch (patchNext u s) where
  owned a := {k | a.Owns k}
  Knows := PatchTx.Knows
  enter request := by
    ext k
    exact ⟨fun ⟨_, hw, _⟩ => by simp [enterPatch, PatchTx.write?] at hw, nofun⟩
  read := by
    intro a f hnext table k hk
    rcases (patch_moves (.inl ⟨f, hnext, rfl⟩)).owns hk with h | ⟨_, _, ⟨request, rfl, _⟩ | ⟨w, rfl, _⟩⟩
    · exact h
    · cases hnext
    · cases hnext
  lock := by
    intro a key f hnext table k hk
    rcases (patch_moves (.inr ⟨key, f, hnext, rfl⟩)).owns hk with h | ⟨hsome, hknows, ⟨request, rfl, rfl⟩ | ⟨w, rfl, rfl⟩⟩
    · exact .inl h
    · cases hnext
      exact .inr ⟨rfl, hsome, hknows⟩
    · cases hnext
      exact .inr ⟨rfl, hsome, hknows⟩
  commit := by
    intro a f hnext table k hk _
    cases a with
    | ready w =>
      cases hnext
      cases k with
      | watch id =>
        have hne : id ≠ w.request.watchId := fun heq => hk ⟨w, rfl, .inl (congrArg _ heq)⟩
        rw [lockable, lockable, Dict.get?_set, if_neg hne]
      | enabledCap => rfl
      | name n => rfl
    | unchanged =>
      cases hnext
      rfl
    | flushing w =>
      rw [patchNext] at hnext
      split_ifs at hnext
    | _ => cases hnext

/-! ## Capacity -/

structure Weighs (s : AuthoringSettings φ) (P : PatchRequest → Prop) (f : PropertyWatchRow → Nat) (cap : Nat) : Prop where
  settled : ∀ w : PatchWrite, f w.settled = f w.edited
  kept : ∀ w : PatchWrite, w.Checked → w.needsCapacity = false → w.merged.enabled = true →
    w.loaded.enabled = true ∧ f w.edited = f w.loaded
  weighed : ∀ (w : PatchWrite) (others : List PropertyWatchRow), P w.request →
    enableReasons s.toPwSettings w.request.inventory.memberCount others w.edited = [] →
      (others.map f).sum + f w.edited ≤ cap

theorem enableReasons_nil {members : PropertyWatchRow → Nat} {others watch}
    (h : enableReasons s.toPwSettings members others watch = []) : others.length + 1 ≤ s.pwMaxEnabledWatches ∧
      staticCost s.toPwSettings members watch + (others.map (staticCost s.toPwSettings members)).sum ≤
        s.pwMaxSearchesPerTick := by
  simp only [enableReasons, List.append_eq_nil_iff] at h
  obtain ⟨⟨⟨⟨hcount, _⟩, _⟩, hcost⟩, _⟩ := h
  constructor
  · by_contra hover
    rw [if_pos (by omega)] at hcount
    cases hcount
  · by_contra hover
    rw [if_pos (by omega)] at hcost
    cases hcost

theorem weighs_number (s : AuthoringSettings φ) : Weighs s (fun _ => True) (fun _ => 1) s.pwMaxEnabledWatches where
  settled _ := rfl
  kept _ _ hclaims henabled := ⟨enabled_kept hclaims henabled, rfl⟩
  weighed w others _ h := by simpa using (enableReasons_nil h).1

theorem weighs_cost (s : AuthoringSettings φ) (inventory : Inventory) :
    Weighs s (fun request => request.inventory = inventory)
    (staticCost s.toPwSettings inventory.memberCount) s.pwMaxSearchesPerTick  where
  settled := staticCost_settled
  kept _ h hclaims henabled := ⟨enabled_kept hclaims henabled, staticCost_kept h hclaims henabled⟩
  weighed w others hP h := by
    rw [hP] at h
    rw [Nat.add_comm]
    exact (enableReasons_nil h).2

variable {P : PatchRequest → Prop} {f : PropertyWatchRow → Nat} {cap : Nat}

/-- What a transaction about to commit has made sure of: with the other watches, its own stays under the cap. -/
def PatchTx.Fits (P : PatchRequest → Prop) (f : PropertyWatchRow → Nat) (cap : Nat) (a : PatchTx) (table : WatchTable) :
    Prop :=
  ∀ w, a = .ready w → w.needsCapacity = true → P w.request →
    ((othersEnabled table w.request.watchId).map f).sum + f w.edited ≤ cap

theorem PatchMoves.fits {a b} (hf : Weighs s P f cap) (h : PatchMoves s table a b) : b.Fits P f cap table := by
  intro w hw hneeds hP
  cases h with
  | refused e => cases hw
  | unchanged => cases hw
  | checked _ _ _ _ _ hready => exact absurd hw (hready w)
  | claimed => cases hw
  | @goesOn a b w' _ hwrite _ hweighed =>
    obtain rfl : w' = w := by
      rw [hw] at hwrite
      exact (Option.some.inj hwrite).symm
    exact hf.weighed w' _ hP (hweighed hw hneeds)

theorem PatchMoves.checked_write {a b} (h : PatchMoves s table a b)
    (ha : ∀ w, a.write? = some w → w.Checked) : ∀ w, b.write? = some w → w.Checked := by
  intro w hw
  cases h with
  | refused e => cases hw
  | unchanged => cases hw
  | @checked request w' b _ _ hchecked hwrite _ _ =>
    obtain rfl : w' = w := Option.some.inj (hwrite.symm.trans hw)
    exact hchecked
  | claimed => exact ha w hw
  | @goesOn a b w' hbefore hwrite _ _ => exact ha w (hbefore.trans (hwrite.symm.trans hw))

/-! ## Steps -/

variable {τ : Type}

abbrev PatchDb (τ : Type) := Db WatchTable WatchLock τ PatchTx

abbrev PatchTaken (τ : Type) := Taken (PatchDb τ) (Move τ PatchRequest) (PatchDb τ)

def PatchTaken.accepted (e : PatchTaken τ) : Option PatchWrite :=
  match e.input with
  | .start _ _ => none
  | .advance t =>
    match e.before.session t with
    | some (.ready w) => some w
    | _ => none

variable {db db' : PatchDb τ} {move : Move τ PatchRequest}

structure PatchDb.Ok (u : UnicodeTables) (s : AuthoringSettings φ) (db : PatchDb τ) : Prop where
  locks : (patchDiscipline u s).Inv db
  checked : ∀ t a, db.session t = some a → ∀ w, a.write? = some w → w.Checked
  keys : db.committed.keys.Nodup

theorem PatchDb.Ok.loaded (h : PatchDb.Ok u s db) {t a w} (hopen : db.session t = some a) (hw : a.write? = some w) :
    db.locks (.watch w.request.watchId) = some t ∧ db.committed.get? w.request.watchId = some w.loaded := by
  obtain ⟨hlock, _, hknows⟩ := h.locks t a hopen (.watch w.request.watchId) ⟨w, hw, .inl rfl⟩
  refine ⟨hlock, ?_⟩
  have hrow := hknows w hw rfl
  rw [lockable, Option.map_eq_some_iff] at hrow
  obtain ⟨row, hrow, hsame⟩ := hrow
  rw [hrow, Option.some.inj hsame]

theorem ok_quiet (hkeys : table.keys.Nodup) : PatchDb.Ok u s (Db.quiet table : PatchDb τ) where
  locks := fun _ _ hopen => by simp [Db.quiet] at hopen
  checked := fun _ _ hopen => by simp [Db.quiet] at hopen
  keys := hkeys

variable [DecidableEq τ]

theorem accepted_step (hstep : db.step lockable enterPatch (patchNext u s) move = .ok db') :
    (PatchTaken.accepted ⟨db, move, db'⟩ = none ∧ db'.committed = db.committed) ∨
      ∃ t w, move = .advance t ∧ db.session t = some (.ready w) ∧ PatchTaken.accepted ⟨db, move, db'⟩ = some w ∧
        db'.committed = db.committed.set w.request.watchId w.settled := by
  cases move with
  | start t request => exact .inl ⟨rfl, by rw [step_start hstep]⟩
  | advance t =>
    obtain ⟨a, hopen, hperform⟩ := step_advance hstep
    cases a with
    | ready w =>
      cases hperform
      exact .inr ⟨t, w, rfl, hopen, by simp [PatchTaken.accepted, hopen], rfl⟩
    | unchanged =>
      cases hperform
      exact .inl ⟨by simp [PatchTaken.accepted, hopen], rfl⟩
    | flushing w =>
      refine .inl ⟨by simp [PatchTaken.accepted, hopen], ?_⟩
      rcases perform_committed hperform with hsame | ⟨f, hnext, _⟩
      · exact hsame
      · rw [patchNext] at hnext
        split_ifs at hnext
    | _ =>
      refine .inl ⟨by simp [PatchTaken.accepted, hopen], ?_⟩
      rcases perform_committed hperform with hsame | ⟨f, hnext, _⟩
      · exact hsame
      · cases hnext

theorem ok_step (h : PatchDb.Ok u s db) (hstep : db.step lockable enterPatch (patchNext u s) move = .ok db') :
    PatchDb.Ok u s db' where
  locks := (patchDiscipline u s).inv_step h.locks hstep
  checked := known_step (K := fun a _ => ∀ w, a.write? = some w → w.Checked) h.checked (fun _ _ w hw => by cases hw)
    (fun hanswers ha => (patch_moves hanswers).checked_write ha) (fun _ _ _ _ _ _ _ hb => hb) hstep
  keys := by
    rcases accepted_step hstep with ⟨_, hsame⟩ | ⟨t, w, _, _, _, hset⟩
    · rw [hsame]
      exact h.keys
    · rw [hset]
      exact Dict.nodup_keys_set h.keys _ _

theorem Weighs.settled_le (hf : Weighs s P f cap) {w : PatchWrite} (h : w.Checked) (hclaims : w.needsCapacity = false) :
    (if w.settled.enabled then f w.settled else 0) ≤ if w.loaded.enabled then f w.loaded else 0 := by
  rw [settled_enabled]
  cases henabled : w.merged.enabled with
  | false => exact Nat.zero_le _
  | true =>
    obtain ⟨hwas, hsame⟩ := hf.kept w h hclaims henabled
    rw [hf.settled, hsame, hwas]

theorem fits_step (hf : Weighs s P f cap) (h : PatchDb.Ok u s db)
    (hfits : ∀ t a, db.session t = some a → a.Fits P f cap db.committed)
    (hstep : db.step lockable enterPatch (patchNext u s) move = .ok db') :
    ∀ t a, db'.session t = some a → a.Fits P f cap db'.committed := by
  refine known_step (K := PatchTx.Fits P f cap) hfits (fun _ _ w hw => by cases hw)
    (fun hanswers _ => (patch_moves hanswers).fits hf) ?_ hstep
  intro t a g _ hopen hnext t' b hne hopen' hb w hw hneeds hP
  cases a with
  | ready w' =>
    cases hnext
    subst hw
    obtain ⟨hlock, hrow⟩ := h.loaded hopen' rfl
    obtain ⟨hlock', hrow'⟩ := h.loaded hopen rfl
    have hids : w.request.watchId ≠ w'.request.watchId := by
      intro heq
      rw [heq, hlock'] at hlock
      exact hne (Option.some.inj hlock).symm
    have hclaims : w'.needsCapacity = false := by
      by_contra hclaims
      have hslots := (h.locks t _ hopen .enabledCap ⟨w', rfl, .inr ⟨by simpa [PatchTx.claimed] using hclaims, rfl⟩⟩).1
      have hslots' := (h.locks t' _ hopen' .enabledCap ⟨w, rfl, .inr ⟨hneeds, rfl⟩⟩).1
      rw [hslots] at hslots'
      exact hne (Option.some.inj hslots').symm
    have hle := hf.settled_le (h.checked t _ hopen w' rfl) hclaims
    exact (Nat.add_le_add_right (sum_othersEnabled_set_le f h.keys hids hrow hrow' hle) _).trans (hb w rfl hneeds hP)
  | unchanged =>
    cases hnext
    exact hb w hw hneeds hP
  | flushing w' =>
    rw [patchNext] at hnext
    split_ifs at hnext
  | _ => cases hnext

theorem weight_step (hf : Weighs s P f cap) (h : PatchDb.Ok u s db)
    (hfits : ∀ t a, db.session t = some a → a.Fits P f cap db.committed)
    (hstep : db.step lockable enterPatch (patchNext u s) move = .ok db')
    (hP : ∀ w, PatchTaken.accepted ⟨db, move, db'⟩ = some w → P w.request)
    (hcap : ((enabledWatches db.committed).map f).sum ≤ cap) : ((enabledWatches db'.committed).map f).sum ≤ cap := by
  rcases accepted_step hstep with ⟨_, hsame⟩ | ⟨t, w, rfl, hopen, haccepted, hset⟩
  · rw [hsame]
    exact hcap
  · have hrow := (h.loaded hopen rfl).2
    have hbefore := sum_enabledWatches f h.keys hrow
    rw [hset, sum_enabledWatches_set f h.keys]
    cases hneeds : w.needsCapacity with
    | false =>
      have hle := hf.settled_le (h.checked t _ hopen w rfl) hneeds
      omega
    | true =>
      have hroom := hfits t _ hopen w rfl hneeds (hP w haccepted)
      rw [hf.settled]
      split_ifs <;> omega

/-! ## Runs -/

variable {tr : List (PatchTaken τ)}

abbrev PatchRun (u : UnicodeTables) (s : AuthoringSettings φ) (table : WatchTable) (tr : List (PatchTaken τ))
    (db : PatchDb τ) : Prop := Steps lockable enterPatch (patchNext u s) table tr db

theorem weight_run (hf : Weighs s P f cap) (hkeys : table.keys.Nodup) (h : PatchRun u s table tr db)
    (hP : ∀ e ∈ tr, ∀ w, e.accepted = some w → P w.request) (hcap : ((enabledWatches table).map f).sum ≤ cap) :
    ∀ e ∈ tr, ((enabledWatches e.output.committed).map f).sum ≤ cap := by
  have hreached := h.reached
    (fun db => PatchDb.Ok u s db ∧ (∀ t a, db.session t = some a → a.Fits P f cap db.committed) ∧
      ((enabledWatches db.committed).map f).sum ≤ cap)
    (fun e => ∀ w, PatchTaken.accepted e = some w → P w.request)
    ⟨ok_quiet hkeys, fun _ _ hopen => by simp [Db.quiet] at hopen, hcap⟩ ?_ hP
  · exact fun e he => (hreached.1 e he).2.2
  · intro db move db' hI hcond hstep
    exact ⟨ok_step hI.1 hstep, fits_step hf hI.1 hI.2.1 hstep, weight_step hf hI.1 hI.2.1 hstep hcond hI.2.2⟩

structure PatchTaken.Replaces (e : PatchTaken τ) (w : PatchWrite) : Prop where
  token : w.request.payload.expectedUpdatedAt = w.loaded.updatedAt
  before : e.before.committed.get? w.request.watchId = some w.loaded
  after : e.output.committed.get? w.request.watchId = some w.settled

theorem replaces_step (h : PatchDb.Ok u s db) (hstep : db.step lockable enterPatch (patchNext u s) move = .ok db')
    {w} (hw : PatchTaken.accepted ⟨db, move, db'⟩ = some w) : PatchTaken.Replaces ⟨db, move, db'⟩ w := by
  rcases accepted_step hstep with ⟨hnone, _⟩ | ⟨t, w', rfl, hopen, haccepted, hset⟩
  · cases hnone.symm.trans hw
  · obtain rfl : w' = w := Option.some.inj (haccepted.symm.trans hw)
    refine ⟨(h.checked t _ hopen w' rfl).token, (h.loaded hopen rfl).2, ?_⟩
    show db'.committed.get? w'.request.watchId = _
    rw [hset, Dict.get?_set, if_pos rfl]

theorem replaces_run (hkeys : table.keys.Nodup) (h : PatchRun u s table tr db) :
    ∀ e ∈ tr, ∀ w, e.accepted = some w → e.Replaces w := by
  refine (h.invariant' (fun tr db => PatchDb.Ok u s db ∧ ∀ e ∈ tr, ∀ w, PatchTaken.accepted e = some w →
    PatchTaken.Replaces e w) ⟨ok_quiet hkeys, by simp⟩ ?_).2
  intro tr db move db' hI hstep
  refine ⟨ok_step hI.1 hstep, fun e he w hw => ?_⟩
  rcases List.mem_append.mp he with he | he
  · exact hI.2 e he w hw
  · obtain rfl := List.mem_singleton.mp he
    exact replaces_step hI.1 hstep hw

def PatchTaken.ClockPassed (e : PatchTaken τ) : Prop :=
  ∀ w, e.accepted = some w → w.WritesAgain → w.loaded.updatedAt < w.request.writtenAt

def TokensAdvance (tr : List (PatchTaken τ)) (db : PatchDb τ) : Prop :=
  (∀ e ∈ tr, ∀ w, e.accepted = some w → ∃ row, db.committed.get? w.request.watchId = some row ∧
    w.loaded.updatedAt < row.updatedAt) ∧
  tr.Pairwise (fun e e' => ∀ w w', e.accepted = some w → e'.accepted = some w' →
    w.request.watchId = w'.request.watchId → w.loaded.updatedAt < w'.loaded.updatedAt)

theorem tokens_step (h : PatchDb.Ok u s db) (htokens : TokensAdvance tr db)
    (hstep : db.step lockable enterPatch (patchNext u s) move = .ok db')
    (hclock : PatchTaken.ClockPassed ⟨db, move, db'⟩) : TokensAdvance (tr ++ [⟨db, move, db'⟩]) db' := by
  rcases accepted_step hstep with ⟨hnone, hsame⟩ | ⟨t, w, rfl, hopen, haccepted, hset⟩
  · constructor
    · intro e he w hw
      rcases List.mem_append.mp he with he | he
      · rw [hsame]
        exact htokens.1 e he w hw
      · obtain rfl := List.mem_singleton.mp he
        cases hnone.symm.trans hw
    · refine List.pairwise_append.mpr ⟨htokens.2, List.pairwise_singleton _ _, fun e he e' he' w w' hw hw' => ?_⟩
      obtain rfl := List.mem_singleton.mp he'
      cases hnone.symm.trans hw'
  · have hreplaces := replaces_step h hstep haccepted
    have hforward := (settled_forward_iff w).mpr (hclock w haccepted)
    constructor
    · intro e he w' hw'
      rcases List.mem_append.mp he with he | he
      · obtain ⟨row, hrow, hlt⟩ := htokens.1 e he w' hw'
        rw [hset, Dict.get?_set]
        split_ifs with hid
        · rw [hid, hreplaces.before] at hrow
          cases hrow
          exact ⟨_, rfl, hlt.trans hforward⟩
        · exact ⟨row, hrow, hlt⟩
      · obtain rfl := List.mem_singleton.mp he
        obtain rfl : w = w' := Option.some.inj (haccepted.symm.trans hw')
        exact ⟨_, hreplaces.after, hforward⟩
    · refine List.pairwise_append.mpr ⟨htokens.2, List.pairwise_singleton _ _, fun e he e' he' v v' hv hv' hid => ?_⟩
      obtain rfl := List.mem_singleton.mp he'
      obtain rfl : w = v' := Option.some.inj (haccepted.symm.trans hv')
      obtain ⟨row, hrow, hlt⟩ := htokens.1 e he v hv
      rw [hid, hreplaces.before] at hrow
      cases hrow
      exact hlt

theorem tokens_run (hkeys : table.keys.Nodup) (h : PatchRun u s table tr db) (hclock : ∀ e ∈ tr, e.ClockPassed) :
    TokensAdvance tr db := by
  refine (h.invariant (fun tr db => PatchDb.Ok u s db ∧ TokensAdvance tr db) PatchTaken.ClockPassed
    ⟨ok_quiet hkeys, by simp, List.Pairwise.nil⟩ ?_ hclock).2
  intro tr db move db' hI hcond hstep
  exact ⟨ok_step hI.1 hstep, tokens_step hI.1 hI.2 hstep hcond⟩

end QRadarDashboard.PropertyWatch
