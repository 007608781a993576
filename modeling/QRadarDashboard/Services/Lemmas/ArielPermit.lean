import QRadarDashboard.Services.ArielPermit

/-!
# What a permit's connection holds
-/

namespace QRadarDashboard.Services

open Lib

section Pools

variable {π ι γ : Type} (cfg : PermitSettings) (digest : ι → Nat)

def instancePool (base : Option Nat) : Set (Int × Nat) :=
  {k | ∃ b, base = some b ∧ k.1 = cfg.instanceNamespace ∧ b ≤ k.2 ∧ k.2 < b + cfg.instanceLimit}

def globalPool (first : Nat) : Set (Int × Nat) :=
  {k | k.1 = cfg.globalNamespace ∧ first ≤ k.2 ∧ k.2 < cfg.globalLimit}

def instanceKeys (instanceSlot : Option Nat) : Set (Int × Nat) :=
  {k | ∃ slot, instanceSlot = some slot ∧ k = (cfg.instanceNamespace, slot)}

def Phase.keys : Phase → Option (Set (Int × Nat))
  | .loop slot | .tryGlobal slot _ _ | .check slot | .sleeping slot | .refused slot =>
    some (instanceKeys cfg slot)
  | .tryInstance _ _ => some ∅
  | .holding slot globalSlot => some (insert (cfg.globalNamespace, globalSlot) (instanceKeys cfg slot))
  | .releasing | .invalidating | .crashed => none

def Phase.past : Phase → Option (Option Nat)
  | .tryGlobal slot _ _ | .holding slot _ => some slot
  | _ => none

structure Acquisition.Fits (a : Acquisition ι γ) (held : Set (Int × Nat)) : Prop where
  pools : held ⊆ instancePool cfg (a.instanceBase cfg digest) ∪ globalPool cfg (a.firstGlobal cfg)
  keys : ∀ ks, a.phase.keys cfg = some ks → held = ks
  past : ∀ slot, a.phase.past = some slot → a.instanceId.isSome → slot.isSome

structure PermitInv (st : PermitState π ι γ) : Prop where
  taken : ∀ {p a}, st.task p = some a → st.conn a.conn = .taken
  exclusive : ∀ {p q a b}, st.task p = some a → st.task q = some b → a.conn = b.conn → p = q
  owned : ∀ {key c}, key ∈ st.locks.held c → ∃ p a, st.task p = some a ∧ a.conn = c
  fits : ∀ {p a}, st.task p = some a → a.Fits cfg digest (st.locks.held a.conn)

theorem instancePool_encard (base : Option Nat) : (instancePool cfg base).encard ≤ cfg.instanceLimit := by
  cases base with
  | none => simp [instancePool]
  | some b =>
    have himage : instancePool cfg (some b) ⊆
        (fun i => (cfg.instanceNamespace, b + i)) '' (Finset.range cfg.instanceLimit : Set Nat) := by
      rintro ⟨n, slot⟩ ⟨_, hb, hn, hlow, hhigh⟩
      cases hb
      exact ⟨slot - b, by simp at *; omega, by simp at *; exact ⟨hn.symm, by omega⟩⟩
    calc _ ≤ _ := Set.encard_le_encard himage
      _ ≤ _ := Set.encard_image_le _ _
      _ = cfg.instanceLimit := by rw [Set.encard_coe_eq_coe_finsetCard, Finset.card_range]

theorem globalPool_encard : (globalPool cfg 0).encard ≤ cfg.globalLimit := by
  have himage : globalPool cfg 0 ⊆
      (fun i => (cfg.globalNamespace, i)) '' (Finset.range cfg.globalLimit : Set Nat) := by
    rintro ⟨n, slot⟩ ⟨hn, -, hhigh⟩
    exact ⟨slot, by simpa using hhigh, by simp at *; exact hn.symm⟩
  calc _ ≤ _ := Set.encard_le_encard himage
    _ ≤ _ := Set.encard_image_le _ _
    _ = cfg.globalLimit := by rw [Set.encard_coe_eq_coe_finsetCard, Finset.card_range]

end Pools

section Step

variable {π ι γ : Type} {cfg : PermitSettings} {digest : ι → Nat} {a : Acquisition ι γ}
  {held : Set (Int × Nat)}

theorem firstGlobal_lt (cfg : PermitSettings) (a : Acquisition ι γ) : a.firstGlobal cfg < cfg.globalLimit := by
  have := cfg.reserved_lt
  unfold Acquisition.firstGlobal
  cases a.priority with
  | live => simp; omega
  | background => simpa using this

theorem nextKey_mem {key} (h : a.nextKey cfg digest = some key) :
    key ∈ instancePool cfg (a.instanceBase cfg digest) ∪ globalPool cfg (a.firstGlobal cfg) := by
  unfold Acquisition.nextKey at h
  cases hp : a.phase with
  | tryInstance offset i =>
    simp only [hp] at h
    obtain ⟨base, hbase, rfl⟩ := Option.map_eq_some_iff.mp h
    have hmod := Nat.mod_lt (offset + i) (show 0 < cfg.instanceLimit from cfg.instanceLimit_range.1)
    exact .inl ⟨base, hbase, rfl, by simp, by simpa using hmod⟩
  | tryGlobal slot offset i =>
    simp only [hp, Option.some.injEq] at h
    subst h
    have hlt := firstGlobal_lt cfg a
    have hmod := Nat.mod_lt (offset + i) (show 0 < cfg.globalLimit - a.firstGlobal cfg by omega)
    exact .inr ⟨rfl, by simp, by simp; omega⟩
  | _ => simp [hp] at h

@[simp] theorem instanceKeys_none : instanceKeys cfg none = ∅ := by
  ext k
  simp [instanceKeys]

@[simp] theorem instanceKeys_some {slot} : instanceKeys cfg (some slot) = {(cfg.instanceNamespace, slot)} := by
  ext k
  simp [instanceKeys]

theorem nextKey_tryInstance {offset i key} (hp : a.phase = .tryInstance offset i)
    (h : a.nextKey cfg digest = some key) : key = (cfg.instanceNamespace, key.2) := by
  simp only [Acquisition.nextKey, hp] at h
  obtain ⟨base, -, rfl⟩ := Option.map_eq_some_iff.mp h
  rfl

theorem nextKey_tryGlobal {slot offset i key} (hp : a.phase = .tryGlobal slot offset i)
    (h : a.nextKey cfg digest = some key) : key = (cfg.globalNamespace, key.2) := by
  simp only [Acquisition.nextKey, hp, Option.some.injEq] at h
  subst h
  rfl

/-! ## One step of a phase -/

theorem Acquisition.fits_leaving {phase} (hkeys : phase.keys cfg = none) (hpast : phase.past = none)
    (hsub : held ⊆ instancePool cfg (a.instanceBase cfg digest) ∪ globalPool cfg (a.firstGlobal cfg)) :
    ({ a with phase } : Acquisition ι γ).Fits cfg digest held :=
  ⟨hsub, by simp [hkeys], by simp [hpast]⟩

theorem Acquisition.Fits.enter (h : a.Fits cfg digest held) {offset phase}
    (he : a.enter cfg digest offset = some phase) :
    ({ a with phase } : Acquisition ι γ).Fits cfg digest held := by
  unfold Acquisition.enter at he
  cases hp : a.phase with
  | loop slot =>
    have hheld : held = instanceKeys cfg slot := h.keys _ (by simp [Phase.keys, hp])
    simp only [hp] at he
    split at he
    · rename_i hnone
      split at he
      · cases he
        rw [hnone.2, instanceKeys_none] at hheld
        exact ⟨h.pools, by simp [Phase.keys, hheld], by simp [Phase.past]⟩
      · cases he
    · rename_i hnone
      split at he
      · cases he
        refine ⟨h.pools, by simp [Phase.keys, hheld], ?_⟩
        simp only [Phase.past, Option.some.injEq]
        rintro _ rfl hid
        rw [Option.isSome_iff_ne_none]
        intro hslot
        exact hnone ⟨by simpa [Acquisition.instanceBase] using hid, hslot⟩
      · cases he
  | _ => simp [hp] at he

theorem Acquisition.Fits.deadline (h : a.Fits cfg digest held) {now phase} (hd : a.deadline cfg now = some phase) :
    ({ a with phase } : Acquisition ι γ).Fits cfg digest held := by
  unfold Acquisition.deadline at hd
  cases hp : a.phase with
  | check slot =>
    have hheld : held = instanceKeys cfg slot := h.keys _ (by simp [Phase.keys, hp])
    simp only [hp] at hd
    split at hd <;> cases hd <;> exact ⟨h.pools, by simp [Phase.keys, hheld], by simp [Phase.past]⟩
  | _ => simp [hp] at hd

theorem Acquisition.Fits.granted (h : a.Fits cfg digest held) {key} (hk : a.nextKey cfg digest = some key) :
    ({ a with phase := a.answered cfg key.2 true } : Acquisition ι γ).Fits cfg digest (insert key held) := by
  have hpools := Set.insert_subset (nextKey_mem hk) h.pools
  unfold Acquisition.answered
  cases hp : a.phase with
  | tryInstance offset i =>
    have hheld : held = ∅ := h.keys _ (by simp [Phase.keys, hp])
    have hkey := nextKey_tryInstance hp hk
    refine ⟨hpools, ?_, by simp [Phase.past]⟩
    simp only [Phase.keys, if_true, instanceKeys_some, Option.some.injEq]
    rintro _ rfl
    rw [hheld, ← hkey, insert_empty_eq]
  | tryGlobal slot offset i =>
    have hheld : held = instanceKeys cfg slot := h.keys _ (by simp [Phase.keys, hp])
    have hkey := nextKey_tryGlobal hp hk
    refine ⟨hpools, ?_, ?_⟩
    · simp only [Phase.keys, if_true, Option.some.injEq]
      rintro _ rfl
      rw [hheld, ← hkey]
    · simpa [Phase.past] using h.past slot (by simp [Phase.past, hp])
  | _ => simp [Acquisition.nextKey, hp] at hk

theorem Acquisition.Fits.denied (h : a.Fits cfg digest held) {key} (hk : a.nextKey cfg digest = some key) :
    ({ a with phase := a.answered cfg key.2 false } : Acquisition ι γ).Fits cfg digest held := by
  unfold Acquisition.answered
  cases hp : a.phase with
  | tryInstance offset i =>
    have hheld : held = ∅ := h.keys _ (by simp [Phase.keys, hp])
    simp only [Bool.false_eq_true, if_false]
    split <;> exact ⟨h.pools, by simp [Phase.keys, hheld], by simp [Phase.past]⟩
  | tryGlobal slot offset i =>
    have hheld : held = instanceKeys cfg slot := h.keys _ (by simp [Phase.keys, hp])
    have hpast := h.past slot (by simp [Phase.past, hp])
    simp only [Bool.false_eq_true, if_false]
    split
    · exact ⟨h.pools, by simp [Phase.keys, hheld], by simpa [Phase.past] using hpast⟩
    · exact ⟨h.pools, by simp [Phase.keys, hheld], by simp [Phase.past]⟩
  | _ => simp [Acquisition.nextKey, hp] at hk

end Step

/-! ## What the invariant gives -/

section Invariant

variable {π ι γ : Type} {cfg : PermitSettings} {digest : ι → Nat} {st : PermitState π ι γ}
  {a : Acquisition ι γ}

theorem Acquisition.Fits.global_mem {held} (h : a.Fits cfg digest held) {slot}
    (hmem : (cfg.globalNamespace, slot) ∈ held) : (cfg.globalNamespace, slot) ∈ globalPool cfg (a.firstGlobal cfg) := by
  obtain ⟨_, -, hns, -⟩ | hglobal := h.pools hmem
  · exact absurd hns cfg.namespaces_ne
  · exact hglobal

theorem Acquisition.Fits.instance_mem {held} (h : a.Fits cfg digest held) {slot}
    (hmem : (cfg.instanceNamespace, slot) ∈ held) :
    (cfg.instanceNamespace, slot) ∈ instancePool cfg (a.instanceBase cfg digest) := by
  obtain hinstance | ⟨hns, -⟩ := h.pools hmem
  · exact hinstance
  · exact absurd hns.symm cfg.namespaces_ne

theorem Acquisition.Fits.holdsPermit {held} (h : a.Fits cfg digest held) {instanceSlot globalSlot}
    (hp : a.phase = .holding instanceSlot globalSlot) : HoldsPermit cfg digest a held instanceSlot globalSlot := by
  have hheld : held = insert (cfg.globalNamespace, globalSlot) (instanceKeys cfg instanceSlot) :=
    h.keys _ (by simp [Phase.keys, hp])
  have hrange : ∀ slot, instanceSlot = some slot → ∃ id, a.instanceId = some id ∧
      instanceSlotBase digest id cfg.instanceLimit ≤ slot ∧
      slot < instanceSlotBase digest id cfg.instanceLimit + cfg.instanceLimit := by
    rintro slot rfl
    obtain ⟨base, hbase, -, hlow, hhigh⟩ := h.instance_mem (show (cfg.instanceNamespace, slot) ∈ held by simp [hheld])
    obtain ⟨id, hid, rfl⟩ := Option.map_eq_some_iff.mp hbase
    exact ⟨id, hid, hlow, hhigh⟩
  refine ⟨hheld, (h.global_mem (show (cfg.globalNamespace, globalSlot) ∈ held by simp [hheld])).2.2, ?_, hrange⟩
  have hpast := h.past instanceSlot (by simp [Phase.past, hp])
  cases hslot : instanceSlot with
  | none =>
    cases hid : a.instanceId with
    | none => rfl
    | some id => simp [hslot, hid] at hpast
  | some slot =>
    obtain ⟨id, hid, -⟩ := hrange slot hslot
    simp [hid]

theorem PermitInv.safe (hinv : PermitInv cfg digest st) : PermitSafe cfg digest st := by
  have howner : ∀ {p q c}, (st.task p).map Acquisition.conn = some c →
      (st.task q).map Acquisition.conn = some c → p = q := by
    intro p q c hp hq
    obtain ⟨a, ha, hac⟩ := Option.map_eq_some_iff.mp hp
    obtain ⟨b, hb, hbc⟩ := Option.map_eq_some_iff.mp hq
    exact hinv.exclusive ha hb (hac.trans hbc.symm)
  refine ⟨?_, ?_, ?_, ?_, fun _ _ hkey => hinv.owned hkey, fun _ _ _ _ hp hq hconn =>
    hinv.exclusive hp hq hconn⟩
  · calc (st.globalHolders cfg).encard
        ≤ _ := Set.encard_le_encard ?_
      _ ≤ (globalPool cfg 0).encard :=
          st.locks.encard_users_le _ (fun p => (st.task p).map Acquisition.conn) howner
      _ ≤ cfg.globalLimit := globalPool_encard cfg
    rintro p ⟨slot, a, hp, hmem⟩
    have hglobal := (hinv.fits hp).global_mem hmem
    exact ⟨a.conn, by simp [hp], _, ⟨hglobal.1, Nat.zero_le _, hglobal.2.2⟩, hmem⟩
  · intro id
    calc (st.instanceHolders cfg id).encard
        ≤ _ := Set.encard_le_encard ?_
      _ ≤ (instancePool cfg (some (instanceSlotBase digest id cfg.instanceLimit))).encard :=
          st.locks.encard_users_le _ (fun p => (st.task p).map Acquisition.conn) howner
      _ ≤ cfg.instanceLimit := instancePool_encard cfg _
    rintro p ⟨a, slot, hp, hid, hmem⟩
    have hinstance := (hinv.fits hp).instance_mem hmem
    simp only [Acquisition.instanceBase, hid, Option.map_some] at hinstance
    exact ⟨a.conn, by simp [hp], _, hinstance, hmem⟩
  · intro p a slot hp hpriority hmem
    have hglobal := ((hinv.fits hp).global_mem hmem).2.1
    simpa [Acquisition.firstGlobal, hpriority] using hglobal
  · intro p a instanceSlot globalSlot hp hphase
    exact (hinv.fits hp).holdsPermit hphase

end Invariant

/-! ## One step of the system -/

section System

variable {π ι γ : Type} {cfg : PermitSettings} {digest : ι → Nat} {st st' : PermitState π ι γ} {p : π}
  {a : Acquisition ι γ}

theorem permitInv_initial : PermitInv cfg digest (.initial : PermitState π ι γ) := by
  refine ⟨?_, ?_, ?_, ?_⟩ <;> simp [PermitState.initial]

variable [DecidableEq π]

theorem task_update {q b new}
    (h : Function.update st.task p new q = some b) : (q = p ∧ new = some b) ∨ q ≠ p ∧ st.task q = some b := by
  by_cases hqp : q = p
  · subst hqp
    exact .inl ⟨rfl, by simpa using h⟩
  · exact .inr ⟨hqp, by simpa [hqp] using h⟩

variable [DecidableEq γ]

theorem advance_cases {e} (h : st.advance cfg digest p a e = some st') :
    (∃ phase locks, st' = { st with locks }.setPhase p a phase ∧
      (∀ d, d ≠ a.conn → locks.held d = st.locks.held d) ∧
      (a.Fits cfg digest (st.locks.held a.conn) →
        ({ a with phase } : Acquisition ι γ).Fits cfg digest (locks.held a.conn))) ∨
    ∃ status, status ≠ .taken ∧ st' = st.finish p a status := by
  cases e with
  | connect => simp [PermitState.advance] at h
  | enter offset =>
    obtain ⟨phase, hphase, rfl⟩ := Option.map_eq_some_iff.mp h
    exact .inl ⟨phase, st.locks, rfl, fun _ _ => rfl, fun hfits => hfits.enter hphase⟩
  | tryLock =>
    obtain ⟨key, hkey, rfl⟩ := Option.map_eq_some_iff.mp h
    refine .inl ⟨_, _, rfl, fun d hd => LockTable.held_lock_of_ne hd, fun hfits => ?_⟩
    cases hgot : st.locks.grants a.conn key with
    | true =>
      rw [LockTable.held_lock hgot]
      exact hfits.granted hkey
    | false =>
      rw [LockTable.lock_refused hgot]
      exact hfits.denied hkey
  | clock now =>
    obtain ⟨phase, hphase, rfl⟩ := Option.map_eq_some_iff.mp h
    exact .inl ⟨phase, st.locks, rfl, fun _ _ => rfl, fun hfits => hfits.deadline hphase⟩
  | wake =>
    cases hp : a.phase with
    | sleeping slot =>
      simp only [PermitState.advance, hp, Option.some.injEq] at h
      refine .inl ⟨.loop slot, st.locks, h.symm, fun _ _ => rfl, fun hfits => ?_⟩
      exact ⟨hfits.pools, by simpa [Phase.keys, hp] using hfits.keys, by simp [Phase.past]⟩
    | _ => simp [PermitState.advance, hp] at h
  | leave | cancel =>
    simp only [PermitState.advance] at h
    split at h
    · cases h
      exact .inl ⟨.releasing, st.locks, rfl, fun _ _ => rfl, fun hfits =>
        Acquisition.fits_leaving rfl rfl hfits.pools⟩
    · cases h
  | cancelInQuery =>
    obtain ⟨key, hkey, rfl⟩ := Option.map_eq_some_iff.mp h
    refine .inl ⟨_, _, rfl, fun d hd => LockTable.held_lock_of_ne hd, fun hfits => ?_⟩
    exact Acquisition.fits_leaving rfl rfl
      (LockTable.held_lock_subset.trans (Set.insert_subset (nextKey_mem hkey) hfits.pools))
  | unlocked | invalidated | connectionEnds =>
    simp only [PermitState.advance] at h
    split at h
    · cases h
      exact .inr ⟨_, by decide, rfl⟩
    · cases h
  | unlockFailed executed =>
    simp only [PermitState.advance] at h
    split at h
    · cases h
      refine .inl ⟨_, _, rfl, fun d hd => ?_, fun hfits => Acquisition.fits_leaving rfl rfl ?_⟩
      · cases executed with
        | true => exact LockTable.held_unlockAll_of_ne hd
        | false => rfl
      · cases executed with
        | true => simp
        | false => exact hfits.pools
    · cases h
  | crash =>
    simp only [PermitState.advance] at h
    split at h
    · cases h
    · cases h
      exact .inl ⟨.crashed, st.locks, rfl, fun _ _ => rfl, fun hfits =>
        Acquisition.fits_leaving rfl rfl hfits.pools⟩

theorem PermitInv.connect (hinv : PermitInv cfg digest st) (hp : st.task p = none) {conn}
    (hfree : st.conn conn = .free) (instanceId : Option ι) (priority : ArielPriority) (started : Rat) :
    PermitInv cfg digest { st with
      task := Function.update st.task p (some ⟨conn, instanceId, priority, started, .loop none⟩)
      conn := Function.update st.conn conn .taken } := by
  have hfresh : ∀ {q b}, st.task q = some b → b.conn ≠ conn := by
    rintro q b hq rfl
    simp [hinv.taken hq] at hfree
  have hnone : st.locks.held conn = ∅ := by
    rw [Set.eq_empty_iff_forall_notMem]
    intro key hkey
    obtain ⟨q, b, hq, hconn⟩ := hinv.owned hkey
    exact hfresh hq hconn
  refine ⟨?_, ?_, ?_, ?_⟩
  · intro q b hq
    obtain ⟨-, hb⟩ | ⟨-, hq'⟩ := task_update hq
    · cases hb
      simp
    · simp [hfresh hq', hinv.taken hq']
  · intro q r b c hq hr hconn
    obtain ⟨hqp, hb⟩ | ⟨-, hq'⟩ := task_update hq <;> obtain ⟨hrp, hc⟩ | ⟨-, hr'⟩ := task_update hr
    · rw [hqp, hrp]
    · cases hb
      exact absurd hconn.symm (hfresh hr')
    · cases hc
      exact absurd hconn (hfresh hq')
    · exact hinv.exclusive hq' hr' hconn
  · intro key c hkey
    obtain ⟨q, b, hq, hconn⟩ := hinv.owned hkey
    have hqp : q ≠ p := by
      rintro rfl
      simp [hp] at hq
    exact ⟨q, b, by simpa [hqp] using hq, hconn⟩
  · intro q b hq
    obtain ⟨-, hb⟩ | ⟨-, hq'⟩ := task_update hq
    · cases hb
      exact ⟨by simp [hnone], by simp [Phase.keys, hnone], by simp [Phase.past]⟩
    · exact hinv.fits hq'

theorem PermitInv.setPhase (hinv : PermitInv cfg digest st) (hp : st.task p = some a) {phase locks}
    (hothers : ∀ d, d ≠ a.conn → locks.held d = st.locks.held d) (hfits : a.Fits cfg digest (st.locks.held a.conn) →
      ({ a with phase } : Acquisition ι γ).Fits cfg digest (locks.held a.conn)) :
    PermitInv cfg digest ({ st with locks }.setPhase p a phase) := by
  have hold : ∀ {q b}, ({ st with locks }.setPhase p a phase).task q = some b →
      ∃ b', st.task q = some b' ∧ b'.conn = b.conn := by
    intro q b hq
    obtain ⟨rfl, hb⟩ | ⟨-, hq'⟩ := task_update hq
    · cases hb
      exact ⟨a, hp, rfl⟩
    · exact ⟨b, hq', rfl⟩
  refine ⟨?_, ?_, ?_, ?_⟩
  · intro q b hq
    obtain ⟨b', hq', hconn⟩ := hold hq
    exact hconn ▸ hinv.taken hq'
  · intro q r b c hq hr hconn
    obtain ⟨b', hq', hb⟩ := hold hq
    obtain ⟨c', hr', hc⟩ := hold hr
    exact hinv.exclusive hq' hr' (by rw [hb, hc, hconn])
  · intro key c hkey
    by_cases hc : c = a.conn
    · exact ⟨p, _, Function.update_self .., hc.symm⟩
    · have hkey' : key ∈ st.locks.held c := hothers c hc ▸ hkey
      obtain ⟨q, b, hq, hconn⟩ := hinv.owned hkey'
      have hqp : q ≠ p := by
        rintro rfl
        rw [hp] at hq
        cases hq
        exact hc hconn.symm
      exact ⟨q, b, by simpa [PermitState.setPhase, hqp] using hq, hconn⟩
  · intro q b hq
    obtain ⟨rfl, hb⟩ | ⟨hqp, hq'⟩ := task_update hq
    · cases hb
      exact hfits (hinv.fits hp)
    · have hne : b.conn ≠ a.conn := fun hconn => hqp (hinv.exclusive hq' hp hconn)
      have hsame := hothers b.conn hne
      exact hsame ▸ hinv.fits hq'

theorem PermitInv.finish (hinv : PermitInv cfg digest st) (hp : st.task p = some a) (status : ConnStatus) :
    PermitInv cfg digest (st.finish p a status) := by
  have hothers : ∀ {q b}, (st.finish p a status).task q = some b → st.task q = some b ∧ b.conn ≠ a.conn := by
    intro q b hq
    obtain ⟨-, hb⟩ | ⟨hqp, hq'⟩ := task_update hq
    · cases hb
    · exact ⟨hq', fun hconn => hqp (hinv.exclusive hq' hp hconn)⟩
  refine ⟨?_, ?_, ?_, ?_⟩
  · intro q b hq
    obtain ⟨hq', hne⟩ := hothers hq
    simpa [PermitState.finish, hne] using hinv.taken hq'
  · intro q r b c hq hr hconn
    exact hinv.exclusive (hothers hq).1 (hothers hr).1 hconn
  · intro key c hkey
    by_cases hc : c = a.conn
    · subst hc
      simp [PermitState.finish] at hkey
    · have hkey' : key ∈ st.locks.held c := LockTable.held_unlockAll_of_ne hc ▸ hkey
      obtain ⟨q, b, hq, hconn⟩ := hinv.owned hkey'
      have hqp : q ≠ p := by
        rintro rfl
        rw [hp] at hq
        cases hq
        exact hc hconn.symm
      exact ⟨q, b, by simpa [PermitState.finish, hqp] using hq, hconn⟩
  · intro q b hq
    obtain ⟨hq', hne⟩ := hothers hq
    have hsame : (st.finish p a status).locks.held b.conn = st.locks.held b.conn :=
      LockTable.held_unlockAll_of_ne hne
    exact hsame ▸ hinv.fits hq'

theorem permit_advance {event} (hp : st.task p = some a)
    (h : st.step cfg digest (p, event) = .ok st') : st.advance cfg digest p a event = some st' := by
  cases hadv : st.advance cfg digest p a event with
  | none => simp [PermitState.step, hp, hadv] at h
  | some st'' =>
    simp only [PermitState.step, hp, hadv, Option.elim_some, Except.ok.injEq] at h
    rw [h]

theorem step_connect {event} (hp : st.task p = none) (h : st.step cfg digest (p, event) = .ok st') :
    ∃ conn instanceId priority started, st.conn conn = .free ∧ st' = { st with
      task := Function.update st.task p (some ⟨conn, instanceId, priority, started, .loop none⟩)
      conn := Function.update st.conn conn .taken } := by
  cases event with
  | connect conn instanceId priority started =>
    simp only [PermitState.step, hp] at h
    split at h
    · rename_i hfree
      cases h
      exact ⟨conn, instanceId, priority, started, hfree, rfl⟩
    · cases h
  | _ => simp [PermitState.step, hp] at h

theorem PermitInv.step (hinv : PermitInv cfg digest st) {e}
    (h : st.step cfg digest e = .ok st') : PermitInv cfg digest st' := by
  obtain ⟨p, event⟩ := e
  cases hp : st.task p with
  | some a =>
    obtain ⟨phase, locks, rfl, hothers, hfits⟩ | ⟨status, -, rfl⟩ := advance_cases (permit_advance hp h)
    · exact hinv.setPhase hp hothers hfits
    · exact hinv.finish hp status
  | none =>
    obtain ⟨conn, instanceId, priority, started, hfree, rfl⟩ := step_connect hp h
    exact hinv.connect hp hfree instanceId priority started

theorem permitInv_run {tr} (h : Run (PermitState.step cfg digest) id .initial tr st) : PermitInv cfg digest st :=
  h.invariant' (fun _ st => PermitInv cfg digest st) permitInv_initial (fun hinv hs => hinv.step hs)

theorem held_of_ended {e} (h : st.step cfg digest e = .ok st') {q b} (hq : st.task q = some b)
    (hend : st'.task q = none) : st'.locks.held b.conn = ∅ := by
  obtain ⟨p, event⟩ := e
  cases hp : st.task p with
  | some a =>
    have hadv := permit_advance hp h
    have hother : q ≠ p → st'.task q = some b := by
      intro hqp
      obtain ⟨phase, locks, rfl, -, -⟩ | ⟨status, -, rfl⟩ := advance_cases hadv <;>
        simpa [PermitState.setPhase, PermitState.finish, hqp] using hq
    by_cases hqp : q = p
    · subst hqp
      cases hp.symm.trans hq
      obtain ⟨phase, locks, rfl, -, -⟩ | ⟨status, -, rfl⟩ := advance_cases hadv
      · simp [PermitState.setPhase] at hend
      · simp [PermitState.finish]
    · simp [hother hqp] at hend
  | none =>
    obtain ⟨conn, instanceId, priority, started, -, rfl⟩ := step_connect hp h
    have hqp : q ≠ p := by
      rintro rfl
      simp [hp] at hq
    simp [hqp, hq] at hend

end System

end QRadarDashboard.Services
