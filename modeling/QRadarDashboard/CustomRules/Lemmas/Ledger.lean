import QRadarDashboard.CustomRules.Ledger

/-!
# Runs of the ledger
-/

namespace QRadarDashboard.CustomRules.Ledger
open Lib

variable {ids : Nat → String} {sustain recovery : Nat} {L : Ledger} {J rest : List Bool}

/-! ## Streaks -/

theorem foldl_quiet (hlive : L.live = none) (h : after true sustain L.breaching J = none) :
    ∃ b u, J.foldl (step ids sustain recovery) L = { L with breaching := b, under := u } := by
  induction J generalizing L with
  | nil => exact ⟨L.breaching, L.under, rfl⟩
  | cons x J ih =>
    cases x with
    | false =>
      simp only [after, Bool.false_eq_true, if_false] at h
      obtain ⟨b, u, hfold⟩ := ih (L := { L with breaching := 0, under := L.under + 1 }) hlive h
      exact ⟨b, u, by simpa [step, hlive] using hfold⟩
    | true =>
      by_cases hsus : sustain ≤ L.breaching + 1
      · simp [after, hsus] at h
      · simp only [after, if_true, hsus, if_false] at h
        obtain ⟨b, u, hfold⟩ := ih (L := { L with breaching := L.breaching + 1, under := 0 }) hlive h
        exact ⟨b, u, by simpa [step, hlive, hsus] using hfold⟩

theorem foldl_opens (hlive : L.live = none) (h : after true sustain L.breaching J = some rest) :
    ∃ c, J.foldl (step ids sustain recovery) L = rest.foldl (step ids sustain recovery) (L.opening ids c) := by
  induction J generalizing L with
  | nil => simp [after] at h
  | cons x J ih =>
    cases x with
    | false =>
      simp only [after, Bool.false_eq_true, if_false] at h
      obtain ⟨c, hfold⟩ := ih (L := { L with breaching := 0, under := L.under + 1 }) hlive h
      exact ⟨c, by simpa [step, hlive, opening] using hfold⟩
    | true =>
      by_cases hsus : sustain ≤ L.breaching + 1
      · simp only [after, if_true, hsus, Option.some.injEq] at h
        exact ⟨L.breaching + 1, by simp [step, hlive, hsus, h]⟩
      · simp only [after, if_true, hsus, if_false] at h
        obtain ⟨c, hfold⟩ := ih (L := { L with breaching := L.breaching + 1, under := 0 }) hlive h
        exact ⟨c, by simpa [step, hlive, hsus, opening] using hfold⟩

theorem foldl_live {id} (hlive : L.live = some id) (h : after false recovery L.under J = none) :
    ∃ b u, J.foldl (step ids sustain recovery) L = { L with breaching := b, under := u } := by
  induction J generalizing L with
  | nil => exact ⟨L.breaching, L.under, rfl⟩
  | cons x J ih =>
    cases x with
    | true =>
      simp only [after, Bool.true_eq_false, if_false] at h
      obtain ⟨b, u, hfold⟩ := ih (L := { L with breaching := L.breaching + 1, under := 0 }) hlive h
      exact ⟨b, u, by simpa [step, hlive] using hfold⟩
    | false =>
      by_cases hrec : recovery ≤ L.under + 1
      · simp [after, hrec] at h
      · simp only [after, if_true, hrec, if_false] at h
        obtain ⟨b, u, hfold⟩ := ih (L := { L with breaching := 0, under := L.under + 1 }) hlive h
        exact ⟨b, u, by simpa [step, hlive, hrec] using hfold⟩

theorem foldl_resolves {id} (hlive : L.live = some id) (h : after false recovery L.under J = some rest) :
    J.foldl (step ids sustain recovery) L = rest.foldl (step ids sustain recovery) (L.resolving id) := by
  induction J generalizing L with
  | nil => simp [after] at h
  | cons x J ih =>
    cases x with
    | true =>
      simp only [after, Bool.true_eq_false, if_false] at h
      have hfold := ih (L := { L with breaching := L.breaching + 1, under := 0 }) hlive h
      simpa [step, hlive, resolving] using hfold
    | false =>
      by_cases hrec : recovery ≤ L.under + 1
      · simp only [after, if_true, hrec, Option.some.injEq] at h
        simp [step, hlive, hrec, h]
      · simp only [after, if_true, hrec, if_false] at h
        have hfold := ih (L := { L with breaching := 0, under := L.under + 1 }) hlive h
        simpa [step, hlive, hrec, resolving] using hfold

/-! ## Openings and resolutions -/

theorem step_balance (ids : Nat → String) (sustain recovery : Nat) (L : Ledger) (x : Bool) :
    (L.step ids sustain recovery x).live.isSome.toNat + (L.step ids sustain recovery x).resolves.length +
        L.opens.length =
      L.live.isSome.toNat + L.resolves.length + (L.step ids sustain recovery x).opens.length := by
  cases x with
  | true =>
    cases hlive : L.live with
    | none =>
      by_cases hsus : sustain ≤ L.breaching + 1
      · simp [step, hlive, hsus, opening]
        omega
      · simp [step, hlive, hsus]
    | some id => simp [step, hlive]
  | false =>
    cases hlive : L.live with
    | none => simp [step, hlive]
    | some id =>
      by_cases hrec : recovery ≤ L.under + 1
      · simp [step, hlive, hrec, resolving]
        omega
      · simp [step, hlive, hrec]

/-- Openings and resolutions account for the live breach. -/
theorem foldl_balance (ids : Nat → String) (sustain recovery : Nat) (L : Ledger) (J : List Bool) :
    (J.foldl (step ids sustain recovery) L).live.isSome.toNat +
        (J.foldl (step ids sustain recovery) L).resolves.length + L.opens.length =
      L.live.isSome.toNat + L.resolves.length + (J.foldl (step ids sustain recovery) L).opens.length := by
  induction J generalizing L with
  | nil => rfl
  | cons x J ih =>
    have hstep := step_balance ids sustain recovery L x
    have hrest := ih (L.step ids sustain recovery x)
    simp only [List.foldl_cons]
    omega

/-! ## Phases of a tick

`start` is the live breach the tick began with. -/

def Known (ids : Nat → String) (start : Option String) (L : Ledger) (id : String) : Prop :=
  start = some id ∨ ∃ n < L.issued, id = ids n

structure Unresolved (ids : Nat → String) (start : Option String) (L : Ledger) : Prop where
  resolved : L.resolved = none
  resolves : L.resolves = []
  live : (L.live = start ∧ L.opens = []) ∨ (start = none ∧ ∃ n, L.live = some (ids n) ∧ L.opens = [ids n])

structure Resolved (id : String) (L : Ledger) : Prop where
  live : L.live = none
  resolved : L.resolved = some id
  resolves : L.resolves = [id]
  opens : L.opens = [] ∨ L.opens = [id]

structure Reopened (ids : Nat → String) (start : Option String) (first last : String) (L : Ledger) :
    Prop where
  first_resolved : first ∈ L.resolves
  first_known : Known ids start L first
  last_resolved : L.resolved = some last
  last_known : Known ids start L last
  live : (L.live = none ∧ last ≠ first) ∨
    ∃ id, L.live = some id ∧ id ≠ last ∧ id ≠ first ∧ ∃ n < L.issued, id = ids n

def Ends (ids : Nat → String) (start : Option String) (reopens : Prop) (L : Ledger) : Prop :=
  (reopens ∧ ∃ first last, Reopened ids start first last L) ∨
    (¬ reopens ∧ (Unresolved ids start L ∨ ∃ id, Resolved id L ∧ Known ids start L id))

/-- The breach a tick saves: the one resolved last, else the live one. -/
def record (L : Ledger) : Option String :=
  match L.resolved with
  | some id => some id
  | none => L.live

theorem Ends.record_known {start} {reopens : Prop} (h : Ends ids start reopens L) {id}
    (hid : L.record = some id) : start = some id ∨ ∃ n, id = ids n := by
  have hknown : ∀ id, Known ids start L id → start = some id ∨ ∃ n, id = ids n :=
    fun _ h => h.imp_right (fun ⟨n, _, hn⟩ => ⟨n, hn⟩)
  rcases h with ⟨-, first, last, hre⟩ | ⟨-, hun | ⟨id', hres, hk⟩⟩
  · rw [record, hre.last_resolved] at hid
    exact hknown id (Option.some.inj hid ▸ hre.last_known)
  · rw [record, hun.resolved] at hid
    rcases hun.live with ⟨hlive, -⟩ | ⟨-, n, hlive, -⟩
    · exact Or.inl (hlive ▸ hid)
    · exact Or.inr ⟨n, Option.some.inj (hid.symm.trans hlive)⟩
  · rw [record, hres.resolved] at hid
    exact hknown id (Option.some.inj hid ▸ hk)

theorem Known.mono {start L' id} (h : Known ids start L id) (hle : L.issued ≤ L'.issued) : Known ids start L' id := by
  rcases h with h | ⟨n, hn, rfl⟩
  · exact Or.inl h
  · exact Or.inr ⟨n, by omega, rfl⟩

theorem Known.ne_next {start id} (hinj : Function.Injective ids)
    (hstart : ∀ n, start ≠ some (ids n)) (h : Known ids start L id) : ids L.issued ≠ id := by
  rcases h with h | ⟨n, hn, rfl⟩
  · rintro rfl
    exact hstart _ h
  · intro heq
    have := hinj heq
    omega

section Phases

variable {start : Option String} (hinj : Function.Injective ids) (hstart : ∀ n, start ≠ some (ids n))

include hinj hstart

theorem Resolved.opening {id} (h : Resolved id L) (hk : Known ids start L id) (c : Nat) :
    Reopened ids start id id (L.opening ids c) := by
  have hne := hk.ne_next hinj hstart
  have hmono : Known ids start (L.opening ids c) id := hk.mono (Nat.le_succ _)
  refine ⟨by simp [Ledger.opening, h.resolves], hmono, h.resolved, hmono, Or.inr ⟨ids L.issued, rfl, hne, hne, ?_⟩⟩
  exact ⟨L.issued, Nat.lt_succ_self _, rfl⟩

theorem Reopened.step {first last} (h : Reopened ids start first last L) (x : Bool) :
    ∃ last', Reopened ids start first last' (L.step ids sustain recovery x) := by
  rcases h.live with ⟨hlive, hne⟩ | ⟨id, hlive, hlast, hfirst, hid⟩
  · cases x with
    | true =>
      by_cases hsus : sustain ≤ L.breaching + 1
      · refine ⟨last, ?_⟩
        have hle : L.issued ≤ (L.opening ids (L.breaching + 1)).issued := Nat.le_succ _
        have hstep : L.step ids sustain recovery true = L.opening ids (L.breaching + 1) := by
          simp [Ledger.step, hlive, hsus]
        rw [hstep]
        refine ⟨h.first_resolved, h.first_known.mono hle, h.last_resolved, h.last_known.mono hle, Or.inr ?_⟩
        exact ⟨ids L.issued, rfl, h.last_known.ne_next hinj hstart, h.first_known.ne_next hinj hstart,
          L.issued, Nat.lt_succ_self _, rfl⟩
      · have hstep : L.step ids sustain recovery true =
            { L with breaching := L.breaching + 1, under := 0 } := by simp [Ledger.step, hlive, hsus]
        rw [hstep]
        exact ⟨last, h.first_resolved, h.first_known, h.last_resolved, h.last_known, Or.inl ⟨hlive, hne⟩⟩
    | false =>
      have hstep : L.step ids sustain recovery false =
          { L with breaching := 0, under := L.under + 1 } := by simp [Ledger.step, hlive]
      rw [hstep]
      exact ⟨last, h.first_resolved, h.first_known, h.last_resolved, h.last_known, Or.inl ⟨hlive, hne⟩⟩
  · cases x with
    | true =>
      have hstep : L.step ids sustain recovery true =
          { L with breaching := L.breaching + 1, under := 0 } := by simp [Ledger.step, hlive]
      rw [hstep]
      exact ⟨last, h.first_resolved, h.first_known, h.last_resolved, h.last_known,
        Or.inr ⟨id, hlive, hlast, hfirst, hid⟩⟩
    | false =>
      by_cases hrec : recovery ≤ L.under + 1
      · have hstep : L.step ids sustain recovery false = L.resolving id := by
          simp [Ledger.step, hlive, hrec]
        rw [hstep]
        refine ⟨id, ?_, h.first_known, rfl, Or.inr hid, Or.inl ⟨rfl, hfirst⟩⟩
        exact List.mem_append_left _ h.first_resolved
      · have hstep : L.step ids sustain recovery false =
            { L with breaching := 0, under := L.under + 1 } := by simp [Ledger.step, hlive, hrec]
        rw [hstep]
        exact ⟨last, h.first_resolved, h.first_known, h.last_resolved, h.last_known,
          Or.inr ⟨id, hlive, hlast, hfirst, hid⟩⟩

theorem Reopened.foldl {first last} (h : Reopened ids start first last L) (J : List Bool) :
    ∃ last', Reopened ids start first last' (J.foldl (Ledger.step ids sustain recovery) L) := by
  induction J generalizing L last with
  | nil => exact ⟨last, h⟩
  | cons x J ih =>
    obtain ⟨last', h'⟩ := h.step hinj hstart x
    exact ih h'

theorem Resolved.ends {id} (h : Resolved id L) (hk : Known ids start L id) :
    Ends ids start (∃ rest, after true sustain L.breaching J = some rest)
      (J.foldl (Ledger.step ids sustain recovery) L) := by
  cases hafter : after true sustain L.breaching J with
  | none =>
    obtain ⟨b, u, hfold⟩ := foldl_quiet h.live hafter
    rw [hfold]
    exact Or.inr ⟨by simp, Or.inr ⟨id, ⟨h.live, h.resolved, h.resolves, h.opens⟩, hk⟩⟩
  | some rest =>
    obtain ⟨c, hfold⟩ := foldl_opens h.live hafter
    rw [hfold]
    obtain ⟨last, hlast⟩ := (h.opening hinj hstart hk c).foldl hinj hstart rest
    exact Or.inl ⟨⟨rest, rfl⟩, id, last, hlast⟩

theorem Unresolved.ends_live {id} (h : Unresolved ids start L) (hlive : L.live = some id) (hk : Known ids start L id) :
    Ends ids start (∃ rest, after false recovery L.under J = some rest ∧
        ∃ rest', after true sustain 0 rest = some rest')
      (J.foldl (Ledger.step ids sustain recovery) L) := by
  cases hafter : after false recovery L.under J with
  | none =>
    obtain ⟨b, u, hfold⟩ := foldl_live hlive hafter
    rw [hfold]
    exact Or.inr ⟨by simp, Or.inl ⟨h.resolved, h.resolves, h.live⟩⟩
  | some rest =>
    rw [foldl_resolves hlive hafter]
    have hres : Resolved id (L.resolving id) := by
      refine ⟨rfl, rfl, by simp [resolving, h.resolves], ?_⟩
      rcases h.live with ⟨-, hopens⟩ | ⟨-, n, hid', hopens⟩
      · exact Or.inl hopens
      · rw [hlive, Option.some.injEq] at hid'
        exact Or.inr (hid' ▸ hopens)
    have hends : Ends ids start (∃ rest', after true sustain 0 rest = some rest')
        (rest.foldl (Ledger.step ids sustain recovery) (L.resolving id)) := hres.ends hinj hstart hk
    simpa using hends

end Phases

theorem Unresolved.ends_quiet (hinj : Function.Injective ids) (h : Unresolved ids none L) (hlive : L.live = none) :
    Ends ids none (∃ rest, after true sustain L.breaching J = some rest ∧
        ∃ rest', after false recovery 0 rest = some rest' ∧ ∃ rest'', after true sustain 0 rest' = some rest'')
      (J.foldl (Ledger.step ids sustain recovery) L) := by
  have hopens : L.opens = [] := by
    rcases h.live with ⟨-, hopens⟩ | ⟨-, id', hid', -⟩
    · exact hopens
    · simp [hlive] at hid'
  cases hafter : after true sustain L.breaching J with
  | none =>
    obtain ⟨b, u, hfold⟩ := foldl_quiet hlive hafter
    rw [hfold]
    exact Or.inr ⟨by simp, Or.inl ⟨h.resolved, h.resolves, h.live⟩⟩
  | some rest =>
    obtain ⟨c, hfold⟩ := foldl_opens hlive hafter
    rw [hfold]
    have hun : Unresolved ids none (L.opening ids c) :=
      ⟨h.resolved, h.resolves, Or.inr ⟨rfl, L.issued, rfl, by simp [Ledger.opening, hopens]⟩⟩
    have hk : Known ids none (L.opening ids c) (ids L.issued) := Or.inr ⟨L.issued, Nat.lt_succ_self _, rfl⟩
    have hends : Ends ids none (∃ rest', after false recovery 0 rest = some rest' ∧
        ∃ rest'', after true sustain 0 rest' = some rest'')
        (rest.foldl (Ledger.step ids sustain recovery) (L.opening ids c)) :=
      hun.ends_live hinj (by simp) rfl hk
    simpa using hends

/-! ## The verdicts of a tick -/

section ResolvesThen

variable {P : List Bool → Prop} (hP : ∀ l₁ l₂, P l₂ → P (l₁ ++ l₂))

include hP

theorem resolvesThen_live_iff (hrec : 1 ≤ recovery) (b u : Nat) :
    ResolvesThen P true b u sustain recovery J ↔ ∃ rest, after false recovery u J = some rest ∧ P rest := by
  simp only [ResolvesThen, if_true, exists_after_iff hrec hP]

theorem resolvesThen_quiet_iff (hsus : 1 ≤ sustain) (hrec : 1 ≤ recovery) (b u : Nat) :
    ResolvesThen P false b u sustain recovery J ↔
      ∃ rest, after true sustain b J = some rest ∧ ∃ rest', after false recovery 0 rest = some rest' ∧ P rest' := by
  have hthen : ∀ l₁ l₂, (∃ l₃ l₄, l₂ = l₃ ++ l₄ ∧ Shows false 0 recovery l₃ ∧ P l₄) →
      ∃ l₃ l₄, l₁ ++ l₂ = l₃ ++ l₄ ∧ Shows false 0 recovery l₃ ∧ P l₄ := by
    rintro l₁ l₂ ⟨l₃, l₄, rfl, h₃, h₄⟩
    exact ⟨l₁ ++ l₃, l₄, by simp, h₃.append_left, h₄⟩
  simp only [ResolvesThen, Bool.false_eq_true, if_false, exists_after_iff hrec hP, exists_after_iff hsus hthen]

end ResolvesThen

theorem staysOpen_iff (hsus : 1 ≤ sustain) (hrec : 1 ≤ recovery) (b : Nat) :
    StaysOpen b sustain recovery J ↔
      ∃ rest, after true sustain b J = some rest ∧ after false recovery 0 rest = none := by
  have hlater : ∀ l₁ l₂, Shows false 0 recovery l₂ → Shows false 0 recovery (l₁ ++ l₂) :=
    fun l₁ l₂ h => h.append_left
  rw [StaysOpen, ← exists_after_iff_shows hsus, ← exists_after_iff hsus hlater]
  constructor
  · rintro ⟨⟨rest, hrest⟩, hnot⟩
    refine ⟨rest, hrest, Option.eq_none_iff_forall_ne_some.mpr (fun rest' h => hnot ⟨rest, hrest, ?_⟩)⟩
    exact (exists_after_iff_shows hrec).mp ⟨rest', h⟩
  · rintro ⟨rest, hrest, hnone⟩
    refine ⟨⟨rest, hrest⟩, ?_⟩
    rintro ⟨rest', hrest', hshow⟩
    obtain rfl := Option.some.inj (hrest.symm.trans hrest')
    obtain ⟨rest'', h⟩ := (exists_after_iff_shows hrec).mpr hshow
    rw [hnone] at h
    cases h

/-! ## How a tick ends -/

theorem live_iff_raised (hsus : 1 ≤ sustain) (hrec : 1 ≤ recovery) (hlive : L.live = none) (hb : L.breaching = 0)
    (J : List Bool) : (J.foldl (step ids sustain recovery) L).live.isSome ↔ Raised sustain recovery J := by
  -- the counters are the streaks at the end, the one of misses while a breach is live
  suffices hall : ((J.foldl (step ids sustain recovery) L).live.isSome ↔ Raised sustain recovery J) ∧
      (J.foldl (step ids sustain recovery) L).breaching = trail true J ∧
      ((J.foldl (step ids sustain recovery) L).live.isSome →
        (J.foldl (step ids sustain recovery) L).under = trail false J) from hall.1
  induction J using List.reverseRecOn with
  | nil => simp [hlive, hb, not_raised_nil hsus]
  | append_singleton J x ih =>
    rw [List.foldl_append, List.foldl_cons, List.foldl_nil]
    generalize J.foldl (step ids sustain recovery) L = L' at ih
    obtain ⟨hraised, hbreaching, hunder⟩ := ih
    cases x with
    | true =>
      rw [raised_snoc_true hrec]
      cases hlive' : L'.live with
      | some id => simp_all [step, trail_snoc]
      | none =>
        by_cases hopen : sustain ≤ L'.breaching + 1
        · have hstep : L'.step ids sustain recovery true = L'.opening ids (L'.breaching + 1) := by
            simp [step, hlive', hopen]
          simp_all [opening, trail_snoc]
        · have hstep : L'.step ids sustain recovery true =
              { L' with breaching := L'.breaching + 1, under := 0 } := by simp [step, hlive', hopen]
          simp_all [trail_snoc]
    | false =>
      rw [raised_snoc_false hsus]
      cases hlive' : L'.live with
      | none => simp_all [step, trail_snoc]
      | some id =>
        by_cases hres : recovery ≤ L'.under + 1
        · have hstep : L'.step ids sustain recovery false = L'.resolving id := by simp [step, hlive', hres]
          simp_all [resolving, trail_snoc]
        · have hstep : L'.step ids sustain recovery false =
              { L' with breaching := 0, under := L'.under + 1 } := by simp [step, hlive', hres]
          simp_all [trail_snoc]

theorem resolved_foldl (h : L.resolved.isSome) (J : List Bool) :
    (J.foldl (step ids sustain recovery) L).resolved.isSome := by
  induction J generalizing L with
  | nil => exact h
  | cons x J ih =>
    refine ih ?_
    cases x with
    | true =>
      simp only [step]
      split
      · split_ifs <;> exact h
      · exact h
    | false =>
      simp only [step]
      split
      · exact h
      · split_ifs
        · rfl
        · exact h

theorem ends_reopened_live_iff (hsus : 1 ≤ sustain) (hrec : 1 ≤ recovery) {id} (hlive : L.live = some id)
    (hres : L.resolved = none) :
    ((J.foldl (step ids sustain recovery) L).resolved.isSome ∧ (J.foldl (step ids sustain recovery) L).live.isSome) ↔
      ∃ rest, after false recovery L.under J = some rest ∧ Raised sustain recovery rest := by
  cases hafter : after false recovery L.under J with
  | none =>
    obtain ⟨b, u, hfold⟩ := foldl_live hlive hafter
    rw [hfold]
    simp [hres]
  | some rest =>
    rw [foldl_resolves hlive hafter, live_iff_raised hsus hrec rfl rfl]
    simp [resolved_foldl (L := L.resolving id) rfl]

theorem ends_start {start} (hinj : Function.Injective ids)
    (hstart : ∀ n, start ≠ some (ids n)) (hsus : 1 ≤ sustain) (hrec : 1 ≤ recovery) (b u : Nat) :
    Ends ids start (ResolvesThen (Shows true 0 sustain) start.isSome b u sustain recovery J)
      (J.foldl (Ledger.step ids sustain recovery) { live := start, breaching := b, under := u }) := by
  have hlater : ∀ l₁ l₂, Shows true 0 sustain l₂ → Shows true 0 sustain (l₁ ++ l₂) :=
    fun l₁ l₂ h => h.append_left
  cases start with
  | some id =>
    have hun : Unresolved ids (some id) { live := some id, breaching := b, under := u } :=
      ⟨rfl, rfl, Or.inl ⟨rfl, rfl⟩⟩
    rw [Option.isSome_some, resolvesThen_live_iff hlater hrec]
    simp only [← exists_after_iff_shows hsus]
    exact hun.ends_live hinj hstart rfl (Or.inl rfl)
  | none =>
    have hun : Unresolved ids none { live := none, breaching := b, under := u } :=
      ⟨rfl, rfl, Or.inl ⟨rfl, rfl⟩⟩
    rw [Option.isSome_none, resolvesThen_quiet_iff hlater hsus hrec]
    simp only [← exists_after_iff_shows hsus]
    exact hun.ends_quiet hinj rfl

/-- Whether the ledger ends with another breach live than the one it resolved last. -/
theorem ends_reopened_iff {start} (hsus : 1 ≤ sustain) (hrec : 1 ≤ recovery) (hlive : L.live = start)
    (hres : L.resolved = none) :
    ((J.foldl (step ids sustain recovery) L).resolved.isSome ∧ (J.foldl (step ids sustain recovery) L).live.isSome) ↔
      ResolvesThen (Raised sustain recovery) start.isSome L.breaching L.under sustain recovery J := by
  have hlater : ∀ l₁ l₂, Raised sustain recovery l₂ → Raised sustain recovery (l₁ ++ l₂) := by
    rintro l₁ l₂ ⟨v, w, rfl, hw⟩
    exact ⟨l₁ ++ v, w, by simp, hw⟩
  cases start with
  | some id =>
    rw [Option.isSome_some, resolvesThen_live_iff hlater hrec]
    exact ends_reopened_live_iff hsus hrec hlive hres
  | none =>
    rw [Option.isSome_none, resolvesThen_quiet_iff hlater hsus hrec]
    cases hafter : after true sustain L.breaching J with
    | none =>
      obtain ⟨b, u, hfold⟩ := foldl_quiet hlive hafter
      rw [hfold]
      simp [hlive]
    | some rest =>
      obtain ⟨c, hfold⟩ := foldl_opens hlive hafter
      rw [hfold, ends_reopened_live_iff (L := L.opening ids c) hsus hrec rfl hres]
      simp [opening]

/-- Whether the ledger of a rule without a breach ends with one and has resolved none. -/
theorem ends_opened_iff (hsus : 1 ≤ sustain) (hrec : 1 ≤ recovery) (hlive : L.live = none) (hres : L.resolved = none) :
    ((J.foldl (step ids sustain recovery) L).resolved = none ∧ (J.foldl (step ids sustain recovery) L).live.isSome) ↔
      StaysOpen L.breaching sustain recovery J := by
  rw [staysOpen_iff hsus hrec]
  cases hafter : after true sustain L.breaching J with
  | none =>
    obtain ⟨b, u, hfold⟩ := foldl_quiet hlive hafter
    rw [hfold]
    simp [hlive]
  | some rest =>
    obtain ⟨c, hfold⟩ := foldl_opens hlive hafter
    rw [hfold]
    cases hafter' : after false recovery 0 rest with
    | none =>
      obtain ⟨b, u, hfold'⟩ := foldl_live (L := L.opening ids c) rfl hafter'
      rw [hfold']
      simp [opening, hres, hafter']
    | some rest' =>
      rw [foldl_resolves (L := L.opening ids c) rfl hafter']
      simp [hafter', Option.ne_none_iff_isSome.mpr (resolved_foldl (L := (L.opening ids c).resolving _) rfl rest')]

end QRadarDashboard.CustomRules.Ledger
