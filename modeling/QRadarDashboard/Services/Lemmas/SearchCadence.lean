import QRadarDashboard.Services.SearchCadence

/-!
# The claims of the slots
-/

namespace QRadarDashboard.Services
open Lib

/-! ## The announced dispatch -/

section Dispatch

variable {row : CadenceRow} {settleSeconds : Nat} {now t : Int}

def Representable (value : Int) : Prop := |value| < 2 ^ 52

theorem flooredQuotient_eq {value} (h : Representable value) (cadence : CadenceSeconds) :
    flooredQuotient value cadence = value / (1000000 * cadence.1) := by
  have hfits : cadence.1 < 2 ^ 53 := Nat.lt_of_lt_of_le cadence.2.2 (by decide)
  exact Double.floor_round_div (by decide) cadence.2.1 hfits h

theorem slotStart_eq (h : Representable (now - settleSeconds * 1000000)) (cadence : CadenceSeconds) :
    slotStart now cadence settleSeconds =
      (now - settleSeconds * 1000000) / (1000000 * cadence.1) * (1000000 * cadence.1) := by
  simp only [slotStart, flooredQuotient_eq h]
  rw [Int.mul_assoc, Int.mul_comm (cadence.1 : Int)]

theorem lt_floor_iff (last value : Int) {c} (hc : 0 < c) : last < value / c * c ↔ last / c * c + c ≤ value := by
  have hnext : last / c * c + c = (last / c + 1) * c := by rw [Int.add_mul, Int.one_mul]
  rw [hnext, ← Int.le_ediv_iff_mul_le hc, Int.add_one_le_iff, Int.ediv_lt_iff_lt_mul hc]

/-- Where the divisions do not round over a boundary, a claim passes from the announced instant on. -/
theorem accepts_iff_dispatched (hnow : now ≤ t) (hn : Representable (now - settleSeconds * 1000000))
    (ht : Representable (t - settleSeconds * 1000000))
    (hlast : ∀ last, row.lastSlotStart = some last → Representable last) :
    row.accepts (slotStart t row.cadenceSeconds settleSeconds) = true ↔ nextDispatchAt row settleSeconds now ≤ t := by
  have hpos : (0 : Int) < 1000000 * row.cadenceSeconds.1 := by
    have := row.cadenceSeconds.2.1
    omega
  have hcurrent : slotStart now row.cadenceSeconds settleSeconds ≤ now - settleSeconds * 1000000 := by
    rw [slotStart_eq hn]
    exact Int.ediv_mul_le _ hpos.ne'
  unfold nextDispatchAt CadenceRow.accepts
  cases hclaimed : row.lastSlotStart with
  | none =>
    simp only [true_iff]
    omega
  | some last =>
    have hsettled : Representable (last - (0 : Nat) * 1000000) := by
      simpa [Representable] using hlast last hclaimed
    have hfirst : slotStart last row.cadenceSeconds 0 =
        last / (1000000 * row.cadenceSeconds.1) * (1000000 * row.cadenceSeconds.1) := by
      rw [slotStart_eq hsettled]
      simp
    have hgrid := lt_floor_iff last (t - settleSeconds * 1000000) hpos
    simp only [decide_eq_true_eq, slotStart_eq ht, hgrid, hfirst]
    omega

end Dispatch

/-! ## The order of the claims -/

def lastSlot (row : Option CadenceRow) : Option Int := row.bind CadenceRow.lastSlotStart

def SlotLe (a b : Option Int) : Prop := ∀ l, a = some l → ∃ l', b = some l' ∧ l ≤ l'

theorem SlotLe.refl (a : Option Int) : SlotLe a a := fun l h => ⟨l, h, Int.le_refl _⟩

section Claims

variable {τ : Type}

structure CadenceInv (db : CadenceDb τ) : Prop where
  version : ∀ t row, db.written = some (t, row) → SlotLe (lastSlot db.committed) row.lastSlotStart
  claimed : ∀ t slot, db.session t = some (.claimed (some slot)) →
    (∃ row, db.written = some (t, row) ∧ row.lastSlotStart = some slot) ∧ ∀ l, lastSlot db.committed = some l → l < slot
  ordered : db.claims.Pairwise (· < ·)
  behind : ∀ c ∈ db.claims, ∃ l, lastSlot db.committed = some l ∧ c ≤ l

theorem cadenceInv_initial (row : Option CadenceRow) : CadenceInv (τ := τ) { committed := row } :=
  ⟨by simp, by simp, .nil, by simp⟩

variable [DecidableEq τ] {cfg : CadenceSettings} {db db' : CadenceDb τ} {t : τ}

theorem CadenceInv.go (h : CadenceInv db) {tx} (htx : ∀ slot, tx ≠ .claimed (some slot)) : CadenceInv (db.go t tx) := by
  refine ⟨h.version, fun u slot hu => ?_, h.ordered, h.behind⟩
  by_cases heq : u = t
  · subst heq
    simp only [CadenceDb.go, Function.update_self, Option.some.injEq] at hu
    exact absurd hu (htx slot)
  · simp only [CadenceDb.go, Function.update_of_ne heq] at hu
    exact h.claimed u slot hu

theorem CadenceInv.write (h : CadenceInv db) {row tx} (hstep : db.write t row tx = .ok db')
    (hrow : SlotLe (lastSlot db.committed) row.lastSlotStart)
    (htx : ∀ slot, tx = .claimed (some slot) → row.lastSlotStart = some slot ∧ ∀ l, lastSlot db.committed = some l → l < slot) :
    CadenceInv db' ∧ db'.committed = db.committed ∧ db'.claims = db.claims := by
  unfold CadenceDb.write at hstep
  split at hstep
  · rename_i hfree
    cases hstep
    refine ⟨⟨fun u version hversion => ?_, fun u slot hu => ?_, h.ordered, h.behind⟩, rfl, rfl⟩
    · cases hversion
      exact hrow
    · by_cases heq : u = t
      · subst heq
        simp only [CadenceDb.go, Function.update_self, Option.some.injEq] at hu
        obtain ⟨hslot, hlast⟩ := htx slot hu
        exact ⟨⟨row, rfl, hslot⟩, hlast⟩
      · simp only [CadenceDb.go, Function.update_of_ne heq] at hu
        obtain ⟨⟨version, hversion, -⟩, -⟩ := h.claimed u slot hu
        rw [hversion] at hfree
        exact absurd (by simpa using hfree) heq
  · cases hstep

theorem CadenceInv.rollback (h : CadenceInv db) : CadenceInv (db.rollback t) := by
  refine ⟨fun u row hrow => ?_, fun u slot hu => ?_, h.ordered, h.behind⟩
  · exact h.version u row (Option.filter_eq_some_iff.mp hrow).1
  · by_cases heq : u = t
    · subst heq
      simp [CadenceDb.rollback] at hu
    · simp only [CadenceDb.rollback, Function.update_of_ne heq] at hu
      obtain ⟨⟨row, hrow, hslot⟩, hlast⟩ := h.claimed u slot hu
      exact ⟨⟨row, Option.filter_eq_some_iff.mpr ⟨hrow, by simpa using heq⟩, hslot⟩, hlast⟩

theorem CadenceInv.visible (h : CadenceInv db) (t : τ) : SlotLe (lastSlot db.committed) (lastSlot (db.visible t)) := by
  unfold CadenceDb.visible
  cases hwritten : db.written with
  | none => exact SlotLe.refl _
  | some version =>
    obtain ⟨u, row⟩ := version
    simp only
    split
    · exact h.version u row hwritten
    · exact SlotLe.refl _

theorem visible_of_ne {u row} (h : db.written = some (u, row)) (hne : u ≠ t) : db.visible t = db.committed := by
  simp only [CadenceDb.visible, h, if_neg hne]

theorem visible_self {row} (h : db.written = some (t, row)) : db.visible t = some row := by
  simp only [CadenceDb.visible, h, if_true]

theorem CadenceInv.commit (h : CadenceInv db) {slot}
    (hslot : ∀ s, slot = some s → db.session t = some (.claimed (some s))) : CadenceInv (db.commit t slot) := by
  have hvisible := h.visible t
  refine ⟨fun u row hrow => ?_, fun u s hu => ?_, ?_, ?_⟩
  · obtain ⟨hwritten, hne⟩ := Option.filter_eq_some_iff.mp hrow
    have hsame : db.visible t = db.committed := visible_of_ne hwritten (by simpa using hne)
    simp only [CadenceDb.commit, hsame]
    exact h.version u row hwritten
  · by_cases heq : u = t
    · subst heq
      simp [CadenceDb.commit] at hu
    · simp only [CadenceDb.commit, Function.update_of_ne heq] at hu
      obtain ⟨⟨row, hrow, hs⟩, hlast⟩ := h.claimed u s hu
      refine ⟨⟨row, Option.filter_eq_some_iff.mpr ⟨hrow, by simpa using heq⟩, hs⟩, ?_⟩
      simp only [CadenceDb.commit, visible_of_ne hrow heq]
      exact hlast
  · refine List.pairwise_append.mpr ⟨h.ordered, by cases slot <;> simp, fun c hc s hs => ?_⟩
    obtain ⟨l, hl, hle⟩ := h.behind c hc
    obtain ⟨-, hlast⟩ := h.claimed t s (hslot s (by simpa using hs))
    exact Int.lt_of_le_of_lt hle (hlast l hl)
  · intro c hc
    rcases List.mem_append.mp hc with hc | hc
    · obtain ⟨l, hl, hle⟩ := h.behind c hc
      obtain ⟨l', hl', hle'⟩ := hvisible l hl
      exact ⟨l', hl', Int.le_trans hle hle'⟩
    · obtain ⟨⟨row, hrow, hs⟩, -⟩ := h.claimed t c (hslot c (by simpa using hc))
      refine ⟨c, ?_, Int.le_refl _⟩
      simp only [CadenceDb.commit, visible_self hrow, lastSlot, Option.bind_some, hs]

structure CadenceForward (db db' : CadenceDb τ) : Prop where
  inv : CadenceInv db'
  slot : SlotLe (lastSlot db.committed) (lastSlot db'.committed)

theorem CadenceInv.perform (h : CadenceInv db) {tx} (htx : db.session t = some tx)
    (hstep : db.perform cfg t tx = .ok db') : CadenceForward db db' := by
  have hgo {tx : CadenceTx} (htx : ∀ slot, tx ≠ .claimed (some slot)) : CadenceForward db (db.go t tx) :=
    ⟨h.go htx, SlotLe.refl _⟩
  have hwrite {row : CadenceRow} {tx : CadenceTx} {db' : CadenceDb τ} (hstep : db.write t row tx = .ok db')
      (hrow : SlotLe (lastSlot db.committed) row.lastSlotStart)
      (htx : ∀ slot, tx = .claimed (some slot) → row.lastSlotStart = some slot ∧
        ∀ l, lastSlot db.committed = some l → l < slot) :
      CadenceForward db db' := by
    obtain ⟨hinv, hcommitted, -⟩ := h.write hstep hrow htx
    exact ⟨hinv, hcommitted ▸ SlotLe.refl _⟩
  cases tx with
  | claiming now =>
    simp only [CadenceDb.perform] at hstep
    split at hstep <;> cases hstep <;> exact hgo (by simp)
  | restoring now =>
    simp only [CadenceDb.perform] at hstep
    split at hstep
    · cases hstep
      exact hgo (by simp)
    · rename_i hmissing
      refine hwrite hstep (fun l hl => ?_) (by simp)
      rw [hmissing] at hl
      cases hl
  | taking slot =>
    simp only [CadenceDb.perform] at hstep
    have hvisible := h.visible t
    split at hstep
    · rename_i row hrow
      rw [hrow] at hvisible
      split at hstep
      · rename_i haccepts
        -- the stored slot is not after the one that the statement compares with
        have hlast (l : Int) (hl : lastSlot db.committed = some l) : l < slot := by
          obtain ⟨l', hl', hle⟩ := hvisible l hl
          have hl' : row.lastSlotStart = some l' := hl'
          simp only [CadenceRow.accepts, hl', decide_eq_true_eq] at haccepts
          exact Int.lt_of_le_of_lt hle haccepts
        refine hwrite hstep (fun l hl => ⟨slot, rfl, Int.le_of_lt (hlast l hl)⟩) ?_
        rintro s ⟨⟩
        exact ⟨rfl, hlast⟩
      · cases hstep
        exact hgo (by simp)
    · cases hstep
      exact hgo (by simp)
  | claimed slot =>
    cases hstep
    exact ⟨h.commit (fun s hs => hs ▸ htx), h.visible t⟩
  | setting cadence =>
    simp only [CadenceDb.perform] at hstep
    split at hstep <;> cases hstep <;> split <;> exact hgo (by simp)
  | updating cadence =>
    simp only [CadenceDb.perform] at hstep
    split at hstep
    · rename_i row hrow
      refine hwrite hstep ?_ (by simp)
      rw [hrow]
      exact SlotLe.refl _
    · cases hstep
      exact ⟨h.rollback, SlotLe.refl _⟩
  | adding cadence =>
    simp only [CadenceDb.perform] at hstep
    split at hstep
    · cases hstep
      exact ⟨h.rollback, SlotLe.refl _⟩
    · rename_i hmissing
      refine hwrite hstep (fun l hl => ?_) (by simp)
      rw [hmissing] at hl
      cases hl
  | set =>
    cases hstep
    exact ⟨h.commit (by simp), h.visible t⟩

theorem CadenceInv.step (h : CadenceInv db) {move} (hstep : db.step cfg move = .ok db') : CadenceForward db db' := by
  cases move with
  | start t request =>
    simp only [CadenceDb.step] at hstep
    split at hstep
    · cases hstep
    · cases hbegin : request.begin cfg with
      | error e => simp [hbegin, Except.map] at hstep
      | ok tx =>
        simp only [hbegin, Except.map, Except.ok.injEq] at hstep
        subst hstep
        refine ⟨h.go (fun slot heq => ?_), SlotLe.refl _⟩
        subst heq
        cases request with
        | claim now => cases hbegin
        | setCadence seconds =>
          simp only [CadenceRequest.begin] at hbegin
          split at hbegin <;> cases hbegin
  | advance t =>
    simp only [CadenceDb.step] at hstep
    split at hstep
    · rename_i tx htx
      exact h.perform htx hstep
    · cases hstep
  | abort t =>
    simp only [CadenceDb.step] at hstep
    split at hstep
    · cases hstep
      exact ⟨h.rollback, SlotLe.refl _⟩
    · cases hstep

theorem cadenceForward_run {row tr} (h : Run (CadenceDb.step cfg) id { committed := row } tr db) :
    CadenceInv db ∧ ∀ e ∈ tr, SlotLe (lastSlot e.before.committed) (lastSlot e.output.committed) := by
  refine h.invariant' (fun tr db => CadenceInv db ∧ ∀ e ∈ tr, SlotLe (lastSlot e.before.committed) (lastSlot e.output.committed))
    ⟨cadenceInv_initial row, by simp⟩ ?_
  intro tr db move db' ⟨hinv, hslots⟩ hstep
  have hforward := hinv.step hstep
  refine ⟨hforward.inv, fun e he => ?_⟩
  rcases List.mem_append.mp he with he | he
  · exact hslots e he
  · rw [List.mem_singleton.mp he]
    exact hforward.slot

def claimAlone (w : τ) (now : Int) : List (CadenceMove τ) := [.start w (.claim now), .advance w, .advance w, .advance w]

theorem claimAlone_run (cfg : CadenceSettings) (row : CadenceRow) (w : τ) (now : Int) :
    ∃ tr db, Run (CadenceDb.step cfg) id { committed := some row } tr db ∧ tr.map Taken.input = claimAlone w now ∧
      db.session w = none ∧
      (db.claims ≠ [] ↔ row.accepts (slotStart now row.cadenceSeconds cfg.settleSeconds) = true) := by
  let slot := slotStart now row.cadenceSeconds cfg.settleSeconds
  let db₀ : CadenceDb τ := { committed := some row }
  let db₁ := db₀.go w (.claiming now)
  let db₂ := db₁.go w (.taking slot)
  have h₁ : db₀.step cfg (.start w (.claim now)) = .ok db₁ := rfl
  have h₂ : db₁.step cfg (.advance w) = .ok db₂ := by
    simp [CadenceDb.step, db₁, db₀, db₂, slot, CadenceDb.go, CadenceDb.perform]
  cases haccepts : row.accepts slot with
  | true =>
    let db₃ := ({ db₂ with written := some (w, { row with lastSlotStart := some slot }) } :
      CadenceDb τ).go w (.claimed (some slot))
    have h₃ : db₂.step cfg (.advance w) = .ok db₃ := by
      simp [CadenceDb.step, db₁, db₀, db₂, db₃, CadenceDb.go, CadenceDb.perform, CadenceDb.visible, CadenceDb.write, haccepts]
    have h₄ : db₃.step cfg (.advance w) = .ok (db₃.commit w (some slot)) := by
      simp [CadenceDb.step, db₃, CadenceDb.go, CadenceDb.perform]
    refine ⟨_, _, (((Run.nil.snoc h₁).snoc h₂).snoc h₃).snoc h₄, rfl, ?_, ?_⟩
    · simp [CadenceDb.commit]
    · simp [CadenceDb.commit]
  | false =>
    let db₃ := db₂.go w (.claimed none)
    have h₃ : db₂.step cfg (.advance w) = .ok db₃ := by
      simp [CadenceDb.step, db₁, db₀, db₂, db₃, CadenceDb.go, CadenceDb.perform, CadenceDb.visible, haccepts]
    have h₄ : db₃.step cfg (.advance w) = .ok (db₃.commit w none) := by
      simp [CadenceDb.step, db₃, CadenceDb.go, CadenceDb.perform]
    refine ⟨_, _, (((Run.nil.snoc h₁).snoc h₂).snoc h₃).snoc h₄, rfl, ?_, ?_⟩
    · simp [CadenceDb.commit]
    · simp [CadenceDb.commit, db₃, db₂, db₁, db₀, CadenceDb.go]

end Claims

end QRadarDashboard.Services
