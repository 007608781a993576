import QRadarDashboard.Lib.Double
import QRadarDashboard.Lib.Run

/-!
# Cadence slots (`app/services/search_cadence.py`)

A worker takes the slot of its own clock with an UPDATE that only a later slot passes; an operator changes the cadence
beside it. A statement that would write the row waits while another transaction has written it. Instants are counted
in microseconds.
-/

namespace QRadarDashboard.Services
open Lib

/-! ## The slots -/

abbrev CadenceSeconds := {seconds : Nat // 0 < seconds ∧ seconds < 2 ^ 31}

/-- The columns of `SearchCadenceSetting` that the slots depend on. -/
structure CadenceRow where
  cadenceSeconds : CadenceSeconds
  lastSlotStart : Option Int := none

/-- `datetime.timestamp() / cadence_seconds`, floored: two divisions of doubles. -/
def flooredQuotient (value : Int) (cadence : CadenceSeconds) : Int :=
  let timestamp := Double.round ((value : ℚ) / (1000000 : Nat))
  ⌊Double.round (timestamp / Double.round (cadence.1 : Int))⌋

def slotStart (now : Int) (cadence : CadenceSeconds) (settleSeconds : Nat) : Int :=
  let adjusted := now - settleSeconds * 1000000
  flooredQuotient adjusted cadence * cadence.1 * 1000000

def nextDispatchAt (row : CadenceRow) (settleSeconds : Nat) (now : Int) : Int :=
  let current := slotStart now row.cadenceSeconds settleSeconds
  let nextSlot := match row.lastSlotStart with
    | none => current
    | some claimed =>
      let firstAfterClaimed := slotStart claimed row.cadenceSeconds 0 + row.cadenceSeconds.1 * 1000000
      max firstAfterClaimed current
  nextSlot + settleSeconds * 1000000

def CadenceRow.accepts (row : CadenceRow) (slot : Int) : Bool :=
  match row.lastSlotStart with
  | none => true
  | some last => decide (last < slot)

/-! ## The transactions -/

/-- `presets` are the values of `SearchCadence`, and `default` is the family's. -/
structure CadenceSettings where
  settleSeconds : Nat
  presets : List CadenceSeconds
  default : CadenceSeconds

inductive CadenceRequest where
  /-- `claim_slot`, with what the worker's clock will read -/
  | claim (now : Int)
  | setCadence (seconds : Nat)

inductive CadenceTx where
  | claiming (now : Int)
  /-- The row is missing. -/
  | restoring (now : Int)
  | taking (slot : Int)
  | claimed (slot : Option Int)
  | setting (cadence : CadenceSeconds)
  | updating (cadence : CadenceSeconds)
  | adding (cadence : CadenceSeconds)
  | set

/-- The committed row, the version of the transaction that has written it, and the slots of the committed claims in
their order. -/
structure CadenceDb (τ : Type) where
  committed : Option CadenceRow
  written : Option (τ × CadenceRow) := none
  session : τ → Option CadenceTx := fun _ => none
  claims : List Int := []

inductive CadenceMove (τ : Type) where
  | start (t : τ) (request : CadenceRequest)
  | advance (t : τ)
  /-- The transaction is rolled back. -/
  | abort (t : τ)

inductive CadenceRefused where
  /-- another transaction has written the row -/
  | waiting
  | notOpen
  | alreadyOpen
  /-- `InvalidSearchCadenceError` -/
  | unsupported

section Transactions

variable {τ : Type} [DecidableEq τ] (cfg : CadenceSettings)

def CadenceDb.go (db : CadenceDb τ) (t : τ) (tx : CadenceTx) : CadenceDb τ :=
  { db with session := Function.update db.session t (some tx) }

def CadenceDb.visible (db : CadenceDb τ) (t : τ) : Option CadenceRow :=
  match db.written with
  | some (u, row) => if u = t then some row else db.committed
  | none => db.committed

def CadenceDb.write (db : CadenceDb τ) (t : τ) (row : CadenceRow) (tx : CadenceTx) : Except CadenceRefused (CadenceDb τ) :=
  if db.written.all (fun version => version.1 = t) then .ok ({ db with written := some (t, row) }.go t tx)
  else .error .waiting

def CadenceDb.rollback (db : CadenceDb τ) (t : τ) : CadenceDb τ :=
  { db with
    written := db.written.filter (fun version => version.1 ≠ t)
    session := Function.update db.session t none }

def CadenceDb.commit (db : CadenceDb τ) (t : τ) (slot : Option Int) : CadenceDb τ :=
  { committed := db.visible t
    written := db.written.filter (fun version => version.1 ≠ t)
    session := Function.update db.session t none
    claims := db.claims ++ slot.toList }

def CadenceDb.perform (db : CadenceDb τ) (t : τ) : CadenceTx → Except CadenceRefused (CadenceDb τ)
  | .claiming now =>
    match db.committed with
    | some row => .ok (db.go t (.taking (slotStart now row.cadenceSeconds cfg.settleSeconds)))
    | none => .ok (db.go t (.restoring now))
  | .restoring now =>
    let tx : CadenceTx := .taking (slotStart now cfg.default cfg.settleSeconds)
    match db.committed with
    | some _ => .ok (db.go t tx)
    | none => db.write t ⟨cfg.default, none⟩ tx
  | .taking slot =>
    match db.visible t with
    | some row =>
      if row.accepts slot then db.write t { row with lastSlotStart := some slot } (.claimed (some slot))
      else .ok (db.go t (.claimed none))
    | none => .ok (db.go t (.claimed none))
  | .claimed slot => .ok (db.commit t slot)
  | .setting cadence =>
    match db.committed with
    | some row => .ok (db.go t (if row.cadenceSeconds = cadence then .set else .updating cadence))
    | none => .ok (db.go t (if cfg.default = cadence then .set else .adding cadence))
  | .updating cadence =>
    match db.committed with
    | some row => db.write t { row with cadenceSeconds := cadence } .set
    | none => .ok (db.rollback t)
  | .adding cadence =>
    -- a row that was added meanwhile is an IntegrityError
    match db.committed with
    | some _ => .ok (db.rollback t)
    | none => db.write t ⟨cadence, none⟩ .set
  | .set => .ok (db.commit t none)

def CadenceRequest.begin : CadenceRequest → Except CadenceRefused CadenceTx
  | .claim now => .ok (.claiming now)
  | .setCadence seconds =>
    match cfg.presets.find? (fun preset => preset.1 = seconds) with
    | some cadence => .ok (.setting cadence)
    | none => .error .unsupported

def CadenceDb.step (db : CadenceDb τ) : CadenceMove τ → Except CadenceRefused (CadenceDb τ)
  | .start t request =>
    match db.session t with
    | some _ => .error .alreadyOpen
    | none => (request.begin cfg).map (db.go t)
  | .advance t =>
    match db.session t with
    | some tx => db.perform cfg t tx
    | none => .error .notOpen
  | .abort t =>
    match db.session t with
    | some _ => .ok (db.rollback t)
    | none => .error .notOpen

end Transactions

end QRadarDashboard.Services
