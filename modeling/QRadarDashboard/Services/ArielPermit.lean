import QRadarDashboard.Lib.ReadCommitted

/-!
# Permits on Ariel searches (`app/services/ariel_permit.py`)

Every acquisition has a connection of its own, and a slot is an advisory lock of that connection. One event below is
one await of the source, or one point where the task is cancelled or its process dies. Only an enforced budget is
modelled; any other holds no slot.
-/

namespace QRadarDashboard.Services

open Lib

/-- The settings a budget reads, as `Settings` admits them. -/
structure PermitSettings where
  /-- `ariel_max_concurrent_searches` -/
  instanceLimit : Nat
  /-- `ariel_global_max_concurrent_searches` -/
  globalLimit : Nat
  globalNamespace : Int
  instanceNamespace : Int
  waitSeconds : Rat
  pollSeconds : Rat
  reservedLiveSlots : Nat
  instanceLimit_range : 1 ≤ instanceLimit ∧ instanceLimit ≤ 20
  globalLimit_range : 1 ≤ globalLimit ∧ globalLimit ≤ 50
  reserved_lt : reservedLiveSlots < globalLimit
  namespaces_ne : globalNamespace ≠ instanceNamespace

inductive ArielPriority where
  | live | background
deriving DecidableEq

def maxAdvisorySlot : Nat := 2 ^ 31 - 1

/-- `_instance_slot_base`; `digest` is the number read from the first eight bytes of the hash of the id. -/
def instanceSlotBase {ι : Type} (digest : ι → Nat) (instanceId : ι) (limit : Nat) : Nat :=
  let ranges := (maxAdvisorySlot + 1) / limit
  digest instanceId % ranges * limit

/-- Where `permit` stands. The console slot it has already is in every phase of the polling loop. -/
inductive Phase where
  /-- the head of `while True` -/
  | loop (instanceSlot : Option Nat)
  /-- `_try_pool` over the console's slots, about to try the `i`-th -/
  | tryInstance (offset i : Nat)
  /-- `_try_pool` over the global slots -/
  | tryGlobal (instanceSlot : Option Nat) (offset i : Nat)
  /-- no permit in this pass: the deadline decides -/
  | check (instanceSlot : Option Nat)
  | sleeping (instanceSlot : Option Nat)
  /-- `yield None` -/
  | refused (instanceSlot : Option Nat)
  /-- `yield ArielPermit(..)` -/
  | holding (instanceSlot : Option Nat) (globalSlot : Nat)
  /-- `_release_all` -/
  | releasing
  /-- the unlock failed or was interrupted -/
  | invalidating
  /-- the process died, and PostgreSQL has not noticed yet -/
  | crashed
deriving DecidableEq

structure Acquisition (ι γ : Type) where
  conn : γ
  instanceId : Option ι
  priority : ArielPriority
  started : Rat
  phase : Phase
deriving DecidableEq

inductive ConnStatus where
  | free | taken | ended
deriving DecidableEq

structure PermitState (π ι γ : Type) where
  task : π → Option (Acquisition ι γ)
  conn : γ → ConnStatus
  locks : LockTable (Int × Nat) γ

inductive PermitEvent (ι γ : Type) where
  /-- `engine.connect()` returns `conn`, new or from the pool -/
  | connect (conn : γ) (instanceId : Option ι) (priority : ArielPriority) (started : Rat)
  /-- the loop enters a pool at a random offset -/
  | enter (offset : Nat)
  /-- `SELECT pg_try_advisory_lock(..)` -/
  | tryLock
  /-- the deadline test reads the clock -/
  | clock (now : Rat)
  | wake
  /-- the caller's block ends, with or without an exception -/
  | leave
  | cancel
  /-- cancelled while the lock statement is with PostgreSQL, which still runs it -/
  | cancelInQuery
  | unlocked
  /-- the unlock statement failed; PostgreSQL may have run it -/
  | unlockFailed (executed : Bool)
  | invalidated
  | crash
  | connectionEnds

section Step

variable {π ι γ : Type} (cfg : PermitSettings) (digest : ι → Nat)

def Acquisition.instanceBase (a : Acquisition ι γ) : Option Nat :=
  a.instanceId.map (fun id => instanceSlotBase digest id cfg.instanceLimit)

def Acquisition.firstGlobal (a : Acquisition ι γ) : Nat :=
  match a.priority with
  | .background => cfg.reservedLiveSlots
  | .live => 0

/-- The lock a `_try_pool` phase asks for next. -/
def Acquisition.nextKey (a : Acquisition ι γ) : Option (Int × Nat) :=
  match a.phase with
  | .tryInstance offset i =>
    (a.instanceBase cfg digest).map
      (fun base => (cfg.instanceNamespace, base + (offset + i) % cfg.instanceLimit))
  | .tryGlobal _ offset i =>
    let first := a.firstGlobal cfg
    some (cfg.globalNamespace, first + (offset + i) % (cfg.globalLimit - first))
  | _ => none

/-- The loop head: the console pool first, then the global pool; `offset` is `random.randrange(count)`. -/
def Acquisition.enter (a : Acquisition ι γ) (offset : Nat) : Option Phase :=
  match a.phase with
  | .loop instanceSlot =>
    if (a.instanceBase cfg digest).isSome ∧ instanceSlot = none then
      if offset < cfg.instanceLimit then some (.tryInstance offset 0) else none
    else if offset < cfg.globalLimit - a.firstGlobal cfg then some (.tryGlobal instanceSlot offset 0)
    else none
  | _ => none

/-- After PostgreSQL's answer to the try-lock on `slot`. -/
def Acquisition.answered (a : Acquisition ι γ) (slot : Nat) (got : Bool) : Phase :=
  match a.phase with
  | .tryInstance offset i =>
    if got then .loop (some slot)
    else if i + 1 < cfg.instanceLimit then .tryInstance offset (i + 1)
    else .check none
  | .tryGlobal instanceSlot offset i =>
    if got then .holding instanceSlot slot
    else if i + 1 < cfg.globalLimit - a.firstGlobal cfg then .tryGlobal instanceSlot offset (i + 1)
    else .check instanceSlot
  | phase => phase

def Acquisition.deadline (a : Acquisition ι γ) (now : Rat) : Option Phase :=
  match a.phase with
  | .check instanceSlot =>
    if cfg.waitSeconds < now - a.started + cfg.pollSeconds then some (.refused instanceSlot)
    else some (.sleeping instanceSlot)
  | _ => none

/-- The phases inside the `try` of `permit`, where a cancellation leads to `finally`. -/
def Phase.cancellable : Phase → Bool
  | .releasing | .invalidating | .crashed => false
  | _ => true

def Phase.inBody : Phase → Bool
  | .refused _ | .holding _ _ => true
  | _ => false

variable [DecidableEq π] [DecidableEq γ]

def PermitState.initial : PermitState π ι γ := ⟨fun _ => none, fun _ => .free, LockTable.empty⟩

def PermitState.setPhase (st : PermitState π ι γ) (p : π) (a : Acquisition ι γ) (phase : Phase) :
    PermitState π ι γ :=
  { st with task := Function.update st.task p (some { a with phase }) }

def PermitState.finish (st : PermitState π ι γ) (p : π) (a : Acquisition ι γ) (status : ConnStatus) :
    PermitState π ι γ where
  task := Function.update st.task p none
  conn := Function.update st.conn a.conn status
  locks := st.locks.unlockAll a.conn

def PermitState.advance (st : PermitState π ι γ) (p : π) (a : Acquisition ι γ) :
    PermitEvent ι γ → Option (PermitState π ι γ)
  | .connect .. => none
  | .enter offset => (a.enter cfg digest offset).map (st.setPhase p a)
  | .tryLock => (a.nextKey cfg digest).map (fun key =>
    { st with locks := st.locks.lock a.conn key }.setPhase p a
      (a.answered cfg key.2 (st.locks.grants a.conn key)))
  | .clock now => (a.deadline cfg now).map (st.setPhase p a)
  | .wake =>
    match a.phase with
    | .sleeping instanceSlot => some (st.setPhase p a (.loop instanceSlot))
    | _ => none
  | .leave => if a.phase.inBody then some (st.setPhase p a .releasing) else none
  | .cancel => if a.phase.cancellable then some (st.setPhase p a .releasing) else none
  | .cancelInQuery => (a.nextKey cfg digest).map (fun key =>
    { st with locks := st.locks.lock a.conn key }.setPhase p a .releasing)
  | .unlocked => if a.phase = .releasing then some (st.finish p a .free) else none
  | .unlockFailed executed =>
    if a.phase = .releasing then
      some ({ st with locks := if executed then st.locks.unlockAll a.conn else st.locks }.setPhase p a
        .invalidating)
    else none
  | .invalidated => if a.phase = .invalidating then some (st.finish p a .ended) else none
  | .crash => if a.phase = .crashed then none else some (st.setPhase p a .crashed)
  | .connectionEnds => if a.phase = .crashed then some (st.finish p a .ended) else none

def PermitState.step (st : PermitState π ι γ) (e : π × PermitEvent ι γ) :
    Except Unit (PermitState π ι γ) :=
  match st.task e.1, e.2 with
  | some a, event => (st.advance cfg digest e.1 a event).elim (.error ()) .ok
  | none, .connect conn instanceId priority started =>
    if st.conn conn = .free then
      .ok { st with
        task := Function.update st.task e.1 (some ⟨conn, instanceId, priority, started, .loop none⟩)
        conn := Function.update st.conn conn .taken }
    else .error ()
  | none, _ => .error ()

end Step

/-! ## What the permits are for -/

section Safety

variable {π ι γ : Type} (cfg : PermitSettings) (digest : ι → Nat) (st : PermitState π ι γ)

def PermitState.Holds (p : π) (key : Int × Nat) : Prop :=
  ∃ a, st.task p = some a ∧ key ∈ st.locks.held a.conn

def PermitState.globalHolders : Set π := {p | ∃ slot, st.Holds p (cfg.globalNamespace, slot)}

def PermitState.instanceHolders (id : ι) : Set π :=
  {p | ∃ a slot, st.task p = some a ∧ a.instanceId = some id ∧
    (cfg.instanceNamespace, slot) ∈ st.locks.held a.conn}

/-- A permit is one global slot, one slot of its console's range if its budget has a console, and nothing else. -/
structure HoldsPermit (a : Acquisition ι γ) (held : Set (Int × Nat)) (instanceSlot : Option Nat)
    (globalSlot : Nat) : Prop where
  exactly : held = insert (cfg.globalNamespace, globalSlot)
    {key | ∃ slot, instanceSlot = some slot ∧ key = (cfg.instanceNamespace, slot)}
  global : globalSlot < cfg.globalLimit
  console : instanceSlot.isSome = a.instanceId.isSome
  range : ∀ slot, instanceSlot = some slot → ∃ id, a.instanceId = some id ∧
    let base := instanceSlotBase digest id cfg.instanceLimit
    base ≤ slot ∧ slot < base + cfg.instanceLimit

structure PermitSafe : Prop where
  global : (st.globalHolders cfg).encard ≤ cfg.globalLimit
  console : ∀ id, (st.instanceHolders cfg id).encard ≤ cfg.instanceLimit
  reserved : ∀ p a slot, st.task p = some a → a.priority = .background →
    (cfg.globalNamespace, slot) ∈ st.locks.held a.conn → cfg.reservedLiveSlots ≤ slot
  permit : ∀ p a instanceSlot globalSlot, st.task p = some a →
    a.phase = .holding instanceSlot globalSlot →
    HoldsPermit cfg digest a (st.locks.held a.conn) instanceSlot globalSlot
  /-- only tasks in progress hold locks, each on a connection of its own -/
  owned : ∀ key c, key ∈ st.locks.held c → ∃ p a, st.task p = some a ∧ a.conn = c
  exclusive : ∀ p q a b, st.task p = some a → st.task q = some b → a.conn = b.conn → p = q

end Safety

end QRadarDashboard.Services
