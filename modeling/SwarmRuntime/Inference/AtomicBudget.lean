import SwarmRuntime.Inference.Budget
import SwarmRuntime.Lib.Admission
import SwarmRuntime.Lib.Pool

/-!
# `SwarmRuntime.Inference.AtomicBudget`: the budget gate, one atomic operation at a time

The methods of `ClaudeBudgetGate` take `&self`, and threads share the gate. A method is a sequence
of operations, each atomic: a load, a store or a `fetch_add` on one counter, a step on the mutex
that guards `window_start`, a reading of the clock. Here the methods are programs over these
operations (`GateOp`), so that the operations of different threads interleave.

The counters are read and written in one order for all threads. `Ordering::Relaxed` promises this
for each counter by itself.

Each counter has a `Ledger` beside it: what was ever added to it, and how often it was cleared. No
operation reads it.
-/

set_option autoImplicit false

namespace SwarmRuntime.Inference

open SwarmRuntime.Lib (Interaction Ledger Pool Move Service)

/-- An atomic operation on the gate. -/
inductive GateOp where
  /-- `self.window_start.lock()`, with the window start that the guard gives access to. -/
  | lockWindow
  /-- `Instant::now()`. -/
  | instantNow
  /-- `self.global_used.store(0)`. -/
  | clearGlobal
  /-- `self.tenant_used.iter()`, with the tenants that it visits. -/
  | iterTenants
  /-- `e.value().store(0)`, for the entry of a tenant. -/
  | clearTenant (tenantId : String)
  /-- `*start = now`. -/
  | setWindowStart (now : Instant)
  /-- The guard of `window_start` is dropped. -/
  | unlockWindow
  /-- `self.global_used.load()`. -/
  | loadGlobal
  /-- `self.tenant_used.get(tenant_id)`, and the load of the entry. -/
  | loadTenant (tenantId : String)
  /-- `self.global_used.fetch_add(tokens)`. -/
  | addGlobal (tokens : UInt64)
  /-- `self.tenant_used.entry(tenant_id).or_insert_with(0).fetch_add(tokens)`. -/
  | addTenant (tenantId : String) (tokens : UInt64)

/-- What an operation returns. -/
def GateOp.Result : GateOp → Type
  | .lockWindow => Instant
  | .instantNow => Instant
  | .iterTenants => List String
  | .loadGlobal => UInt64
  | .loadTenant _ => Option UInt64
  | .clearGlobal | .clearTenant _ | .setWindowStart _ | .unlockWindow | .addGlobal _
  | .addTenant _ _ => Unit

/-- A program on the gate. -/
abbrev GateProg (α : Type) := Interaction GateOp.Result α

/-- The fields of the gate that never change. -/
structure GateLimits where
  globalLimit : UInt64
  perTenantLimit : UInt64
  windowDurationSecs : UInt64

/-- The limits of `ClaudeBudgetGate::new`. -/
def GateLimits.new (globalHourlyLimit perTenantHourlyLimit : UInt64) : GateLimits :=
  ⟨globalHourlyLimit, perTenantHourlyLimit, 3600⟩

namespace GateLimits

open GateOp

/-- `check_global`. -/
def checkGlobal (self : GateLimits) : GateProg Bool := do
  let used : UInt64 ← Interaction.call loadGlobal
  return used < self.globalLimit

/-- `check_tenant`. -/
def checkTenant (self : GateLimits) (tenantId : String) : GateProg Bool := do
  let entry : Option UInt64 ← Interaction.call (loadTenant tenantId)
  match entry with
  | some used => return used < self.perTenantLimit
  | none => return true -- No usage recorded yet → capacity available

/-- `tenant_used.iter().for_each(|e| e.value().store(0))`, for the tenants that are visited. -/
def clearTenants : List String → GateProg Unit
  | [] => return ()
  | tenantId :: tenants => do
      let _ ← Interaction.call (clearTenant tenantId)
      clearTenants tenants

/-- The body of the `if` of `maybe_reset_window`. -/
def resetWindow : GateProg Unit := do
  let _ ← Interaction.call clearGlobal
  let tenants : List String ← Interaction.call iterTenants
  clearTenants tenants
  let now : Instant ← Interaction.call instantNow
  let _ ← Interaction.call (setWindowStart now)

/-- `maybe_reset_window`. The guard lives until the method returns. -/
def maybeResetWindow (self : GateLimits) : GateProg Unit := do
  let start : Instant ← Interaction.call lockWindow
  let now : Instant ← Interaction.call instantNow
  if expired self.windowDurationSecs start now then resetWindow
  let _ ← Interaction.call unlockWindow

/-- Returns true if there is sufficient Claude budget for the given tenant. -/
def hasCapacity (self : GateLimits) (tenantId : String) : GateProg Bool := do
  self.maybeResetWindow
  if ← self.checkGlobal then self.checkTenant tenantId else return false

/-- Record token usage after a Claude API response. -/
def recordUsage (tenantId : String) (tokens : UInt64) : GateProg Unit := do
  let _ ← Interaction.call (addGlobal tokens)
  let _ ← Interaction.call (addTenant tenantId tokens)

end GateLimits

/-! ### The shared gate -/

/-- The parts of the gate that threads share, and the clock. `holder` has locked the mutex. -/
structure GateCells (ι : Type) where
  globalUsed : UInt64
  tenantUsed : String → Option UInt64
  windowStart : Instant
  holder : Option ι
  clock : Instant
  globalLedger : Ledger
  tenantLedger : String → Ledger

namespace GateCells

variable {ι : Type}

/-- `ClaudeBudgetGate::new`, with the clock at `now`. -/
def new (now : Instant) : GateCells ι where
  globalUsed := 0
  tenantUsed := fun _ => none
  windowStart := now
  holder := none
  clock := now
  globalLedger := .empty
  tenantLedger := fun _ => .empty

/-- The tokens counted for a tenant. -/
def usedBy (s : GateCells ι) (tenantId : String) : UInt64 := (s.tenantUsed tenantId).getD 0

/-- One operation of the thread `i`. The order in which the map is visited is the map's choice. An
entry that is not there is not visited. -/
def serve (i : ι) : (op : GateOp) → List String → GateCells ι → op.Result × GateCells ι
  | .lockWindow, _, s => (s.windowStart, { s with holder := some i })
  | .instantNow, _, s => (s.clock, s)
  | .clearGlobal, _, s =>
      ((), { s with globalUsed := 0, globalLedger := s.globalLedger.clear })
  | .iterTenants, visited, s => (visited, s)
  | .clearTenant t, _, s =>
      ((), { s with
        tenantUsed := Function.update s.tenantUsed t ((s.tenantUsed t).map fun _ => 0)
        tenantLedger := Function.update s.tenantLedger t (s.tenantLedger t).clear })
  | .setWindowStart now, _, s => ((), { s with windowStart := now })
  | .unlockWindow, _, s => ((), { s with holder := none })
  | .loadGlobal, _, s => (s.globalUsed, s)
  | .loadTenant t, _, s => (s.tenantUsed t, s)
  | .addGlobal n, _, s =>
      ((), { s with
        globalUsed := s.globalUsed + n
        globalLedger := s.globalLedger.add n.toNat })
  | .addTenant t n, _, s =>
      ((), { s with
        tenantUsed := Function.update s.tenantUsed t (some (s.usedBy t + n))
        tenantLedger := Function.update s.tenantLedger t ((s.tenantLedger t).add n.toNat) })

/-- `n` nanoseconds pass. -/
def tick (s : GateCells ι) (n : Nat) : GateCells ι := { s with clock := s.clock + n }

end GateCells

/-! ### Threads on one gate -/

/-- A use of the API: who asks for capacity, and what the response then costs. -/
structure ApiCall where
  tenantId : String
  tokens : UInt64

/-- A thread asks the gate before each of its API calls, and records what the call used. -/
def worker (self : GateLimits) : List ApiCall → GateProg Unit
  | [] => return ()
  | api :: apis => do
      if ← self.hasCapacity api.tenantId then GateLimits.recordUsage api.tenantId api.tokens
      worker self apis

/-- A gate with its threads. -/
abbrev Workers (ι : Type) := Pool GateOp.Result (List ApiCall) Unit (GateCells ι) ι

/-- A move of a thread, or of the clock, in nanoseconds. -/
abbrev WorkersMove (ι : Type) := Move (List ApiCall) (List String) Nat ι

/-- How the threads run. -/
def workers {ι : Type} (self : GateLimits) :
    Service GateOp.Result (List ApiCall) Unit (GateCells ι) (List String) Nat ι where
  prog := worker self
  serve := GateCells.serve
  env n s := s.tick n

namespace Workers

variable {ι : Type}

/-- A new gate, and no thread. -/
def start (now : Instant) : Workers ι := ⟨.new now, fun _ => none⟩

/-- One move. -/
abbrev step [DecidableEq ι] (self : GateLimits) : Workers ι → WorkersMove ι → Option (Workers ι) :=
  Pool.step (workers self)

/-- The operation that the thread `i` is about to make. -/
def pending (P : Workers ι) (i : ι) : Option GateOp :=
  match P.procs i with
  | some ⟨_, _, .ask op _, false⟩ => some op
  | _ => none

/-- What the mutex and the map promise: a locked mutex is not given to another thread, and an
iteration visits each entry once. -/
structure Scheduled (P : Workers ι) (m : WorkersMove ι) : Prop where
  lock : ∀ i w, m = .serve i w → P.pending i = some .lockWindow → P.shared.holder = none
  visit : ∀ i w, m = .serve i w → P.pending i = some .iterTenants → w.Nodup

end Workers

end SwarmRuntime.Inference
