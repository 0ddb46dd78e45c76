import Mathlib.Algebra.Group.Nat.Defs
import Mathlib.Logic.Function.Basic

/-!
# `SwarmRuntime.Inference.Budget`: the Claude budget gate (`budget.rs`)

`ClaudeBudgetGate` counts tokens, in all and for each tenant, in atomic 64-bit counters.
`has_capacity` first starts a new window when the current one is over. `record_usage` adds to
the counters as they are. One call is one step here.

`Instant::now()` is read where the source reads it: `maybe_reset_window` reads it once for the
elapsed time, and again for the start of a new window.
-/

set_option autoImplicit false

namespace SwarmRuntime.Inference

/-- `std::time::Instant`, in nanoseconds. -/
abbrev Instant := Nat

/-- `start.elapsed().as_secs()`, with the clock at `now`. -/
def elapsedSecs (start now : Instant) : Nat := (now - start) / 10 ^ 9

/-- `start.elapsed().as_secs() >= window_duration_secs`, with the clock at `now`. -/
def expired (windowDurationSecs : UInt64) (start now : Instant) : Bool :=
  windowDurationSecs.toNat ≤ elapsedSecs start now

/-- Global and per-tenant Claude API token budget. The map has an entry for each tenant that
used tokens. -/
structure ClaudeBudgetGate where
  globalUsed : UInt64
  globalLimit : UInt64
  tenantUsed : String → Option UInt64
  perTenantLimit : UInt64
  windowStart : Instant
  windowDurationSecs : UInt64

namespace ClaudeBudgetGate

/-- `ClaudeBudgetGate::new`, with the clock at `now`. -/
def new (globalHourlyLimit perTenantHourlyLimit : UInt64) (now : Instant) : ClaudeBudgetGate where
  globalUsed := 0
  globalLimit := globalHourlyLimit
  tenantUsed := fun _ => none
  perTenantLimit := perTenantHourlyLimit
  windowStart := now
  windowDurationSecs := 3600

/-- `check_global`. -/
def checkGlobal (gate : ClaudeBudgetGate) : Bool := gate.globalUsed < gate.globalLimit

/-- `check_tenant`. -/
def checkTenant (gate : ClaudeBudgetGate) (tenantId : String) : Bool :=
  match gate.tenantUsed tenantId with
  | some used => used < gate.perTenantLimit
  | none => true -- No usage recorded yet → capacity available

/-- `maybe_reset_window`: the entries stay in the map, with zero. -/
def maybeResetWindow (gate : ClaudeBudgetGate) (now now' : Instant) : ClaudeBudgetGate :=
  if expired gate.windowDurationSecs gate.windowStart now then
    { gate with
      globalUsed := 0
      tenantUsed := fun tenantId => (gate.tenantUsed tenantId).map fun _ => 0
      windowStart := now' }
  else gate

/-- Returns true if there is sufficient Claude budget for the given tenant. -/
def hasCapacity (gate : ClaudeBudgetGate) (tenantId : String) (now now' : Instant) :
    Bool × ClaudeBudgetGate :=
  let gate := gate.maybeResetWindow now now'
  (gate.checkGlobal && gate.checkTenant tenantId, gate)

/-- Record token usage after a Claude API response. `fetch_add` wraps. -/
def recordUsage (gate : ClaudeBudgetGate) (tenantId : String) (tokens : UInt64) :
    ClaudeBudgetGate :=
  { gate with
    globalUsed := gate.globalUsed + tokens
    tenantUsed := Function.update gate.tenantUsed tenantId
      (some ((gate.tenantUsed tenantId).getD 0 + tokens)) }

/-- The tokens counted for a tenant. -/
def usedBy (gate : ClaudeBudgetGate) (tenantId : String) : UInt64 :=
  (gate.tenantUsed tenantId).getD 0

variable {gate : ClaudeBudgetGate} {tenantId : String} {tokens : UInt64} {now now' : Instant}

/-! ### What a call leaves -/

theorem recordUsage_usedBy_self :
    (gate.recordUsage tenantId tokens).usedBy tenantId = gate.usedBy tenantId + tokens := by
  show (Function.update gate.tenantUsed tenantId _ tenantId).getD 0 = _
  rw [Function.update_self]
  rfl

theorem recordUsage_usedBy_of_ne {t : String} (h : t ≠ tenantId) :
    (gate.recordUsage tenantId tokens).usedBy t = gate.usedBy t := by
  show (Function.update gate.tenantUsed tenantId _ t).getD 0 = _
  rw [Function.update_of_ne h]
  rfl

/-- A window that is not over stays. -/
theorem maybeResetWindow_of_not_expired (now' : Instant)
    (h : expired gate.windowDurationSecs gate.windowStart now = false) :
    gate.maybeResetWindow now now' = gate := by
  rw [maybeResetWindow, if_neg (by simp [h])]

/-- A reset clears every counter. -/
theorem maybeResetWindow_of_expired (now' : Instant)
    (h : expired gate.windowDurationSecs gate.windowStart now = true) :
    (gate.maybeResetWindow now now').globalUsed = 0 ∧
      (∀ t, (gate.maybeResetWindow now now').usedBy t = 0) ∧
      (gate.maybeResetWindow now now').windowStart = now' := by
  rw [maybeResetWindow, if_pos h]
  refine ⟨rfl, ?_, rfl⟩
  intro t
  show ((gate.tenantUsed t).map fun _ => (0 : UInt64)).getD 0 = 0
  cases gate.tenantUsed t with
  | none => rfl
  | some used => rfl

@[simp] theorem maybeResetWindow_globalLimit :
    (gate.maybeResetWindow now now').globalLimit = gate.globalLimit := by
  unfold maybeResetWindow
  split <;> rfl

@[simp] theorem maybeResetWindow_perTenantLimit :
    (gate.maybeResetWindow now now').perTenantLimit = gate.perTenantLimit := by
  unfold maybeResetWindow
  split <;> rfl

/-- The tenant check compares the counter with the limit, except for a tenant with no entry. -/
theorem checkTenant_eq_true_iff :
    gate.checkTenant tenantId = true ↔
      gate.tenantUsed tenantId = none ∨ gate.usedBy tenantId < gate.perTenantLimit := by
  unfold checkTenant usedBy
  cases gate.tenantUsed tenantId with
  | none => simp
  | some used => simp

theorem checkGlobal_eq_true_iff :
    gate.checkGlobal = true ↔ gate.globalUsed < gate.globalLimit :=
  decide_eq_true_iff

end ClaudeBudgetGate

end SwarmRuntime.Inference
