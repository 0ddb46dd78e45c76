import SwarmRuntime.Inference.AtomicBudget

/-!
# `SwarmRuntime.Proofs.AtomicBudget`: where a thread stands in the budget gate

`worker_cons` writes one API call of a thread as its sequence of operations: lock, clock, the reset
when the window is over, unlock, the two loads, the two additions. A `Place` names a point of this
sequence, and `Thread.code` is what is left from there on. `Moves` lists the operations, each with
the place that it leads to (`moves_of_code`).

`exec_hasCapacity` and `exec_recordUsage` relate the two models of the gate: a call that no other
thread interrupts does what the call of `ClaudeBudgetGate` does in one step.

`Stands` says that each thread of a pool is at a place. `step_advance` is what one move of the pool
does to the shared cells and to the places, and every property of the threads is derived from it.
-/

set_option autoImplicit false

namespace SwarmRuntime.Proofs

open SwarmRuntime.Lib SwarmRuntime.Lib.Interaction SwarmRuntime.Inference

/-! ### The operations of one API call -/

/-- The tenant check, on an entry. -/
def admits (limit : UInt64) : Option UInt64 → Bool
  | some used => used < limit
  | none => true

section
variable (lim : GateLimits) (t : String) {α : Type} (next : Bool → GateProg α)

/-- From the tenant check on, with `next` for what is done with the answer of the gate. -/
def fromTenantCheck : GateProg α :=
  ask (.loadTenant t) fun entry => next (admits lim.perTenantLimit entry)

/-- From the answer of the global check on. -/
def fromGlobalAnswer : Bool → GateProg α
  | true => fromTenantCheck lim t next
  | false => next false

/-- From the global check on. -/
def fromGlobalCheck : GateProg α :=
  ask .loadGlobal fun (used : UInt64) =>
    fromGlobalAnswer lim t next (decide (used < lim.globalLimit))

/-- From the end of the critical section on. -/
def fromUnlock : GateProg α := ask .unlockWindow fun _ => fromGlobalCheck lim t next

/-- From a visit of the map on, with `tenants` still to be visited. -/
def fromVisit : List String → GateProg α
  | [] => ask .instantNow fun now => ask (.setWindowStart now) fun _ => fromUnlock lim t next
  | t' :: tenants => ask (.clearTenant t') fun _ => fromVisit tenants

/-- From where it is known whether the window is over. -/
def fromExpired : Bool → GateProg α
  | true => ask .clearGlobal fun _ => ask .iterTenants fun tenants => fromVisit lim t next tenants
  | false => fromUnlock lim t next

/-- From the locked mutex on. -/
def fromLock (start : Instant) : GateProg α :=
  ask .instantNow fun now => fromExpired lim t next (expired lim.windowDurationSecs start now)

/-- A visit of the map, and then the end of the reset. -/
theorem clearTenants_bind (tenants : List String) :
    ((GateLimits.clearTenants tenants).bind fun _ => ask GateOp.instantNow fun now =>
      ask (GateOp.setWindowStart now) fun _ => fromUnlock lim t next)
      = fromVisit lim t next tenants := by
  induction tenants with
  | nil => rfl
  | cons t' tenants ih =>
    show ask (GateOp.clearTenant t') _ = ask (GateOp.clearTenant t') _
    rw [← ih]
    rfl

/-- A reset, and then the end of the critical section. -/
theorem resetWindow_bind :
    (GateLimits.resetWindow.bind fun _ => fromUnlock lim t next) = fromExpired lim t next true := by
  show (ask GateOp.clearGlobal fun _ => ask GateOp.iterTenants fun tenants =>
    ((GateLimits.clearTenants tenants).bind fun _ => ask GateOp.instantNow fun now =>
      ask (GateOp.setWindowStart now) fun _ => done ()).bind fun _ => fromUnlock lim t next) = _
  refine congrArg (ask _) (funext fun _ => congrArg (ask _) (funext fun tenants => ?_))
  exact (Interaction.bind_assoc _ _ _).trans (clearTenants_bind lim t next tenants)

/-- The reset, and then the checks. -/
theorem maybeResetWindow_bind :
    (lim.maybeResetWindow.bind fun _ => fromGlobalCheck lim t next)
      = ask .lockWindow (fromLock lim t next) := by
  refine congrArg (ask _) (funext fun start => congrArg (ask _) (funext fun now => ?_))
  show (((if expired lim.windowDurationSecs start now = true then
      GateLimits.resetWindow.bind fun _ => ask GateOp.unlockWindow done
    else ask GateOp.unlockWindow done) : GateProg Unit).bind fun _ => fromGlobalCheck lim t next)
    = fromExpired lim t next (expired lim.windowDurationSecs start now)
  cases expired lim.windowDurationSecs start now with
  | true =>
    rw [if_pos rfl, Interaction.bind_assoc, ← resetWindow_bind]
    rfl
  | false => rfl

/-- The checks, and then what is done with the answer. -/
theorem checks_bind :
    ((lim.checkGlobal.bind fun b => if b then lim.checkTenant t else done false).bind next)
      = fromGlobalCheck lim t next := by
  refine congrArg (ask _) (funext fun (used : UInt64) => ?_)
  show ((if decide (used < lim.globalLimit) = true then lim.checkTenant t else done false) :
    GateProg Bool).bind next = fromGlobalAnswer lim t next (decide (used < lim.globalLimit))
  cases decide (used < lim.globalLimit) with
  | true =>
    refine congrArg (ask _) (funext fun entry => ?_)
    cases entry <;> rfl
  | false => rfl

/-- `has_capacity`, operation by operation. -/
theorem hasCapacity_bind :
    (lim.hasCapacity t).bind next = ask .lockWindow (fromLock lim t next) := by
  calc (lim.hasCapacity t).bind next
      = lim.maybeResetWindow.bind fun _ => fromGlobalCheck lim t next := by
        rw [← checks_bind]
        exact Interaction.bind_assoc _ _ _
    _ = ask .lockWindow (fromLock lim t next) := maybeResetWindow_bind lim t next

variable (api : ApiCall) (apis : List ApiCall)

/-- What a thread does with the answer of the gate. -/
def fromAnswer : Bool → GateProg Unit
  | true => ask (.addGlobal api.tokens) fun _ =>
      ask (.addTenant api.tenantId api.tokens) fun _ => worker lim apis
  | false => worker lim apis

/-- One API call of a thread. -/
theorem worker_cons :
    worker lim (api :: apis)
      = ask .lockWindow (fromLock lim api.tenantId (fromAnswer lim api apis)) := by
  rw [← hasCapacity_bind]
  exact congrArg (Interaction.bind _) (funext fun b => by cases b <;> rfl)

end

/-! ### A call without interference -/

section
variable {ι : Type} {lim : GateLimits} {i : ι} {t : String} {s : GateCells ι} {b : Bool}
  {ws : List (List String)}

/-- The gate as one value. -/
def wholeGate (lim : GateLimits) (s : GateCells ι) : ClaudeBudgetGate where
  globalUsed := s.globalUsed
  globalLimit := lim.globalLimit
  tenantUsed := s.tenantUsed
  perTenantLimit := lim.perTenantLimit
  windowStart := s.windowStart
  windowDurationSecs := lim.windowDurationSecs

theorem admits_eq_checkTenant (lim : GateLimits) (s : GateCells ι) (t : String) :
    admits lim.perTenantLimit (s.tenantUsed t) = (wholeGate lim s).checkTenant t := by
  show _ = match s.tenantUsed t with
    | some used => decide (used < lim.perTenantLimit)
    | none => true
  cases s.tenantUsed t <;> rfl

/-- The end of the critical section and the two checks. -/
theorem exec_fromUnlock
    (h : (exec (GateCells.serve i) (fromUnlock lim t done) ws s).ending = .returned b) :
    ((wholeGate lim s).checkGlobal && (wholeGate lim s).checkTenant t) = b ∧
      wholeGate lim (exec (GateCells.serve i) (fromUnlock lim t done) ws s).state
        = wholeGate lim s := by
  match ws, h with
  | [], h => cases h
  | [_], h => cases h
  | _ :: _ :: ws, h =>
    -- The mutex is unlocked, and the global counter is loaded.
    have hrest : (exec (GateCells.serve i) (fromGlobalAnswer lim t done
        (decide (s.globalUsed < lim.globalLimit))) ws { s with holder := none }).ending
          = .returned b := h
    show _ ∧ wholeGate lim (exec (GateCells.serve i) (fromGlobalAnswer lim t done
      (decide (s.globalUsed < lim.globalLimit))) ws { s with holder := none }).state = _
    cases hglobal : (wholeGate lim s).checkGlobal with
    | false =>
      have hused : decide (s.globalUsed < lim.globalLimit) = false := hglobal
      rw [hused] at hrest ⊢
      rw [fromGlobalAnswer, exec_done] at hrest ⊢
      exact ⟨Interaction.Ending.returned.inj hrest, rfl⟩
    | true =>
      have hused : decide (s.globalUsed < lim.globalLimit) = true := hglobal
      rw [hused] at hrest ⊢
      match ws, hrest with
      | [], hrest => cases hrest
      | _ :: ws, hrest =>
        have hdone : (exec (GateCells.serve i) (done (admits lim.perTenantLimit (s.tenantUsed t)))
            ws { s with holder := none }).ending = .returned b := hrest
        rw [exec_done, admits_eq_checkTenant] at hdone
        refine ⟨Interaction.Ending.returned.inj hdone, ?_⟩
        show wholeGate lim (exec (GateCells.serve i) (done (admits lim.perTenantLimit
          (s.tenantUsed t))) ws { s with holder := none }).state = _
        rw [exec_done]
        rfl

/-- The map after a visit of `tenants`. -/
def visited (tenants : List String) (used : String → Option UInt64) : String → Option UInt64 :=
  fun t => if t ∈ tenants then (used t).map fun _ => 0 else used t

/-- The gate with a new window, and with the map `used`. -/
def renewedGate (lim : GateLimits) (s : GateCells ι) (used : String → Option UInt64) :
    ClaudeBudgetGate :=
  { wholeGate lim s with tenantUsed := used, windowStart := s.clock }

/-- The visit of the map, the start of the new window, and what comes after. -/
theorem exec_fromVisit (tenants : List String)
    (h : (exec (GateCells.serve i) (fromVisit lim t done tenants) ws s).ending = .returned b) :
    ((renewedGate lim s (visited tenants s.tenantUsed)).checkGlobal &&
        (renewedGate lim s (visited tenants s.tenantUsed)).checkTenant t) = b ∧
      wholeGate lim (exec (GateCells.serve i) (fromVisit lim t done tenants) ws s).state
        = renewedGate lim s (visited tenants s.tenantUsed) := by
  induction tenants generalizing s ws with
  | nil =>
    match ws, h with
    | [], h => cases h
    | [_], h => cases h
    | _ :: _ :: ws, h =>
      have hrest : (exec (GateCells.serve i) (fromUnlock lim t done) ws
        { s with windowStart := s.clock }).ending = .returned b := h
      exact exec_fromUnlock hrest
  | cons t' tenants ih =>
    match ws, h with
    | [], h => cases h
    | w :: ws, h =>
      have hrest : (exec (GateCells.serve i) (fromVisit lim t done tenants) ws
        (GateCells.serve i (.clearTenant t') w s).2).ending = .returned b := h
      -- The map after the first entry and then the others is the map after all of them.
      have hmap : visited tenants (Function.update s.tenantUsed t'
          ((s.tenantUsed t').map fun _ => 0)) = visited (t' :: tenants) s.tenantUsed := by
        funext t''
        by_cases ht : t'' = t'
        · subst ht
          simp only [visited, Function.update_self, List.mem_cons, true_or, if_true, Option.map_map,
            ite_eq_right_iff]
          exact fun _ => rfl
        · simp only [visited, Function.update_of_ne ht, List.mem_cons, ht, false_or]
      rw [← hmap]
      exact ih hrest

/-- A visit of all entries clears the map. -/
theorem visited_eq_map {tenants : List String} {used : String → Option UInt64}
    (hall : ∀ t, used t ≠ none → t ∈ tenants) :
    visited tenants used = fun t => (used t).map fun _ => 0 := by
  funext t
  by_cases ht : t ∈ tenants
  · exact if_pos ht
  · have hnone : used t = none := not_not.mp fun hsome => ht (hall t hsome)
    rw [visited, if_neg ht, hnone]
    rfl

/-- What a check without interference has done when it returns: what the call of the whole gate
does, when the map visits all of its entries. -/
theorem hasCapacity_of_returned (hall : ∀ w ∈ ws, ∀ t, s.tenantUsed t ≠ none → t ∈ w)
    (h : (exec (GateCells.serve i) (lim.hasCapacity t) ws s).ending = .returned b) :
    (wholeGate lim s).hasCapacity t s.clock s.clock
      = (b, wholeGate lim (exec (GateCells.serve i) (lim.hasCapacity t) ws s).state) := by
  rw [← Interaction.bind_done (lim.hasCapacity t), hasCapacity_bind] at h ⊢
  -- The mutex is locked, and the clock is read.
  have hreset : ∀ gate, (wholeGate lim s).maybeResetWindow s.clock s.clock = gate →
      (gate.checkGlobal && gate.checkTenant t) = b ∧ wholeGate lim
        (exec (GateCells.serve i) (ask .lockWindow (fromLock lim t done)) ws s).state = gate →
      (wholeGate lim s).hasCapacity t s.clock s.clock = (b, wholeGate lim
        (exec (GateCells.serve i) (ask .lockWindow (fromLock lim t done)) ws s).state) := by
    intro gate hgate hafter
    rw [ClaudeBudgetGate.hasCapacity, hgate, hafter.1, hafter.2]
  match ws, h with
  | [], h => cases h
  | [_], h => cases h
  | _ :: _ :: ws, h =>
    have hrest : (exec (GateCells.serve i) (fromExpired lim t done
        (expired lim.windowDurationSecs s.windowStart s.clock)) ws
        { s with holder := some i }).ending = .returned b := h
    cases hover : expired lim.windowDurationSecs s.windowStart s.clock with
    | false =>
      refine hreset _ (ClaudeBudgetGate.maybeResetWindow_of_not_expired _ hover) ?_
      rw [hover] at hrest
      show _ ∧ wholeGate lim (exec (GateCells.serve i) (fromExpired lim t done
        (expired lim.windowDurationSecs s.windowStart s.clock)) ws
          { s with holder := some i }).state = _
      rw [hover]
      exact exec_fromUnlock hrest
    | true =>
      rw [hover] at hrest
      match ws, hrest with
      | [], hrest => cases hrest
      | [_], hrest => cases hrest
      | _ :: tenants :: ws, hrest =>
        have hvisit : (exec (GateCells.serve i) (fromVisit lim t done tenants) ws
            { s with
              holder := some i
              globalUsed := 0
              globalLedger := s.globalLedger.clear }).ending = .returned b := hrest
        have hcover : ∀ t, s.tenantUsed t ≠ none → t ∈ tenants := hall tenants (by simp)
        refine hreset { renewedGate lim s (visited tenants s.tenantUsed) with globalUsed := 0 }
          ?_ ?_
        · rw [visited_eq_map hcover]
          exact if_pos hover
        · show _ ∧ wholeGate lim (exec (GateCells.serve i) (fromExpired lim t done
            (expired lim.windowDurationSecs s.windowStart s.clock)) (_ :: tenants :: ws)
              { s with holder := some i }).state = _
          rw [hover]
          exact exec_fromVisit tenants hvisit

/-- From the end of the critical section on there are three operations at most. -/
theorem exists_returned_fromUnlock (hlen : 3 ≤ ws.length) :
    ∃ b, (exec (GateCells.serve i) (fromUnlock lim t done) ws s).ending = .returned b := by
  match ws, hlen with
  | _ :: _ :: w :: ws, _ =>
    show ∃ b, (exec (GateCells.serve i) (fromGlobalAnswer lim t done
      (decide (s.globalUsed < lim.globalLimit))) (w :: ws) { s with holder := none }).ending = _
    cases decide (s.globalUsed < lim.globalLimit) with
    | false => exact ⟨false, by rw [fromGlobalAnswer, exec_done]⟩
    | true =>
      show ∃ b, (exec (GateCells.serve i) (done (admits lim.perTenantLimit (s.tenantUsed t))) ws
        { s with holder := none }).ending = _
      exact ⟨_, by rw [exec_done]⟩

/-- A visit of the map is one operation for each entry, and five more follow at most. -/
theorem exists_returned_fromVisit (tenants : List String)
    (hlen : tenants.length + 5 ≤ ws.length) :
    ∃ b, (exec (GateCells.serve i) (fromVisit lim t done tenants) ws s).ending = .returned b := by
  induction tenants generalizing s ws with
  | nil =>
    match ws, hlen with
    | _ :: _ :: ws, hlen =>
      show ∃ b, (exec (GateCells.serve i) (fromUnlock lim t done) ws
        { s with windowStart := s.clock }).ending = .returned b
      refine exists_returned_fromUnlock ?_
      simp only [List.length_nil, List.length_cons] at hlen
      omega
  | cons t' tenants ih =>
    match ws, hlen with
    | [], hlen => simp at hlen
    | w :: ws, hlen =>
      show ∃ b, (exec (GateCells.serve i) (fromVisit lim t done tenants) ws
        (GateCells.serve i (.clearTenant t') w s).2).ending = .returned b
      refine ih ?_
      simp only [List.length_cons] at hlen
      omega

/-- A check without interference returns after nine operations and one for each entry that it
visits, at the latest. -/
theorem exists_returned_hasCapacity (hsome : ws ≠ [])
    (hlen : ∀ w ∈ ws, w.length + 9 ≤ ws.length) :
    ∃ b, (exec (GateCells.serve i) (lim.hasCapacity t) ws s).ending = .returned b := by
  rw [← Interaction.bind_done (lim.hasCapacity t), hasCapacity_bind]
  obtain ⟨w, hw⟩ := List.exists_mem_of_ne_nil ws hsome
  have hnine : 9 ≤ ws.length := Nat.le_trans (Nat.le_add_left 9 _) (hlen w hw)
  match ws, hlen, hnine with
  | _ :: _ :: _ :: tenants :: ws, hlen, hnine =>
    -- The mutex is locked, and the clock is read.
    show ∃ b, (exec (GateCells.serve i) (fromExpired lim t done
      (expired lim.windowDurationSecs s.windowStart s.clock)) (_ :: tenants :: ws)
        { s with holder := some i }).ending = .returned b
    have htenants := hlen tenants (by simp)
    simp only [List.length_cons] at hnine htenants
    cases expired lim.windowDurationSecs s.windowStart s.clock with
    | false =>
      refine exists_returned_fromUnlock ?_
      simp only [List.length_cons]
      omega
    | true =>
      show ∃ b, (exec (GateCells.serve i) (fromVisit lim t done tenants) ws
        { s with
          holder := some i
          globalUsed := 0
          globalLedger := s.globalLedger.clear }).ending = .returned b
      refine exists_returned_fromVisit tenants ?_
      omega

/-- `has_capacity` without interference is the call of the whole gate, when the map visits all of
its entries: what it returns and what it leaves are those of `ClaudeBudgetGate`, and with enough
answers it returns. For `record_usage` this is `exec_recordUsage`. -/
theorem exec_hasCapacity (hall : ∀ w ∈ ws, ∀ t, s.tenantUsed t ≠ none → t ∈ w) :
    (∀ b, (exec (GateCells.serve i) (lim.hasCapacity t) ws s).ending = .returned b →
      (wholeGate lim s).hasCapacity t s.clock s.clock
        = (b, wholeGate lim (exec (GateCells.serve i) (lim.hasCapacity t) ws s).state)) ∧
    (ws ≠ [] → (∀ w ∈ ws, w.length + 9 ≤ ws.length) →
      ∃ b, (exec (GateCells.serve i) (lim.hasCapacity t) ws s).ending = .returned b) :=
  ⟨fun _ h => hasCapacity_of_returned hall h, exists_returned_hasCapacity⟩

/-- A gate at the end of its first hour, with the tokens of one tenant. -/
def hourOld : GateCells Unit where
  globalUsed := 10
  tenantUsed t := if t = "acme" then some 10 else none
  windowStart := 0
  holder := none
  clock := 3600 * 10 ^ 9
  globalLedger := .empty
  tenantLedger _ := .empty

/-- A check at the end of the first hour clears what the tenant has used, and answers yes. -/
theorem exec_hasCapacity_hourOld :
    (exec (GateCells.serve ()) ((GateLimits.new 10 10).hasCapacity "acme")
        (List.replicate 10 ["acme"]) hourOld).ending = .returned true ∧
      (wholeGate (.new 10 10) hourOld).hasCapacity "acme" (3600 * 10 ^ 9) (3600 * 10 ^ 9)
        = (true, wholeGate (.new 10 10) (exec (GateCells.serve ())
            ((GateLimits.new 10 10).hasCapacity "acme") (List.replicate 10 ["acme"])
              hourOld).state) := by
  have hall : ∀ w ∈ List.replicate 10 ["acme"], ∀ t, hourOld.tenantUsed t ≠ none → t ∈ w := by
    intro w hw t ht
    rw [List.eq_of_mem_replicate hw, List.mem_singleton]
    by_contra hne
    exact ht (if_neg hne)
  have hlen : ∀ w ∈ List.replicate 10 ["acme"],
      w.length + 9 ≤ (List.replicate 10 ["acme"]).length := by
    intro w hw
    rw [List.eq_of_mem_replicate hw]
    decide
  have hexec := @exec_hasCapacity Unit (.new 10 10) () "acme" hourOld _ hall
  obtain ⟨b, hend⟩ := hexec.2 (by decide) hlen
  have hcall := hexec.1 b hend
  -- The gate is expired, so both counters are zero when they are checked.
  have hb : b = true := (congrArg Prod.fst hcall).symm
  subst hb
  exact ⟨hend, hcall⟩

/-- `record_usage` without interference is the call of the whole gate. -/
theorem exec_recordUsage {n : UInt64}
    (h : (exec (GateCells.serve i) (GateLimits.recordUsage t n) ws s).ending = .returned ()) :
    wholeGate lim (exec (GateCells.serve i) (GateLimits.recordUsage t n) ws s).state
      = (wholeGate lim s).recordUsage t n := by
  match ws, h with
  | [], h => cases h
  | [_], h => cases h
  | _ :: _ :: ws, h =>
    show wholeGate lim (exec (GateCells.serve i) (done ()) ws _).state = _
    rw [exec_done]
    rfl

end

/-! ### The places -/

/-- Where a thread stands in its use of the gate. -/
inductive Place where
  /-- Before its next API call, or at the end. -/
  | idle
  /-- The mutex is locked, and the guard shows `start`. -/
  | locked (start : Instant)
  /-- The window is over. -/
  | ended
  /-- The global counter is cleared. -/
  | cleared
  /-- The entries of `tenants` are still to be cleared. -/
  | visiting (tenants : List String)
  /-- The start of the new window is read. -/
  | renewed (now : Instant)
  /-- Before the mutex is unlocked. -/
  | leaving
  /-- Before the global check. -/
  | checking
  /-- The global check has passed. -/
  | checkingTenant
  /-- Both checks have passed, and the API is called. -/
  | admitted
  /-- The usage is added to the global counter. -/
  | charging

/-- A thread: its place, the API call that it is at, and the ones after it. -/
structure Thread where
  place : Place
  api : ApiCall
  apis : List ApiCall

namespace Thread

variable {lim : GateLimits}

/-- What a thread does from its place on. -/
def code (lim : GateLimits) : Thread → GateProg Unit
  | ⟨.idle, _, apis⟩ => worker lim apis
  | ⟨.locked start, api, apis⟩ => fromLock lim api.tenantId (fromAnswer lim api apis) start
  | ⟨.ended, api, apis⟩ => fromExpired lim api.tenantId (fromAnswer lim api apis) true
  | ⟨.cleared, api, apis⟩ => ask .iterTenants fun tenants =>
      fromVisit lim api.tenantId (fromAnswer lim api apis) tenants
  | ⟨.visiting tenants, api, apis⟩ => fromVisit lim api.tenantId (fromAnswer lim api apis) tenants
  | ⟨.renewed now, api, apis⟩ => ask (.setWindowStart now) fun _ =>
      fromUnlock lim api.tenantId (fromAnswer lim api apis)
  | ⟨.leaving, api, apis⟩ => fromUnlock lim api.tenantId (fromAnswer lim api apis)
  | ⟨.checking, api, apis⟩ => fromGlobalCheck lim api.tenantId (fromAnswer lim api apis)
  | ⟨.checkingTenant, api, apis⟩ => fromTenantCheck lim api.tenantId (fromAnswer lim api apis)
  | ⟨.admitted, api, apis⟩ => fromAnswer lim api apis true
  | ⟨.charging, api, apis⟩ => ask (.addTenant api.tenantId api.tokens) fun _ => worker lim apis

end Thread

/-- One operation of a thread: what it makes, what it is answered, where it stands then. -/
inductive Moves (lim : GateLimits) : Thread → (op : GateOp) → op.Result → Thread → Prop
  | lock (before api : ApiCall) (apis : List ApiCall) (start : Instant) :
      Moves lim ⟨.idle, before, api :: apis⟩ .lockWindow start ⟨.locked start, api, apis⟩
  | ended (api : ApiCall) (apis : List ApiCall) (start now : Instant)
      (h : expired lim.windowDurationSecs start now = true) :
      Moves lim ⟨.locked start, api, apis⟩ .instantNow now ⟨.ended, api, apis⟩
  | lasts (api : ApiCall) (apis : List ApiCall) (start now : Instant) :
      Moves lim ⟨.locked start, api, apis⟩ .instantNow now ⟨.leaving, api, apis⟩
  | clearGlobal (api : ApiCall) (apis : List ApiCall) :
      Moves lim ⟨.ended, api, apis⟩ .clearGlobal () ⟨.cleared, api, apis⟩
  | iter (api : ApiCall) (apis : List ApiCall) (tenants : List String) :
      Moves lim ⟨.cleared, api, apis⟩ .iterTenants tenants ⟨.visiting tenants, api, apis⟩
  | clearTenant (api : ApiCall) (apis : List ApiCall) (t : String) (tenants : List String) :
      Moves lim ⟨.visiting (t :: tenants), api, apis⟩ (.clearTenant t) ()
        ⟨.visiting tenants, api, apis⟩
  | renew (api : ApiCall) (apis : List ApiCall) (now : Instant) :
      Moves lim ⟨.visiting [], api, apis⟩ .instantNow now ⟨.renewed now, api, apis⟩
  | setStart (api : ApiCall) (apis : List ApiCall) (now : Instant) :
      Moves lim ⟨.renewed now, api, apis⟩ (.setWindowStart now) () ⟨.leaving, api, apis⟩
  | unlock (api : ApiCall) (apis : List ApiCall) :
      Moves lim ⟨.leaving, api, apis⟩ .unlockWindow () ⟨.checking, api, apis⟩
  | globalOk (api : ApiCall) (apis : List ApiCall) (used : UInt64) (h : used < lim.globalLimit) :
      Moves lim ⟨.checking, api, apis⟩ .loadGlobal used ⟨.checkingTenant, api, apis⟩
  | globalFull (api : ApiCall) (apis : List ApiCall) (used : UInt64) :
      Moves lim ⟨.checking, api, apis⟩ .loadGlobal used ⟨.idle, api, apis⟩
  | accept (api : ApiCall) (apis : List ApiCall) (entry : Option UInt64)
      (h : admits lim.perTenantLimit entry = true) :
      Moves lim ⟨.checkingTenant, api, apis⟩ (.loadTenant api.tenantId) entry
        ⟨.admitted, api, apis⟩
  | refuse (api : ApiCall) (apis : List ApiCall) (entry : Option UInt64) :
      Moves lim ⟨.checkingTenant, api, apis⟩ (.loadTenant api.tenantId) entry ⟨.idle, api, apis⟩
  | addGlobal (api : ApiCall) (apis : List ApiCall) :
      Moves lim ⟨.admitted, api, apis⟩ (.addGlobal api.tokens) () ⟨.charging, api, apis⟩
  | addTenant (api : ApiCall) (apis : List ApiCall) :
      Moves lim ⟨.charging, api, apis⟩ (.addTenant api.tenantId api.tokens) () ⟨.idle, api, apis⟩

variable {lim : GateLimits}

/-- A thread that is about to make an operation moves on with its result. -/
theorem moves_of_code {x : Thread} {op : GateOp} {next : op.Result → GateProg Unit}
    (h : x.code lim = ask op next) (r : op.Result) :
    ∃ x', Moves lim x op r x' ∧ next r = x'.code lim := by
  obtain ⟨place, api, apis⟩ := x
  cases place with
  | idle =>
    cases apis with
    | nil => cases h
    | cons api' apis =>
      have hcode : ask .lockWindow (fromLock lim api'.tenantId (fromAnswer lim api' apis))
          = ask op next := (worker_cons lim api' apis).symm.trans h
      cases hcode
      exact ⟨_, .lock api api' apis r, rfl⟩
  | locked start =>
    cases h
    show ∃ x', Moves lim _ _ r x' ∧ fromExpired lim api.tenantId (fromAnswer lim api apis)
      (expired lim.windowDurationSecs start r) = x'.code lim
    cases hover : expired lim.windowDurationSecs start r with
    | true => exact ⟨_, .ended api apis start r hover, rfl⟩
    | false => exact ⟨_, .lasts api apis start r, rfl⟩
  | ended =>
    cases h
    exact ⟨_, .clearGlobal api apis, rfl⟩
  | cleared =>
    cases h
    exact ⟨_, .iter api apis r, rfl⟩
  | visiting tenants =>
    cases tenants with
    | nil =>
      cases h
      exact ⟨_, .renew api apis r, rfl⟩
    | cons t tenants =>
      cases h
      exact ⟨_, .clearTenant api apis t tenants, rfl⟩
  | renewed now =>
    cases h
    exact ⟨_, .setStart api apis now, rfl⟩
  | leaving =>
    cases h
    exact ⟨_, .unlock api apis, rfl⟩
  | checking =>
    cases h
    have hchecked (used : UInt64) : ∃ x', Moves lim ⟨.checking, api, apis⟩ .loadGlobal used x' ∧
        fromGlobalAnswer lim api.tenantId (fromAnswer lim api apis)
          (decide (used < lim.globalLimit)) = x'.code lim := by
      by_cases hused : used < lim.globalLimit
      · exact ⟨_, .globalOk api apis used hused, by rw [decide_eq_true hused]; rfl⟩
      · exact ⟨_, .globalFull api apis used, by rw [decide_eq_false hused]; rfl⟩
    exact hchecked r
  | checkingTenant =>
    cases h
    have hchecked (entry : Option UInt64) :
        ∃ x', Moves lim ⟨.checkingTenant, api, apis⟩ (.loadTenant api.tenantId) entry x' ∧
          fromAnswer lim api apis (admits lim.perTenantLimit entry) = x'.code lim := by
      cases hentry : admits lim.perTenantLimit entry with
      | true => exact ⟨_, .accept api apis entry hentry, rfl⟩
      | false => exact ⟨_, .refuse api apis entry, rfl⟩
    exact hchecked r
  | admitted =>
    cases h
    exact ⟨_, .addGlobal api apis, rfl⟩
  | charging =>
    cases h
    exact ⟨_, .addTenant api apis, rfl⟩

/-! ### The threads of a pool -/

/-- The tokens of each API call are at most `m`. -/
def Costs (m : Nat) (apis : List ApiCall) : Prop := ∀ api ∈ apis, api.tokens.toNat ≤ m

section
variable {ι : Type} [DecidableEq ι] {m : Nat} {P P' : Workers ι} {th : ι → Thread}
  {visits : GateCells ι → List String → Prop}

/-- Each thread of the pool is at its place. A thread that has not started is idle. -/
structure Stands (lim : GateLimits) (P : Workers ι) (th : ι → Thread) : Prop where
  code : ∀ i p, P.procs i = some p → p.rest = (th i).code lim
  unstarted : ∀ i, P.procs i = none → (th i).place = .idle

/-- The runs in which the mutex and the map keep their promises, and no API call costs more than
`m`. -/
structure Metering (m : Nat) (P : Workers ι) (mv : WorkersMove ι) : Prop extends
    Workers.Scheduled P mv where
  costs : ∀ i apis, mv = .start i apis → Costs m apis

/-- An iteration visits each entry once. -/
def VisitsOnce (_ : GateCells ι) (w : List String) : Prop := w.Nodup

/-- An iteration that the move makes visits what `visits` allows. -/
def Visiting (visits : GateCells ι → List String → Prop) (P : Workers ι) (mv : WorkersMove ι) :
    Prop :=
  ∀ i w, mv = .serve i w → P.pending i = some .iterTenants → visits P.shared w

/-- What one move does to the shared cells and to the places of the threads. -/
inductive Advance (lim : GateLimits) (m : Nat) (visits : GateCells ι → List String → Prop) :
    GateCells ι → (ι → Thread) → GateCells ι → (ι → Thread) → Prop
  | tick (s : GateCells ι) (th : ι → Thread) (n : Nat) : Advance lim m visits s th (s.tick n) th
  | still (s : GateCells ι) (th : ι → Thread) : Advance lim m visits s th s th
  | start (s : GateCells ι) (th : ι → Thread) (i : ι) (api : ApiCall) (apis : List ApiCall)
      (hidle : (th i).place = .idle) (hcosts : Costs m apis) :
      Advance lim m visits s th s (Function.update th i ⟨.idle, api, apis⟩)
  | serve (s : GateCells ι) (th : ι → Thread) (i : ι) (op : GateOp) (w : List String) (x : Thread)
      (hmoves : Moves lim (th i) op (GateCells.serve i op w s).1 x)
      (hlock : op = .lockWindow → s.holder = none) (hvisit : op = .iterTenants → visits s w) :
      Advance lim m visits s th (GateCells.serve i op w s).2 (Function.update th i x)

/-- A process that is replaced stands where its thread then stands. -/
theorem Stands.update (h : Stands lim P th) (s : GateCells ι) {i : ι}
    {p : Proc GateOp.Result (List ApiCall) Unit} {x : Thread} (hp : p.rest = x.code lim) :
    Stands lim ((P.setShared s).setProc i p) (Function.update th i x) := by
  constructor
  · intro j p' hp'
    by_cases hj : j = i
    · subst hj
      rw [Pool.procs_setProc_self, Option.some.injEq] at hp'
      rw [Function.update_self, ← hp', hp]
    · rw [Pool.procs_setProc_of_ne _ _ _ _ hj, Pool.procs_setShared] at hp'
      rw [Function.update_of_ne hj, h.code j p' hp']
  · intro j hnone
    by_cases hj : j = i
    · subst hj
      rw [Pool.procs_setProc_self] at hnone
      cases hnone
    · rw [Pool.procs_setProc_of_ne _ _ _ _ hj, Pool.procs_setShared] at hnone
      rw [Function.update_of_ne hj, h.unstarted j hnone]

/-- One move of the pool advances the threads. -/
theorem step_advance (h : Stands lim P th) {mv : WorkersMove ι} (hok : Metering m P mv)
    (hvisiting : Visiting visits P mv) (hs : Workers.step lim P mv = some P') :
    ∃ th', Stands lim P' th' ∧ Advance lim m visits P.shared th P'.shared th' := by
  cases mv with
  | start i apis =>
    obtain ⟨hnone, rfl⟩ := Pool.step_start.mp hs
    have hcode : worker lim apis = (⟨.idle, (th i).api, apis⟩ : Thread).code lim := rfl
    exact ⟨_, h.update P.shared hcode,
      .start _ _ i (th i).api apis (h.unstarted i hnone) (hok.costs i apis rfl)⟩
  | serve i w =>
    obtain ⟨apis, tr, op, next, hp, rfl⟩ := Pool.step_serve.mp hs
    have hpending : P.pending i = some op := by rw [Workers.pending, hp]
    have hcode : (th i).code lim = ask op next := (h.code i _ hp).symm
    -- The operation and its result lead the thread to its next place.
    obtain ⟨x, hmoves, hnext⟩ := moves_of_code hcode (GateCells.serve i op w P.shared).1
    have hlock : op = .lockWindow → P.shared.holder = none := fun hop =>
      hok.lock i w rfl (hop ▸ hpending)
    have hvisit : op = .iterTenants → visits P.shared w := fun hop =>
      hvisiting i w rfl (hop ▸ hpending)
    exact ⟨_, h.update _ hnext, .serve _ _ i op w x hmoves hlock hvisit⟩
  | crash i =>
    obtain ⟨p, hp, rfl⟩ := Pool.step_crash.mp hs
    have hupdate : Function.update th i (th i) = th := Function.update_eq_self i th
    refine ⟨th, ?_, .still _ _⟩
    rw [← hupdate]
    exact h.update P.shared (h.code i p hp)
  | env n =>
    rw [Pool.step_env.mp hs]
    exact ⟨th, ⟨h.code, h.unstarted⟩, .tick _ _ n⟩

/-- The invariant rule: what every advance keeps holds, with some places, at the end of a run. -/
theorem run_invariant (I : GateCells ι → (ι → Thread) → Prop)
    {ok : Workers ι → WorkersMove ι → Prop}
    (hallowed : ∀ P mv, ok P mv → Metering m P mv ∧ Visiting visits P mv)
    (hkeep : ∀ s th s' th', I s th → Advance lim m visits s th s' th' → I s' th')
    {ms : List (WorkersMove ι)} (h : Run (Workers.step lim) ok P ms P')
    (hstands : Stands lim P th) (hI : I P.shared th) :
    ∃ th', Stands lim P' th' ∧ I P'.shared th' := by
  induction h with
  | nil => exact ⟨th, hstands, hI⟩
  | snoc _ hok hs ih =>
    obtain ⟨th₁, hstands₁, hI₁⟩ := ih
    obtain ⟨hmetering, hvisiting⟩ := hallowed _ _ hok
    obtain ⟨th₂, hstands₂, hadvance⟩ := step_advance hstands₁ hmetering hvisiting hs
    exact ⟨th₂, hstands₂, hkeep _ _ _ _ hI₁ hadvance⟩

omit [DecidableEq ι] in
/-- Before any thread has started, every thread is idle. -/
theorem stands_start (lim : GateLimits) (now : Instant) (api : ApiCall) :
    Stands lim (Workers.start now : Workers ι) fun _ => ⟨.idle, api, []⟩ where
  code i p hp := by cases hp
  unstarted _ _ := rfl

end

end SwarmRuntime.Proofs
