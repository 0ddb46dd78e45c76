import SwarmRuntime.Proofs.Swarm
import SwarmRuntime.State.Codec

/-!
# `SwarmRuntime.Proofs.Bootstrap`: the first record of an agent

Both primary writes of a freeze carry a tag, and a guarded write on an absent key is refused.
The only unguarded write of the two calls is the checkpoint write, which comes after them. So
hydrate and freeze never create a primary record. `hydrate` leaves this to the runtime: its error
for a missing state record says "must create new agent".

* `not_canBePersisted`: in every run of the two calls from the empty store, no hydrate of an
  agent returns a result.
* `hydrate_created`: once the two records are written without a tag, a hydrate returns them.
-/

set_option autoImplicit false

namespace SwarmRuntime.State

open SwarmRuntime.Lib SwarmRuntime.Lib.Interaction

namespace Swarm

variable {M : AgentHydrationManager} {B : Build} {t a : String} {P : Swarm}
  {ok : Swarm → SwarmMove → Prop} {s₀ : Backing Author} {ms : List SwarmMove}

/-- From the empty store, some run of hydrate and freeze calls, with any inputs and any tags,
makes a hydrate of the agent return a result. -/
def CanBePersisted (M : AgentHydrationManager) (B : Build) (t a : String) : Prop :=
  ∃ ms P id p r, Run (step M B) (fun _ _ => True) (start EtagStore.empty) ms P ∧
    P.procs id = some p ∧ p.request = .hydrate t a ∧ p.rest = done (.hydrated (.ok r))

/-- An absent state record stays absent: a freeze replaces a record that is there. -/
theorem run_state_absent (h0 : s₀.cells (agentStateKey t a) = none)
    (h : Run (step M B) ok (start s₀) ms P) : P.shared.cells (agentStateKey t a) = none := by
  refine h.invariant (fun P => P.shared.cells (agentStateKey t a) = none) h0 ?_
  intro ms P m P' hr hP _ hs
  obtain ⟨n, htick, -⟩ | ⟨id, q, tr, key, value, etag, ttl, w, hw⟩ := step_cases hs
  · show P'.shared.cells (agentStateKey t a) = none
    rw [htick, EtagStore.cells_tick]
    exact hP
  · by_cases hkey : key = agentStateKey t a
    · -- The guard of a state write needs a live cell.
      obtain ⟨i, c₁, c₂, e₁, -, hw⟩ := hw.stateWrite hr hkey
      obtain ⟨c, hc, -⟩ := EtagStore.accepts_some.mp hw.accepted
      have hcell : P.shared.cells (agentStateKey t a) = some c :=
        (EtagStore.lookup_eq_some.mp hc).1
      rw [hP] at hcell
      cases hcell
    · rw [hw.shared, EtagStore.cells_put_of_ne _ _ _ _ _ _ _ (Ne.symm hkey)]
      exact hP

/-- So no hydrate of the agent returns a result. -/
theorem run_not_hydrated (h0 : s₀.cells (agentStateKey t a) = none)
    (h : Run (step M B) ok (start s₀) ms P) {id : Nat} {p : Proc Reply Request Response}
    (hp : P.procs id = some p) (hq : p.request = .hydrate t a) {r : HydrationResult} :
    p.rest ≠ done (.hydrated (.ok r)) := by
  intro hdone
  obtain ⟨P₁, P₂, cs, cm, hreads⟩ := run_hydrated h hp hq hdone
  -- At the moment of its state read the record was absent.
  obtain ⟨pre, -, hpre⟩ := hreads.first
  have habsent : P₁.shared.cells (agentStateKey t a) = none := run_state_absent h0 hpre
  have hcell : P₁.shared.cells (agentStateKey t a) = some cs :=
    (EtagStore.lookup_eq_some.mp hreads.stateCell).1
  rw [habsent] at hcell
  cases hcell

/-- No agent is ever persisted by hydrate and freeze alone: no run of these calls from the empty
store, with any inputs, tags, crashes and failures, makes a hydrate of it return a result. -/
theorem not_canBePersisted (M : AgentHydrationManager) (B : Build) (t a : String) :
    ¬ CanBePersisted M B t a := by
  intro hpersisted
  obtain ⟨ms, P, id, p, r, h, hp, hq, hdone⟩ := hpersisted
  exact run_not_hydrated rfl h hp hq hdone

/-- The records of a new agent come from the runtime. Once it has written the two records without
a tag ("first-write semantics"), for one version and a state that is not ACTIVE, a hydrate without
a failing call returns them. -/
theorem hydrate_created {state : AgentStateRecord} {mem : WorkingMemoryRecord} {w₁ w₂ : Answer}
    {ws : List Answer} {id : Author} (h₁ : w₁.fault = none) (h₂ : w₂.fault = none)
    (hws : Calm 3 ws) (hver : state.workingMemoryVersion = mem.version)
    (hactive : state.status ≠ AgentLifecycleStatus.active.toI32) :
    let s₁ := (serve id (.set (workingMemoryKey t a) (B.memory.encodeToVec mem) none
      (.seconds 86400)) w₁ EtagStore.empty).2
    let s₂ := (serve id (.set (agentStateKey t a) (B.state.encodeToVec state) none .none) w₂ s₁).2
    (exec (serve id) (M.hydrate B t a).run ws s₂).ending
      = .returned (.ok ⟨state, mem, false⟩) := by
  intro s₁ s₂
  have hstore : s₂ = pairStore id B t a state mem w₂.etag w₁.etag := by
    show (serve id _ w₂ (serve id _ w₁ EtagStore.empty).2).2 = _
    rw [serve_set_of_accepts h₁ rfl, serve_set_of_accepts h₂ rfl]
    rfl
  obtain ⟨u₁, u₂, u₃, us, rfl, hu₁, hu₂, hu₃⟩ := hws.exists_three
  rw [(exec_hydrate hu₁ hu₂ hu₃).2, hstore]
  exact hydrateOn_pairStore hver hactive

/-- Not every agent with two identifiers can be persisted by the two calls: the agent `writer` of
the tenant `acme` cannot. -/
theorem not_forall_canBePersisted :
    ¬ ∀ t a, t ≠ "" → a ≠ "" → CanBePersisted .new releaseBuild t a := by
  intro hall
  obtain ⟨ms, P, id, p, r, h, hp, hq, hdone⟩ := hall "acme" "writer" (by decide) (by decide)
  exact run_not_hydrated rfl h hp hq hdone

end Swarm

end SwarmRuntime.State
