import Mathlib.Data.Set.Function
import SwarmRuntime.Proofs.Swarm
import SwarmRuntime.State.Codec

/-!
# `SwarmRuntime.Proofs.Isolation`: whose records a hydrate returns

A key joins the identifiers of the agent, and neither `hydrate` nor `freeze` checks them:
`validate_id` has no caller. So two agents with one `keyRoot` share their records, and a
hydrate does not compare the identifiers in the record with the ones it was asked for.

`isolated_iff` states when a set of agents is isolated: exactly when no two of them have one
`keyRoot`. Identifiers without the character of the separator are enough (`keyRoot_injOn`).
That no identifier contains the whole separator, which is what `validate_id` checks, is not
enough: `("a|", "b")` and `("a", "|b")` have one `keyRoot`.
-/

set_option autoImplicit false

namespace SwarmRuntime.State

open SwarmRuntime.Lib SwarmRuntime.Lib.Interaction

/-- Each stored state or memory record is a record of an agent of `agents`, and it lies under
the key built from its own identifiers. -/
structure Placed (B : Build) (agents : Set (String × String)) (s : Backing Author) : Prop where
  state : ∀ t a c state, s.cells (agentStateKey t a) = some c →
    B.state.decode c.value = .ok state →
    (state.tenantId, state.agentId) ∈ agents ∧
      agentStateKey state.tenantId state.agentId = agentStateKey t a
  memory : ∀ t a c mem, s.cells (workingMemoryKey t a) = some c →
    B.memory.decode c.value = .ok mem →
    (mem.tenantId, mem.agentId) ∈ agents ∧
      workingMemoryKey mem.tenantId mem.agentId = workingMemoryKey t a

/-- A freeze input names one agent in all of its parts. -/
structure FreezeInput.SelfConsistent (i : FreezeInput) : Prop where
  state : i.state.tenantId = i.tenantId ∧ i.state.agentId = i.agentId
  memory : i.workingMemory.tenantId = i.tenantId ∧ i.workingMemory.agentId = i.agentId

/-- A hydration result carries the identifiers of the agent. -/
structure HydrationResult.Carries (r : HydrationResult) (t a : String) : Prop where
  state : r.state.tenantId = t ∧ r.state.agentId = a
  memory : r.workingMemory.tenantId = t ∧ r.workingMemory.agentId = a

namespace Swarm

variable {M : AgentHydrationManager} {B : Build} {agents : Set (String × String)}
  {P : Swarm} {s₀ : Backing Author} {ms : List SwarmMove}

/-- The moves of clients that freeze the agents of `agents` with self-consistent inputs. -/
def FreezesOwn (agents : Set (String × String)) (_ : Swarm) (m : SwarmMove) : Prop :=
  ∀ id i, m = .start id (.freeze i) → i.SelfConsistent ∧ (i.tenantId, i.agentId) ∈ agents

/-- The agents of `agents` are isolated: in every run, a hydrate of one of them returns its
own records. -/
def Isolated (M : AgentHydrationManager) (B : Build) (agents : Set (String × String)) : Prop :=
  ∀ s₀ ms P, Placed B agents s₀ → Run (step M B) (FreezesOwn agents) (start s₀) ms P →
    ∀ id p t a r, (t, a) ∈ agents → P.procs id = some p → p.request = .hydrate t a →
      p.rest = done (.hydrated (.ok r)) → r.Carries t a

/-- The input of each freeze is self-consistent. -/
theorem run_selfConsistent (h : Run (step M B) (FreezesOwn agents) (start s₀) ms P) {id : Nat}
    {p : Proc Reply Request Response} (hp : P.procs id = some p) {i : FreezeInput}
    (hq : p.request = .freeze i) : i.SelfConsistent ∧ (i.tenantId, i.agentId) ∈ agents := by
  induction h generalizing p with
  | nil => cases hp
  | @snoc ms P P' m _ hok hs ih =>
    obtain hp₀ | ⟨q, rfl, -, rfl⟩ | ⟨p₀, -, hp₀, rfl⟩ | ⟨w, q, tr, c, next, -, hp₀, rfl, -⟩ :=
      Pool.step_procs hs hp
    · exact ih hp₀ hq
    · cases hq
      exact hok id i rfl
    · exact ih hp₀ hq
    · exact ih hp₀ hq

/-- A run of self-consistent freezes keeps every record under its own key. -/
theorem run_placed (h0 : Placed B agents s₀)
    (h : Run (step M B) (FreezesOwn agents) (start s₀) ms P) : Placed B agents P.shared := by
  refine h.invariant (fun P => Placed B agents P.shared) h0 ?_
  intro ms P m P' hr hP hok hs
  obtain ⟨n, htick, -⟩ | ⟨id, q, tr, key, value, etag, ttl, w, hw⟩ := step_cases hs
  · show Placed B agents P'.shared
    rw [htick]
    exact ⟨hP.state, hP.memory⟩
  · constructor
    · intro t a c state hc hdec
      by_cases hkey : agentStateKey t a = key
      · -- The state record that was just written carries the identifiers of its freeze.
        obtain ⟨i, c₁, c₂, e₁, hroot, hw⟩ := hw.stateWrite hr hkey.symm
        obtain ⟨next, hp⟩ := hw.before
        obtain ⟨hself, hmem⟩ := run_selfConsistent hr hp rfl
        rw [hw.shared, EtagStore.cells_put_self, Option.some.injEq] at hc
        subst hc
        rw [FreezeInput.stateBytes, B.state.decode_encodeToVec] at hdec
        cases hdec
        rw [FreezeInput.frozenState_tenantId, FreezeInput.frozenState_agentId, hself.state.1,
          hself.state.2]
        exact ⟨hmem, (agentStateKey_eq_iff _ _ _ _).mpr hroot⟩
      · rw [hw.shared, EtagStore.cells_put_of_ne _ _ _ _ _ _ _ hkey] at hc
        exact hP.state t a c state hc hdec
    · intro t a c mem hc hdec
      by_cases hkey : workingMemoryKey t a = key
      · obtain ⟨i, c₁, hroot, hw⟩ := hw.memoryWrite hr hkey.symm
        obtain ⟨next, hp⟩ := hw.before
        obtain ⟨hself, hmem⟩ := run_selfConsistent hr hp rfl
        rw [hw.shared, EtagStore.cells_put_self, Option.some.injEq] at hc
        subst hc
        rw [FreezeInput.memBytes, B.memory.decode_encodeToVec] at hdec
        cases hdec
        -- The written memory carries the identifiers of its freeze.
        rw [FreezeInput.frozenMemory_tenantId, FreezeInput.frozenMemory_agentId,
          hself.memory.1, hself.memory.2]
        exact ⟨hmem, (workingMemoryKey_eq_iff _ _ _ _).mpr hroot⟩
      · rw [hw.shared, EtagStore.cells_put_of_ne _ _ _ _ _ _ _ hkey] at hc
        exact hP.memory t a c mem hc hdec

/-- A store that holds nothing but the blank records of one agent is placed. -/
theorem placed_blankStore {t a : String} (hids : (t, a) ∈ agents) :
    Placed B agents (blankStore none B t a) := by
  constructor
  · intro t' a' c state hc hdec
    rw [blankStore, pairStore] at hc
    by_cases hkey : agentStateKey t' a' = agentStateKey t a
    · rw [hkey, EtagStore.cells_put_self, Option.some.injEq] at hc
      subst hc
      rw [B.state.decode_encodeToVec] at hdec
      cases hdec
      exact ⟨hids, hkey.symm⟩
    · rw [EtagStore.cells_put_of_ne _ _ _ _ _ _ _ hkey, EtagStore.cells_put_of_ne _ _ _ _ _ _ _
        (agentStateKey_ne_workingMemoryKey _ _ _ _)] at hc
      cases hc
  · intro t' a' c mem hc hdec
    rw [blankStore, pairStore, EtagStore.cells_put_of_ne _ _ _ _ _ _ _
      (agentStateKey_ne_workingMemoryKey _ _ _ _).symm] at hc
    by_cases hkey : workingMemoryKey t' a' = workingMemoryKey t a
    · rw [hkey, EtagStore.cells_put_self, Option.some.injEq] at hc
      subst hc
      rw [B.memory.decode_encodeToVec] at hdec
      cases hdec
      exact ⟨hids, hkey.symm⟩
    · rw [EtagStore.cells_put_of_ne _ _ _ _ _ _ _ hkey] at hc
      cases hc

/-- An agent reads the records of every agent with its `keyRoot`. -/
theorem hydrates_other {t a t' a' : String} (M : AgentHydrationManager) (B : Build)
    (hroot : keyRoot t' a' = keyRoot t a) :
    ∃ ms P p, Run (step M B) (FreezesOwn agents)
        (start (blankStore none B t a)) ms P ∧
      P.procs 0 = some p ∧ p.request = .hydrate t' a' ∧
      p.rest = done (.hydrated (.ok ⟨blankState t a, blankMemory t a, false⟩)) := by
  let w : Answer := ⟨none, ⟨""⟩, none⟩
  let s : Backing Author := blankStore none B t a
  have hend : (exec (serve (some 0)) (M.hydrate B t' a').run [w, w, w] s).ending
      = .returned (.ok ⟨blankState t a, blankMemory t a, false⟩) := by
    rw [(exec_hydrate rfl rfl rfl).2, hydrateOn_eq_ok]
    refine ⟨⟨B.state.encodeToVec (blankState t a), ⟨"1"⟩, none⟩,
      ⟨B.memory.encodeToVec (blankMemory t a), ⟨"1"⟩, some 86400⟩, ?_,
      B.state.decode_encodeToVec _, ?_, ?_, B.memory.decode_encodeToVec _, rfl, rfl⟩
    · show s.lookup (agentStateKey t' a') = _
      rw [(agentStateKey_eq_iff _ _ _ _).mpr hroot]
      exact lookup_state_pairStore
    · intro hguard
      have hstatus : AgentLifecycleStatus.frozen.toI32 = AgentLifecycleStatus.active.toI32 :=
        hguard.1
      exact absurd hstatus (by decide)
    · show s.lookup (workingMemoryKey t' a') = _
      rw [(workingMemoryKey_eq_iff _ _ _ _).mpr hroot]
      exact lookup_memory_pairStore
  have hstart : FreezesOwn agents (start s) (.start 0 (.hydrate t' a')) := by
    intro id i hm
    cases hm
  have hserve : ∀ P w (ws : List Answer), True → FreezesOwn agents P (.serve 0 w) := by
    intro P w ws _ id i hm
    cases hm
  obtain ⟨ms, P, hrun, hp, -⟩ := run_hydrate_alone (fun _ _ => True) hserve
    (fun _ _ _ _ _ => trivial) hstart rfl trivial hend
  exact ⟨ms, P, _, hrun, hp, rfl, rfl⟩

/-- Tenant identifiers without the character of the separator keep the roots apart. -/
theorem keyRoot_injOn :
    Set.InjOn (fun ids : String × String => keyRoot ids.1 ids.2)
      {ids | '|' ∉ ids.1.toList} := by
  intro ids hids ids' hids' hroot
  obtain ⟨htenant, hagent⟩ := keyRoot_inj hids hids' hroot
  exact Prod.ext htenant hagent

/-- A set of agents is isolated exactly when no two of them have one `keyRoot`. -/
theorem isolated_iff (M : AgentHydrationManager) (B : Build) (agents : Set (String × String)) :
    Isolated M B agents ↔ Set.InjOn (fun ids => keyRoot ids.1 ids.2) agents := by
  constructor
  · intro hiso ids hids ids' hids' hroot
    -- Two agents with one root: one stores its records, and the other reads them.
    obtain ⟨ms, P, p, hrun, hp, hq, hdone⟩ :=
      hydrates_other M B hroot.symm
    have hcarries := hiso _ ms P (placed_blankStore hids) hrun 0 p ids'.1 ids'.2 _ hids' hp hq
      hdone
    exact Prod.ext hcarries.state.1 hcarries.state.2
  · intro hinj s₀ ms P h0 h id p t a r hta hp hq hdone
    -- Both records lay under their own keys when they were read, and these keys have one root.
    obtain ⟨P₁, P₂, cs, cm, hreads⟩ := run_hydrated h hp hq hdone
    obtain ⟨pre₁, -, hrun₁⟩ := hreads.first
    obtain ⟨pre₂, -, hrun₂⟩ := hreads.second
    obtain ⟨hs, hskey⟩ := (run_placed h0 hrun₁).state t a cs r.state
      (EtagStore.lookup_eq_some.mp hreads.stateCell).1 hreads.state
    obtain ⟨hm, hmkey⟩ := (run_placed h0 hrun₂).memory t a cm r.workingMemory
      (EtagStore.lookup_eq_some.mp hreads.memoryCell).1 hreads.memory
    have hstate := hinj hs hta ((agentStateKey_eq_iff _ _ _ _).mp hskey)
    have hmemory := hinj hm hta ((workingMemoryKey_eq_iff _ _ _ _).mp hmkey)
    exact ⟨Prod.ext_iff.mp hstate, Prod.ext_iff.mp hmemory⟩

/-- All agents together are not isolated: the agent `eu||writer` of `acme` reads the records of
the agent `writer` of `acme||eu`. -/
theorem not_isolated_univ : ¬ Isolated .new releaseBuild Set.univ := by
  intro hiso
  have hroot : keyRoot "acme" "eu||writer" = keyRoot "acme||eu" "writer" := by decide
  have hids : ("acme||eu", "writer") ∈ (Set.univ : Set (String × String)) := Set.mem_univ _
  have hids' : ("acme", "eu||writer") ∈ (Set.univ : Set (String × String)) := Set.mem_univ _
  obtain ⟨ms, P, p, hrun, hp, hq, hdone⟩ := hydrates_other .new releaseBuild hroot
  have hcarries := hiso _ ms P (placed_blankStore hids) hrun 0 p _ _ _ hids' hp hq hdone
  have htenant : "acme||eu" = "acme" := hcarries.state.1
  exact absurd htenant (by decide)

end Swarm

end SwarmRuntime.State
