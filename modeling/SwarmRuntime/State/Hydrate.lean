import SwarmRuntime.State.Keys
import SwarmRuntime.State.Store

/-!
# `SwarmRuntime.State.Hydrate`: agent hydration (`hydrate.rs`)

`hydrate` reads the state record, applies the stale-ACTIVE guard, reads the working memory
and compares the two versions. `recoverFromCheckpoint` is a stub at this commit: it panics.
`hydrateWith` is `hydrate` over an arbitrary recovery.

`hydrate` reads the ETags of both records and returns neither.
-/

set_option autoImplicit false

namespace SwarmRuntime.State

open SwarmRuntime.Lib (Interaction)

/-- The result of a successful hydration. -/
structure HydrationResult where
  state : AgentStateRecord
  workingMemory : WorkingMemoryRecord
  recoveredFromCheckpoint : Bool
  deriving DecidableEq, Repr

/-- `AgentHydrationManager`, without its store handle. -/
structure AgentHydrationManager where
  staleActiveThresholdSecs : UInt64

/-- `AgentHydrationManager::new`: 5 minutes. -/
def AgentHydrationManager.new : AgentHydrationManager := ⟨300⟩

/-- `u64::saturating_sub`. -/
def saturatingSub (a b : UInt64) : UInt64 := if a < b then 0 else a - b

/-- `M::decode(bytes).map_err(StateError::ProtoError)?` -/
def decodeRecord {M : Type} (P : Message M) (bytes : Bytes) : AsyncResult M :=
  match P.decode bytes with
  | .ok m => return m
  | .error e => throw (.protoError e)

/-- `x.await.map_err(f)` -/
def mapErr {T : Type} (x : AsyncResult T) (f : StateError → StateError) : AsyncResult T :=
  ExceptT.mk do
    match ← x.run with
    | .ok v => return .ok v
    | .error e => return .error (f e)

/-- The seconds of `last_hydrated_at` as the guard reads them: `t.seconds as u64`, `0` when
absent. -/
def lastHydratedSecs (state : AgentStateRecord) : UInt64 :=
  match state.lastHydratedAt with
  | some t => t.seconds.toUInt64
  | none => 0

namespace AgentHydrationManager

/-- Step 2 of `hydrate`: the stale ACTIVE guard. The clock is read only for an ACTIVE
record. -/
def staleActiveGuard (M : AgentHydrationManager) (tenantId agentId : String)
    (state : AgentStateRecord) : AsyncResult Unit :=
  if state.status = AgentLifecycleStatus.active.toI32 then do
    let nowSecs := (← sinceEpoch).asSecs
    let age := saturatingSub nowSecs (lastHydratedSecs state)
    if age < M.staleActiveThresholdSecs then throw (.agentBusy tenantId agentId age)
    else return ()
  else return ()

/-- `hydrate`, with `recover` for the checkpoint recovery. -/
def hydrateWith (recover : AsyncResult WorkingMemoryRecord) (M : AgentHydrationManager)
    (B : Build) (tenantId agentId : String) : AsyncResult HydrationResult := do
  let stateKey := agentStateKey tenantId agentId
  let memKey := workingMemoryKey tenantId agentId
  -- Step 1: Read primary state record
  match ← DaprStateStore.get stateKey with
  | none =>
      throw (.invalidInput
        s!"no state record found for agent {agentId}; must create new agent")
  | some r =>
      let state ← decodeRecord B.state r.value
      -- Step 2: Stale ACTIVE guard
      M.staleActiveGuard tenantId agentId state
      -- Step 3: Load working memory
      match ← DaprStateStore.get memKey with
      | none =>
          let mem ← recover
          return ⟨state, mem, true⟩
      | some r =>
          let mem ← decodeRecord B.memory r.value
          -- Step 4: Consistency check (torn write detection)
          if mem.version ≠ state.workingMemoryVersion then
            let recoveredMem ← mapErr recover fun _ =>
              .tornWrite agentId state.workingMemoryVersion mem.version
            return ⟨state, recoveredMem, true⟩
          else return ⟨state, mem, false⟩

/-- Recover agent state from the most recent valid checkpoint: not implemented. -/
def recoverFromCheckpoint (_tenantId _agentId : String) : AsyncResult WorkingMemoryRecord :=
  todo "not yet implemented: checkpoint recovery — Phase 1"

/-- Hydrate an agent from the Dapr state store. -/
def hydrate (M : AgentHydrationManager) (B : Build) (tenantId agentId : String) :
    AsyncResult HydrationResult :=
  M.hydrateWith (recoverFromCheckpoint tenantId agentId) B tenantId agentId

end AgentHydrationManager

/-- The pair `state` and `mem` of the agent can be read from the store. -/
structure HoldsPair {A : Type} (B : Build) (tenantId agentId : String) (s : Backing A)
    (state : AgentStateRecord) (mem : WorkingMemoryRecord) : Prop where
  stateRecord : ∃ c, s.lookup (agentStateKey tenantId agentId) = some c ∧
    B.state.decode c.value = .ok state
  memoryRecord : ∃ c, s.lookup (workingMemoryKey tenantId agentId) = some c ∧
    B.memory.decode c.value = .ok mem

end SwarmRuntime.State
