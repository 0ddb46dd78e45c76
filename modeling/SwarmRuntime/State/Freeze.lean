import SwarmRuntime.State.Keys
import SwarmRuntime.State.Store

/-!
# `SwarmRuntime.State.Freeze`: agent freeze (`freeze.rs`)

`freeze` writes the working memory, then the state record, then a checkpoint. The first two
writes carry the ETags that the caller read. An error of either ends the freeze at once. The
checkpoint write is unconditional, and its failure is not an error: the freeze returns
sequence number `0`.

The store and the clock are read through the calls of `Async`, in the order of the source.
-/

set_option autoImplicit false

namespace SwarmRuntime.State

open SwarmRuntime.Lib (Interaction)

/-- Input to the freeze operation. -/
structure FreezeInput where
  tenantId : String
  agentId : String
  state : AgentStateRecord
  workingMemory : WorkingMemoryRecord
  stateEtag : ETag
  memoryEtag : ETag
  checkpointTrigger : CheckpointTrigger
  deriving DecidableEq, Repr

/-- The timestamp of a clock reading. -/
def Duration.toTimestamp (now : Duration) : Timestamp :=
  { seconds := now.asSecs.toInt64, nanos := now.subsecNanos.toInt32 }

/-- Build a prost Timestamp for the current system time. -/
def currentTimestamp : AsyncResult Timestamp := do
  let now ← sinceEpoch
  return now.toTimestamp

namespace FreezeInput

/-- Step 1 of `freeze` on its input. -/
def stampMemory (B : Build) (input : FreezeInput) (newMemVersion : UInt64) (now : Timestamp) :
    FreezeInput :=
  { input with
    workingMemory :=
      { input.workingMemory with
        version := newMemVersion
        snapshotAt := some now
        schemaVersion := B.latestSchemaVersion } }

/-- Steps 3 and 4 of `freeze` on its input. -/
def stampState (B : Build) (input : FreezeInput) (newMemVersion : UInt64) (now : Timestamp) :
    FreezeInput :=
  { input with
    state :=
      { input.state with
        workingMemoryVersion := newMemVersion
        status := AgentLifecycleStatus.frozen.toI32
        lastFrozenAt := some now
        currentTaskId := ""
        currentTaskTaint := []
        schemaVersion := B.latestSchemaVersion } }

/-- The checkpoint record of a stamped input. -/
def toCheckpoint (B : Build) (input : FreezeInput) (seq : UInt64) (stateBytes memBytes : Bytes)
    (createdAt : Timestamp) : CheckpointRecord :=
  { tenantId := input.tenantId
    agentId := input.agentId
    checkpointSeq := seq
    trigger := input.checkpointTrigger.toI32
    preTaskId := ""
    stateSnapshot := some input.state
    memorySnapshot := some input.workingMemory
    sha256Digest := B.sha256 (stateBytes ++ memBytes)
    createdAt := some createdAt
    schemaVersion := B.latestSchemaVersion }

end FreezeInput

/-- Write a checkpoint record and return the checkpoint sequence number. -/
def writeCheckpoint (B : Build) (input : FreezeInput) (stateBytes memBytes : Bytes) :
    AsyncResult UInt64 := do
  let seq := (← sinceEpoch).asSecs
  let checkpoint := input.toCheckpoint B seq stateBytes memBytes (← currentTimestamp)
  let cpKey := checkpointKey input.tenantId input.agentId seq
  let cpBytes := B.checkpoint.encodeToVec checkpoint
  let _ ← DaprStateStore.set cpKey cpBytes none .none
  return seq

/-- `x.await.unwrap_or_else(|_| d)`. -/
def unwrapOr {T : Type} (x : AsyncResult T) (d : T) : AsyncResult T :=
  ExceptT.lift do
    match ← x.run with
    | .ok v => return v
    | .error _ => return d

/-- Freeze an agent: write state + working memory + checkpoint to the Dapr store. -/
def freeze (B : Build) (input : FreezeInput) : AsyncResult UInt64 := do
  let stateKey := agentStateKey input.tenantId input.agentId
  let memKey := workingMemoryKey input.tenantId input.agentId
  -- Step 1: Increment working memory version
  let newMemVersion ← addU64 B input.workingMemory.version 1
  let input := input.stampMemory B newMemVersion (← currentTimestamp)
  -- Step 2: Write working memory
  let memBytes := B.memory.encodeToVec input.workingMemory
  let _newMemEtag ← DaprStateStore.set memKey memBytes (some input.memoryEtag) (.seconds 86400)
  -- Step 3 & 4: Update state record
  let input := input.stampState B newMemVersion (← currentTimestamp)
  -- Step 5: Write state record
  let stateBytes := B.state.encodeToVec input.state
  let _newStateEtag ← DaprStateStore.set stateKey stateBytes (some input.stateEtag) .none
  -- Step 6: Write checkpoint (best-effort: the freeze has already succeeded)
  unwrapOr (writeCheckpoint B input stateBytes memBytes) 0

end SwarmRuntime.State
