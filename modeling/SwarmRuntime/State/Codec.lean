import SwarmRuntime.Lib.Layout
import SwarmRuntime.Lib.Sha256
import SwarmRuntime.State.Proto

/-!
# `SwarmRuntime.State.Codec`: the records in the proto3 wire format

The messages of `crates/af-swarm-state/proto/` as layouts, field by field in the order of their
numbers. `debugBuild` and `releaseBuild` are the crate at this commit, built on this codec and
on SHA-256.

A `float` is kept as its bits, so a negative zero is written here. The generated code compares
with `0.0` and leaves it out.
-/

set_option autoImplicit false

namespace SwarmRuntime.State

open SwarmRuntime.Lib.Wire

/-- A singular field of each scalar type, absent for its proto3 default. -/
def stringField : FieldCodec String := .singular .string ""

def bytesField : FieldCodec Bytes := .singular .bytes []

def uint64Field : FieldCodec UInt64 := .singular .uint64 0

def uint32Field : FieldCodec UInt32 := .singular .uint32 0

def int64Field : FieldCodec Int64 := .singular .int64 0

def int32Field : FieldCodec Int32 := .singular .int32 0

def boolField : FieldCodec Bool := .singular .bool false

def floatField : FieldCodec F32 := .singular .float 0

/-- `google.protobuf.Timestamp`. -/
def Timestamp.layout : Layout Timestamp 1 :=
  (Layout.cons 1 (by decide) int64Field <|
    .cons 2 (by decide) int32Field <|
    .nil 3).map
    { toFun := fun (seconds, nanos, _) => ⟨seconds, nanos⟩
      invFun := fun m => (m.seconds, m.nanos, ())
      left_inv := fun _ => rfl
      right_inv := fun _ => rfl }

/-- `GoalFrame`. -/
def GoalFrame.layout : Layout GoalFrame 1 :=
  (Layout.cons 1 (by decide) stringField <|
    .cons 2 (by decide) stringField <|
    .cons 3 (by decide) int32Field <|
    .cons 4 (by decide) Timestamp.layout.embedded <|
    .cons 5 (by decide) (.repeated .string) <|
    .cons 6 (by decide) stringField <|
    .nil 7).map
    { toFun := fun (goalId, description, status, createdAt, subGoalIds, completedByTaskId, _) =>
        ⟨goalId, description, status, createdAt, subGoalIds, completedByTaskId⟩
      invFun := fun m =>
        (m.goalId, m.description, m.status, m.createdAt, m.subGoalIds, m.completedByTaskId, ())
      left_inv := fun _ => rfl
      right_inv := fun _ => rfl }

/-- `PinnedFact`. -/
def PinnedFact.layout : Layout PinnedFact 1 :=
  (Layout.cons 1 (by decide) stringField <|
    .cons 2 (by decide) stringField <|
    .cons 3 (by decide) floatField <|
    .cons 4 (by decide) Timestamp.layout.embedded <|
    .cons 5 (by decide) Timestamp.layout.embedded <|
    .cons 6 (by decide) stringField <|
    .cons 7 (by decide) int32Field <|
    .nil 8).map
    { toFun := fun (factId, content, relevanceScore, pinnedAt, lastAccessedAt, sourceTurnId,
          dataClass, _) =>
        ⟨factId, content, relevanceScore, pinnedAt, lastAccessedAt, sourceTurnId, dataClass⟩
      invFun := fun m => (m.factId, m.content, m.relevanceScore, m.pinnedAt, m.lastAccessedAt,
        m.sourceTurnId, m.dataClass, ())
      left_inv := fun _ => rfl
      right_inv := fun _ => rfl }

/-- `EncryptionEnvelope`. -/
def EncryptionEnvelope.layout : Layout EncryptionEnvelope 1 :=
  (Layout.cons 1 (by decide) int32Field <|
    .cons 2 (by decide) stringField <|
    .cons 3 (by decide) bytesField <|
    .cons 4 (by decide) bytesField <|
    .cons 5 (by decide) bytesField <|
    .nil 6).map
    { toFun := fun (scheme, keyId, ivOrNonce, ciphertext, aad, _) =>
        ⟨scheme, keyId, ivOrNonce, ciphertext, aad⟩
      invFun := fun m => (m.scheme, m.keyId, m.ivOrNonce, m.ciphertext, m.aad, ())
      left_inv := fun _ => rfl
      right_inv := fun _ => rfl }

/-- `AadBinding`. -/
def AadBinding.layout : Layout AadBinding 1 :=
  (Layout.cons 1 (by decide) stringField <|
    .cons 2 (by decide) stringField <|
    .cons 3 (by decide) uint32Field <|
    .cons 4 (by decide) stringField <|
    .nil 5).map
    { toFun := fun (tenantId, agentId, schemaVersion, recordType, _) =>
        ⟨tenantId, agentId, schemaVersion, recordType⟩
      invFun := fun m => (m.tenantId, m.agentId, m.schemaVersion, m.recordType, ())
      left_inv := fun _ => rfl
      right_inv := fun _ => rfl }

/-- `AgentStateRecord`. -/
def AgentStateRecord.layout : Layout AgentStateRecord 1 :=
  (Layout.cons 1 (by decide) stringField <|
    .cons 2 (by decide) stringField <|
    .cons 3 (by decide) stringField <|
    .cons 4 (by decide) int32Field <|
    .cons 5 (by decide) Timestamp.layout.embedded <|
    .cons 6 (by decide) Timestamp.layout.embedded <|
    .cons 7 (by decide) uint64Field <|
    .cons 8 (by decide) stringField <|
    .cons 9 (by decide) bytesField <|
    .cons 10 (by decide) stringField <|
    .cons 11 (by decide) uint64Field <|
    .cons 12 (by decide) uint64Field <|
    .cons 13 (by decide) stringField <|
    .cons 14 (by decide) (.repeated GoalFrame.layout.scalar) <|
    .cons 15 (by decide) (.repeated PinnedFact.layout.scalar) <|
    .cons 16 (by decide) (.repeated .string) <|
    .cons 17 (by decide) EncryptionEnvelope.layout.embedded <|
    .cons 18 (by decide) uint32Field <|
    .nil 19).map
    { toFun := fun (tenantId, agentId, agentVersion, status, lastFrozenAt, lastHydratedAt,
          hydrationCount, currentTaskId, currentTaskTaint, workingMemoryKey, workingMemoryVersion,
          totalTurns, latestTurnId, goalStack, pinnedFacts, lancedbRecordIds, encryption,
          schemaVersion, _) =>
        ⟨tenantId, agentId, agentVersion, status, lastFrozenAt, lastHydratedAt, hydrationCount,
          currentTaskId, currentTaskTaint, workingMemoryKey, workingMemoryVersion, totalTurns,
          latestTurnId, goalStack, pinnedFacts, lancedbRecordIds, encryption, schemaVersion⟩
      invFun := fun m => (m.tenantId, m.agentId, m.agentVersion, m.status, m.lastFrozenAt,
        m.lastHydratedAt, m.hydrationCount, m.currentTaskId, m.currentTaskTaint,
        m.workingMemoryKey, m.workingMemoryVersion, m.totalTurns, m.latestTurnId, m.goalStack,
        m.pinnedFacts, m.lancedbRecordIds, m.encryption, m.schemaVersion, ())
      left_inv := fun _ => rfl
      right_inv := fun _ => rfl }

/-- `MemorySlot`. -/
def MemorySlot.layout : Layout MemorySlot 1 :=
  (Layout.cons 1 (by decide) uint32Field <|
    .cons 2 (by decide) stringField <|
    .cons 3 (by decide) floatField <|
    .cons 4 (by decide) Timestamp.layout.embedded <|
    .cons 5 (by decide) boolField <|
    .cons 6 (by decide) stringField <|
    .cons 7 (by decide) int32Field <|
    .nil 8).map
    { toFun := fun (slotIndex, content, relevanceScore, lastAccessedAt, isPinned, sourceId,
          dataClass, _) =>
        ⟨slotIndex, content, relevanceScore, lastAccessedAt, isPinned, sourceId, dataClass⟩
      invFun := fun m => (m.slotIndex, m.content, m.relevanceScore, m.lastAccessedAt, m.isPinned,
        m.sourceId, m.dataClass, ())
      left_inv := fun _ => rfl
      right_inv := fun _ => rfl }

/-- `WorkingMemoryRecord`. -/
def WorkingMemoryRecord.layout : Layout WorkingMemoryRecord 1 :=
  (Layout.cons 1 (by decide) stringField <|
    .cons 2 (by decide) stringField <|
    .cons 3 (by decide) uint64Field <|
    .cons 4 (by decide) (.repeated MemorySlot.layout.scalar) <|
    .cons 5 (by decide) uint32Field <|
    .cons 6 (by decide) bytesField <|
    .cons 7 (by decide) (.repeated .string) <|
    .cons 8 (by decide) Timestamp.layout.embedded <|
    .cons 9 (by decide) EncryptionEnvelope.layout.embedded <|
    .cons 10 (by decide) uint32Field <|
    .nil 11).map
    { toFun := fun (tenantId, agentId, version, slots, evictionCursor, scratchpadBytes,
          activeGoalIds, snapshotAt, encryption, schemaVersion, _) =>
        ⟨tenantId, agentId, version, slots, evictionCursor, scratchpadBytes, activeGoalIds,
          snapshotAt, encryption, schemaVersion⟩
      invFun := fun m => (m.tenantId, m.agentId, m.version, m.slots, m.evictionCursor,
        m.scratchpadBytes, m.activeGoalIds, m.snapshotAt, m.encryption, m.schemaVersion, ())
      left_inv := fun _ => rfl
      right_inv := fun _ => rfl }

/-- `CheckpointRecord`. -/
def CheckpointRecord.layout : Layout CheckpointRecord 1 :=
  (Layout.cons 1 (by decide) stringField <|
    .cons 2 (by decide) stringField <|
    .cons 3 (by decide) uint64Field <|
    .cons 4 (by decide) int32Field <|
    .cons 5 (by decide) stringField <|
    .cons 6 (by decide) AgentStateRecord.layout.embedded <|
    .cons 7 (by decide) WorkingMemoryRecord.layout.embedded <|
    .cons 8 (by decide) bytesField <|
    .cons 9 (by decide) Timestamp.layout.embedded <|
    .cons 10 (by decide) uint32Field <|
    .nil 11).map
    { toFun := fun (tenantId, agentId, checkpointSeq, trigger, preTaskId, stateSnapshot,
          memorySnapshot, sha256Digest, createdAt, schemaVersion, _) =>
        ⟨tenantId, agentId, checkpointSeq, trigger, preTaskId, stateSnapshot, memorySnapshot,
          sha256Digest, createdAt, schemaVersion⟩
      invFun := fun m => (m.tenantId, m.agentId, m.checkpointSeq, m.trigger, m.preTaskId,
        m.stateSnapshot, m.memorySnapshot, m.sha256Digest, m.createdAt, m.schemaVersion, ())
      left_inv := fun _ => rfl
      right_inv := fun _ => rfl }

/-- The message code of a layout. -/
def messageOf {M : Type} (L : Layout M 1) : Message M where
  encodeToVec := L.encode
  decode bs :=
    match L.decode bs with
    | some m => .ok m
    | none => .error ⟨"failed to decode Protobuf message"⟩
  decode_encodeToVec m := by rw [L.decode_encode]

/-- The crate at this commit, in a build with or without overflow checks. -/
def buildWith (overflowChecks : Bool) : Build where
  state := messageOf AgentStateRecord.layout
  memory := messageOf WorkingMemoryRecord.layout
  checkpoint := messageOf CheckpointRecord.layout
  sha256 := Lib.sha256
  latestSchemaVersion := LATEST_SCHEMA_VERSION
  overflowChecks := overflowChecks

/-- A debug build. -/
def debugBuild : Build := buildWith true

/-- A release build. -/
def releaseBuild : Build := buildWith false

end SwarmRuntime.State
