import Mathlib.Init

/-!
# `SwarmRuntime.State.Proto`: the records of `af.swarm.state`

The structures that `prost-build` generates from `crates/af-swarm-state/proto/`, with every
field of the messages that the hydrate and freeze paths read, copy or write. The types are
the generated ones: an enum field is an `i32`, an embedded message is optional, a repeated
field is a list. An `f32` is kept as its 32 bits, because these paths only copy it.

The default of each structure is the proto3 default.
-/

set_option autoImplicit false

namespace SwarmRuntime.State

/-- `bytes::Bytes` and `Vec<u8>`. -/
abbrev Bytes := List UInt8

/-- `f32`, as its bits. -/
abbrev F32 := UInt32

/-- `google.protobuf.Timestamp`. -/
structure Timestamp where
  seconds : Int64
  nanos : Int32
  deriving DecidableEq, Inhabited, Repr

/-- `AgentLifecycleStatus` (`common.proto`). -/
inductive AgentLifecycleStatus where
  | unspecified
  | frozen
  | active
  | draining
  deriving DecidableEq, Repr

/-- The wire value of a status, `as i32`. -/
def AgentLifecycleStatus.toI32 : AgentLifecycleStatus → Int32
  | .unspecified => 0
  | .frozen => 1
  | .active => 2
  | .draining => 3

/-- `CheckpointTrigger` (`checkpoint.proto`). -/
inductive CheckpointTrigger where
  | unspecified
  | freeze
  | periodic
  | preTask
  | manual
  deriving DecidableEq, Repr

/-- The wire value of a trigger, `as i32`. -/
def CheckpointTrigger.toI32 : CheckpointTrigger → Int32
  | .unspecified => 0
  | .freeze => 1
  | .periodic => 2
  | .preTask => 3
  | .manual => 4

/-- `GoalFrame` (`agent_state.proto`). -/
structure GoalFrame where
  goalId : String
  description : String
  status : Int32
  createdAt : Option Timestamp
  subGoalIds : List String
  completedByTaskId : String
  deriving DecidableEq, Inhabited, Repr

/-- `PinnedFact` (`agent_state.proto`). -/
structure PinnedFact where
  factId : String
  content : String
  relevanceScore : F32
  pinnedAt : Option Timestamp
  lastAccessedAt : Option Timestamp
  sourceTurnId : String
  dataClass : Int32
  deriving DecidableEq, Inhabited, Repr

/-- `EncryptionEnvelope` (`encryption.proto`). -/
structure EncryptionEnvelope where
  scheme : Int32
  keyId : String
  ivOrNonce : Bytes
  ciphertext : Bytes
  aad : Bytes
  deriving DecidableEq, Inhabited, Repr

/-- `AadBinding` (`encryption.proto`): the identity of a record. -/
structure AadBinding where
  tenantId : String
  agentId : String
  schemaVersion : UInt32
  recordType : String
  deriving DecidableEq, Inhabited, Repr

/-- `AgentStateRecord` (`agent_state.proto`), the root record of an agent. -/
structure AgentStateRecord where
  tenantId : String
  agentId : String
  agentVersion : String
  status : Int32
  lastFrozenAt : Option Timestamp
  lastHydratedAt : Option Timestamp
  hydrationCount : UInt64
  currentTaskId : String
  currentTaskTaint : Bytes
  workingMemoryKey : String
  workingMemoryVersion : UInt64
  totalTurns : UInt64
  latestTurnId : String
  goalStack : List GoalFrame
  pinnedFacts : List PinnedFact
  lancedbRecordIds : List String
  encryption : Option EncryptionEnvelope
  schemaVersion : UInt32
  deriving DecidableEq, Inhabited, Repr

/-- `MemorySlot` (`working_memory.proto`). -/
structure MemorySlot where
  slotIndex : UInt32
  content : String
  relevanceScore : F32
  lastAccessedAt : Option Timestamp
  isPinned : Bool
  sourceId : String
  dataClass : Int32
  deriving DecidableEq, Inhabited, Repr

/-- `WorkingMemoryRecord` (`working_memory.proto`). -/
structure WorkingMemoryRecord where
  tenantId : String
  agentId : String
  version : UInt64
  slots : List MemorySlot
  evictionCursor : UInt32
  scratchpadBytes : Bytes
  activeGoalIds : List String
  snapshotAt : Option Timestamp
  encryption : Option EncryptionEnvelope
  schemaVersion : UInt32
  deriving DecidableEq, Inhabited, Repr

/-- `CheckpointRecord` (`checkpoint.proto`). -/
structure CheckpointRecord where
  tenantId : String
  agentId : String
  checkpointSeq : UInt64
  trigger : Int32
  preTaskId : String
  stateSnapshot : Option AgentStateRecord
  memorySnapshot : Option WorkingMemoryRecord
  sha256Digest : Bytes
  createdAt : Option Timestamp
  schemaVersion : UInt32
  deriving DecidableEq, Inhabited, Repr

/-! ### The crates the state layer is built on -/

/-- `prost::DecodeError`. -/
structure DecodeError where
  description : String
  deriving DecidableEq, Repr

/-- The `prost::Message` implementation of a message type. Of the generated code, the state
layer relies on one law: `decode` inverts `encode_to_vec`.

The generated code keeps the law up to the sign of a zero. A `float` field is left out when it
compares equal to `0.0`, so a `relevance_score` of `-0.0` is decoded as `+0.0`. On the bits that
`F32` stands for the law asks for a message without a negative zero. -/
structure Message (M : Type) where
  encodeToVec : M → Bytes
  decode : Bytes → Except DecodeError M
  decode_encodeToVec : ∀ m, decode (encodeToVec m) = .ok m

/-- What `af-swarm-state` is compiled with: the generated message code, the `sha2` digest,
the crate's own `LATEST_SCHEMA_VERSION`, and whether the build profile checks integer
overflow. The workspace sets no `overflow-checks`, so a debug build checks and a release
build wraps. -/
structure Build where
  state : Message AgentStateRecord
  memory : Message WorkingMemoryRecord
  checkpoint : Message CheckpointRecord
  sha256 : Bytes → Bytes
  latestSchemaVersion : UInt32
  overflowChecks : Bool

/-- `LATEST_SCHEMA_VERSION` at this commit. -/
def LATEST_SCHEMA_VERSION : UInt32 := 1

attribute [simp] Message.decode_encodeToVec

end SwarmRuntime.State
