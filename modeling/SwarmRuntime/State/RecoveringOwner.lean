import SwarmRuntime.State.Freeze
import SwarmRuntime.State.Hydrate

/-!
# `SwarmRuntime.State.RecoveringOwner`: one client with checkpoint recovery

`recover_from_checkpoint` is a stub at this commit. `recoverLatest` is the function that its
comment and its signature describe: it lists the checkpoints of the agent, reads the last one and
returns its memory. It has no way to return the state of the checkpoint.

`RecoveringOwner` is a single client that hydrates with this recovery and freezes. An answer of
its store says how much time passes before the call is served, so a record can expire between
any two calls. An answer with a fault is a call that fails unapplied, and a list of answers that
ends early is a crash.
-/

set_option autoImplicit false

namespace SwarmRuntime.State

open SwarmRuntime.Lib SwarmRuntime.Lib.Interaction

/-! ### The recovery -/

section
variable {A : Type}

/-- The greatest sequence number below `k` with a stored checkpoint of the agent. -/
def latestBelow (tenantId agentId : String) (s : Backing A) : Nat → Option UInt64
  | 0 => none
  | k + 1 =>
      if (s.lookup (checkpointKey tenantId agentId (UInt64.ofNat k))).isSome then
        some (UInt64.ofNat k)
      else latestBelow tenantId agentId s k

/-- The sequence number of the last stored checkpoint of the agent. -/
def latestSeq (tenantId agentId : String) (s : Backing A) : Option UInt64 :=
  latestBelow tenantId agentId s (2 ^ 64)

/-- What `recover_from_checkpoint` is to do: return the memory of the last checkpoint. `s` is
the store whose keys it lists. -/
def recoverLatest (B : Build) (tenantId agentId : String) (s : Backing A) :
    AsyncResult WorkingMemoryRecord :=
  match latestSeq tenantId agentId s with
  | none => throw (.noCheckpointAvailable tenantId agentId)
  | some seq => do
      match ← DaprStateStore.get (checkpointKey tenantId agentId seq) with
      | none => throw (.noCheckpointAvailable tenantId agentId)
      | some r =>
          let checkpoint ← decodeRecord B.checkpoint r.value
          match checkpoint.memorySnapshot with
          | none => throw (.noCheckpointAvailable tenantId agentId)
          | some mem => return mem

/-! ### The client -/

/-- An answer, and the seconds that pass before the call is served. -/
structure LateAnswer where
  delay : Nat
  answer : Answer

/-- The seconds that pass until the last of these calls is served. -/
def lateness (answers : List LateAnswer) : Nat := (answers.map LateAnswer.delay).sum

/-- The calls of a hydrate up to its memory read: the two reads, and between them the clock that
the guard of an ACTIVE agent reads. -/
def callsToMemory (state : AgentStateRecord) : Nat :=
  if state.status = AgentLifecycleStatus.active.toI32 then 3 else 2

/-- Let the time of the answer pass, and serve the call. -/
def serveLate (a : A) (c : Call) (w : LateAnswer) (s : Backing A) : Reply c × Backing A :=
  serve a c w.answer (s.tick w.delay)

end

/-- How many writes of the transcript have succeeded. -/
def okWrites (tr : Transcript Reply) : Nat :=
  tr.countP fun
    | ⟨.set _ _ _ _, .ok _⟩ => true
    | _ => false

/-- The store, what its only client has hydrated and not frozen yet, and whether the freeze that
wrote the stored state has written its checkpoint. Nothing reads the last field. -/
structure RecoveringOwner where
  store : Backing Unit
  hydrated : Option HydrationResult
  covered : Bool

/-- One move: time passes, a hydrate, a freeze. The tags of a freeze are free, and a tag that is
not current is refused. -/
inductive RecoveringMove where
  | wait (seconds : Nat)
  | hydrate (answers : List LateAnswer)
  | freeze (input : FreezeInput) (answers : List LateAnswer)

/-- The readings of the clock that the move can take for a freeze, in seconds. -/
def RecoveringMove.clocks : RecoveringMove → List UInt64
  | .freeze _ answers => answers.map fun w => (w.answer.clock.getD default).asSecs
  | _ => []

/-- The clock of a freeze is later than that of every freeze before it. -/
def ClockIncreases (ms : List RecoveringMove) : Prop :=
  ms.Pairwise fun m m' => ∀ x ∈ m.clocks, ∀ y ∈ m'.clocks, x < y

namespace RecoveringOwner

/-- The three writes of a freeze come in order, the state second and the checkpoint last. -/
def coveredAfter (covered : Bool) (tr : Transcript Reply) : Bool :=
  match okWrites tr with
  | 2 => false
  | 3 => true
  | _ => covered

variable (M : AgentHydrationManager) (B : Build) (tenantId agentId : String)

/-- A hydrate with the recovery. The client is alone, so the checkpoints that are listed at its
start are those of its end. -/
def hydrateOutcome (o : RecoveringOwner) (answers : List LateAnswer) :
    Outcome Reply (StateResult HydrationResult) (Backing Unit) :=
  exec (serveLate ())
    (M.hydrateWith (recoverLatest B tenantId agentId o.store) B tenantId agentId).run answers
    o.store

/-- A freeze. -/
def freezeOutcome (o : RecoveringOwner) (input : FreezeInput) (answers : List LateAnswer) :
    Outcome Reply (StateResult UInt64) (Backing Unit) :=
  exec (serveLate ()) (freeze B input).run answers o.store

/-- What the client has hydrated: nothing when the hydrate has not returned `Ok`. -/
def hydratedAfter (o : RecoveringOwner) (answers : List LateAnswer) : Option HydrationResult :=
  match (o.hydrateOutcome M B tenantId agentId answers).ending with
  | .returned (.ok r) => some r
  | _ => none

/-- One move. A freeze uses up what the client has hydrated. -/
def step (o : RecoveringOwner) : RecoveringMove → RecoveringOwner
  | .wait seconds => { o with store := o.store.tick seconds }
  | .hydrate answers =>
      { o with
        store := (o.hydrateOutcome M B tenantId agentId answers).state
        hydrated := o.hydratedAfter M B tenantId agentId answers }
  | .freeze input answers =>
      { store := (o.freezeOutcome B input answers).state
        hydrated := none
        covered := coveredAfter o.covered (o.freezeOutcome B input answers).transcript }

/-- What the moves of such a client are. It freezes the agent that it has hydrated and keeps the
memory version, and the clock of a freeze is not behind a stored checkpoint. -/
def Cycles (o : RecoveringOwner) : RecoveringMove → Prop
  | .wait _ => True
  | .hydrate _ => True
  | .freeze input answers =>
      input.tenantId = tenantId ∧ input.agentId = agentId ∧
        (∃ r, o.hydrated = some r ∧ input.workingMemory.version = r.workingMemory.version) ∧
        ∀ w ∈ answers, ∀ n c, o.store.lookup (checkpointKey tenantId agentId n) = some c →
          n ≤ (w.answer.clock.getD default).asSecs

end RecoveringOwner

/-- When a hydrate with these answers reads the memory record, the stored pair can be read, and its
versions agree. -/
def WholeWhenRead {A : Type} (B : Build) (tenantId agentId : String) (s : Backing A)
    (answers : List LateAnswer) : Prop :=
  ∃ state mem, HoldsPair B tenantId agentId
      (s.tick (lateness (answers.take (callsToMemory state)))) state mem ∧
    mem.version = state.workingMemoryVersion

/-- A hydrate of the move needs no recovery, or there is no checkpoint, or the freeze that wrote
the stored state has written its checkpoint. -/
def RecoveringOwner.Vouched (B : Build) (tenantId agentId : String) (o : RecoveringOwner) :
    RecoveringMove → Prop
  | .wait _ => True
  | .hydrate answers =>
      WholeWhenRead B tenantId agentId o.store answers ∨
        latestSeq tenantId agentId o.store = none ∨ o.covered = true
  | .freeze _ _ => True

end SwarmRuntime.State
