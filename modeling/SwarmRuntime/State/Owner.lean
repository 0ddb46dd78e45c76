import SwarmRuntime.State.Freeze
import SwarmRuntime.State.Hydrate

/-!
# `SwarmRuntime.State.Owner`: one client in sequence

A single client owns the agent: it hydrates, edits the records and freezes, again and again, and
no other client uses the store. `Owner` is this client with its store. Between two moves any
time can pass.

The answers of a move decide what goes wrong in it. An answer with a fault is a call that fails
unapplied. A list of answers that ends early is a crash at the next call.
-/

set_option autoImplicit false

namespace SwarmRuntime.State

open SwarmRuntime.Lib SwarmRuntime.Lib.Interaction

/-- What the client keeps of a hydrate: its result, and the tags of the two records that it
read. -/
structure Held where
  result : HydrationResult
  stateEtag : ETag
  memoryEtag : ETag
  deriving DecidableEq, Repr

/-- The store and its only client. -/
structure Owner where
  store : Backing Unit
  held : Option Held

/-- What the client makes of the records before it freezes them. -/
structure Edit where
  state : AgentStateRecord
  workingMemory : WorkingMemoryRecord
  checkpointTrigger : CheckpointTrigger
  deriving DecidableEq, Repr

/-- The freeze of edited records, with the tags that the client holds. -/
def Held.input (h : Held) (tenantId agentId : String) (edit : Edit) : FreezeInput :=
  { tenantId := tenantId
    agentId := agentId
    state := edit.state
    workingMemory := edit.workingMemory
    stateEtag := h.stateEtag
    memoryEtag := h.memoryEtag
    checkpointTrigger := edit.checkpointTrigger }

/-- One move: time passes, a hydrate, a freeze. -/
inductive OwnerMove where
  | wait (seconds : Nat)
  | hydrate (answers : List Answer)
  | freeze (edit : Edit) (answers : List Answer)

namespace Owner

variable (M : AgentHydrationManager) (B : Build) (tenantId agentId : String)

/-- A hydrate on the store of the owner. -/
def hydrateOutcome (o : Owner) (answers : List Answer) :
    Outcome Reply (StateResult HydrationResult) (Backing Unit) :=
  exec (serve ()) (M.hydrate B tenantId agentId).run answers o.store

/-- A freeze on the store of the owner, with the tags of `h`. -/
def freezeOutcome (o : Owner) (h : Held) (edit : Edit) (answers : List Answer) :
    Outcome Reply (StateResult UInt64) (Backing Unit) :=
  exec (serve ()) (freeze B (h.input tenantId agentId edit)).run answers o.store

/-- What the client holds after a hydrate: nothing when the hydrate has not returned `Ok`. -/
def heldAfter (o : Owner) (answers : List Answer) : Option Held :=
  match (o.hydrateOutcome M B tenantId agentId answers).ending,
      o.store.lookup (agentStateKey tenantId agentId),
      o.store.lookup (workingMemoryKey tenantId agentId) with
  | .returned (.ok r), some cs, some cm => some ⟨r, cs.etag, cm.etag⟩
  | _, _, _ => none

/-- One move of the owner. A freeze uses up what the client holds, and one that holds nothing
does not freeze. -/
def step (o : Owner) : OwnerMove → Owner
  | .wait seconds => { o with store := o.store.tick seconds }
  | .hydrate answers =>
      ⟨(o.hydrateOutcome M B tenantId agentId answers).state,
        o.heldAfter M B tenantId agentId answers⟩
  | .freeze edit answers =>
      match o.held with
      | none => o
      | some h => ⟨(o.freezeOutcome B tenantId agentId h edit answers).state, none⟩

end Owner

end SwarmRuntime.State
