import SwarmRuntime.Lib.Pool
import SwarmRuntime.State.Freeze
import SwarmRuntime.State.Hydrate

/-!
# `SwarmRuntime.State.Swarm`: clients of one state store

Any number of clients run on one store. A client reads a key, hydrates an agent or freezes
one. The calls of different clients interleave freely, a client can crash between two of its
calls, a call can fail unapplied, and time passes. `Swarm` is this system, a `Pool` over the
calls of the state layer.

Each write in the journal of the store is marked with the client that made it. The entries
that were there from the start have no author.
-/

set_option autoImplicit false

namespace SwarmRuntime.State

open SwarmRuntime.Lib

/-- What a client is asked to do. -/
inductive Request where
  | get (key : String)
  | hydrate (tenantId agentId : String)
  | freeze (input : FreezeInput)

/-- What a client returns. -/
inductive Response where
  | record (r : StateResult (Option StateRecord))
  | hydrated (r : StateResult HydrationResult)
  | frozen (r : StateResult UInt64)

/-- The program of a request. -/
def Request.prog (M : AgentHydrationManager) (B : Build) : Request → Async Response
  | .get key => .record <$> (DaprStateStore.get key).run
  | .hydrate tenantId agentId => .hydrated <$> (M.hydrate B tenantId agentId).run
  | .freeze input => .frozen <$> (State.freeze B input).run

/-- The author of a journal entry: a client, or none for the entries of the start. -/
abbrev Author := Option Nat

/-- The store and its clients, by number. -/
abbrev Swarm := Pool Reply Request Response (Backing Author) Nat

/-- A move of the swarm. The environment lets time pass, in seconds. -/
abbrev SwarmMove := Move Request Answer Nat Nat

/-- How the swarm runs a request, serves a call, and lets time pass. -/
def service (M : AgentHydrationManager) (B : Build) :
    Service Reply Request Response (Backing Author) Answer Nat Nat where
  prog := Request.prog M B
  serve id := serve (some id)
  env n s := s.tick n

namespace Swarm

/-- The store `s` before any client has started. -/
def start (s : Backing Author) : Swarm := ⟨s, fun _ => none⟩

/-- One move of the swarm. -/
abbrev step (M : AgentHydrationManager) (B : Build) : Swarm → SwarmMove → Option Swarm :=
  Pool.step (service M B)

/-- The call that the client `id` waits for. -/
def pending (P : Swarm) (id : Nat) : Option Call :=
  match P.procs id with
  | some ⟨_, _, .ask c _, false⟩ => some c
  | _ => none

/-- The store never uses a tag twice for one key: a write that succeeds installs a fresh
tag. -/
def FreshTags (P : Swarm) (m : SwarmMove) : Prop :=
  ∀ id w key value etag ttl, m = .serve id w →
    P.pending id = some (.set key value etag ttl) → P.shared.Fresh key w.etag

/-- Some client has read the record `r` under `key`. -/
def HasRead (P : Swarm) (key : String) (r : StateRecord) : Prop :=
  ∃ id p, P.procs id = some p ∧ ⟨.get key, .ok (some r)⟩ ∈ p.transcript

end Swarm

/-- The store holds the bytes `value` under `key`, and they are all that the journal knows
of the key. -/
def HoldsFromStart (s : Backing Author) (key : String) (value : Bytes) : Prop :=
  ∃ etag expires, s.cells key = some ⟨value, etag, expires⟩ ∧
    s.history key = [⟨key, value, etag, none⟩]

/-- The store of the start holds the pair `state` and `mem` of the agent, and the two
versions agree. -/
structure StartsWith (B : Build) (tenantId agentId : String) (s : Backing Author)
    (state : AgentStateRecord) (mem : WorkingMemoryRecord) : Prop where
  stateRecord : ∃ v, HoldsFromStart s (agentStateKey tenantId agentId) v ∧
    B.state.decode v = .ok state
  memoryRecord : ∃ v, HoldsFromStart s (workingMemoryKey tenantId agentId) v ∧
    B.memory.decode v = .ok mem
  versions : state.workingMemoryVersion = mem.version
  unauthored : ∀ x ∈ s.journal, x.author = none

end SwarmRuntime.State
