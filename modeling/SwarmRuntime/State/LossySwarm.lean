import SwarmRuntime.Lib.LostReply
import SwarmRuntime.State.Swarm

/-!
# `SwarmRuntime.State.LossySwarm`: clients that can lose the reply to a write

`DaprStateStore::set` reports a failing call as `DaprError`, a timeout as much as a refusal. A write
that has timed out may have been applied. In `Swarm` a failing call is never applied. Here the store
serves a write as it does there, and then the reply can be lost: the client gets a `DaprError`, and
the record is in the store all the same.
-/

set_option autoImplicit false

namespace SwarmRuntime.State

open SwarmRuntime.Lib

/-- What the store and the network leave open at one call. `lost` is the message of the error that
a client gets in place of the reply to its write. -/
structure LossyAnswer where
  answer : Answer
  lost : Option String

/-- Serve one call of the client `a`. A write whose reply is lost is applied as any other. -/
def serveLossy {A : Type} (a : A) : (c : Call) → LossyAnswer → Backing A → Reply c × Backing A
  | .set key value etag ttl, w, s =>
      match w.lost with
      | none => serve a (.set key value etag ttl) w.answer s
      | some msg => (.error (.daprError msg), (serve a (.set key value etag ttl) w.answer s).2)
  | .get key, w, s => serve a (.get key) w.answer s
  | .now, w, s => serve a .now w.answer s

section
variable {A : Type} {a : A} {w : LossyAnswer} {s : Backing A}

/-- A call whose reply is not lost. -/
theorem serveLossy_of_none (c : Call) (h : w.lost = none) :
    serveLossy a c w s = serve a c w.answer s := by
  cases c with
  | get key => rfl
  | now => rfl
  | set key value etag ttl => simp only [serveLossy, h]

/-- A write whose reply is lost. -/
theorem serveLossy_of_some {key : String} {value : Bytes} {etag : Option ETag} {ttl : TtlPolicy}
    {msg : String} (h : w.lost = some msg) :
    serveLossy a (.set key value etag ttl) w s
      = (.error (.daprError msg), (serve a (.set key value etag ttl) w.answer s).2) := by
  simp only [serveLossy, h]

end

/-- A move of the swarm. -/
abbrev LossyMove := Move Request LossyAnswer Nat Nat

/-- The move without the loss. -/
abbrev LossyMove.plain : LossyMove → SwarmMove := Move.plain LossyAnswer.answer

/-- How the swarm runs a request, serves a call, and lets time pass. -/
def lossyService (M : AgentHydrationManager) (B : Build) :
    Service Reply Request Response (Backing Author) LossyAnswer Nat Nat where
  prog := Request.prog M B
  serve id := serveLossy (some id)
  env n s := s.tick n

/-- In place of the reply to a write there is a `DaprError`. -/
inductive LostWrite : (c : Call) → Reply c → Reply c → Prop
  | intro (key : String) (value : Bytes) (etag : Option ETag) (ttl : TtlPolicy)
      (r : StateResult ETag) (msg : String) :
      LostWrite (.set key value etag ttl) r (.error (.daprError msg))

namespace Swarm

/-- One move of the swarm, in which a reply can be lost. -/
abbrev lossyStep (M : AgentHydrationManager) (B : Build) : Swarm → LossyMove → Option Swarm :=
  Pool.step (lossyService M B)

end Swarm

end SwarmRuntime.State
