import Mathlib.Algebra.Group.Nat.Defs
import SwarmRuntime.Lib.EtagStore
import SwarmRuntime.Lib.Interaction
import SwarmRuntime.State.Keys
import SwarmRuntime.State.Proto

/-!
# `SwarmRuntime.State.Store`: the Dapr state store (`store.rs`, `error.rs`)

`DaprStateStore::get` and `DaprStateStore::set` are stubs (`todo!()`), so the interface is
modelled, and the store behind it is what their comments document: `EtagStore`, with an
atomic `get` and `set` for each key, a guarded `set` that succeeds exactly when the key
holds a record with that ETag, and records that are absent `n` seconds after a write with
`TtlPolicy::Seconds(n)`.

An `async fn` of the crate is an `AsyncResult`: a program whose awaited calls are `get`,
`set` and the reading of the system clock. `serve` answers one call from the backing
store. What the store leaves open is an `Answer`: whether the call fails unapplied, which
ETag a successful write installs, and what the clock shows.
-/

set_option autoImplicit false

namespace SwarmRuntime.State

open SwarmRuntime.Lib (EtagStore Interaction)

/-- ETag value returned by Dapr state store reads. -/
structure ETag where
  value : String
  deriving DecidableEq, Inhabited, Repr

/-- `StateError`, the variants that the modelled functions return. -/
inductive StateError where
  | eTagConflict (key : String)
  | agentBusy (tenantId agentId : String) (lastHydratedSecs : UInt64)
  | tornWrite (agentId : String) (stateVersion memoryVersion : UInt64)
  | noCheckpointAvailable (tenantId agentId : String)
  | unsupportedSchemaVersion (recordType : String) (found maxKnown : UInt32)
  | invalidInput (message : String)
  | daprError (message : String)
  | protoError (source : DecodeError)
  | aesGcmError
  deriving DecidableEq, Repr

/-- `StateResult<T>`. -/
abbrev StateResult (T : Type) := Except StateError T

/-- A state record with its ETag. -/
structure StateRecord where
  value : Bytes
  etag : ETag
  deriving DecidableEq, Repr

/-- TTL configuration for a state write operation. -/
inductive TtlPolicy where
  | none
  | seconds (n : UInt64)
  deriving DecidableEq, Repr

/-- The lifetime of a record, in seconds. -/
def TtlPolicy.lifetime : TtlPolicy → Option Nat
  | .none => .none
  | .seconds n => some n.toNat

/-- `std::time::Duration`. -/
structure Duration where
  asSecs : UInt64
  subsecNanos : UInt32
  deriving DecidableEq, Inhabited, Repr

/-- A call that an `async fn` of the crate awaits, or a reading of the system clock. -/
inductive Call where
  | get (key : String)
  | set (key : String) (value : Bytes) (etag : Option ETag) (ttl : TtlPolicy)
  | now
  deriving DecidableEq

/-- The reply to a call. The clock answers `SystemTime::now().duration_since(UNIX_EPOCH)`,
`none` for a clock before the epoch. -/
@[reducible] def Reply : Call → Type
  | .get _ => StateResult (Option StateRecord)
  | .set _ _ _ _ => StateResult ETag
  | .now => Option Duration

/-- An `async fn`: a program over the store and the clock. -/
abbrev Async := Interaction Reply

/-- An `async fn` that returns `StateResult<T>`. -/
abbrev AsyncResult (T : Type) := ExceptT StateError Async T

/-- `value.contains(pattern)`. -/
def strContains (value pattern : String) : Bool := decide (pattern.toList <:+: value.toList)

/-- `DaprStateStore::validate_id`. The `{value:?}` of its message is the parameter `debug`. -/
def DaprStateStore.validateId (debug : String → String) (value field : String) :
    StateResult Unit := do
  if strContains value KEY_SEP then
    throw (.invalidInput (field ++ " must not contain '" ++ KEY_SEP ++ "': got " ++ debug value))
  if value = "" then
    throw (.invalidInput (field ++ " must not be empty"))
  return ()

/-- `DaprStateStore::get`. -/
def DaprStateStore.get (key : String) : AsyncResult (Option StateRecord) :=
  ExceptT.mk (Interaction.call (Call.get key))

/-- `DaprStateStore::set`. -/
def DaprStateStore.set (key : String) (value : Bytes) (etag : Option ETag) (ttl : TtlPolicy) :
    AsyncResult ETag :=
  ExceptT.mk (Interaction.call (Call.set key value etag ttl))

/-- `SystemTime::now().duration_since(UNIX_EPOCH).unwrap_or_default()`. -/
def sinceEpoch : AsyncResult Duration := do
  let now ← ExceptT.lift (Interaction.call Call.now : Async (Option Duration))
  return now.getD default

/-- `todo!()`. -/
def todo {T : Type} (msg : String) : AsyncResult T :=
  ExceptT.mk (Interaction.panic msg)

/-- `a + b` on `u64`. An overflow panics in a build that checks it, and wraps in one that
does not. -/
def addU64 (B : Build) (a b : UInt64) : AsyncResult UInt64 :=
  if B.overflowChecks = true ∧ 2 ^ 64 ≤ a.toNat + b.toNat then
    ExceptT.mk (Interaction.panic "attempt to add with overflow")
  else return a + b

/-! ### The backing store -/

/-- The store behind `DaprStateStore`. `A` names the authors of its journal. -/
abbrev Backing (A : Type) := EtagStore String Bytes ETag A

/-- What the store and the system leave open at one call. -/
structure Answer where
  fault : Option String
  etag : ETag
  clock : Option Duration
  deriving Inhabited

/-- At least `n` answers, and no call fails. -/
def Calm (n : Nat) (answers : List Answer) : Prop :=
  n ≤ answers.length ∧ ∀ w ∈ answers, w.fault = none

instance (n : Nat) (answers : List Answer) : Decidable (Calm n answers) :=
  inferInstanceAs (Decidable (_ ∧ ∀ w ∈ answers, w.fault = none))

/-- A calm list gives one calm answer after the other. -/
theorem Calm.exists_cons {n : Nat} {answers : List Answer} (h : Calm (n + 1) answers) :
    ∃ w ws, answers = w :: ws ∧ w.fault = none ∧ Calm n ws := by
  cases answers with
  | nil => exact absurd h.1 (Nat.not_succ_le_zero n)
  | cons w ws =>
    refine ⟨w, ws, rfl, h.2 w List.mem_cons_self, Nat.le_of_succ_le_succ h.1, ?_⟩
    intro w' hw'
    exact h.2 w' (List.mem_cons_of_mem _ hw')

/-- Serve one call of the client `a`. A call that fails leaves the store unchanged. -/
def serve {A : Type} (a : A) : (c : Call) → Answer → Backing A → Reply c × Backing A
  | .get key, w, s =>
      match w.fault with
      | some msg => (.error (.daprError msg), s)
      | none => (.ok ((s.lookup key).map fun c => ⟨c.value, c.etag⟩), s)
  | .set key value etag ttl, w, s =>
      match w.fault with
      -- A failing call is not applied.
      | some msg => (.error (.daprError msg), s)
      | none =>
          match s.set a key value etag ttl.lifetime w.etag with
          -- The guard passed: the record is installed under a tag of the store's choice.
          | some s' => (.ok w.etag, s')
          -- Another client has written since, or the record is gone.
          | none => (.error (.eTagConflict key), s)
  | .now, w, s => (w.clock, s)

section
variable {A : Type} {a : A} {key : String} {value : Bytes} {etag : Option ETag} {ttl : TtlPolicy}
  {w : Answer} {s : Backing A}

/-- A reading call leaves the store unchanged. -/
@[simp] theorem serve_get_state : (serve a (.get key) w s).2 = s := by
  simp only [serve]; split <;> rfl

@[simp] theorem serve_now_state : (serve a .now w s).2 = s := rfl

@[simp] theorem serve_now_reply : (serve a .now w s).1 = w.clock := rfl

theorem serve_get (h : w.fault = none) :
    serve a (.get key) w s = (.ok ((s.lookup key).map fun c => ⟨c.value, c.etag⟩), s) := by
  simp only [serve, h]

theorem serve_fault {msg : String} (h : w.fault = some msg) :
    serve a (.set key value etag ttl) w s = (.error (.daprError msg), s) := by
  simp only [serve, h]

theorem serve_set_of_accepts (h : w.fault = none) (hacc : s.accepts key etag = true) :
    serve a (.set key value etag ttl) w s
      = (.ok w.etag, s.put a key value ttl.lifetime w.etag) := by
  simp only [serve, h, EtagStore.set_of_accepts hacc]

theorem serve_set_of_not_accepts (h : w.fault = none) (hacc : s.accepts key etag = false) :
    serve a (.set key value etag ttl) w s = (.error (.eTagConflict key), s) := by
  simp only [serve, h, EtagStore.set_of_not_accepts hacc]

/-- What a write can do: install its record, or leave the store unchanged and report an
error. -/
theorem serve_set_cases (a : A) (key : String) (value : Bytes) (etag : Option ETag)
    (ttl : TtlPolicy) (w : Answer) (s : Backing A) :
    (w.fault = none ∧ s.accepts key etag = true ∧ serve a (.set key value etag ttl) w s
        = (.ok w.etag, s.put a key value ttl.lifetime w.etag)) ∨
      (w.fault = none ∧ s.accepts key etag = false ∧ serve a (.set key value etag ttl) w s
        = (.error (.eTagConflict key), s)) ∨
      ∃ msg, w.fault = some msg ∧ serve a (.set key value etag ttl) w s
        = (.error (.daprError msg), s) := by
  cases hf : w.fault with
  | some msg => exact .inr (.inr ⟨msg, rfl, serve_fault hf⟩)
  | none =>
    cases hacc : s.accepts key etag with
    | true => exact .inl ⟨rfl, rfl, serve_set_of_accepts hf hacc⟩
    | false => exact .inr (.inl ⟨rfl, rfl, serve_set_of_not_accepts hf hacc⟩)

/-- No call takes time. -/
@[simp] theorem serve_time (a : A) (c : Call) (w : Answer) (s : Backing A) :
    (serve a c w s).2.time = s.time := by
  cases c with
  | get key => rw [serve_get_state]
  | now => rfl
  | set key value etag ttl =>
    rcases serve_set_cases a key value etag ttl w s with
      ⟨-, -, hserve⟩ | ⟨-, -, hserve⟩ | ⟨msg, -, hserve⟩
    · show (serve a (.set key value etag ttl) w s).2.time = s.time
      rw [hserve, EtagStore.time_put]
    · rw [hserve]
    · rw [hserve]

/-- A read that returns a record returns the live cell of the key. -/
theorem lookup_of_serve_get {r : StateRecord}
    (h : (serve a (.get key) w s).1 = .ok (some r)) :
    ∃ c, s.lookup key = some c ∧ c.value = r.value ∧ c.etag = r.etag := by
  simp only [serve] at h
  split at h
  · cases h
  · cases hc : s.lookup key with
    | none => rw [hc] at h; cases h
    | some c =>
      rw [hc] at h
      cases h
      exact ⟨c, rfl, rfl, rfl⟩

end

end SwarmRuntime.State
