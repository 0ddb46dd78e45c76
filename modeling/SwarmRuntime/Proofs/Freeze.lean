import SwarmRuntime.State.Freeze

/-!
# `SwarmRuntime.Proofs.Freeze`: the calls of a freeze

`freeze_run_eq` writes `freeze` as its sequence of calls: a clock reading, the memory write,
a clock reading, the state write, two clock readings, the checkpoint write. The three writes
are named: `memoryWrite`, `stateWrite`, `checkpointWrite`.

`freeze_stage` lists where a freeze can stand, with the transcript of each place. Everything
that later modules say about a running freeze comes from this list. `freeze_write` is its
part for the writes: a freeze that is about to write makes one of the three.
-/

set_option autoImplicit false

namespace SwarmRuntime.State

open SwarmRuntime.Lib SwarmRuntime.Lib.Interaction

/-! ### The stamped records -/

/-- The timestamp that a clock reading gives. -/
def stampOf (c : Option Duration) : Timestamp := (c.getD default).toTimestamp

/-- The seconds that a clock reading gives. -/
def secondsOf (c : Option Duration) : UInt64 := (c.getD default).asSecs

namespace FreezeInput

variable (B : Build) (i : FreezeInput) (c₁ c₂ : Option Duration)

/-- The input after step 1, with the clock at `c₁`. -/
def afterStep1 : FreezeInput := i.stampMemory B (i.workingMemory.version + 1) (stampOf c₁)

/-- The input after step 4, with the clock at `c₁` and then at `c₂`. -/
def afterStep4 : FreezeInput :=
  (i.afterStep1 B c₁).stampState B (i.workingMemory.version + 1) (stampOf c₂)

/-- The working memory that the freeze writes. -/
def frozenMemory : WorkingMemoryRecord := (i.afterStep1 B c₁).workingMemory

/-- The state record that the freeze writes. -/
def frozenState : AgentStateRecord := (i.afterStep4 B c₁ c₂).state

@[simp] theorem frozenMemory_version :
    (i.frozenMemory B c₁).version = i.workingMemory.version + 1 := rfl

@[simp] theorem frozenMemory_tenantId :
    (i.frozenMemory B c₁).tenantId = i.workingMemory.tenantId := rfl

@[simp] theorem frozenMemory_agentId :
    (i.frozenMemory B c₁).agentId = i.workingMemory.agentId := rfl

@[simp] theorem frozenState_workingMemoryVersion :
    (i.frozenState B c₁ c₂).workingMemoryVersion = i.workingMemory.version + 1 := rfl

@[simp] theorem frozenState_status :
    (i.frozenState B c₁ c₂).status = AgentLifecycleStatus.frozen.toI32 := rfl

@[simp] theorem frozenState_tenantId : (i.frozenState B c₁ c₂).tenantId = i.state.tenantId := rfl

@[simp] theorem frozenState_agentId : (i.frozenState B c₁ c₂).agentId = i.state.agentId := rfl

/-- The bytes of the written state record. The clock of step 1 does not enter them. -/
def stateBytes : Bytes := B.state.encodeToVec (i.frozenState B c₁ c₂)

/-- The bytes of the written working memory. -/
def memBytes : Bytes := B.memory.encodeToVec (i.frozenMemory B c₁)

/-- The checkpoint that the freeze writes, with sequence number `seq`. -/
def frozenCheckpoint (seq : UInt64) (c₄ : Option Duration) : CheckpointRecord :=
  (i.afterStep4 B c₁ c₂).toCheckpoint B seq (i.stateBytes B c₁ c₂) (i.memBytes B c₁) (stampOf c₄)

/-- The memory write: step 2. -/
abbrev memoryWrite : Call :=
  .set (workingMemoryKey i.tenantId i.agentId) (i.memBytes B c₁) (some i.memoryEtag)
    (.seconds 86400)

/-- The state write: step 5. -/
abbrev stateWrite : Call :=
  .set (agentStateKey i.tenantId i.agentId) (i.stateBytes B c₁ c₂) (some i.stateEtag) .none

/-- The checkpoint write: step 6, with the clock at `c₃` for the sequence number. -/
abbrev checkpointWrite (c₃ c₄ : Option Duration) : Call :=
  .set (checkpointKey i.tenantId i.agentId (secondsOf c₃))
    (B.checkpoint.encodeToVec (i.frozenCheckpoint B c₁ c₂ (secondsOf c₃) c₄)) none .none

/-! ### The program, call by call -/

/-- What is left of the freeze once the checkpoint write has its reply. -/
def afterCheckpointWrite (c₃ : Option Duration) :
    StateResult ETag → Async (StateResult UInt64)
  | .error _ => done (.ok 0)
  | .ok _ => done (.ok (secondsOf c₃))

/-- What is left of the freeze once the state write has its reply. -/
def afterStateWrite : StateResult ETag → Async (StateResult UInt64)
  | .error e => done (.error e)
  | .ok _ => ask Call.now fun c₃ => ask Call.now fun c₄ =>
      ask (i.checkpointWrite B c₁ c₂ c₃ c₄) (afterCheckpointWrite c₃)

/-- What is left of the freeze once the memory write has its reply. -/
def afterMemoryWrite : StateResult ETag → Async (StateResult UInt64)
  | .error e => done (.error e)
  | .ok _ => ask Call.now fun c₂ => ask (i.stateWrite B c₁ c₂) (i.afterStateWrite B c₁ c₂)

end FreezeInput

open FreezeInput

variable {B : Build} {i : FreezeInput}

/-- The memory version of the input is below `2 ^ 64 - 1`. -/
def FreezeInput.Fits (i : FreezeInput) : Prop := i.workingMemory.version.toNat + 1 < 2 ^ 64

/-- Step 1 returns: the version fits, or the build does not check overflow. -/
def FreezeInput.Increments (B : Build) (i : FreezeInput) : Prop :=
  B.overflowChecks = true → i.Fits

theorem FreezeInput.Fits.increments (h : i.Fits) : i.Increments B := fun _ => h

/-- Step 1 returns, and it does not wrap. -/
theorem FreezeInput.Increments.fits (h : i.Increments B)
    (hwrap : B.overflowChecks = false → i.Fits) : i.Fits := by
  cases hchecks : B.overflowChecks with
  | true => exact h hchecks
  | false => exact hwrap hchecks

theorem FreezeInput.Fits.toNat_add_one (h : i.Fits) :
    (i.workingMemory.version + 1).toNat = i.workingMemory.version.toNat + 1 := by
  rw [UInt64.toNat_add, show (1 : UInt64).toNat = 1 from rfl]
  exact Nat.mod_eq_of_lt h

/-- The two replies of a write, one by one. -/
private theorem ask_set_congr {α : Type} {key : String} {value : Bytes} {etag : Option ETag}
    {ttl : TtlPolicy} {f g : StateResult ETag → Async α} (herr : ∀ e, f (.error e) = g (.error e))
    (hok : ∀ e, f (.ok e) = g (.ok e)) :
    (ask (Call.set key value etag ttl) f : Async α) = ask (Call.set key value etag ttl) g := by
  congr 1
  funext r
  cases r with
  | error e => exact herr e
  | ok e => exact hok e

/-- The step after the state write, with the checkpoint as a sub-program. -/
private theorem unwrapOr_writeCheckpoint (c₁ c₂ : Option Duration) :
    (unwrapOr (writeCheckpoint B (i.afterStep4 B c₁ c₂) (i.stateBytes B c₁ c₂) (i.memBytes B c₁))
      0).run = ask Call.now fun c₃ => ask Call.now fun c₄ =>
        ask (i.checkpointWrite B c₁ c₂ c₃ c₄) (afterCheckpointWrite c₃) := by
  show ask Call.now (fun c₃ => ask Call.now fun c₄ => ask _ _) = _
  congr 1
  funext c₃
  congr 1
  funext c₄
  exact ask_set_congr (fun _ => rfl) fun _ => rfl

/-- A freeze whose step 1 returns, as its sequence of calls. -/
theorem freeze_run_eq (h : i.Increments B) :
    (freeze B i).run
      = ask Call.now fun c₁ => ask (i.memoryWrite B c₁) (i.afterMemoryWrite B c₁) := by
  -- Step 1 does not panic. The rest is one call after the other.
  have hno : ¬ (B.overflowChecks = true ∧
      2 ^ 64 ≤ i.workingMemory.version.toNat + (1 : UInt64).toNat) := by
    intro hover
    exact Nat.not_lt.mpr hover.2 (h hover.1)
  unfold freeze
  -- The bind of `ExceptT` runs on after `Ok` and stops at an error, reply by reply.
  rw [addU64, if_neg hno]
  show ask Call.now (fun c₁ => ask _ _) = _
  congr 1
  funext c₁
  refine ask_set_congr (fun _ => rfl) fun e₁ => ?_
  show ask Call.now (fun c₂ => ask _ _) = ask Call.now _
  congr 1
  funext c₂
  refine ask_set_congr (fun _ => rfl) fun e₂ => ?_
  exact unwrapOr_writeCheckpoint c₁ c₂

/-- A freeze whose version cannot be incremented panics before its first call. -/
theorem freeze_run_overflow (h : ¬ i.Increments B) :
    (freeze B i).run = Interaction.panic "attempt to add with overflow" := by
  -- The build checks overflow, and the version is `2 ^ 64 - 1`.
  have hover : B.overflowChecks = true ∧
      2 ^ 64 ≤ i.workingMemory.version.toNat + (1 : UInt64).toNat := by
    unfold FreezeInput.Increments FreezeInput.Fits at h
    rw [Classical.not_imp, Nat.not_lt] at h
    exact h
  unfold freeze
  rw [addU64, if_pos hover]
  rfl

/-! ### Where a freeze can stand -/

/-- The places of a freeze, each with its transcript. -/
inductive FreezeStage (B : Build) (i : FreezeInput) :
    Transcript Reply → Async (StateResult UInt64) → Prop
  | overflow (h : ¬ i.Increments B) :
      FreezeStage B i [] (Interaction.panic "attempt to add with overflow")
  | start {k : Reply Call.now → Async (StateResult UInt64)} :
      FreezeStage B i [] (ask Call.now k)
  | memory (c₁ : Option Duration) :
      FreezeStage B i [⟨.now, c₁⟩] (ask (i.memoryWrite B c₁) (i.afterMemoryWrite B c₁))
  | memoryFailed (c₁ : Option Duration) (e : StateError) :
      FreezeStage B i [⟨.now, c₁⟩, ⟨i.memoryWrite B c₁, .error e⟩] (done (.error e))
  | stamp {k : Reply Call.now → Async (StateResult UInt64)} (c₁ : Option Duration) (e₁ : ETag) :
      FreezeStage B i [⟨.now, c₁⟩, ⟨i.memoryWrite B c₁, .ok e₁⟩] (ask Call.now k)
  | state (c₁ c₂ : Option Duration) (e₁ : ETag) :
      FreezeStage B i [⟨.now, c₁⟩, ⟨i.memoryWrite B c₁, .ok e₁⟩, ⟨.now, c₂⟩]
        (ask (i.stateWrite B c₁ c₂) (i.afterStateWrite B c₁ c₂))
  | stateFailed (c₁ c₂ : Option Duration) (e₁ : ETag) (e : StateError) :
      FreezeStage B i
        [⟨.now, c₁⟩, ⟨i.memoryWrite B c₁, .ok e₁⟩, ⟨.now, c₂⟩, ⟨i.stateWrite B c₁ c₂, .error e⟩]
        (done (.error e))
  | seq {k : Reply Call.now → Async (StateResult UInt64)} (c₁ c₂ : Option Duration)
      (e₁ e₂ : ETag) :
      FreezeStage B i
        [⟨.now, c₁⟩, ⟨i.memoryWrite B c₁, .ok e₁⟩, ⟨.now, c₂⟩, ⟨i.stateWrite B c₁ c₂, .ok e₂⟩]
        (ask Call.now k)
  | created {k : Reply Call.now → Async (StateResult UInt64)} (c₁ c₂ c₃ : Option Duration)
      (e₁ e₂ : ETag) :
      FreezeStage B i
        [⟨.now, c₁⟩, ⟨i.memoryWrite B c₁, .ok e₁⟩, ⟨.now, c₂⟩, ⟨i.stateWrite B c₁ c₂, .ok e₂⟩,
          ⟨.now, c₃⟩]
        (ask Call.now k)
  | checkpoint (c₁ c₂ c₃ c₄ : Option Duration) (e₁ e₂ : ETag) :
      FreezeStage B i
        [⟨.now, c₁⟩, ⟨i.memoryWrite B c₁, .ok e₁⟩, ⟨.now, c₂⟩, ⟨i.stateWrite B c₁ c₂, .ok e₂⟩,
          ⟨.now, c₃⟩, ⟨.now, c₄⟩]
        (ask (i.checkpointWrite B c₁ c₂ c₃ c₄) (afterCheckpointWrite c₃))
  | returned (c₁ c₂ c₃ c₄ : Option Duration) (e₁ e₂ : ETag) (r : StateResult ETag)
      (seq : UInt64) (hseq : seq = if r.isOk then secondsOf c₃ else 0) :
      FreezeStage B i
        [⟨.now, c₁⟩, ⟨i.memoryWrite B c₁, .ok e₁⟩, ⟨.now, c₂⟩, ⟨i.stateWrite B c₁ c₂, .ok e₂⟩,
          ⟨.now, c₃⟩, ⟨.now, c₄⟩, ⟨i.checkpointWrite B c₁ c₂ c₃ c₄, r⟩]
        (done (.ok seq))

/-- A freeze stands at one of its places. The case split follows the replies, oldest
first. -/
theorem freeze_stage {t : Transcript Reply} {q : Async (StateResult UInt64)}
    (h : Trace (freeze B i).run t q) : FreezeStage B i t q := by
  by_cases hinc : i.Increments B
  · rw [freeze_run_eq hinc, trace_ask] at h
    -- The clock of step 1, then the memory write.
    rcases h with ⟨rfl, rfl⟩ | ⟨c₁, t, rfl, h⟩
    · exact .start
    rw [trace_ask] at h
    rcases h with ⟨rfl, rfl⟩ | ⟨r₁, t, rfl, h⟩
    · exact .memory c₁
    cases r₁ with
    | error e =>
      obtain ⟨rfl, rfl⟩ := trace_done.mp h
      exact .memoryFailed c₁ e
    | ok e₁ =>
      rw [afterMemoryWrite, trace_ask] at h
      -- The clock of step 3, then the state write.
      rcases h with ⟨rfl, rfl⟩ | ⟨c₂, t, rfl, h⟩
      · exact .stamp c₁ e₁
      rw [trace_ask] at h
      rcases h with ⟨rfl, rfl⟩ | ⟨r₂, t, rfl, h⟩
      · exact .state c₁ c₂ e₁
      cases r₂ with
      | error e =>
        obtain ⟨rfl, rfl⟩ := trace_done.mp h
        exact .stateFailed c₁ c₂ e₁ e
      | ok e₂ =>
        rw [afterStateWrite, trace_ask] at h
        -- Two clocks of the checkpoint, then its write, whose failure is not an error.
        rcases h with ⟨rfl, rfl⟩ | ⟨c₃, t, rfl, h⟩
        · exact .seq c₁ c₂ e₁ e₂
        rw [trace_ask] at h
        rcases h with ⟨rfl, rfl⟩ | ⟨c₄, t, rfl, h⟩
        · exact .created c₁ c₂ c₃ e₁ e₂
        rw [trace_ask] at h
        rcases h with ⟨rfl, rfl⟩ | ⟨r₃, t, rfl, h⟩
        · exact .checkpoint c₁ c₂ c₃ c₄ e₁ e₂
        cases r₃ with
        | error e =>
          obtain ⟨rfl, rfl⟩ := trace_done.mp h
          exact .returned c₁ c₂ c₃ c₄ e₁ e₂ (.error e) 0 rfl
        | ok e₃ =>
          obtain ⟨rfl, rfl⟩ := trace_done.mp h
          exact .returned c₁ c₂ c₃ c₄ e₁ e₂ (.ok e₃) _ rfl
  · rw [freeze_run_overflow hinc, trace_panic] at h
    obtain ⟨rfl, rfl⟩ := h
    exact .overflow hinc

/-- The three writes of a freeze, each with the transcript that it comes after. -/
inductive FreezeWrite (B : Build) (i : FreezeInput) : Transcript Reply → Call → Prop
  | memory (c₁ : Option Duration) : FreezeWrite B i [⟨.now, c₁⟩] (i.memoryWrite B c₁)
  | state (c₁ c₂ : Option Duration) (e₁ : ETag) :
      FreezeWrite B i [⟨.now, c₁⟩, ⟨i.memoryWrite B c₁, .ok e₁⟩, ⟨.now, c₂⟩]
        (i.stateWrite B c₁ c₂)
  | checkpoint (c₁ c₂ c₃ c₄ : Option Duration) (e₁ e₂ : ETag) :
      FreezeWrite B i
        [⟨.now, c₁⟩, ⟨i.memoryWrite B c₁, .ok e₁⟩, ⟨.now, c₂⟩, ⟨i.stateWrite B c₁ c₂, .ok e₂⟩,
          ⟨.now, c₃⟩, ⟨.now, c₄⟩]
        (i.checkpointWrite B c₁ c₂ c₃ c₄)

/-- A freeze that is about to write makes one of its three writes. -/
theorem freeze_write {t : Transcript Reply} {key : String} {value : Bytes} {etag : Option ETag}
    {ttl : TtlPolicy} {next : Reply (.set key value etag ttl) → Async (StateResult UInt64)}
    (h : Trace (freeze B i).run t (ask (.set key value etag ttl) next)) :
    FreezeWrite B i t (.set key value etag ttl) := by
  cases freeze_stage h with
  | memory c₁ => exact .memory c₁
  | state c₁ c₂ e₁ => exact .state c₁ c₂ e₁
  | checkpoint c₁ c₂ c₃ c₄ e₁ e₂ => exact .checkpoint c₁ c₂ c₃ c₄ e₁ e₂

section
variable {tr : Transcript Reply} {key : String} {value : Bytes} {etag : Option ETag}
  {ttl : TtlPolicy} {t a : String}

/-- A write of a freeze to a state key is its state write, and the agent is the one of the
key. -/
theorem FreezeWrite.eq_state (h : FreezeWrite B i tr (.set key value etag ttl))
    (hkey : key = agentStateKey t a) :
    keyRoot i.tenantId i.agentId = keyRoot t a ∧ ∃ c₁ c₂ e₁,
      tr = [⟨.now, c₁⟩, ⟨i.memoryWrite B c₁, .ok e₁⟩, ⟨.now, c₂⟩] ∧
      value = i.stateBytes B c₁ c₂ ∧ etag = some i.stateEtag ∧ ttl = .none := by
  cases h with
  | memory c₁ => exact absurd hkey.symm (agentStateKey_ne_workingMemoryKey _ _ _ _)
  | state c₁ c₂ e₁ =>
    exact ⟨(agentStateKey_eq_iff _ _ _ _).mp hkey, c₁, c₂, e₁, rfl, rfl, rfl, rfl⟩
  | checkpoint => exact absurd hkey (checkpointKey_ne_agentStateKey _ _ _ _ _)

/-- A write of a freeze to a memory key is its memory write, and the agent is the one of the
key. -/
theorem FreezeWrite.eq_memory (h : FreezeWrite B i tr (.set key value etag ttl))
    (hkey : key = workingMemoryKey t a) :
    keyRoot i.tenantId i.agentId = keyRoot t a ∧ ∃ c₁,
      tr = [⟨.now, c₁⟩] ∧ value = i.memBytes B c₁ ∧ etag = some i.memoryEtag ∧
      ttl = .seconds 86400 := by
  cases h with
  | memory c₁ =>
    exact ⟨(workingMemoryKey_eq_iff _ _ _ _).mp hkey, c₁, rfl, rfl, rfl, rfl⟩
  | state c₁ c₂ e₁ => exact absurd hkey (agentStateKey_ne_workingMemoryKey _ _ _ _)
  | checkpoint => exact absurd hkey (checkpointKey_ne_workingMemoryKey _ _ _ _ _)

/-- A write of a freeze to a checkpoint key is its checkpoint write, the agent is the one of the
key, and the number in the key is the second of the third clock reading. -/
theorem FreezeWrite.eq_checkpoint (h : FreezeWrite B i tr (.set key value etag ttl)) {n : UInt64}
    (hkey : key = checkpointKey t a n) :
    keyRoot i.tenantId i.agentId = keyRoot t a ∧ ∃ c₁ c₂ c₃ c₄ e₁ e₂, secondsOf c₃ = n ∧
      tr = [⟨.now, c₁⟩, ⟨i.memoryWrite B c₁, .ok e₁⟩, ⟨.now, c₂⟩, ⟨i.stateWrite B c₁ c₂, .ok e₂⟩,
        ⟨.now, c₃⟩, ⟨.now, c₄⟩] ∧
      value = B.checkpoint.encodeToVec (i.frozenCheckpoint B c₁ c₂ n c₄) ∧ etag = none ∧
      ttl = .none := by
  cases h with
  | memory c₁ => exact absurd hkey.symm (checkpointKey_ne_workingMemoryKey _ _ _ _ _)
  | state c₁ c₂ e₁ => exact absurd hkey.symm (checkpointKey_ne_agentStateKey _ _ _ _ _)
  | checkpoint c₁ c₂ c₃ c₄ e₁ e₂ =>
    obtain ⟨hroot, rfl⟩ := checkpointKey_eq_iff.mp hkey
    exact ⟨hroot, c₁, c₂, c₃, c₄, e₁, e₂, rfl, rfl, rfl, rfl, rfl⟩

/-- A freeze writes each of its keys once. -/
theorem FreezeWrite.not_written (h : FreezeWrite B i tr (.set key value etag ttl))
    {value' : Bytes} {etag' : Option ETag} {ttl' : TtlPolicy} {r : StateResult ETag} :
    ⟨.set key value' etag' ttl', r⟩ ∉ tr := by
  intro hmem
  have hcall : Call.set key value' etag' ttl' ∈ tr.map Sigma.fst :=
    List.mem_map.mpr ⟨_, hmem, rfl⟩
  cases h with
  | memory c₁ => simp at hcall
  | state c₁ c₂ e₁ =>
    simp only [List.map_cons, List.map_nil, List.mem_cons, List.not_mem_nil, reduceCtorEq,
      Call.set.injEq, false_or, or_false] at hcall
    exact agentStateKey_ne_workingMemoryKey _ _ _ _ hcall.1
  | checkpoint c₁ c₂ c₃ c₄ e₁ e₂ =>
    simp only [List.map_cons, List.map_nil, List.mem_cons, List.not_mem_nil, reduceCtorEq,
      Call.set.injEq, false_or, or_false] at hcall
    rcases hcall with hmemory | hstate
    · exact checkpointKey_ne_workingMemoryKey _ _ _ _ _ hmemory.1
    · exact checkpointKey_ne_agentStateKey _ _ _ _ _ hstate.1

end

end SwarmRuntime.State
