import SwarmRuntime.Proofs.Freeze
import SwarmRuntime.Proofs.Hydrate

/-!
# `SwarmRuntime.Proofs.Alone`: hydrate and freeze alone on the store

What a hydrate and a freeze do when no other client acts between their calls, and the store
does not fail their reads. `hydrateOn` is the result of such a hydrate as a function of the
store (`exec_hydrate`). A freeze on current tags writes both records (`exec_freeze`). A freeze
whose memory tag is not current writes nothing (`exec_freeze_refused`).
-/

set_option autoImplicit false

namespace SwarmRuntime.State

open SwarmRuntime.Lib SwarmRuntime.Lib.Interaction

variable {A : Type} {id : A} {M : AgentHydrationManager} {B : Build} {t a : String}
  {s : Backing A}

/-! ### Hydrate -/

/-- How a hydrate ends on the store `s`, with the clock at `clock`. -/
def hydrateOn (M : AgentHydrationManager) (B : Build) (t a : String) (s : Backing A)
    (clock : Option Duration) : Ending (StateResult HydrationResult) :=
  match s.lookup (agentStateKey t a) with
  | none => .returned (.error (.invalidInput
      s!"no state record found for agent {a}; must create new agent"))
  | some cs =>
      match B.state.decode cs.value with
      | .error e => .returned (.error (.protoError e))
      | .ok state =>
          if state.status = AgentLifecycleStatus.active.toI32 ∧
              AgentHydrationManager.activeAge state clock < M.staleActiveThresholdSecs then
            .returned (.error (.agentBusy t a (AgentHydrationManager.activeAge state clock)))
          else
            match s.lookup (workingMemoryKey t a) with
            -- The memory record is gone.
            | none => .panicked "not yet implemented: checkpoint recovery — Phase 1"
            | some cm =>
                match B.memory.decode cm.value with
                | .error e => .returned (.error (.protoError e))
                | .ok mem =>
                    if mem.version ≠ state.workingMemoryVersion then
                      .panicked "not yet implemented: checkpoint recovery — Phase 1"
                    else .returned (.ok ⟨state, mem, false⟩)

/-- A read that does not fail. -/
theorem exec_get {T : Type} {key : String} {next : Reply (.get key) → Async T} {w : Answer}
    {ws : List Answer} (hw : w.fault = none) :
    exec (serve id) (ask (.get key) next) (w :: ws) s =
      (exec (serve id) (next (.ok ((s.lookup key).map fun c => ⟨c.value, c.etag⟩))) ws s).after
        (.get key) (.ok ((s.lookup key).map fun c => ⟨c.value, c.etag⟩)) := by
  rw [exec_ask_cons, serve_get hw]

/-- The memory half of a hydrate, when its read does not fail. -/
private theorem exec_loadMemory {state : AgentStateRecord} {w : Answer} {ws : List Answer}
    (hw : w.fault = none) :
    (exec (serve id) (AgentHydrationManager.loadMemory B t a state) (w :: ws) s).state = s ∧
      (exec (serve id) (AgentHydrationManager.loadMemory B t a state) (w :: ws) s).ending =
        match s.lookup (workingMemoryKey t a) with
        | none => .panicked "not yet implemented: checkpoint recovery — Phase 1"
        | some cm =>
            match B.memory.decode cm.value with
            | .error e => .returned (.error (.protoError e))
            | .ok mem =>
                if mem.version ≠ state.workingMemoryVersion then
                  .panicked "not yet implemented: checkpoint recovery — Phase 1"
                else .returned (.ok ⟨state, mem, false⟩) := by
  unfold AgentHydrationManager.loadMemory
  rw [exec_get hw]
  cases s.lookup (workingMemoryKey t a) with
  | none => simp [AgentHydrationManager.afterMemoryRead]
  | some cm =>
    simp only [Option.map_some, AgentHydrationManager.afterMemoryRead, Outcome.after_state,
      Outcome.after_ending]
    cases B.memory.decode cm.value with
    | error e => simp
    | ok mem =>
      by_cases hver : mem.version = state.workingMemoryVersion
      · simp [hver]
      · simp [hver]

/-- A hydrate whose calls do not fail ends as `hydrateOn` says, and leaves the store
unchanged. -/
theorem exec_hydrate {w₁ w₂ w₃ : Answer} {ws : List Answer} (h₁ : w₁.fault = none)
    (h₂ : w₂.fault = none) (h₃ : w₃.fault = none) :
    (exec (serve id) (M.hydrate B t a).run (w₁ :: w₂ :: w₃ :: ws) s).state = s ∧
      (exec (serve id) (M.hydrate B t a).run (w₁ :: w₂ :: w₃ :: ws) s).ending
        = hydrateOn M B t a s w₂.clock := by
  rw [hydrate_run_eq, exec_get h₁]
  unfold hydrateOn
  cases s.lookup (agentStateKey t a) with
  | none => simp [AgentHydrationManager.afterStateRead]
  | some cs =>
    simp only [Option.map_some, AgentHydrationManager.afterStateRead, Outcome.after_state,
      Outcome.after_ending]
    cases B.state.decode cs.value with
    | error e => simp
    | ok state =>
      simp only
      by_cases hactive : state.status = AgentLifecycleStatus.active.toI32
      · rw [if_pos hactive]
        -- The guard reads the clock, and then the memory is read with the third answer.
        have hnow : serve id .now w₂ s = (w₂.clock, s) := rfl
        rw [exec_ask_cons, Outcome.after_state, Outcome.after_ending, hnow]
        by_cases hage : AgentHydrationManager.activeAge state w₂.clock <
            M.staleActiveThresholdSecs
        · simp [hactive, hage]
        · simp only [if_neg hage, hactive, true_and]
          exact exec_loadMemory h₃
      · rw [if_neg hactive, if_neg fun h => hactive h.1]
        exact exec_loadMemory h₂

/-- What a hydrate that returns a result has found in the store. -/
theorem hydrateOn_eq_ok {clock : Option Duration} {r : HydrationResult} :
    hydrateOn M B t a s clock = .returned (.ok r) ↔
      ∃ cs cm, s.lookup (agentStateKey t a) = some cs ∧
        B.state.decode cs.value = .ok r.state ∧
        ¬ (r.state.status = AgentLifecycleStatus.active.toI32 ∧
          AgentHydrationManager.activeAge r.state clock < M.staleActiveThresholdSecs) ∧
        s.lookup (workingMemoryKey t a) = some cm ∧
        B.memory.decode cm.value = .ok r.workingMemory ∧
        r.workingMemory.version = r.state.workingMemoryVersion ∧
        r.recoveredFromCheckpoint = false := by
  unfold hydrateOn
  constructor
  · intro h
    -- Every other ending differs from `Ok` in its constructor.
    cases hs : s.lookup (agentStateKey t a) with
    | none => simp [hs] at h
    | some cs =>
      cases hdecs : B.state.decode cs.value with
      | error e => simp [hs, hdecs] at h
      | ok state =>
        simp only [hs, hdecs] at h
        split at h
        · cases h
        · rename_i hguard
          cases hm : s.lookup (workingMemoryKey t a) with
          | none => simp [hm] at h
          | some cm =>
            cases hdecm : B.memory.decode cm.value with
            | error e => simp [hm, hdecm] at h
            | ok mem =>
              simp only [hm, hdecm] at h
              split at h
              · cases h
              · rename_i hver
                cases h
                exact ⟨cs, cm, rfl, hdecs, hguard, rfl, hdecm, not_not.mp hver, rfl⟩
  · intro h
    obtain ⟨cs, cm, hs, hdecs, hguard, hm, hdecm, hver, hrec⟩ := h
    simp only [hs, hdecs, hm, hdecm]
    rw [if_neg hguard, if_neg (not_not_intro hver)]
    obtain ⟨state, mem, recovered⟩ := r
    cases hrec
    rfl

/-- A hydrate writes nothing, whatever its answers are, and each of its reads finds what the
store holds. -/
theorem exec_hydrate_reads (ws : List Answer) :
    (exec (serve id) (M.hydrate B t a).run ws s).state = s ∧
      ∀ x ∈ (exec (serve id) (M.hydrate B t a).run ws s).transcript,
        ∃ w, x.2 = (serve id x.1 w s).1 := by
  have hkeep : ∀ x ∈ (exec (serve id) (M.hydrate B t a).run ws s).transcript,
      ∀ w s', s' = s → (serve id x.1 w s').2 = s := by
    intro x hx w s' hs'
    subst hs'
    obtain ⟨c, r⟩ := x
    cases c with
    | get key => exact serve_get_state
    | now => rfl
    | set key value etag ttl =>
      -- Before a write, a hydrate would stand at it.
      obtain ⟨q, hq⟩ := exec_traced (serve id) (M.hydrate B t a).run ws s'
      obtain ⟨t₁, t₂, hsplit⟩ := List.append_of_mem hx
      rw [hsplit] at hq
      obtain ⟨next, hnext⟩ := hq.ask_of_append
      exact absurd hnext hydrate_reads
  obtain ⟨hstate, hserved⟩ := exec_keeps (serve id) (fun s' => s' = s) rfl hkeep
  refine ⟨hstate, fun x hx => ?_⟩
  obtain ⟨w, s', rfl, hreply⟩ := hserved x hx
  exact ⟨w, hreply⟩

/-- A hydrate that returns a result has read both records from the store, with their tags. -/
theorem exec_hydrate_records {ws : List Answer} {r : HydrationResult}
    (h : (exec (serve id) (M.hydrate B t a).run ws s).ending = .returned (.ok r)) :
    ∃ rs rm cs cm,
      ⟨.get (agentStateKey t a), .ok (some rs)⟩ ∈
        (exec (serve id) (M.hydrate B t a).run ws s).transcript ∧
      ⟨.get (workingMemoryKey t a), .ok (some rm)⟩ ∈
        (exec (serve id) (M.hydrate B t a).run ws s).transcript ∧
      s.lookup (agentStateKey t a) = some cs ∧ cs.etag = rs.etag ∧
      s.lookup (workingMemoryKey t a) = some cm ∧ cm.etag = rm.etag ∧
      B.state.decode cs.value = .ok r.state ∧ B.memory.decode cm.value = .ok r.workingMemory ∧
      r.workingMemory.version = r.state.workingMemoryVersion := by
  have hserved : ∀ x ∈ (exec (serve id) (M.hydrate B t a).run ws s).transcript,
      ∃ w, x.2 = (serve id x.1 w s).1 := (exec_hydrate_reads ws).2
  -- The transcript tells what was read, and each reply is what the unchanged store holds.
  obtain ⟨rs, rm, tail, htr, -, hdecs, hdecm, hver, -⟩ := hydrate_ok (exec_trace (serve id) h)
  have hgs : ⟨.get (agentStateKey t a), .ok (some rs)⟩ ∈
      (exec (serve id) (M.hydrate B t a).run ws s).transcript := by simp [htr]
  have hgm : ⟨.get (workingMemoryKey t a), .ok (some rm)⟩ ∈
      (exec (serve id) (M.hydrate B t a).run ws s).transcript := by simp [htr]
  obtain ⟨w₁, hs⟩ := hserved _ hgs
  obtain ⟨w₂, hm⟩ := hserved _ hgm
  obtain ⟨cs, hcs, hcsv, hes⟩ := lookup_of_serve_get hs.symm
  obtain ⟨cm, hcm, hcmv, hem⟩ := lookup_of_serve_get hm.symm
  exact ⟨rs, rm, cs, cm, hgs, hgm, hcs, hes, hcm, hem, by rw [hcsv, hdecs], by rw [hcmv, hdecm],
    hver⟩

/-! ### Freeze -/

namespace FreezeInput

variable (B : Build) (i : FreezeInput) (id : A) (s : Backing A) (c₁ c₂ c₃ c₄ : Option Duration)
  (e₁ e₂ e₃ : ETag)

/-- The store after the memory write. -/
def withMemory : Backing A :=
  s.put id (workingMemoryKey i.tenantId i.agentId) (i.memBytes B c₁) (some 86400) e₁

/-- The store after the memory write and the state write. -/
def withState : Backing A :=
  (i.withMemory B id s c₁ e₁).put id (agentStateKey i.tenantId i.agentId)
    (i.stateBytes B c₁ c₂) none e₂

/-- The store after all three writes. -/
def withCheckpoint : Backing A :=
  (i.withState B id s c₁ c₂ e₁ e₂).put id
    (checkpointKey i.tenantId i.agentId (secondsOf c₃))
    (B.checkpoint.encodeToVec (i.frozenCheckpoint B c₁ c₂ (secondsOf c₃) c₄)) none e₃

@[simp] theorem time_withMemory : (i.withMemory B id s c₁ e₁).time = s.time := rfl

@[simp] theorem time_withState : (i.withState B id s c₁ c₂ e₁ e₂).time = s.time := rfl

@[simp] theorem time_withCheckpoint :
    (i.withCheckpoint B id s c₁ c₂ c₃ c₄ e₁ e₂ e₃).time = s.time := rfl

/-- The memory write keeps the state record. -/
@[simp] theorem lookup_state_withMemory :
    (i.withMemory B id s c₁ e₁).lookup (agentStateKey i.tenantId i.agentId)
      = s.lookup (agentStateKey i.tenantId i.agentId) :=
  EtagStore.lookup_put_of_ne _ _ _ _ _ _ _ (agentStateKey_ne_workingMemoryKey _ _ _ _)

@[simp] theorem lookup_memory_withMemory :
    (i.withMemory B id s c₁ e₁).lookup (workingMemoryKey i.tenantId i.agentId)
      = some ⟨i.memBytes B c₁, e₁, some (s.time + 86400)⟩ :=
  EtagStore.lookup_put_some _ _ _ _ _ (by decide)

@[simp] theorem lookup_state_withState :
    (i.withState B id s c₁ c₂ e₁ e₂).lookup (agentStateKey i.tenantId i.agentId)
      = some ⟨i.stateBytes B c₁ c₂, e₂, none⟩ :=
  EtagStore.lookup_put_none _ _ _ _ _

@[simp] theorem lookup_memory_withState :
    (i.withState B id s c₁ c₂ e₁ e₂).lookup (workingMemoryKey i.tenantId i.agentId)
      = some ⟨i.memBytes B c₁, e₁, some (s.time + 86400)⟩ := by
  rw [withState, EtagStore.lookup_put_of_ne _ _ _ _ _ _ _
    (agentStateKey_ne_workingMemoryKey _ _ _ _).symm, lookup_memory_withMemory]

@[simp] theorem lookup_state_withCheckpoint :
    (i.withCheckpoint B id s c₁ c₂ c₃ c₄ e₁ e₂ e₃).lookup (agentStateKey i.tenantId i.agentId)
      = some ⟨i.stateBytes B c₁ c₂, e₂, none⟩ := by
  rw [withCheckpoint, EtagStore.lookup_put_of_ne _ _ _ _ _ _ _
    (checkpointKey_ne_agentStateKey _ _ _ _ _).symm, lookup_state_withState]

@[simp] theorem lookup_memory_withCheckpoint :
    (i.withCheckpoint B id s c₁ c₂ c₃ c₄ e₁ e₂ e₃).lookup
        (workingMemoryKey i.tenantId i.agentId)
      = some ⟨i.memBytes B c₁, e₁, some (s.time + 86400)⟩ := by
  rw [withCheckpoint, EtagStore.lookup_put_of_ne _ _ _ _ _ _ _
    (checkpointKey_ne_workingMemoryKey _ _ _ _ _).symm, lookup_memory_withState]

/-- The memory write leaves the checkpoints. -/
@[simp] theorem lookup_checkpoint_withMemory (t a : String) (n : UInt64) :
    (i.withMemory B id s c₁ e₁).lookup (checkpointKey t a n) = s.lookup (checkpointKey t a n) :=
  EtagStore.lookup_put_of_ne _ _ _ _ _ _ _ (checkpointKey_ne_workingMemoryKey _ _ _ _ _)

/-- The state write leaves the checkpoints. -/
@[simp] theorem lookup_checkpoint_withState (t a : String) (n : UInt64) :
    (i.withState B id s c₁ c₂ e₁ e₂).lookup (checkpointKey t a n)
      = s.lookup (checkpointKey t a n) := by
  rw [withState, EtagStore.lookup_put_of_ne _ _ _ _ _ _ _
    (checkpointKey_ne_agentStateKey _ _ _ _ _), lookup_checkpoint_withMemory]

/-- The new checkpoint is read back. -/
@[simp] theorem lookup_checkpoint_withCheckpoint :
    (i.withCheckpoint B id s c₁ c₂ c₃ c₄ e₁ e₂ e₃).lookup
        (checkpointKey i.tenantId i.agentId (secondsOf c₃))
      = some ⟨B.checkpoint.encodeToVec (i.frozenCheckpoint B c₁ c₂ (secondsOf c₃) c₄), e₃,
          none⟩ :=
  EtagStore.lookup_put_none _ _ _ _ _

/-- The other checkpoints of the agent stay. -/
theorem lookup_checkpoint_withCheckpoint_of_ne {n : UInt64} (h : n ≠ secondsOf c₃) :
    (i.withCheckpoint B id s c₁ c₂ c₃ c₄ e₁ e₂ e₃).lookup (checkpointKey i.tenantId i.agentId n)
      = s.lookup (checkpointKey i.tenantId i.agentId n) := by
  rw [withCheckpoint, EtagStore.lookup_put_of_ne _ _ _ _ _ _ _ fun hkey =>
    h (checkpointKey_inj.mp hkey), lookup_checkpoint_withState]

/-- A freeze leaves every key but the two primary keys. -/
theorem cells_withState {key : String} (hs : key ≠ agentStateKey i.tenantId i.agentId)
    (hm : key ≠ workingMemoryKey i.tenantId i.agentId) :
    (i.withState B id s c₁ c₂ e₁ e₂).cells key = s.cells key := by
  rw [withState, EtagStore.cells_put_of_ne _ _ _ _ _ _ _ hs, withMemory,
    EtagStore.cells_put_of_ne _ _ _ _ _ _ _ hm]

/-- The tags of the input are the tags that the store holds. -/
structure Current {A : Type} (i : FreezeInput) (s : Backing A) : Prop where
  state : ∃ c, s.lookup (agentStateKey i.tenantId i.agentId) = some c ∧ c.etag = i.stateEtag
  memory : ∃ c, s.lookup (workingMemoryKey i.tenantId i.agentId) = some c ∧
    c.etag = i.memoryEtag

end FreezeInput

open FreezeInput

variable {i : FreezeInput} {w w₁ w₂ w₃ w₄ w₅ w₆ w₇ : Answer} {ws : List Answer}

/-- A clock reading. -/
theorem exec_now {T : Type} {next : Reply .now → Async T} :
    exec (serve id) (ask .now next) (w :: ws) s
      = (exec (serve id) (next w.clock) ws s).after .now w.clock := rfl

/-- A write that succeeds. -/
theorem exec_set {T : Type} {key : String} {value : Bytes} {etag : Option ETag}
    {ttl : TtlPolicy} {next : Reply (.set key value etag ttl) → Async T} (hw : w.fault = none)
    (hacc : s.accepts key etag = true) :
    exec (serve id) (ask (.set key value etag ttl) next) (w :: ws) s
      = (exec (serve id) (next (.ok w.etag)) ws (s.put id key value ttl.lifetime w.etag)).after
          (.set key value etag ttl) (.ok w.etag) := by
  rw [exec_ask_cons, serve_set_of_accepts hw hacc]

/-- A write whose guard fails. -/
theorem exec_set_refused {T : Type} {key : String} {value : Bytes} {etag : Option ETag}
    {ttl : TtlPolicy} {next : Reply (.set key value etag ttl) → Async T} (hw : w.fault = none)
    (hacc : s.accepts key etag = false) :
    exec (serve id) (ask (.set key value etag ttl) next) (w :: ws) s
      = (exec (serve id) (next (.error (.eTagConflict key))) ws s).after
          (.set key value etag ttl) (.error (.eTagConflict key)) := by
  rw [exec_ask_cons, serve_set_of_not_accepts hw hacc]

/-- A write that fails unapplied. -/
theorem exec_set_failed {T : Type} {key : String} {value : Bytes} {etag : Option ETag}
    {ttl : TtlPolicy} {next : Reply (.set key value etag ttl) → Async T} {msg : String}
    (hw : w.fault = some msg) :
    exec (serve id) (ask (.set key value etag ttl) next) (w :: ws) s
      = (exec (serve id) (next (.error (.daprError msg))) ws s).after
          (.set key value etag ttl) (.error (.daprError msg)) := by
  rw [exec_ask_cons, serve_fault hw]

/-- The memory tag of a current input is accepted. -/
theorem FreezeInput.Current.accepts_memory (h : i.Current s) :
    s.accepts (workingMemoryKey i.tenantId i.agentId) (some i.memoryEtag) = true :=
  EtagStore.accepts_some.mpr h.memory

/-- The state tag of a current input is accepted after the memory write. -/
theorem FreezeInput.Current.accepts_state (h : i.Current s) (c₁ : Option Duration) (e₁ : ETag) :
    (i.withMemory B id s c₁ e₁).accepts (agentStateKey i.tenantId i.agentId)
      (some i.stateEtag) = true := by
  rw [EtagStore.accepts_some, lookup_state_withMemory]
  exact h.state

/-- The memory write of a freeze on current tags. -/
theorem exec_memoryWrite (hcur : i.Current s) (hw : w.fault = none) {c₁ : Option Duration} :
    exec (serve id) (ask (i.memoryWrite B c₁) (i.afterMemoryWrite B c₁)) (w :: ws) s
      = (exec (serve id) (i.afterMemoryWrite B c₁ (.ok w.etag)) ws
          (i.withMemory B id s c₁ w.etag)).after (i.memoryWrite B c₁) (.ok w.etag) :=
  exec_set hw hcur.accepts_memory

/-- The state write of a freeze on current tags, after its memory write. -/
theorem exec_stateWrite (hcur : i.Current s) (hw : w.fault = none) {c₁ c₂ : Option Duration}
    {e₁ : ETag} :
    exec (serve id) (ask (i.stateWrite B c₁ c₂) (i.afterStateWrite B c₁ c₂)) (w :: ws)
        (i.withMemory B id s c₁ e₁)
      = (exec (serve id) (i.afterStateWrite B c₁ c₂ (.ok w.etag)) ws
          (i.withState B id s c₁ c₂ e₁ w.etag)).after (i.stateWrite B c₁ c₂) (.ok w.etag) :=
  exec_set hw (hcur.accepts_state c₁ e₁)

/-- The checkpoint write of a freeze, when it does not fail. -/
theorem exec_checkpointWrite (hw : w.fault = none) {c₁ c₂ c₃ c₄ : Option Duration}
    {e₁ e₂ : ETag} :
    exec (serve id) (ask (i.checkpointWrite B c₁ c₂ c₃ c₄) (afterCheckpointWrite c₃)) (w :: ws)
        (i.withState B id s c₁ c₂ e₁ e₂)
      = (exec (serve id) (afterCheckpointWrite c₃ (.ok w.etag)) ws
          (i.withCheckpoint B id s c₁ c₂ c₃ c₄ e₁ e₂ w.etag)).after
            (i.checkpointWrite B c₁ c₂ c₃ c₄) (.ok w.etag) :=
  exec_set hw rfl

/-- The store after the checkpoint write, whether it fails or not. -/
def FreezeInput.finished (B : Build) (i : FreezeInput) (id : A) (s : Backing A)
    (w₁ w₂ w₃ w₄ w₅ w₆ w₇ : Answer) : Backing A :=
  match w₇.fault with
  | none => i.withCheckpoint B id s w₁.clock w₃.clock w₅.clock w₆.clock w₂.etag w₄.etag w₇.etag
  | some _ => i.withState B id s w₁.clock w₃.clock w₂.etag w₄.etag

section
variable (B i id s w₁ w₂ w₃ w₄ w₅ w₆ w₇)

@[simp] theorem FreezeInput.time_finished :
    (i.finished B id s w₁ w₂ w₃ w₄ w₅ w₆ w₇).time = s.time := by
  unfold finished
  cases w₇.fault <;> simp

@[simp] theorem FreezeInput.lookup_state_finished :
    (i.finished B id s w₁ w₂ w₃ w₄ w₅ w₆ w₇).lookup (agentStateKey i.tenantId i.agentId)
      = some ⟨i.stateBytes B w₁.clock w₃.clock, w₄.etag, none⟩ := by
  unfold finished
  cases w₇.fault <;> simp

@[simp] theorem FreezeInput.lookup_memory_finished :
    (i.finished B id s w₁ w₂ w₃ w₄ w₅ w₆ w₇).lookup (workingMemoryKey i.tenantId i.agentId)
      = some ⟨i.memBytes B w₁.clock, w₂.etag, some (s.time + 86400)⟩ := by
  unfold finished
  cases w₇.fault <;> simp

/-- A freeze leaves every key but the two primary keys and one checkpoint key. -/
theorem FreezeInput.cells_finished {key : String}
    (hs : key ≠ agentStateKey i.tenantId i.agentId)
    (hm : key ≠ workingMemoryKey i.tenantId i.agentId)
    (hc : key ≠ checkpointKey i.tenantId i.agentId (secondsOf w₅.clock)) :
    (i.finished B id s w₁ w₂ w₃ w₄ w₅ w₆ w₇).cells key = s.cells key := by
  unfold finished
  cases w₇.fault with
  | none =>
    rw [withCheckpoint, EtagStore.cells_put_of_ne _ _ _ _ _ _ _ hc]
    exact i.cells_withState B id s _ _ _ _ hs hm
  | some msg => exact i.cells_withState B id s _ _ _ _ hs hm

end

/-- The sequence number that the freeze returns: `0` when the checkpoint write fails. -/
def finishedSeq (w₅ w₇ : Answer) : UInt64 :=
  match w₇.fault with
  | none => secondsOf w₅.clock
  | some _ => 0

/-- A freeze on current tags, whose two primary writes do not fail, returns `Ok` and writes
both records. -/
theorem exec_freeze (hinc : i.Increments B) (hcur : i.Current s) (h₂ : w₂.fault = none)
    (h₄ : w₄.fault = none) :
    (exec (serve id) (freeze B i).run (w₁ :: w₂ :: w₃ :: w₄ :: w₅ :: w₆ :: w₇ :: ws) s).ending
        = .returned (.ok (finishedSeq w₅ w₇)) ∧
      (exec (serve id) (freeze B i).run (w₁ :: w₂ :: w₃ :: w₄ :: w₅ :: w₆ :: w₇ :: ws) s).state
        = i.finished B id s w₁ w₂ w₃ w₄ w₅ w₆ w₇ := by
  -- Call by call: the clock and the memory write, the clock and the state write, two clocks.
  rw [freeze_run_eq hinc, exec_now, exec_memoryWrite hcur h₂]
  simp only [Outcome.after_ending, Outcome.after_state, afterMemoryWrite]
  rw [exec_now, exec_stateWrite hcur h₄]
  simp only [Outcome.after_ending, Outcome.after_state, afterStateWrite]
  rw [exec_now, exec_now]
  simp only [Outcome.after_ending, Outcome.after_state]
  -- The checkpoint write is unguarded. It is applied or fails, and the freeze returns `Ok`.
  unfold finished finishedSeq
  cases h₇ : w₇.fault with
  | none =>
    rw [exec_checkpointWrite h₇]
    simp [afterCheckpointWrite]
  | some msg =>
    rw [exec_set_failed h₇]
    simp [afterCheckpointWrite]

/-- A freeze whose memory tag is not current is refused and leaves the store unchanged. -/
theorem exec_freeze_refused (hinc : i.Increments B)
    (hacc : s.accepts (workingMemoryKey i.tenantId i.agentId) (some i.memoryEtag) = false)
    (h₂ : w₂.fault = none) :
    (exec (serve id) (freeze B i).run (w₁ :: w₂ :: ws) s).ending
        = .returned (.error (.eTagConflict (workingMemoryKey i.tenantId i.agentId))) ∧
      (exec (serve id) (freeze B i).run (w₁ :: w₂ :: ws) s).state = s := by
  rw [freeze_run_eq hinc, exec_now, exec_set_refused h₂ hacc]
  simp [afterMemoryWrite]

/-- A freeze whose memory tag is current and whose state tag is not writes the memory only. -/
theorem exec_freeze_torn (hinc : i.Increments B)
    (hmem : s.accepts (workingMemoryKey i.tenantId i.agentId) (some i.memoryEtag) = true)
    (hstate : s.accepts (agentStateKey i.tenantId i.agentId) (some i.stateEtag) = false)
    (h₂ : w₂.fault = none) (h₄ : w₄.fault = none) :
    (exec (serve id) (freeze B i).run (w₁ :: w₂ :: w₃ :: w₄ :: ws) s).ending
        = .returned (.error (.eTagConflict (agentStateKey i.tenantId i.agentId))) ∧
      (exec (serve id) (freeze B i).run (w₁ :: w₂ :: w₃ :: w₄ :: ws) s).state
        = i.withMemory B id s w₁.clock w₂.etag := by
  -- The memory write does not touch the state record, so its guard still fails.
  have hkeep : (i.withMemory B id s w₁.clock w₂.etag).accepts
      (agentStateKey i.tenantId i.agentId) (some i.stateEtag) = false := by
    unfold EtagStore.accepts at hstate ⊢
    rw [lookup_state_withMemory]
    exact hstate
  have hwritten : s.put id (workingMemoryKey i.tenantId i.agentId) (i.memBytes B w₁.clock)
      (TtlPolicy.seconds 86400).lifetime w₂.etag = i.withMemory B id s w₁.clock w₂.etag := rfl
  rw [freeze_run_eq hinc, exec_now, exec_set h₂ hmem, hwritten]
  simp only [Outcome.after_ending, Outcome.after_state, afterMemoryWrite]
  rw [exec_now, exec_set_refused h₄ hkeep]
  simp [afterStateWrite]

/-- The answers of the calls of a hydrate. -/
theorem Calm.exists_three {ws : List Answer} (h : Calm 3 ws) :
    ∃ w₁ w₂ w₃ rest, ws = w₁ :: w₂ :: w₃ :: rest ∧ w₁.fault = none ∧ w₂.fault = none ∧
      w₃.fault = none := by
  obtain ⟨w₁, ws, rfl, h₁, h⟩ := h.exists_cons
  obtain ⟨w₂, ws, rfl, h₂, h⟩ := h.exists_cons
  obtain ⟨w₃, ws, rfl, h₃, -⟩ := h.exists_cons
  exact ⟨w₁, w₂, w₃, ws, rfl, h₁, h₂, h₃⟩

/-- The answers of the calls of a freeze. The second, the fourth and the last are for its
writes. -/
theorem Calm.exists_seven {ws : List Answer} (h : Calm 7 ws) :
    ∃ w₁ w₂ w₃ w₄ w₅ w₆ w₇ rest, ws = w₁ :: w₂ :: w₃ :: w₄ :: w₅ :: w₆ :: w₇ :: rest ∧
      w₂.fault = none ∧ w₄.fault = none ∧ w₇.fault = none := by
  obtain ⟨w₁, ws, rfl, -, h⟩ := h.exists_cons
  obtain ⟨w₂, ws, rfl, h₂, h⟩ := h.exists_cons
  obtain ⟨w₃, ws, rfl, -, h⟩ := h.exists_cons
  obtain ⟨w₄, ws, rfl, h₄, h⟩ := h.exists_cons
  obtain ⟨w₅, ws, rfl, -, h⟩ := h.exists_cons
  obtain ⟨w₆, ws, rfl, -, h⟩ := h.exists_cons
  obtain ⟨w₇, ws, rfl, h₇, -⟩ := h.exists_cons
  exact ⟨w₁, w₂, w₃, w₄, w₅, w₆, w₇, ws, rfl, h₂, h₄, h₇⟩

/-- When no call fails, a freeze returns `Ok` exactly when its version can be incremented and its
tags are current. -/
theorem exec_freeze_ok_iff (hws : Calm 7 ws) :
    (∃ seq, (exec (serve id) (freeze B i).run ws s).ending = .returned (.ok seq)) ↔
      i.Increments B ∧ i.Current s := by
  obtain ⟨w₁, w₂, w₃, w₄, w₅, w₆, w₇, ws, rfl, h₂, h₄, -⟩ := hws.exists_seven
  constructor
  · intro hok
    obtain ⟨seq, hok⟩ := hok
    -- Each way to fail shows in the ending.
    by_cases hinc : i.Increments B
    · refine ⟨hinc, ?_⟩
      cases hmem : s.accepts (workingMemoryKey i.tenantId i.agentId) (some i.memoryEtag) with
      | false =>
        rw [(exec_freeze_refused hinc hmem h₂).1] at hok
        cases hok
      | true =>
        cases hstate : s.accepts (agentStateKey i.tenantId i.agentId) (some i.stateEtag) with
        | false =>
          rw [(exec_freeze_torn hinc hmem hstate h₂ h₄).1] at hok
          cases hok
        | true => exact ⟨EtagStore.accepts_some.mp hstate, EtagStore.accepts_some.mp hmem⟩
    · rw [freeze_run_overflow hinc, exec_panic] at hok
      cases hok
  · intro h
    exact ⟨_, (exec_freeze h.1 h.2 h₂ h₄).1⟩

/-- Where a freeze that returned `Ok` without a failing call has left the store. -/
theorem exec_freeze_state (hinc : i.Increments B) (hcur : i.Current s) (hws : Calm 7 ws) :
    ∃ w₁ w₂ w₃ w₄ w₅ w₆ w₇ rest, ws = w₁ :: w₂ :: w₃ :: w₄ :: w₅ :: w₆ :: w₇ :: rest ∧
      (exec (serve id) (freeze B i).run ws s).state
        = i.withCheckpoint B id s w₁.clock w₃.clock w₅.clock w₆.clock w₂.etag w₄.etag w₇.etag := by
  obtain ⟨w₁, w₂, w₃, w₄, w₅, w₆, w₇, ws, rfl, h₂, h₄, h₇⟩ := hws.exists_seven
  refine ⟨w₁, w₂, w₃, w₄, w₅, w₆, w₇, ws, rfl, ?_⟩
  rw [(exec_freeze hinc hcur h₂ h₄).2]
  unfold finished
  rw [h₇]

/-- Where a freeze on current tags can leave the store, whatever its answers are: after none of
its writes, after one, after two, or after all three. -/
inductive FreezeLeft (B : Build) (i : FreezeInput) (id : A) (s : Backing A) (ws : List Answer) :
    Backing A → Prop
  | nothing : FreezeLeft B i id s ws s
  | memory (c₁ : Option Duration) (e₁ : ETag) : FreezeLeft B i id s ws (i.withMemory B id s c₁ e₁)
  | state (c₁ c₂ : Option Duration) (e₁ e₂ : ETag) :
      FreezeLeft B i id s ws (i.withState B id s c₁ c₂ e₁ e₂)
  | checkpoint (c₁ c₂ c₄ : Option Duration) (e₁ e₂ e₃ : ETag) (w : Answer) (hw : w ∈ ws) :
      FreezeLeft B i id s ws (i.withCheckpoint B id s c₁ c₂ w.clock c₄ e₁ e₂ e₃)

/-- A freeze on current tags, whatever its answers are. The cases follow the calls: the list of
answers can end before each of them, and each write can fail. -/
theorem exec_freeze_left (hcur : i.Current s) (ws : List Answer) :
    FreezeLeft B i id s ws (exec (serve id) (freeze B i).run ws s).state := by
  by_cases hinc : i.Increments B
  · rw [freeze_run_eq hinc]
    -- A crash before the memory write.
    rcases ws with _ | ⟨w₁, _ | ⟨w₂, ws⟩⟩
    · exact .nothing
    · exact .nothing
    rw [exec_now, Outcome.after_state]
    cases h₂ : w₂.fault with
    | some msg =>
      rw [exec_set_failed h₂]
      simp only [Outcome.after_state, afterMemoryWrite, exec_done]
      exact .nothing
    | none =>
      rw [exec_memoryWrite hcur h₂]
      simp only [Outcome.after_state, afterMemoryWrite]
      -- A crash between the two primary writes.
      rcases ws with _ | ⟨w₃, _ | ⟨w₄, ws⟩⟩
      · exact .memory _ _
      · exact .memory _ _
      rw [exec_now, Outcome.after_state]
      cases h₄ : w₄.fault with
      | some msg =>
        rw [exec_set_failed h₄]
        simp only [Outcome.after_state, afterStateWrite, exec_done]
        exact .memory _ _
      | none =>
        rw [exec_stateWrite hcur h₄]
        simp only [Outcome.after_state, afterStateWrite]
        -- A crash before the checkpoint write.
        rcases ws with _ | ⟨w₅, _ | ⟨w₆, _ | ⟨w₇, ws⟩⟩⟩
        · exact .state _ _ _ _
        · exact .state _ _ _ _
        · exact .state _ _ _ _
        rw [exec_now, exec_now]
        simp only [Outcome.after_state]
        cases h₇ : w₇.fault with
        | some msg =>
          rw [exec_set_failed h₇]
          simp only [Outcome.after_state, afterCheckpointWrite, exec_done]
          exact .state _ _ _ _
        | none =>
          rw [exec_checkpointWrite h₇]
          simp only [Outcome.after_state, afterCheckpointWrite, exec_done]
          exact .checkpoint _ _ _ _ _ _ w₅ (by simp)
  · rw [freeze_run_overflow hinc, exec_panic]
    exact .nothing

/-! ### A store that holds one pair -/

/-- A FROZEN state record of the agent, with nothing else in it. -/
def blankState (t a : String) : AgentStateRecord :=
  { (default : AgentStateRecord) with
    tenantId := t
    agentId := a
    status := AgentLifecycleStatus.frozen.toI32 }

/-- The working memory that goes with it. -/
def blankMemory (t a : String) : WorkingMemoryRecord :=
  { (default : WorkingMemoryRecord) with tenantId := t, agentId := a }

/-- The store that holds one pair of records, written at second `0` with the tags `es` and
`em`. -/
def pairStore (id : A) (B : Build) (t a : String) (state : AgentStateRecord)
    (mem : WorkingMemoryRecord) (es em : ETag) : Backing A :=
  (EtagStore.empty.put id (workingMemoryKey t a) (B.memory.encodeToVec mem) (some 86400)
    em).put id (agentStateKey t a) (B.state.encodeToVec state) none es

/-- The store that holds the blank records, under the tag `1`. -/
abbrev blankStore (id : A) (B : Build) (t a : String) : Backing A :=
  pairStore id B t a (blankState t a) (blankMemory t a) ⟨"1"⟩ ⟨"1"⟩

/-- A freeze of the blank records, with their tags. -/
def blankInput (t a : String) : FreezeInput :=
  { tenantId := t
    agentId := a
    state := blankState t a
    workingMemory := blankMemory t a
    stateEtag := ⟨"1"⟩
    memoryEtag := ⟨"1"⟩
    checkpointTrigger := .freeze }

theorem fits_blankInput (t a : String) : (blankInput t a).Fits := by
  show (0 : UInt64).toNat + 1 < 2 ^ 64
  decide

/-- A state record in the middle of a task: draining, with a task, its taint and a goal. -/
def filledState (t a : String) : AgentStateRecord :=
  { blankState t a with
    status := AgentLifecycleStatus.draining.toI32
    currentTaskId := "task-7"
    currentTaskTaint := [1, 2]
    workingMemoryVersion := 4
    totalTurns := 12
    goalStack := [⟨"goal-1", "draft", 1, none, [], ""⟩]
    schemaVersion := 1 }

/-- The working memory that goes with it, with one slot. -/
def filledMemory (t a : String) : WorkingMemoryRecord :=
  { blankMemory t a with
    version := 4
    slots := [⟨0, "note", 0, none, true, "turn-3", 2⟩]
    activeGoalIds := ["goal-1"]
    schemaVersion := 1 }

/-- The input of a freeze of these records. -/
def filledInput (t a : String) : FreezeInput :=
  { tenantId := t
    agentId := a
    state := filledState t a
    workingMemory := filledMemory t a
    stateEtag := ⟨"1"⟩
    memoryEtag := ⟨"1"⟩
    checkpointTrigger := .freeze }

theorem fits_filledInput (t a : String) : (filledInput t a).Fits := by
  show (4 : UInt64).toNat + 1 < 2 ^ 64
  decide

/-- An answer without a failure, at the second 1700000000. -/
def answerWith (tag : String) : Answer := ⟨none, ⟨tag⟩, some ⟨1700000000, 0⟩⟩

/-- The answers to a freeze of the blank records. -/
def blankAnswers : List Answer :=
  [answerWith "2", answerWith "3", answerWith "4", answerWith "5", answerWith "6",
    answerWith "7", answerWith "8"]

/-- The store after this freeze, by the client `id`. -/
def frozenStore (author id : A) (B : Build) (t a : String) : Backing A :=
  (blankInput t a).finished B id (blankStore author B t a) (answerWith "2") (answerWith "3")
    (answerWith "4") (answerWith "5") (answerWith "6") (answerWith "7") (answerWith "8")

section
variable {state : AgentStateRecord} {mem : WorkingMemoryRecord} {es em : ETag}

@[simp] theorem lookup_state_pairStore :
    (pairStore id B t a state mem es em).lookup (agentStateKey t a)
      = some ⟨B.state.encodeToVec state, es, none⟩ :=
  EtagStore.lookup_put_none _ _ _ _ _

@[simp] theorem lookup_memory_pairStore :
    (pairStore id B t a state mem es em).lookup (workingMemoryKey t a)
      = some ⟨B.memory.encodeToVec mem, em, some 86400⟩ := by
  rw [pairStore, EtagStore.lookup_put_of_ne _ _ _ _ _ _ _
    (agentStateKey_ne_workingMemoryKey _ _ _ _).symm,
    EtagStore.lookup_put_some _ _ _ _ _ (by decide), EtagStore.empty, Nat.zero_add]

/-- There is no checkpoint next to the pair. -/
@[simp] theorem lookup_checkpoint_pairStore (t' a' : String) (n : UInt64) :
    (pairStore id B t a state mem es em).lookup (checkpointKey t' a' n) = none := by
  rw [pairStore, EtagStore.lookup_put_of_ne _ _ _ _ _ _ _
    (checkpointKey_ne_agentStateKey _ _ _ _ _),
    EtagStore.lookup_put_of_ne _ _ _ _ _ _ _ (checkpointKey_ne_workingMemoryKey _ _ _ _ _)]
  rfl

/-- And there was none. -/
@[simp] theorem history_checkpoint_pairStore (t' a' : String) (n : UInt64) :
    (pairStore id B t a state mem es em).history (checkpointKey t' a' n) = [] := by
  rw [pairStore, EtagStore.history_put_of_ne _ _ _ _ _ _ _
    (checkpointKey_ne_agentStateKey _ _ _ _ _),
    EtagStore.history_put_of_ne _ _ _ _ _ _ _ (checkpointKey_ne_workingMemoryKey _ _ _ _ _)]
  rfl

/-- The pair can be read. -/
theorem holdsPair_pairStore : HoldsPair B t a (pairStore id B t a state mem es em) state mem where
  stateRecord := ⟨_, lookup_state_pairStore, B.state.decode_encodeToVec _⟩
  memoryRecord := ⟨_, lookup_memory_pairStore, B.memory.decode_encodeToVec _⟩

/-- The tags of the blank freeze are current. -/
theorem current_blankInput : (blankInput t a).Current (blankStore id B t a) where
  state := ⟨_, lookup_state_pairStore, rfl⟩
  memory := ⟨_, lookup_memory_pairStore, rfl⟩

/-- So are those of the filled one on the store that holds the filled records. -/
theorem current_filledInput : (filledInput t a).Current
    (pairStore id B t a (filledState t a) (filledMemory t a) ⟨"1"⟩ ⟨"1"⟩) where
  state := ⟨_, lookup_state_pairStore, rfl⟩
  memory := ⟨_, lookup_memory_pairStore, rfl⟩

/-- The blank freeze without a failing call. -/
theorem exec_freeze_blank {author : A} :
    (exec (serve id) (freeze B (blankInput t a)).run blankAnswers
        (blankStore author B t a)).ending = .returned (.ok 1700000000) ∧
      (exec (serve id) (freeze B (blankInput t a)).run blankAnswers
        (blankStore author B t a)).state = frozenStore author id B t a :=
  exec_freeze (fits_blankInput t a).increments current_blankInput rfl rfl

/-- The blank freeze leaves a whole pair: the records that it has written. -/
theorem holdsPair_frozenStore {author : A} : HoldsPair B t a (frozenStore author id B t a)
    ((blankInput t a).frozenState B (answerWith "2").clock (answerWith "4").clock)
    ((blankInput t a).frozenMemory B (answerWith "2").clock) where
  stateRecord := ⟨_, FreezeInput.lookup_state_finished id B _ (blankInput t a) _ _ _ _ _ _ _,
    B.state.decode_encodeToVec _⟩
  memoryRecord := ⟨_, FreezeInput.lookup_memory_finished id B _ (blankInput t a) _ _ _ _ _ _ _,
    B.memory.decode_encodeToVec _⟩

/-- A store holds one pair of an agent. -/
theorem HoldsPair.unique {state' : AgentStateRecord} {mem' : WorkingMemoryRecord}
    (h : HoldsPair B t a s state mem) (h' : HoldsPair B t a s state' mem') :
    state = state' ∧ mem = mem' := by
  obtain ⟨⟨cs, hcs, hdecs⟩, cm, hcm, hdecm⟩ := h
  obtain ⟨⟨cs', hcs', hdecs'⟩, cm', hcm', hdecm'⟩ := h'
  cases hcs.symm.trans hcs'
  cases hcm.symm.trans hcm'
  exact ⟨Except.ok.inj (hdecs.symm.trans hdecs'), Except.ok.inj (hdecm.symm.trans hdecm')⟩

/-- A pair of one version whose state is not ACTIVE is hydrated. -/
theorem HoldsPair.hydrateOn (h : HoldsPair B t a s state mem) {clock : Option Duration}
    (hver : state.workingMemoryVersion = mem.version)
    (hactive : state.status ≠ AgentLifecycleStatus.active.toI32) :
    State.hydrateOn M B t a s clock = .returned (.ok ⟨state, mem, false⟩) := by
  obtain ⟨cs, hcs, hdecs⟩ := h.stateRecord
  obtain ⟨cm, hcm, hdecm⟩ := h.memoryRecord
  exact hydrateOn_eq_ok.mpr ⟨cs, cm, hcs, hdecs, fun hguard => hactive hguard.1, hcm, hdecm,
    hver.symm, rfl⟩

theorem hydrateOn_pairStore {clock : Option Duration}
    (hver : state.workingMemoryVersion = mem.version)
    (hactive : state.status ≠ AgentLifecycleStatus.active.toI32) :
    hydrateOn M B t a (pairStore id B t a state mem es em) clock
      = .returned (.ok ⟨state, mem, false⟩) :=
  holdsPair_pairStore.hydrateOn hver hactive

end

end SwarmRuntime.State
