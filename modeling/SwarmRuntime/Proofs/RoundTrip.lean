import SwarmRuntime.Proofs.Alone
import SwarmRuntime.State.Codec

/-!
# `SwarmRuntime.Proofs.RoundTrip`: hydrate undoes freeze

A freeze on current tags returns `Ok`, whatever comes of its checkpoint write, and a hydrate
before the memory record expires returns the records that it was given, but for the fields
that a freeze sets (`hydrate_after_freeze`). Every other key of the store keeps its cell.
-/

set_option autoImplicit false

namespace SwarmRuntime.State

open SwarmRuntime.Lib SwarmRuntime.Lib.Interaction

variable {A : Type} {id id' : A} {M : AgentHydrationManager} {B : Build} {i : FreezeInput}
  {s : Backing A} {w₁ w₂ w₃ w₄ w₅ w₆ w₇ v₁ v₂ v₃ : Answer} {ws vs : List Answer}

/-- The state record that a hydrate returns after a freeze of `state`. -/
def thawedState (B : Build) (state : AgentStateRecord) (version : UInt64)
    (frozenAt : Timestamp) : AgentStateRecord :=
  { state with
    workingMemoryVersion := version + 1
    status := AgentLifecycleStatus.frozen.toI32
    lastFrozenAt := some frozenAt
    currentTaskId := ""
    currentTaskTaint := []
    schemaVersion := B.latestSchemaVersion }

/-- The working memory that a hydrate returns after a freeze of `mem`. -/
def thawedMemory (B : Build) (mem : WorkingMemoryRecord) (snapshotAt : Timestamp) :
    WorkingMemoryRecord :=
  { mem with
    version := mem.version + 1
    snapshotAt := some snapshotAt
    schemaVersion := B.latestSchemaVersion }

/-- What a hydrate finds on the store that a freeze has left, `n` seconds later. -/
theorem hydrateOn_finished {n : Nat} (hn : n < 86400) {clock : Option Duration} :
    hydrateOn M B i.tenantId i.agentId ((i.finished B id s w₁ w₂ w₃ w₄ w₅ w₆ w₇).tick n) clock
      = .returned (.ok ⟨thawedState B i.state i.workingMemory.version (stampOf w₃.clock),
          thawedMemory B i.workingMemory (stampOf w₁.clock), false⟩) := by
  have hstate : ((i.finished B id s w₁ w₂ w₃ w₄ w₅ w₆ w₇).tick n).lookup
      (agentStateKey i.tenantId i.agentId)
        = some ⟨i.stateBytes B w₁.clock w₃.clock, w₄.etag, none⟩ :=
    EtagStore.lookup_tick_of_none n (by rw [FreezeInput.lookup_state_finished]) rfl
  have hmemory : ((i.finished B id s w₁ w₂ w₃ w₄ w₅ w₆ w₇).tick n).lookup
      (workingMemoryKey i.tenantId i.agentId)
        = some ⟨i.memBytes B w₁.clock, w₂.etag, some (s.time + 86400)⟩ := by
    rw [EtagStore.lookup_tick_of_some n (by rw [FreezeInput.lookup_memory_finished]) rfl,
      FreezeInput.time_finished, if_pos (by omega)]
  -- The frozen status passes the guard.
  refine hydrateOn_eq_ok.mpr ⟨_, _, hstate, B.state.decode_encodeToVec _, ?_, hmemory,
    B.memory.decode_encodeToVec _, rfl, rfl⟩
  intro hguard
  have hstatus : AgentLifecycleStatus.frozen.toI32 = AgentLifecycleStatus.active.toI32 :=
    hguard.1
  exact absurd hstatus (by decide)

/-- Hydrate undoes freeze: a freeze of current tags returns `Ok`, a hydrate within the life of
the memory record returns what was frozen, and every key but the two primary keys and one
checkpoint key keeps its cell. -/
theorem hydrate_after_freeze (hfits : i.Fits) (hcur : i.Current s) (h₂ : w₂.fault = none)
    (h₄ : w₄.fault = none) {n : Nat} (hn : n < 86400) (hv₁ : v₁.fault = none)
    (hv₂ : v₂.fault = none) (hv₃ : v₃.fault = none) :
    ∃ seq s' frozenAt snapshotAt,
      (exec (serve id) (freeze B i).run (w₁ :: w₂ :: w₃ :: w₄ :: w₅ :: w₆ :: w₇ :: ws) s).ending
        = .returned (.ok seq) ∧
      (exec (serve id) (freeze B i).run (w₁ :: w₂ :: w₃ :: w₄ :: w₅ :: w₆ :: w₇ :: ws) s).state
        = s' ∧
      (exec (serve id') (M.hydrate B i.tenantId i.agentId).run (v₁ :: v₂ :: v₃ :: vs)
          (s'.tick n)).ending
        = .returned (.ok ⟨thawedState B i.state i.workingMemory.version frozenAt,
            thawedMemory B i.workingMemory snapshotAt, false⟩) ∧
      ∃ cp, ∀ key, key ≠ agentStateKey i.tenantId i.agentId →
        key ≠ workingMemoryKey i.tenantId i.agentId →
        key ≠ checkpointKey i.tenantId i.agentId cp → s'.cells key = s.cells key := by
  refine ⟨finishedSeq w₅ w₇, i.finished B id s w₁ w₂ w₃ w₄ w₅ w₆ w₇, stampOf w₃.clock,
    stampOf w₁.clock, (exec_freeze hfits.increments hcur h₂ h₄).1,
    (exec_freeze hfits.increments hcur h₂ h₄).2, ?_, secondsOf w₅.clock, ?_⟩
  · rw [(exec_hydrate hv₁ hv₂ hv₃).2, hydrateOn_finished hn]
  · intro key hs hm hc
    exact FreezeInput.cells_finished _ _ _ _ _ _ _ _ _ _ _ hs hm hc

/-- The store that holds the filled records. -/
abbrev filledStore : Backing Unit :=
  pairStore () releaseBuild "acme" "writer" (filledState "acme" "writer")
    (filledMemory "acme" "writer") ⟨"1"⟩ ⟨"1"⟩

/-- A draining record with a task, hydrated an hour after its freeze: the task and its taint are
gone and the status is FROZEN, the turns, the goals and the slots are kept, and both versions are
one further on. -/
theorem hydrate_after_freeze_filled :
    ∃ seq s' r,
      (exec (serve ()) (freeze releaseBuild (filledInput "acme" "writer")).run blankAnswers
        filledStore).ending = .returned (.ok seq) ∧
      (exec (serve ()) (freeze releaseBuild (filledInput "acme" "writer")).run blankAnswers
        filledStore).state = s' ∧
      (exec (serve ()) (AgentHydrationManager.new.hydrate releaseBuild "acme" "writer").run
          blankAnswers (s'.tick 3600)).ending = .returned (.ok r) ∧
      r.recoveredFromCheckpoint = false ∧ r.state.currentTaskId = "" ∧
      r.state.currentTaskTaint = [] ∧ r.state.status = AgentLifecycleStatus.frozen.toI32 ∧
      r.state.totalTurns = 12 ∧
      r.state.goalStack = (filledState "acme" "writer").goalStack ∧
      r.state.workingMemoryVersion = 5 ∧ r.workingMemory.version = 5 ∧
      r.workingMemory.slots = (filledMemory "acme" "writer").slots ∧
      ∃ cp, ∀ key, key ≠ agentStateKey "acme" "writer" → key ≠ workingMemoryKey "acme" "writer" →
        key ≠ checkpointKey "acme" "writer" cp → s'.cells key = filledStore.cells key := by
  obtain ⟨seq, s', frozenAt, snapshotAt, hfrozen, hstate, hhydrated, hframe⟩ :
      ∃ seq s' frozenAt snapshotAt,
        (exec (serve ()) (freeze releaseBuild (filledInput "acme" "writer")).run blankAnswers
          filledStore).ending = .returned (.ok seq) ∧
        (exec (serve ()) (freeze releaseBuild (filledInput "acme" "writer")).run blankAnswers
          filledStore).state = s' ∧
        (exec (serve ()) (AgentHydrationManager.new.hydrate releaseBuild "acme" "writer").run
            blankAnswers (s'.tick 3600)).ending
          = .returned (.ok ⟨thawedState releaseBuild (filledState "acme" "writer") 4 frozenAt,
              thawedMemory releaseBuild (filledMemory "acme" "writer") snapshotAt, false⟩) ∧
        ∃ cp, ∀ key, key ≠ agentStateKey "acme" "writer" →
          key ≠ workingMemoryKey "acme" "writer" → key ≠ checkpointKey "acme" "writer" cp →
          s'.cells key = filledStore.cells key :=
    hydrate_after_freeze (fits_filledInput "acme" "writer") current_filledInput rfl rfl
      (by decide) rfl rfl rfl
  exact ⟨seq, s', _, hfrozen, hstate, hhydrated, rfl, rfl, rfl, rfl, rfl, rfl, rfl, rfl, rfl,
    hframe⟩

end SwarmRuntime.State
