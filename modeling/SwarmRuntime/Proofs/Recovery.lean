import SwarmRuntime.Lib.Runs
import SwarmRuntime.Proofs.Alone
import SwarmRuntime.State.Codec
import SwarmRuntime.State.Owner

/-!
# `SwarmRuntime.Proofs.Recovery`: one fault leaves something to recover from

An owner hydrates and freezes its agent, and at most one of its freezes is struck: a write of it
fails, or the client crashes in it. After every move the stored pair is whole, or the greatest
checkpoint of the agent holds the state record that is stored, with a memory of its version
(`run_recoverable`).

The invariant has two stages. Before the fault the pair is whole and the greatest checkpoint
covers it (`Synced`). A struck freeze tears the pair only by its memory write, which leaves the
state record and the checkpoints as they were. After the fault the pair is whole or covered, and a
torn pair is never hydrated, so no freeze comes after it.
-/

set_option autoImplicit false

namespace SwarmRuntime.State

open SwarmRuntime.Lib SwarmRuntime.Lib.Interaction

section
variable {A : Type}

/-- `cp` is stored under the greatest checkpoint key of the agent, in the order of bytes. -/
def GreatestCheckpoint (B : Build) (t a : String) (s : Backing A) (cp : CheckpointRecord) : Prop :=
  ∃ n c, s.lookup (checkpointKey t a n) = some c ∧ B.checkpoint.decode c.value = .ok cp ∧
    ∀ n' c', s.lookup (checkpointKey t a n') = some c' →
      ¬ utf8Bytes (checkpointKey t a n) < utf8Bytes (checkpointKey t a n')

/-- The checkpoint holds the state record, and a memory of its version. -/
def CheckpointRecord.Covers (cp : CheckpointRecord) (state : AgentStateRecord) : Prop :=
  cp.stateSnapshot = some state ∧
    ∃ mem, cp.memorySnapshot = some mem ∧ mem.version = state.workingMemoryVersion

/-- The stored pair is whole, and the greatest checkpoint of the agent covers it. -/
def Synced (B : Build) (t a : String) (s : Backing A) : Prop :=
  ∃ state mem cp, HoldsPair B t a s state mem ∧ state.workingMemoryVersion = mem.version ∧
    GreatestCheckpoint B t a s cp ∧ cp.Covers state

/-- The stored pair is whole, or the greatest checkpoint of the agent covers its state. -/
def Recoverable (B : Build) (t a : String) (s : Backing A) : Prop :=
  ∃ state mem, HoldsPair B t a s state mem ∧ (state.workingMemoryVersion = mem.version ∨
    ∃ cp, GreatestCheckpoint B t a s cp ∧ cp.Covers state)

end

/-- The freeze of the move is struck: a call of it fails, or the client crashes in it. -/
def OwnerMove.struck : OwnerMove → Bool
  | .freeze _ answers => !decide (Calm 7 answers)
  | _ => false

namespace Owner

/-- What the run assumes of a move: nothing expires, and the clock that a freeze reads is not
behind a stored checkpoint. -/
def Admits (t a : String) (o : Owner) : OwnerMove → Prop
  | .wait n => ∀ key, (o.store.tick n).lookup key = o.store.lookup key
  | .hydrate _ => True
  | .freeze _ answers => ∀ w ∈ answers, ∀ n c,
      o.store.lookup (checkpointKey t a n) = some c → n ≤ secondsOf w.clock

end Owner

section
variable {A : Type} {B : Build} {t a : String} {s s' : Backing A}

/-! ### Stores that read alike -/

theorem HoldsPair.congr {state : AgentStateRecord} {mem : WorkingMemoryRecord}
    (h : HoldsPair B t a s state mem) (hsame : ∀ key, s'.lookup key = s.lookup key) :
    HoldsPair B t a s' state mem := by
  obtain ⟨cs, hcs, hdecs⟩ := h.stateRecord
  obtain ⟨cm, hcm, hdecm⟩ := h.memoryRecord
  exact ⟨⟨cs, by rw [hsame, hcs], hdecs⟩, ⟨cm, by rw [hsame, hcm], hdecm⟩⟩

/-- Only the checkpoints of the agent matter for its greatest one. -/
theorem GreatestCheckpoint.congr {cp : CheckpointRecord} (h : GreatestCheckpoint B t a s cp)
    (hsame : ∀ n, s'.lookup (checkpointKey t a n) = s.lookup (checkpointKey t a n)) :
    GreatestCheckpoint B t a s' cp := by
  obtain ⟨n, c, hc, hdec, hmax⟩ := h
  refine ⟨n, c, by rw [hsame, hc], hdec, ?_⟩
  intro n' c' hc'
  rw [hsame] at hc'
  exact hmax n' c' hc'

theorem Synced.congr (h : Synced B t a s) (hsame : ∀ key, s'.lookup key = s.lookup key) :
    Synced B t a s' := by
  obtain ⟨state, mem, cp, hpair, hver, hcp, hcovers⟩ := h
  exact ⟨state, mem, cp, hpair.congr hsame, hver, hcp.congr fun n => hsame _, hcovers⟩

theorem Recoverable.congr (h : Recoverable B t a s) (hsame : ∀ key, s'.lookup key = s.lookup key) :
    Recoverable B t a s' := by
  obtain ⟨state, mem, hpair, hver | ⟨cp, hcp, hcovers⟩⟩ := h
  · exact ⟨state, mem, hpair.congr hsame, .inl hver⟩
  · exact ⟨state, mem, hpair.congr hsame, .inr ⟨cp, hcp.congr fun n => hsame _, hcovers⟩⟩

theorem FreezeInput.Current.congr {i : FreezeInput} (h : i.Current s)
    (hsame : ∀ key, s'.lookup key = s.lookup key) : i.Current s' := by
  obtain ⟨cs, hcs, hes⟩ := h.state
  obtain ⟨cm, hcm, hem⟩ := h.memory
  exact ⟨⟨cs, by rw [hsame, hcs], hes⟩, ⟨cm, by rw [hsame, hcm], hem⟩⟩

theorem Synced.recoverable (h : Synced B t a s) : Recoverable B t a s := by
  obtain ⟨state, mem, cp, hpair, hver, -⟩ := h
  exact ⟨state, mem, hpair, .inl hver⟩

end

/-! ### What a freeze leaves -/

section
variable {A : Type} {B : Build} {i : FreezeInput} {t a : String} {id : A} {s : Backing A}
  {c₁ c₂ c₃ c₄ : Option Duration} {e₁ e₂ e₃ : ETag}

/-- The memory write tears the pair, and what covered the state still covers it. -/
theorem recoverable_withMemory (ht : i.tenantId = t) (ha : i.agentId = a)
    (h : Synced B t a s) : Recoverable B t a (i.withMemory B id s c₁ e₁) := by
  subst ht ha
  -- The state record and the checkpoints are as they were.
  obtain ⟨state, mem, cp, hpair, -, hcp, hcovers⟩ := h
  obtain ⟨cs, hcs, hdecs⟩ := hpair.stateRecord
  refine ⟨state, i.frozenMemory B c₁, ⟨⟨cs, ?_, hdecs⟩,
    ⟨_, i.lookup_memory_withMemory B id s c₁ e₁, B.memory.decode_encodeToVec _⟩⟩,
    .inr ⟨cp, hcp.congr fun n => ?_, hcovers⟩⟩
  · show (i.withMemory B id s c₁ e₁).lookup (agentStateKey _ _) = some cs
    rw [FreezeInput.lookup_state_withMemory, hcs]
  · show (i.withMemory B id s c₁ e₁).lookup (checkpointKey _ _ n) = s.lookup (checkpointKey _ _ n)
    rw [FreezeInput.lookup_checkpoint_withMemory]

/-- The state write makes the pair whole. -/
theorem recoverable_withState (ht : i.tenantId = t) (ha : i.agentId = a) :
    Recoverable B t a (i.withState B id s c₁ c₂ e₁ e₂) := by
  subst ht ha
  exact ⟨i.frozenState B c₁ c₂, i.frozenMemory B c₁,
    ⟨⟨_, i.lookup_state_withState B id s c₁ c₂ e₁ e₂, B.state.decode_encodeToVec _⟩,
      ⟨_, i.lookup_memory_withState B id s c₁ c₂ e₁ e₂, B.memory.decode_encodeToVec _⟩⟩,
    .inl rfl⟩

/-- The checkpoint write covers the pair, when its clock is not behind a stored checkpoint. -/
theorem synced_withCheckpoint (ht : i.tenantId = t) (ha : i.agentId = a)
    (hclock : ∀ n c, s.lookup (checkpointKey t a n) = some c → n ≤ secondsOf c₃) :
    Synced B t a (i.withCheckpoint B id s c₁ c₂ c₃ c₄ e₁ e₂ e₃) := by
  subst ht ha
  refine ⟨i.frozenState B c₁ c₂, i.frozenMemory B c₁, i.frozenCheckpoint B c₁ c₂ (secondsOf c₃) c₄,
    ⟨⟨_, i.lookup_state_withCheckpoint B id s c₁ c₂ c₃ c₄ e₁ e₂ e₃, B.state.decode_encodeToVec _⟩,
      ⟨_, i.lookup_memory_withCheckpoint B id s c₁ c₂ c₃ c₄ e₁ e₂ e₃,
        B.memory.decode_encodeToVec _⟩⟩, rfl,
    ⟨secondsOf c₃, _, i.lookup_checkpoint_withCheckpoint B id s c₁ c₂ c₃ c₄ e₁ e₂ e₃,
      B.checkpoint.decode_encodeToVec _, ?_⟩, rfl, _, rfl, rfl⟩
  intro n c hc
  rw [checkpointKey_bytes_lt, UInt64.not_lt]
  -- Every other checkpoint was there before, and the clock was not behind it.
  by_cases hn : n = secondsOf c₃
  · rw [hn]
    exact UInt64.le_refl _
  · rw [FreezeInput.lookup_checkpoint_withCheckpoint_of_ne _ _ _ _ _ _ _ _ _ _ _ hn] at hc
    exact hclock n c hc

end

namespace Owner

variable {M : AgentHydrationManager} {B : Build} {t a : String} {o o' : Owner}

/-! ### One move -/

/-- The invariant, after `n` struck freezes. -/
structure Guarded (B : Build) (t a : String) (n : Nat) (o : Owner) : Prop where
  synced : n = 0 → Synced B t a o.store
  recoverable : Recoverable B t a o.store
  current : ∀ h, o.held = some h → ∀ edit, (h.input t a edit).Current o.store

/-- A hydrate leaves the client with current tags. -/
theorem current_of_hydrate {ws : List Answer} {h : Held}
    (hheld : o.heldAfter M B t a ws = some h) (edit : Edit) :
    (h.input t a edit).Current o.store := by
  unfold heldAfter at hheld
  split at hheld
  · rename_i r cs cm hr hcs hcm
    rw [Option.some.injEq] at hheld
    subst hheld
    exact ⟨⟨cs, hcs, rfl⟩, ⟨cm, hcm, rfl⟩⟩
  · cases hheld

/-- A freeze that is not struck writes all three records, or nothing when its version
overflows. -/
theorem Guarded.freeze_calm {n : Nat} (hg : Guarded B t a n o) {h : Held}
    (hheld : o.held = some h) {edit : Edit} {ws : List Answer}
    (hok : o.Admits t a (.freeze edit ws)) (hws : Calm 7 ws) :
    Guarded B t a n ⟨(o.freezeOutcome B t a h edit ws).state, none⟩ := by
  by_cases hinc : (h.input t a edit).Increments B
  · obtain ⟨w₁, w₂, w₃, w₄, w₅, w₆, w₇, rest, rfl, hstate⟩ :=
      exec_freeze_state hinc (hg.current h hheld edit) hws
    have hsynced : Synced B t a (o.freezeOutcome B t a h edit
        (w₁ :: w₂ :: w₃ :: w₄ :: w₅ :: w₆ :: w₇ :: rest)).state := by
      unfold freezeOutcome
      rw [hstate]
      exact synced_withCheckpoint rfl rfl fun n c hc => hok w₅ (by simp) n c hc
    exact ⟨fun _ => hsynced, hsynced.recoverable, fun h' hh' => by cases hh'⟩
  · have hstate : (o.freezeOutcome B t a h edit ws).state = o.store := by
      unfold freezeOutcome
      rw [freeze_run_overflow hinc, exec_panic]
    rw [hstate]
    exact ⟨hg.synced, hg.recoverable, fun h' hh' => by cases hh'⟩

/-- A struck freeze, the first of the run. -/
theorem Guarded.freeze_struck (hg : Guarded B t a 0 o) {h : Held} (hheld : o.held = some h)
    {edit : Edit} {ws : List Answer} (hok : o.Admits t a (.freeze edit ws)) :
    Guarded B t a 1 ⟨(o.freezeOutcome B t a h edit ws).state, none⟩ := by
  refine ⟨fun hn => absurd hn Nat.one_ne_zero, ?_, fun h' hh' => by cases hh'⟩
  show Recoverable B t a (o.freezeOutcome B t a h edit ws).state
  have hsynced : Synced B t a o.store := hg.synced rfl
  -- Wherever the fault struck, the store is one of four.
  have hleft : FreezeLeft B (h.input t a edit) () o.store ws
      (o.freezeOutcome B t a h edit ws).state := exec_freeze_left (hg.current h hheld edit) ws
  generalize (o.freezeOutcome B t a h edit ws).state = s' at hleft
  cases hleft with
  | nothing => exact hg.recoverable
  | memory c₁ e₁ => exact recoverable_withMemory rfl rfl hsynced
  | state c₁ c₂ e₁ e₂ => exact recoverable_withState rfl rfl
  | checkpoint c₁ c₂ c₄ e₁ e₂ e₃ w hw =>
    apply Synced.recoverable
    exact synced_withCheckpoint rfl rfl fun n c hc => hok w hw n c hc

/-- One move keeps the invariant. -/
theorem Guarded.step {n : Nat} (hg : Guarded B t a n o) {m : OwnerMove} (hok : o.Admits t a m)
    (hfaults : n + (if m.struck then 1 else 0) ≤ 1) :
    Guarded B t a (n + if m.struck then 1 else 0) (o.step M B t a m) := by
  cases m with
  | wait k =>
    exact ⟨fun hn => (hg.synced hn).congr hok, hg.recoverable.congr hok, fun h hh edit =>
      (hg.current h hh edit).congr hok⟩
  | hydrate ws =>
    have hstate : (o.hydrateOutcome M B t a ws).state = o.store := (exec_hydrate_reads ws).1
    show Guarded B t a n ⟨(o.hydrateOutcome M B t a ws).state, o.heldAfter M B t a ws⟩
    rw [hstate]
    exact ⟨hg.synced, hg.recoverable, fun h hh edit => current_of_hydrate hh edit⟩
  | freeze edit ws =>
    cases hheld : o.held with
    | none =>
      have hstep : o.step M B t a (.freeze edit ws) = o := by simp only [Owner.step, hheld]
      rw [hstep]
      refine ⟨fun hn => hg.synced (by omega), hg.recoverable, hg.current⟩
    | some h =>
      have hstep : o.step M B t a (.freeze edit ws)
          = ⟨(o.freezeOutcome B t a h edit ws).state, none⟩ := by simp only [Owner.step, hheld]
      rw [hstep]
      -- A calm freeze keeps the count of faults, and a struck one uses up the only fault.
      by_cases hws : Calm 7 ws
      · have hcalm : (OwnerMove.freeze edit ws).struck = false := by
          simp [OwnerMove.struck, hws]
        rw [hcalm]
        exact hg.freeze_calm hheld hok hws
      · have hstruck : (OwnerMove.freeze edit ws).struck = true := by
          simp [OwnerMove.struck, hws]
        rw [hstruck, if_pos rfl] at hfaults ⊢
        have hn : n = 0 := by omega
        subst hn
        exact hg.freeze_struck hheld hok

/-! ### The run -/

/-- After every move of a run with at most one struck freeze, the stored pair is whole, or the
greatest checkpoint of the agent covers the stored state. -/
theorem run_recoverable {ms : List OwnerMove} (hstart : Synced B t a o.store)
    (hheld : o.held = none)
    (h : Run (fun o m => some (o.step M B t a m)) (Admits t a) o ms o')
    (hfaults : ms.countP OwnerMove.struck ≤ 1) : Recoverable B t a o'.store := by
  -- The invariant counts the faults of the run so far.
  have hguarded : Guarded B t a (ms.countP OwnerMove.struck) o' := by
    induction h with
    | nil => exact ⟨fun _ => hstart, hstart.recoverable, fun h hh => by rw [hheld] at hh; cases hh⟩
    | snoc hr hok hs ih =>
      rw [List.countP_append, List.countP_singleton] at hfaults ⊢
      rw [Option.some.injEq] at hs
      subst hs
      exact (ih (by omega)).step hok hfaults
  exact hguarded.recoverable

/-- A freeze that has just written its checkpoint starts a run. -/
theorem synced_frozenStore : Synced B t a (frozenStore () () B t a) :=
  synced_withCheckpoint rfl rfl fun n c hc => by
    rw [lookup_checkpoint_pairStore] at hc
    cases hc

/-- Its checkpoint is the only one. -/
theorem eq_of_checkpoint_frozenStore {n : UInt64} {c : Cell Bytes ETag}
    (hc : (frozenStore () () B t a).lookup (checkpointKey t a n) = some c) : n = 1700000000 := by
  by_contra hn
  have hnone : (frozenStore () () B t a).lookup (checkpointKey t a n) = none :=
    ((blankInput t a).lookup_checkpoint_withCheckpoint_of_ne B () (blankStore () B t a) _ _ _ _ _ _
      _ hn).trans (lookup_checkpoint_pairStore t a n)
  rw [hnone] at hc
  cases hc

/-- A client that crashes right after the memory write of its freeze. -/
theorem recoverable_crash :
    Recoverable releaseBuild "acme" "writer"
      (((⟨frozenStore () () releaseBuild "acme" "writer", none⟩ : Owner).step .new releaseBuild
        "acme" "writer" (.hydrate blankAnswers)).step .new releaseBuild "acme" "writer"
          (.freeze ⟨blankState "acme" "writer", blankMemory "acme" "writer", .freeze⟩
            [answerWith "9", answerWith "10"])).store := by
  let o : Owner := ⟨frozenStore () () releaseBuild "acme" "writer", none⟩
  have hstart : Admits "acme" "writer" o (.hydrate blankAnswers) := trivial
  have hstore : (o.hydrateOutcome .new releaseBuild "acme" "writer" blankAnswers).state = o.store :=
    (exec_hydrate_reads blankAnswers).1
  have hcrash : Admits "acme" "writer"
      (o.step .new releaseBuild "acme" "writer" (.hydrate blankAnswers))
      (.freeze ⟨blankState "acme" "writer", blankMemory "acme" "writer", .freeze⟩
        [answerWith "9", answerWith "10"]) := by
    intro w hw n c hc
    have hc : (o.hydrateOutcome .new releaseBuild "acme" "writer" blankAnswers).state.lookup
        (checkpointKey "acme" "writer" n) = some c := hc
    rw [hstore] at hc
    rw [eq_of_checkpoint_frozenStore hc]
    simp only [List.mem_cons, List.not_mem_nil, or_false] at hw
    rcases hw with rfl | rfl
    · decide
    · decide
  exact run_recoverable synced_frozenStore rfl (.snoc (.snoc .nil hstart rfl) hcrash rfl)
    (by decide)

end Owner

end SwarmRuntime.State
