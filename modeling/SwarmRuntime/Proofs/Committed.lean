import SwarmRuntime.Proofs.Phases

/-!
# `SwarmRuntime.Proofs.Committed`: a checkpoint is a committed pair

A freeze writes its checkpoint last, after other clients may have overtaken it, and they may
write the same checkpoint key. Still each checkpoint that a freeze has written holds a pair that
was stored (`checkpoints_committed`): when a state write succeeds, the memory record of the
same freeze is the newest one, by the phases of the agent. This holds in every run of clients
that freeze what they have hydrated, with crashes and failing calls.

In a build that does not check overflow the versions wrap, so the run has to be shorter than
one round of the versions.
-/

set_option autoImplicit false

namespace SwarmRuntime.State

open SwarmRuntime.Lib SwarmRuntime.Lib.Interaction

namespace Swarm

variable {M : AgentHydrationManager} {B : Build} {t a : String} {P P' : Swarm} {m : SwarmMove}
  {s₀ : Backing Author} {ms : List SwarmMove}
  {state₀ : AgentStateRecord} {mem₀ : WorkingMemoryRecord}

/-! ### The moment of the state write -/

/-- Right after its state write succeeds, the records of a freeze are the stored pair. -/
theorem holdsPair_of_wrote (hinit : StartsWith B t a s₀ state₀ mem₀)
    (hlive : HoldsPair B t a s₀ state₀ mem₀)
    (h : Run (step M B) (FreezesHydrated t a) (start s₀) ms P)
    (hdistinct : DistinctVersions B t a P.shared) (hok : FreezesHydrated t a P m)
    (hs : step M B P m = some P') {id : Nat} {i : FreezeInput} {c₁ c₂ : Option Duration}
    {e₁ : ETag} {w : Answer} (hroot : keyRoot i.tenantId i.agentId = keyRoot t a)
    (hw : Wrote P P' m id (.freeze i) [⟨.now, c₁⟩, ⟨i.memoryWrite B c₁, .ok e₁⟩, ⟨.now, c₂⟩]
      (agentStateKey t a) (i.stateBytes B c₁ c₂) (some i.stateEtag) .none w) :
    HoldsPair B t a P'.shared (i.frozenState B c₁ c₂) (i.frozenMemory B c₁) := by
  obtain ⟨vm, hvm, -⟩ := hinit.memoryRecord
  obtain ⟨vs, hvs, -⟩ := hinit.stateRecord
  have h' : Run (step M B) (FreezesHydrated t a) (start s₀) (ms ++ [m]) P' := .snoc h hok hs
  obtain ⟨⟨cs, hcs⟩, ⟨cm, hcm⟩⟩ := run_present hlive h'
  -- Both cells are the newest entries, and both of these are of this freeze.
  obtain ⟨x, olderx, hhistx, hxv, -⟩ := (run_journaled hvs.journaled h').exists_newest hcs
  obtain ⟨y, oldery, hhisty, hyv, -⟩ := (run_journaled hvm.journaled h').exists_newest hcm
  obtain ⟨next, hp⟩ := hw.before
  obtain ⟨y₀, older, hhist, -, -⟩ :=
    (run_phase hinit (run_freezesInputs h) hdistinct).busy_of_pending hinit h hroot hp
  rw [hw.history_self, List.cons.injEq] at hhistx
  rw [hw.history_of_ne (agentStateKey_ne_workingMemoryKey _ _ _ _).symm, hhist,
    List.cons.injEq] at hhisty
  refine ⟨⟨cs, hcs, ?_⟩, ⟨cm, hcm, ?_⟩⟩
  · show B.state.decode cs.value = .ok (i.frozenState B c₁ c₂)
    rw [← hxv, ← hhistx.1]
    exact B.state.decode_encodeToVec _
  · show B.memory.decode cm.value = .ok (i.frozenMemory B c₁)
    rw [← hyv, ← hhisty.1]
    exact B.memory.decode_encodeToVec _

/-- A freeze that has written its state has stored its pair. -/
theorem run_once_held (hinit : StartsWith B t a s₀ state₀ mem₀)
    (hlive : HoldsPair B t a s₀ state₀ mem₀)
    (h : Run (step M B) (FreezesHydrated t a) (start s₀) ms P)
    (hdistinct : DistinctVersions B t a P.shared) {id : Nat} {p : Proc Reply Request Response}
    (hp : P.procs id = some p) {i : FreezeInput} (hq : p.request = .freeze i)
    (hroot : keyRoot i.tenantId i.agentId = keyRoot t a) {c₁ c₂ : Option Duration}
    {e₁ e₂ : ETag} {tail : Transcript Reply}
    (htr : p.transcript = [⟨.now, c₁⟩, ⟨i.memoryWrite B c₁, .ok e₁⟩, ⟨.now, c₂⟩] ++
      ⟨i.stateWrite B c₁ c₂, .ok e₂⟩ :: tail) :
    Once (step M B) (FreezesHydrated t a) (start s₀) ms fun P' =>
      HoldsPair B t a P'.shared (i.frozenState B c₁ c₂) (i.frozenMemory B c₁) := by
  obtain ⟨pre, w, post, P₁, P₂, next, rfl, hpre, hok, hs, hpost, hp₁, hreply⟩ :=
    Pool.run_served h (fun _ hp => by cases hp) hp htr
  rw [hq] at hp₁
  obtain ⟨hw, -⟩ := wrote_of_served hs hp₁ hreply.symm
  rw [(agentStateKey_eq_iff _ _ _ _).mpr hroot] at hw
  have hlater : P₁.shared.Later P.shared := (step_later hs).trans (run_later hpost)
  refine ⟨pre ++ [.serve id w], P₂, by simp, .snoc hpre hok hs, ?_⟩
  exact holdsPair_of_wrote hinit hlive hpre (hdistinct.of_later hlater) hok hs hroot hw

/-! ### The checkpoints -/

/-- The bytes are a checkpoint of two records of one version, and these were the stored pair of
the agent at a moment of the run. -/
def Committed (M : AgentHydrationManager) (B : Build) (t a : String) (s₀ : Backing Author)
    (ms : List SwarmMove) (bytes : Bytes) : Prop :=
  ∃ cp state mem, B.checkpoint.decode bytes = .ok cp ∧ cp.stateSnapshot = some state ∧
    cp.memorySnapshot = some mem ∧ state.workingMemoryVersion = mem.version ∧
    Once (step M B) (FreezesHydrated t a) (start s₀) ms fun P =>
      HoldsPair B t a P.shared state mem

/-- Each checkpoint that a freeze of the run has put under a checkpoint key of the agent is a
committed pair. -/
theorem checkpoints_committed (hinit : StartsWith B t a s₀ state₀ mem₀)
    (hlive : HoldsPair B t a s₀ state₀ mem₀)
    (h : Run (step M B) (FreezesHydrated t a) (start s₀) ms P)
    (hshort : B.overflowChecks = false → ms.length < 2 ^ 64) {n : UInt64}
    {x : Entry String Bytes ETag Author} (hx : x ∈ P.shared.history (checkpointKey t a n))
    {id : Nat} (hid : x.author = some id) : Committed M B t a s₀ ms x.value := by
  obtain ⟨p, etag, ttl, hp, hmem⟩ := run_wrote hinit.unauthored h hx hid
  obtain ⟨i, c₁, c₂, c₃, c₄, e₁, e₂, tail, hq, hroot, -, hvalue, htr⟩ :=
    run_checkpointWrites h hp hmem
  have hdistinct : DistinctVersions B t a P.shared :=
    distinct_of_short hinit (run_freezesInputs h) hshort
  have honce := run_once_held hinit hlive h hdistinct hp hq hroot htr
  refine ⟨i.frozenCheckpoint B c₁ c₂ n c₄, i.frozenState B c₁ c₂, i.frozenMemory B c₁, ?_, rfl,
    rfl, rfl, honce⟩
  rw [hvalue]
  exact B.checkpoint.decode_encodeToVec _

/-- The checkpoint of client 1, which freezes the blank records that client 0 has hydrated. -/
theorem checkpoints_committed_blank :
    ∃ ms P x, Run (step .new debugBuild) (FreezesHydrated "acme" "writer")
        (start (blankStore none debugBuild "acme" "writer")) ms P ∧
      x ∈ P.shared.history (checkpointKey "acme" "writer" 1700000000) ∧ x.author = some 1 ∧
      Committed .new debugBuild "acme" "writer" (blankStore none debugBuild "acme" "writer") ms
        x.value := by
  obtain ⟨ms, P, -, -, hrun, -, -, -, hshared, -⟩ :=
    run_replaces_blank .new freezesHydrated_hydrate admitsSmooth_freezesHydrated
      fun P p rs rm hp hreads => freezesHydrated_freeze (afterHydrate_blank hp hreads)
  -- The checkpoint is the last write of client 1.
  have hx : ∃ value, ⟨checkpointKey "acme" "writer" 1700000000, value, ⟨"8"⟩, some 1⟩ ∈
      P.shared.history (checkpointKey "acme" "writer" 1700000000) := by
    rw [hshared]
    show ∃ value, _ ∈ (EtagStore.put _ _ (checkpointKey "acme" "writer" 1700000000) _ _
      _).history _
    rw [EtagStore.history_put_self]
    exact ⟨_, List.mem_cons_self⟩
  obtain ⟨value, hx⟩ := hx
  refine ⟨ms, P, _, hrun, hx, rfl, ?_⟩
  exact checkpoints_committed (startsWith_pairStore rfl) holdsPair_pairStore hrun
    (fun hno => by cases hno) hx rfl

end Swarm

end SwarmRuntime.State
