import SwarmRuntime.Proofs.Phases

/-!
# `SwarmRuntime.Proofs.CompareAndSwap`: a freeze is one compare-and-swap on the pair

A freeze makes two guarded writes, one for each record, and returns early between them when
the first one conflicts. Clients that freeze with the tags that their own hydrate read see
the two writes as one: a freeze replaces the pair that its hydrate returned, or it returns
`ETagConflict` and has written nothing (`freeze_compare_and_swap`). Here no client crashes and
no primary write fails, so each phase ends.
-/

set_option autoImplicit false

namespace SwarmRuntime.State

open SwarmRuntime.Lib SwarmRuntime.Lib.Interaction

namespace Swarm

variable {M : AgentHydrationManager} {B : Build} {t a : String} {P P' : Swarm} {m : SwarmMove}
  {s₀ : Backing Author} {ms : List SwarmMove}
  {state₀ : AgentStateRecord} {mem₀ : WorkingMemoryRecord}

/-- The moves of clients that freeze the agent with what they have hydrated, without a crash,
without an expiry of the two primary records, and without a store error on them other than
`ETagConflict`. The checkpoint write can fail, and so can each read. -/
structure HydratesFirst (t a : String) (P : Swarm) (m : SwarmMove) : Prop
    extends FreezesHydrated t a P m where
  noFault : ∀ id w key value etag ttl, m = .serve id w →
    P.pending id = some (.set key value etag ttl) →
    key = agentStateKey t a ∨ key = workingMemoryKey t a → w.fault = none
  noCrash : ∀ id, m ≠ .crash id

/-- The moves of these clients are moves of clients that can crash and whose calls can fail. -/
theorem run_freezesHydrated (h : Run (step M B) (HydratesFirst t a) (start s₀) ms P) :
    Run (step M B) (FreezesHydrated t a) (start s₀) ms P :=
  h.mono fun _ _ _ _ hok => hok.toFreezesHydrated

/-- Each state write of a freeze that has its reply was a write that succeeds, on what the
freeze finds. -/
theorem run_state_write (hinit : StartsWith B t a s₀ state₀ mem₀)
    (hlive : HoldsPair B t a s₀ state₀ mem₀)
    (h : Run (step M B) (HydratesFirst t a) (start s₀) ms P)
    (hdistinct : DistinctVersions B t a P.shared) {id : Nat}
    {p : Proc Reply Request Response} (hp : P.procs id = some p) {i : FreezeInput}
    (hq : p.request = .freeze i) (hroot : keyRoot i.tenantId i.agentId = keyRoot t a)
    {value : Bytes} {etag : Option ETag} {ttl : TtlPolicy} {reply : StateResult ETag}
    (hmem : ⟨.set (agentStateKey t a) value etag ttl, reply⟩ ∈ p.transcript) :
    ∃ P₁ P₂ w r c₁ c₂ e₁ x y xs ys, reply = .ok w.etag ∧ AfterHydrate P i r ∧
      Finds B t a P₁.shared id i r c₁ e₁ x y xs ys ∧
      Wrote P₁ P₂ (.serve id w) id (.freeze i)
        [⟨.now, c₁⟩, ⟨i.memoryWrite B c₁, .ok e₁⟩, ⟨.now, c₂⟩] (agentStateKey t a)
        (i.stateBytes B c₁ c₂) (some i.stateEtag) .none w ∧
      P₂.shared.Later P.shared := by
  obtain ⟨t₁, t₂, ht⟩ := List.append_of_mem hmem
  obtain ⟨pre, w, post, P₁, P₂, next, -, hpre, hok, hs, hpost, hp₁, hreply⟩ :=
    Pool.run_served h (fun _ hp => by cases hp) hp ht
  rw [hq] at hp₁
  obtain ⟨i', hi', hwrite⟩ := write_cases hpre hp₁
  cases hi'
  obtain ⟨-, c₁, c₂, e₁, rfl, rfl, rfl, rfl⟩ := hwrite.eq_state rfl
  have hpre' := run_freezesHydrated hpre
  obtain ⟨r, hfrom⟩ := run_afterHydrate (run_freezesInputs hpre') hp₁ rfl hroot
  have hdistinct₁ : DistinctVersions B t a P₁.shared :=
    hdistinct.of_later ((step_later hs).trans (run_later hpost))
  obtain ⟨x, y, xs, ys, hfinds⟩ :=
    pending_state_write_finds hinit hlive hpre' hdistinct₁ hroot hp₁ hfrom
  have hpending : Swarm.pending P₁ id
      = some (.set (agentStateKey t a) (i.stateBytes B c₁ c₂) (some i.stateEtag) .none) := by
    rw [Swarm.pending, hp₁]
  -- The call does not fail, and its guard passes: the write succeeds.
  have hfault : w.fault = none := hok.noFault id w _ _ _ _ rfl hpending (.inl rfl)
  have hserve : (serve (some id) (.set (agentStateKey t a) (i.stateBytes B c₁ c₂)
      (some i.stateEtag) .none) w P₁.shared).1 = .ok w.etag := by
    rw [serve_set_of_accepts hfault hfinds.accepted]
  obtain ⟨hwrote, -⟩ := wrote_of_served hs hp₁ hserve
  exact ⟨P₁, P₂, w, r, c₁, c₂, e₁, x, y, xs, ys, hreply.trans hserve,
    (hfrom.kept hs).kept_run hpost, hfinds, hwrote, run_later hpost⟩

/-- In both histories the freeze `id` stands directly on top of the pair `r`, and the author
of that pair is the author of both of its records. -/
def Swapped (B : Build) (t a : String) (state₀ : AgentStateRecord) (mem₀ : WorkingMemoryRecord)
    (P : Swarm) (id : Nat) (i : FreezeInput) (r : HydrationResult) : Prop :=
  ∃ x x₀ xs y y₀ ys c₁ c₂,
    x :: x₀ :: xs <:+ P.shared.history (agentStateKey t a) ∧
    y :: y₀ :: ys <:+ P.shared.history (workingMemoryKey t a) ∧ xs.length = ys.length ∧
    x.author = some id ∧ y.author = some id ∧
    x.value = i.stateBytes B c₁ c₂ ∧ y.value = i.memBytes B c₁ ∧
    B.state.decode x₀.value = .ok r.state ∧ B.memory.decode y₀.value = .ok r.workingMemory ∧
    x₀.author = y₀.author ∧ Origin B t a state₀ mem₀ P r.state r.workingMemory x₀.author

/-- A freeze that returns `Ok` has replaced the pair that its hydrate returned. -/
theorem run_swapped (hinit : StartsWith B t a s₀ state₀ mem₀)
    (hlive : HoldsPair B t a s₀ state₀ mem₀)
    (h : Run (step M B) (HydratesFirst t a) (start s₀) ms P)
    (hdistinct : DistinctVersions B t a P.shared) {id : Nat}
    {p : Proc Reply Request Response} (hp : P.procs id = some p) {i : FreezeInput}
    (hq : p.request = .freeze i) (hroot : keyRoot i.tenantId i.agentId = keyRoot t a)
    {value : Bytes} {etag : Option ETag} {ttl : TtlPolicy} {reply : StateResult ETag}
    (hmem : ⟨.set (agentStateKey t a) value etag ttl, reply⟩ ∈ p.transcript) :
    ∃ r, AfterHydrate P i r ∧ Swapped B t a state₀ mem₀ P id i r := by
  obtain ⟨P₁, P₂, w, r, c₁, c₂, e₁, x, y, xs, ys, -, hfrom, hfinds, hw, hlater⟩ :=
    run_state_write hinit hlive h hdistinct hp hq hroot hmem
  have hne : agentStateKey t a ≠ workingMemoryKey t a :=
    agentStateKey_ne_workingMemoryKey _ _ _ _
  -- The two histories right after the state write.
  have hhistx : P₂.shared.history (agentStateKey t a)
      = ⟨agentStateKey t a, i.stateBytes B c₁ c₂, w.etag, some id⟩ :: x :: xs := by
    rw [hw.history_self, hfinds.stateHistory]
  have hhisty : P₂.shared.history (workingMemoryKey t a)
      = ⟨workingMemoryKey t a, i.memBytes B c₁, e₁, some id⟩ :: y :: ys := by
    rw [hw.history_of_ne hne.symm, hfinds.memoryHistory]
  have hx : x ∈ P.shared.history (agentStateKey t a) :=
    hlater.mem_history (by simp [hhistx])
  have hy : y ∈ P.shared.history (workingMemoryKey t a) :=
    hlater.mem_history (by simp [hhisty])
  have horigin : Origin B t a state₀ mem₀ P r.state r.workingMemory x.author :=
    run_origin hinit h hdistinct hx hy hfinds.paired.author.symm hfinds.paired.version.symm
      hfinds.state hfinds.memory
  refine ⟨r, hfrom, ⟨agentStateKey t a, i.stateBytes B c₁ c₂, w.etag, some id⟩, x, xs,
    ⟨workingMemoryKey t a, i.memBytes B c₁, e₁, some id⟩, y, ys, c₁, c₂, ?_, ?_,
    hfinds.length, rfl, rfl, rfl, rfl, hfinds.state, hfinds.memory, hfinds.paired.author,
    horigin⟩
  · show _ :: x :: xs <:+ P.shared.history (agentStateKey t a)
    rw [← hhistx]
    exact hlater.history _
  · show _ :: y :: ys <:+ P.shared.history (workingMemoryKey t a)
    rw [← hhisty]
    exact hlater.history _

/-- A freeze whose memory write fails was refused by the store, and has written nothing. -/
theorem run_refused (hinit : StartsWith B t a s₀ state₀ mem₀)
    (h : Run (step M B) (HydratesFirst t a) (start s₀) ms P) {id : Nat}
    {p : Proc Reply Request Response} (hp : P.procs id = some p) {i : FreezeInput}
    (hroot : keyRoot i.tenantId i.agentId = keyRoot t a) {c₁ : Option Duration} {e : StateError}
    (htr : p.transcript = [⟨.now, c₁⟩, ⟨i.memoryWrite B c₁, .error e⟩]) :
    e = .eTagConflict (workingMemoryKey t a) ∧
      ∀ x ∈ P.shared.journal, x.author ≠ some id := by
  constructor
  · show e = .eTagConflict (workingMemoryKey t a)
    have htr' : p.transcript = [⟨.now, c₁⟩] ++ ⟨i.memoryWrite B c₁, .error e⟩ :: [] := htr
    obtain ⟨pre, w, post, P₁, P₂, next, -, -, hok, -, -, hp₁, hreply⟩ :=
      Pool.run_served h (fun _ hp => by cases hp) hp htr'
    have hkey : workingMemoryKey i.tenantId i.agentId = workingMemoryKey t a :=
      (workingMemoryKey_eq_iff _ _ _ _).mpr hroot
    have hpending : Swarm.pending P₁ id = some (i.memoryWrite B c₁) := by
      rw [Swarm.pending, hp₁]
    have hfault : w.fault = none := hok.noFault id w _ _ _ _ rfl hpending (.inr hkey)
    have hserve : (serve (some id) (i.memoryWrite B c₁) w P₁.shared).1 = .error e := hreply.symm
    obtain ⟨-, -, hsrv⟩ | ⟨-, -, hsrv⟩ | ⟨msg, hmsg, -⟩ :=
      serve_set_cases (some id) (workingMemoryKey i.tenantId i.agentId) (i.memBytes B c₁)
        (some i.memoryEtag) (.seconds 86400) w P₁.shared
    · rw [hsrv] at hserve
      cases hserve
    · rw [hsrv, hkey] at hserve
      exact (Except.error.inj hserve).symm
    · rw [hfault] at hmsg
      cases hmsg
  · show ∀ x ∈ P.shared.journal, x.author ≠ some id
    intro x hx hauthor
    obtain ⟨p', etag, ttl, hp', hmem⟩ := run_authored hinit.unauthored h hx hauthor
    rw [hp, Option.some.injEq] at hp'
    subst hp'
    obtain ⟨key, value, tag, author⟩ := x
    rw [htr] at hmem
    rcases List.mem_pair.mp hmem with hmem | hmem
    · cases hmem
    · cases hmem

/-- A freeze is one compare-and-swap on the pair of records. In every run of clients that
freeze what they have hydrated, a freeze of the agent that has returned either returned `Ok`
and replaced the pair that its hydrate returned, the pair of the start or of the freeze
before, or it returned `ETagConflict` and has written nothing. Its state write never fails. In a
build that does not check overflow the run has to be shorter than one round of the versions. -/
theorem freeze_compare_and_swap (hinit : StartsWith B t a s₀ state₀ mem₀)
    (hlive : HoldsPair B t a s₀ state₀ mem₀)
    (h : Run (step M B) (HydratesFirst t a) (start s₀) ms P)
    (hshort : B.overflowChecks = false → ms.length < 2 ^ 64) {id : Nat}
    {p : Proc Reply Request Response} (hp : P.procs id = some p) {i : FreezeInput}
    (hq : p.request = .freeze i) (hroot : keyRoot i.tenantId i.agentId = keyRoot t a) :
    (∀ result, p.rest = done (.frozen result) →
      (∃ seq r, result = .ok seq ∧ AfterHydrate P i r ∧
        Swapped B t a state₀ mem₀ P id i r) ∨
      (result = .error (.eTagConflict (workingMemoryKey t a)) ∧
        ∀ x ∈ P.shared.journal, x.author ≠ some id)) ∧
    ∀ c₁ c₂ e, ⟨i.stateWrite B c₁ c₂, .error e⟩ ∉ p.transcript := by
  have hdistinct : DistinctVersions B t a P.shared :=
    distinct_of_short hinit (run_freezesInputs (run_freezesHydrated h)) hshort
  have hkeys : agentStateKey i.tenantId i.agentId = agentStateKey t a :=
    (agentStateKey_eq_iff _ _ _ _).mpr hroot
  -- A state write in the transcript, under the key of the agent.
  have hunder : ∀ c₁ c₂ reply, ⟨i.stateWrite B c₁ c₂, reply⟩ ∈ p.transcript →
      ⟨.set (agentStateKey t a) (i.stateBytes B c₁ c₂) (some i.stateEtag) .none, reply⟩ ∈
        p.transcript := by
    intro c₁ c₂ reply hmem
    rwa [← hkeys]
  have hstate : ∀ c₁ c₂ e, ⟨i.stateWrite B c₁ c₂, .error e⟩ ∉ p.transcript := by
    intro c₁ c₂ e hmem
    obtain ⟨P₁, P₂, w, r, -, -, -, -, -, -, -, hreply, -⟩ :=
      run_state_write hinit hlive h hdistinct hp hq hroot (hunder c₁ c₂ _ hmem)
    cases hreply
  refine ⟨?_, hstate⟩
  intro result hdone
  have htrace := frozen_trace h hp hq hdone
  generalize htr : p.transcript = tr at htrace
  -- What the freeze returned is decided by the place at which it did.
  cases freeze_stage htrace with
  | memoryFailed c₁ e =>
    right
    obtain ⟨rfl, hnothing⟩ := run_refused hinit h hp hroot htr
    exact ⟨rfl, hnothing⟩
  | stateFailed c₁ c₂ e₁ e =>
    refine absurd ?_ (hstate c₁ c₂ e)
    rw [htr]
    simp
  | returned c₁ c₂ c₃ c₄ e₁ e₂ reply seq =>
    left
    -- The state write has succeeded, on top of the pair of its hydrate.
    have hmem : ⟨i.stateWrite B c₁ c₂, .ok e₂⟩ ∈ p.transcript := by
      rw [htr]
      simp
    obtain ⟨r, hfrom, hswapped⟩ :=
      run_swapped hinit hlive h hdistinct hp hq hroot (hunder c₁ c₂ _ hmem)
    exact ⟨seq, r, rfl, hfrom, hswapped⟩

/-- A start is admitted when its input comes from a hydrate. -/
theorem hydratesFirst_start {id : Nat} {q : Request}
    (hfrom : ∀ i, q = .freeze i → ∃ r, AfterHydrate P i r) :
    HydratesFirst t a P (.start id q) where
  toFreezesHydrated := freezesHydrated_start hfrom
  noFault := by
    intro id w key value etag ttl hm
    cases hm
  noCrash := by
    intro id hm
    cases hm

/-- So is a call that does not fail and is answered with a new tag. -/
theorem admitsSmooth_hydratesFirst : AdmitsSmooth (HydratesFirst t a) := by
  intro P id w hfault hfresh
  refine ⟨admitsSmooth_freezesHydrated P id w hfault hfresh, ?_, ?_⟩
  · intro id' w' key value etag ttl hm _ _
    cases hm
    exact hfault
  · intro id' hm
    cases hm

/-- The freeze of the blank records that client 0 has hydrated. -/
theorem freeze_compare_and_swap_blank :
    ∃ ms P p seq r,
      Run (step .new releaseBuild) (HydratesFirst "acme" "writer")
        (start (blankStore none releaseBuild "acme" "writer")) ms P ∧ ms.length < 2 ^ 64 ∧
      P.procs 1 = some p ∧ p.rest = done (.frozen (.ok seq)) ∧
      AfterHydrate P (blankInput "acme" "writer") r ∧
      Swapped releaseBuild "acme" "writer" (blankState "acme" "writer")
        (blankMemory "acme" "writer") P 1 (blankInput "acme" "writer") r := by
  have hhydrate : ∀ P id,
      HydratesFirst "acme" "writer" P (.start id (.hydrate "acme" "writer")) := by
    intro P id
    refine hydratesFirst_start ?_
    intro i hq
    cases hq
  have hfreeze : ∀ P p rs rm, P.procs 0 = some p → ReadsBlank releaseBuild "acme" "writer" p rs rm →
      HydratesFirst "acme" "writer" P (.start 1 (.freeze (blankInput "acme" "writer"))) := by
    intro P p rs rm hp hreads
    refine hydratesFirst_start ?_
    intro i hq
    cases hq
    exact ⟨_, afterHydrate_blank hp hreads⟩
  obtain ⟨ms, P, p, seq, hrun, hp, hq, hdone, -, -, hlen⟩ :=
    run_replaces_blank .new hhydrate admitsSmooth_hydratesFirst hfreeze
  have hshort : ms.length < 2 ^ 64 := Nat.lt_of_le_of_lt hlen (by decide)
  have hswap := (freeze_compare_and_swap (startsWith_pairStore rfl) holdsPair_pairStore hrun
    (fun _ => hshort) hp hq rfl).1 _ hdone
  rcases hswap with ⟨seq', r, hok, hfrom, hswapped⟩ | ⟨herror, -⟩
  · cases hok
    exact ⟨ms, P, p, seq, r, hrun, hshort, hp, hdone, hfrom, hswapped⟩
  · cases herror

end Swarm

end SwarmRuntime.State
