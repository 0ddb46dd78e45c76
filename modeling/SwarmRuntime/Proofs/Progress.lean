import SwarmRuntime.Proofs.Activation
import SwarmRuntime.Proofs.Linearizable
import SwarmRuntime.Proofs.WrapAround

/-!
# `SwarmRuntime.Proofs.Progress`: when an agent can still be used

The two writes of a freeze have no rollback. A client that is gone between them leaves the memory
one version ahead of the state, and then no client can hydrate or freeze the agent again, however
the run goes on (`run_torn`). This is the only way in which an agent is lost: as long as the clients
between their writes are alive, a new client can hydrate it and freeze it (`usable_iff`).

A freeze that is refused is refused for a reason: another client has written the memory since its
hydrate read it (`run_refused_by`).
-/

set_option autoImplicit false

namespace SwarmRuntime.State

open SwarmRuntime.Lib SwarmRuntime.Lib.Interaction

namespace Swarm

variable {M : AgentHydrationManager} {B : Build} {t a : String} {P P' : Swarm} {m : SwarmMove}
  {ok : Swarm → SwarmMove → Prop} {s₀ : Backing Author} {ms ms' : List SwarmMove} {id : Nat}
  {state₀ : AgentStateRecord} {mem₀ : WorkingMemoryRecord}

/-! ### A crash between the two writes -/

/-- A crash is admitted. -/
theorem freezesHydrated_crash (P : Swarm) (id : Nat) : FreezesHydrated t a P (.crash id) := by
  refine ⟨⟨?_, ?_⟩, ?_⟩
  · intro id' w key value etag ttl hm
    cases hm
  · intro id' i hm
    cases hm
  · intro n hm
    cases hm

/-- Client 0 hydrates the blank records, client 1 freezes them and crashes after its memory
write. -/
theorem run_crash_blank (M : AgentHydrationManager) (B : Build) (t a : String) :
    ∃ ms P c e, Run (step M B) (FreezesHydrated t a) (start (blankStore none B t a)) ms P ∧
      HalfWritten t a P 1 ∧ P.Stopped 1 ∧ P.procs 2 = none ∧
      P.shared = (blankInput t a).withMemory B (some 1) (blankStore none B t a) c e := by
  have hsmooth : AdmitsSmooth (FreezesHydrated t a) := admitsSmooth_freezesHydrated
  obtain ⟨ms₁, P₁, p, rs, rm, hrun₁, hp₁, hreads, hshared, hothers, -⟩ :=
    run_reads_blank (B := B) M freezesHydrated_hydrate hsmooth
  have hacc : P₁.shared.accepts (workingMemoryKey t a) (some (blankInput t a).memoryEtag)
      = true := by
    rw [hshared]
    exact current_blankInput.accepts_memory
  obtain ⟨ms₂, P₂, c, e, hrun₂, hp₂, hshared₂, hothers₂⟩ :=
    run_memory_write (M := M) (B := B) hsmooth.answers
      (freezesHydrated_freeze (afterHydrate_blank hp₁ hreads)) (hothers 1 (by decide))
      (fits_blankInput t a).increments hacc
  obtain ⟨P₃, hs⟩ : ∃ P₃, step M B P₂ (.crash 1) = some P₃ := ⟨_, Pool.step_crash.mpr ⟨_, hp₂, rfl⟩⟩
  obtain ⟨p', hp', rfl⟩ := Pool.step_crash.mp hs
  rw [hp₂, Option.some.injEq] at hp'
  subst hp'
  refine ⟨_, _, c, e, .snoc (hrun₁.append hrun₂) (freezesHydrated_crash P₂ 1) hs, ⟨?_, ?_⟩, ?_,
    ?_, hshared ▸ hshared₂⟩
  · exact ⟨_, _, _, _, e, Pool.procs_setProc_self _ _ _, List.mem_cons_of_mem _ List.mem_cons_self⟩
  · rintro ⟨p, value, etag, ttl, e', hp, hmem⟩
    rw [Pool.procs_setProc_self, Option.some.injEq] at hp
    rw [← hp] at hmem
    -- A clock reading, and the memory write.
    rcases List.mem_pair.mp hmem with hnow | hmemory
    · cases congrArg Sigma.fst hnow
    · have hcall := congrArg Sigma.fst hmemory
      simp only [Call.set.injEq] at hcall
      exact absurd hcall.1 (agentStateKey_ne_workingMemoryKey _ _ _ _)
  · exact ⟨_, Pool.procs_setProc_self _ _ _, .inl rfl⟩
  · rw [Pool.procs_setProc_of_ne _ _ _ _ (by decide), hothers₂ 2 (by decide),
      hothers 2 (by decide)]

/-! ### A client that is gone between its two writes -/

/-- The agent of a client between its two writes is busy, and the newest memory record is that of
the client. -/
theorem HalfWritten.busy (hhalf : HalfWritten t a P id) (hinit : StartsWith B t a s₀ state₀ mem₀)
    (h : Run (step M B) ok (start s₀) ms P) (hphase : Phase B t a P.shared) :
    ∃ y y₀ older, P.shared.history (workingMemoryKey t a) = y :: y₀ :: older ∧
      List.Forall₂ (Paired B) (P.shared.history (agentStateKey t a)) (y₀ :: older) ∧
      y.author = some id := by
  have hauthor : ∀ y ys, P.shared.history (workingMemoryKey t a) = y :: ys → y.author = some id :=
    fun y ys hhist => hphase.author_of_halfWritten hinit h hhalf hhist
  cases hphase with
  | busy y y₀ older hhist haligned _ =>
    exact ⟨y, y₀, older, hhist, haligned, hauthor y (y₀ :: older) hhist⟩
  | idle haligned =>
    -- A memory record with a partner has an author who has written its state.
    obtain ⟨p, value, etag, ttl, e, hp, hmem⟩ := hhalf.memory
    obtain ⟨x, hx, hpaired⟩ := exists_left_of_forall₂ haligned (run_written h hp hmem)
    obtain ⟨p', etag', ttl', hp', hstate⟩ := run_wrote hinit.unauthored h hx hpaired.author
    exact absurd ⟨p', _, etag', ttl', _, hp', hstate⟩ hhalf.state

/-- What a client has written, it has written for good. -/
theorem HasWritten.kept {key : String} (h : P.HasWritten id key)
    (hrun : Run (step M B) ok P ms P') : P'.HasWritten id key := by
  obtain ⟨p, value, etag, ttl, e, hp, hmem⟩ := h
  obtain ⟨p', hp', -, hpre, -⟩ := Pool.run_extends hrun id p hp
  exact ⟨p', value, etag, ttl, e, hp', hpre.subset hmem⟩

/-- A client with an entry in a history has written the key. -/
theorem hasWritten_of_author (hinit : StartsWith B t a s₀ state₀ mem₀)
    (h : Run (step M B) ok (start s₀) ms P) {key : String} {x : Entry String Bytes ETag Author}
    (hx : x ∈ P.shared.history key) (hauthor : x.author = some id) : P.HasWritten id key := by
  obtain ⟨p, etag, ttl, hp, hmem⟩ := run_wrote hinit.unauthored h hx hauthor
  exact ⟨p, _, etag, ttl, _, hp, hmem⟩

/-- A client that has written a key has an entry in its history. -/
theorem HasWritten.exists_entry {key : String} (hw : P.HasWritten id key)
    (h : Run (step M B) ok (start s₀) ms P) :
    ∃ x ∈ P.shared.history key, x.author = some id := by
  obtain ⟨p, value, etag, ttl, e, hp, hmem⟩ := hw
  exact ⟨_, run_written h hp hmem, rfl⟩

/-- Which client stands between its two writes can be read off the journal. -/
theorem halfWritten_iff (hinit : StartsWith B t a s₀ state₀ mem₀)
    (h : Run (step M B) ok (start s₀) ms P) :
    HalfWritten t a P id ↔
      (∃ x ∈ P.shared.history (workingMemoryKey t a), x.author = some id) ∧
        ∀ x ∈ P.shared.history (agentStateKey t a), x.author ≠ some id := by
  constructor
  · intro hhalf
    refine ⟨hhalf.memory.exists_entry h, fun x hx hauthor => hhalf.state ?_⟩
    exact hasWritten_of_author hinit h hx hauthor
  · rintro ⟨⟨x, hx, hauthor⟩, hstate⟩
    refine ⟨hasWritten_of_author hinit h hx hauthor, fun hwritten => ?_⟩
    obtain ⟨x, hx, hauthor⟩ := hwritten.exists_entry h
    exact hstate x hx hauthor

/-- While the state history stays, a client between its two writes stays there. -/
theorem HalfWritten.kept (hhalf : HalfWritten t a P id)
    (hinit : StartsWith B t a s₀ state₀ mem₀) (h : Run (step M B) ok (start s₀) ms P)
    (h' : Run (step M B) ok P ms' P')
    (hsame : P'.shared.history (agentStateKey t a) = P.shared.history (agentStateKey t a)) :
    HalfWritten t a P' id where
  memory := hhalf.memory.kept h'
  state := by
    intro hstate
    obtain ⟨x, hx, hauthor⟩ := hstate.exists_entry (h.append h')
    rw [hsame] at hx
    exact hhalf.state (hasWritten_of_author hinit h hx hauthor)

/-- Once a client is gone between its two writes, neither record of the agent is written again. -/
theorem run_torn_histories (hinit : StartsWith B t a s₀ state₀ mem₀)
    (h : Run (step M B) (FreezesInputs t a) (start s₀) ms P) (hhalf : HalfWritten t a P id)
    (hgone : P.Stopped id) (h' : Run (step M B) (FreezesInputs t a) P ms' P')
    (hdistinct : DistinctVersions B t a P.shared) :
    P'.shared.history (agentStateKey t a) = P.shared.history (agentStateKey t a) ∧
      P'.shared.history (workingMemoryKey t a) = P.shared.history (workingMemoryKey t a) := by
  induction h' with
  | nil => exact ⟨rfl, rfl⟩
  | @snoc ms' P₁ P₂ m hr _ hs ih =>
    obtain ⟨hstate, hmem⟩ := ih
    have hrun := h.append hr
    -- The versions are the same as at `P`, so they are distinct here too.
    have hdistinct₁ : DistinctVersions B t a P₁.shared := by
      unfold DistinctVersions
      rwa [hmem]
    obtain ⟨y, y₀, older, hhist, haligned, hauthor⟩ :=
      (hhalf.kept hinit h hr hstate).busy hinit hrun (run_phase hinit hrun hdistinct₁)
    obtain ⟨hstate', hmem'⟩ | ⟨id', i, c₁, w, hroot, hw⟩ | ⟨id', i, c₁, c₂, e₁, w, hroot, hw⟩ :=
      step_primary hrun hs t a
    · exact ⟨hstate'.trans hstate, hmem'.trans hmem⟩
    · -- The hydrate of a memory write has read a state of the newest memory version.
      obtain ⟨r, x, y', older', hhist', hnames⟩ := hw.onto_hydrated hinit hrun hroot
      rw [hhist, List.cons.injEq] at hhist'
      obtain ⟨rfl, -⟩ := hhist'
      exact absurd hnames.versions
        (version_ne_of_busy hdistinct₁ hhist haligned hnames.stateEntry)
    · -- A state write is the one of the client between its two writes.
      obtain ⟨next, hp⟩ := hw.before
      obtain ⟨y₀', older', hhist', -, -⟩ :=
        (run_phase hinit hrun hdistinct₁).busy_of_pending hinit hrun hroot hp
      rw [hhist, List.cons.injEq] at hhist'
      have hid : id = id' := by
        rw [hhist'.1] at hauthor
        exact (Option.some.inj hauthor).symm
      subst hid
      rw [hw.move] at hs
      exact absurd hs (hgone.run hr).not_serve

/-- What a new client reads of a key that is not written any more is its newest entry. -/
theorem run_new_read {key : String} (hj : s₀.Journaled key)
    (h : Run (step M B) ok (start s₀) ms P) (h' : Run (step M B) ok P ms' P')
    (hsame : P'.shared.history key = P.shared.history key) (hnew : P.procs id = none)
    {p : Proc Reply Request Response} (hp : P'.procs id = some p) {r : StateRecord}
    (hmem : ⟨.get key, .ok (some r)⟩ ∈ p.transcript) :
    ∃ x older, P.shared.history key = x :: older ∧ x.value = r.value := by
  have hstart : ∀ p, P.procs id = some p → p.transcript = [] := by
    intro p hp
    rw [hnew] at hp
    cases hp
  obtain ⟨t₁, t₂, ht⟩ := List.append_of_mem hmem
  obtain ⟨pre, w, post, P₁, P₂, next, -, hpre, -, hs, hpost, -, hreply⟩ :=
    Pool.run_served h' hstart hp ht
  have hserve : (serve (some id) (.get key) w P₁.shared).1 = .ok (some r) := hreply.symm
  obtain ⟨c, hc, hcv, -⟩ := lookup_of_serve_get hserve
  obtain ⟨x, older, hx, hxv, -⟩ := (run_journaled hj (h.append hpre)).exists_newest hc
  -- The history at the read is between those of `P` and `P'`, and these are the same.
  have hafter : P₁.shared.history key <:+ P'.shared.history key :=
    ((step_later hs).trans (run_later hpost)).history key
  rw [hsame] at hafter
  have hbefore : P.shared.history key <:+ P₁.shared.history key := (run_later hpre).history key
  rw [hafter.eq_of_length_le hbefore.length_le] at hx
  exact ⟨x, older, hx, hxv.trans hcv⟩

/-- A hydrate that starts while a client is gone between its two writes returns no result. -/
theorem run_torn_hydrate (hinit : StartsWith B t a s₀ state₀ mem₀)
    (h : Run (step M B) (FreezesInputs t a) (start s₀) ms P) (hhalf : HalfWritten t a P id)
    (hgone : P.Stopped id) (h' : Run (step M B) (FreezesInputs t a) P ms' P')
    (hdistinct : DistinctVersions B t a P.shared) {id' : Nat} (hnew : P.procs id' = none)
    {p : Proc Reply Request Response} (hp : P'.procs id' = some p) {t' a' : String}
    (hq : p.request = .hydrate t' a') (hroot : keyRoot t' a' = keyRoot t a) (r : HydrationResult) :
    p.rest ≠ done (.hydrated (.ok r)) := by
  intro hdone
  obtain ⟨vs, hvs, -⟩ := hinit.stateRecord
  obtain ⟨vm, hvm, -⟩ := hinit.memoryRecord
  obtain ⟨rs, rm, tail, htr, -, hdecs, hdecm, hver, -⟩ :=
    hydrate_ok (hydrated_trace (h.append h') hp hq hdone)
  rw [(agentStateKey_eq_iff _ _ _ _).mpr hroot, (workingMemoryKey_eq_iff _ _ _ _).mpr hroot] at htr
  obtain ⟨hsames, hsamem⟩ := run_torn_histories hinit h hhalf hgone h' hdistinct
  -- It has read the newest state record and the newest memory record.
  obtain ⟨x, xs, hx, hxv⟩ :=
    run_new_read hvs.journaled h h' hsames hnew hp (r := rs) (by rw [htr]; simp)
  obtain ⟨y, ys, hy, hyv⟩ :=
    run_new_read hvm.journaled h h' hsamem hnew hp (r := rm) (by rw [htr]; simp)
  -- But no state record has the version of the newest memory record.
  obtain ⟨y', y₀, older, hhist, haligned, -⟩ :=
    hhalf.busy hinit h (run_phase hinit h hdistinct)
  rw [hhist, List.cons.injEq] at hy
  obtain ⟨rfl, rfl⟩ := hy
  refine version_ne_of_busy hdistinct hhist haligned (x := x) (by simp [hx]) ?_
  rw [stateVersionOf_eq (by rw [hxv, hdecs]), memVersionOf_eq (by rw [hyv, hdecm]), hver]

/-- Once a client is gone between its two writes, the agent is lost. In whatever way the run goes
on, its two records stay as they are, no new hydrate returns a result, and no freeze that had not
written its state before returns `Ok`. -/
theorem run_torn (hinit : StartsWith B t a s₀ state₀ mem₀)
    (h : Run (step M B) (FreezesInputs t a) (start s₀) ms P) (hhalf : HalfWritten t a P id)
    (hgone : P.Stopped id) (h' : Run (step M B) (FreezesInputs t a) P ms' P')
    (hshort : B.overflowChecks = false → ms.length < 2 ^ 64) :
    (P'.shared.history (agentStateKey t a) = P.shared.history (agentStateKey t a) ∧
      P'.shared.history (workingMemoryKey t a) = P.shared.history (workingMemoryKey t a)) ∧
    (∀ id' p t' a' r, P.procs id' = none → P'.procs id' = some p → p.request = .hydrate t' a' →
      keyRoot t' a' = keyRoot t a → p.rest ≠ done (.hydrated (.ok r))) ∧
    ∀ id' p i seq, ¬ P.HasWritten id' (agentStateKey t a) → P'.procs id' = some p →
      p.request = .freeze i → keyRoot i.tenantId i.agentId = keyRoot t a →
      p.rest ≠ done (.frozen (.ok seq)) := by
  have hdistinct : DistinctVersions B t a P.shared := distinct_of_short hinit h hshort
  have hsame := run_torn_histories hinit h hhalf hgone h' hdistinct
  refine ⟨hsame, ?_, ?_⟩
  · intro id' p t' a' r hnew hp hq hroot
    exact run_torn_hydrate hinit h hhalf hgone h' hdistinct hnew hp hq hroot r
  · intro id' p i seq hnot hp hq hroot hdone
    obtain ⟨c₁, c₂, e₂, hstate⟩ := run_frozen_ok (h.append h') hp hq hdone
    -- Its state record would be in the history, which has not grown.
    have hwrote : P'.HasWritten id' (agentStateKey t a) := by
      rw [← (agentStateKey_eq_iff _ _ _ _).mpr hroot]
      exact ⟨p, _, _, _, e₂, hp, hstate⟩
    obtain ⟨x, hx, hauthor⟩ := hwrote.exists_entry (h.append h')
    rw [hsame.1] at hx
    exact hnot (hasWritten_of_author hinit h hx hauthor)

/-- A hydrate of the blank records panics once their memory is one version further on: the two
versions differ, and the recovery from a checkpoint is not written yet. -/
theorem hydrateOn_withMemory_blank {A : Type} {author id : A} {c clock : Option Duration}
    {e : ETag} : hydrateOn M B t a
      ((blankInput t a).withMemory B id (blankStore author B t a) c e) clock
        = .panicked "not yet implemented: checkpoint recovery — Phase 1" := by
  have hstate := (FreezeInput.lookup_state_withMemory B (blankInput t a) id
    (blankStore author B t a) c e).trans lookup_state_pairStore
  have hmemory := FreezeInput.lookup_memory_withMemory B (blankInput t a) id
    (blankStore author B t a) c e
  have hdec := B.state.decode_encodeToVec (blankState t a)
  have hdecm := B.memory.decode_encodeToVec ((blankInput t a).frozenMemory B c)
  have hstatus : ¬ ((blankState t a).status = AgentLifecycleStatus.active.toI32 ∧
      AgentHydrationManager.activeAge (blankState t a) clock < M.staleActiveThresholdSecs) := by
    intro hguard
    have hno : AgentLifecycleStatus.frozen.toI32 = AgentLifecycleStatus.active.toI32 := hguard.1
    exact absurd hno (by decide)
  have hversion : ((blankInput t a).frozenMemory B c).version
      ≠ (blankState t a).workingMemoryVersion := by
    show (0 : UInt64) + 1 ≠ 0
    decide
  unfold hydrateOn
  rw [show agentStateKey t a = agentStateKey (blankInput t a).tenantId (blankInput t a).agentId
    from rfl, hstate]
  simp only [hdec, if_neg hstatus]
  rw [show workingMemoryKey t a
    = workingMemoryKey (blankInput t a).tenantId (blankInput t a).agentId from rfl, hmemory]
  simp only [FreezeInput.memBytes, hdecm, if_pos hversion]

/-- A hydrate that panics on the store of a moment does so when it is served there without a
failing call. -/
theorem run_hydrate_panics (hok : AdmitsAnswers ok) {msg : String}
    (hstart : ok P (.start id (.hydrate t a))) (hid : P.procs id = none)
    (hpanics : ∀ clock, hydrateOn M B t a P.shared clock = .panicked msg) :
    ∃ ms P' tr, Run (step M B) ok P ms P' ∧
      P'.procs id = some ⟨.hydrate t a, tr, Interaction.panic msg, false⟩ := by
  obtain ⟨ws, hlen, hws⟩ := exists_prepared 3 P.shared
  have hcalm : Calm 3 ws := hlen ▸ hws.calm
  have hend : (exec (serve (some id)) (Response.hydrated <$> (M.hydrate B t a).run) ws
      P.shared).ending = .panicked msg := by
    obtain ⟨w₁, w₂, w₃, ws, rfl, h₁, h₂, h₃⟩ := hcalm.exists_three
    rw [exec_map, (exec_hydrate h₁ h₂ h₃).2, hpanics]
    rfl
  obtain ⟨ms, P', rest, hrun, hproc, htrace, -⟩ := Pool.run_start_serve (S := service M B) Prepared
    (hok.serve id) (fun c w ws s hws => hws.serve (some id) c) hstart hid hws
  have hrest : rest = Interaction.panic msg := htrace.unique (exec_trace_panic _ hend)
  exact ⟨ms, P', _, hrun, hrest ▸ hproc⟩

/-- After the crash of client 1, client 2 hydrates the agent: it is served, and it panics instead
of returning a result. -/
theorem run_torn_crash :
    ∃ (ms : List SwarmMove) (P P' : Swarm) (p : Proc Reply Request Response),
      Run (step .new debugBuild) (FreezesHydrated "acme" "writer")
        (start (blankStore none debugBuild "acme" "writer")) ms P ∧
      HalfWritten "acme" "writer" P 1 ∧ P'.procs 2 = some p ∧
      p.request = .hydrate "acme" "writer" ∧
      p.rest = Interaction.panic "not yet implemented: checkpoint recovery — Phase 1" ∧
      P'.shared.history (agentStateKey "acme" "writer")
        = P.shared.history (agentStateKey "acme" "writer") ∧
      ∀ r, p.rest ≠ done (.hydrated (.ok r)) := by
  obtain ⟨ms, P, c, e, hrun, hhalf, hgone, hnew, hshared⟩ :=
    run_crash_blank .new debugBuild "acme" "writer"
  have hpanics : ∀ clock, hydrateOn .new debugBuild "acme" "writer" P.shared clock
      = .panicked "not yet implemented: checkpoint recovery — Phase 1" := by
    intro clock
    rw [hshared]
    exact hydrateOn_withMemory_blank
  obtain ⟨ms', P', tr, hrun', hp⟩ := run_hydrate_panics
    admitsSmooth_freezesHydrated.answers (freezesHydrated_hydrate P 2) hnew hpanics
  have hinputs : Run (step .new debugBuild) (FreezesInputs "acme" "writer") P ms' P' :=
    hrun'.mono fun _ _ _ _ hok => hok.toFreezesInputs
  obtain ⟨hsame, htorn, -⟩ := run_torn (startsWith_pairStore rfl) (run_freezesInputs hrun) hhalf
    hgone hinputs fun hno => by cases hno
  exact ⟨ms, P, P', _, hrun, hhalf, hp, rfl, rfl, hsame.1,
    fun r => htorn 2 _ _ _ r hnew hp rfl rfl⟩

/-! ### An agent that can still be used -/

/-- A run has started finitely many clients. -/
theorem run_unused (h : Run (step M B) ok (start s₀) ms P) :
    ∃ k, ∀ id, k ≤ id → P.procs id = none := by
  induction h with
  | nil => exact ⟨0, fun _ _ => rfl⟩
  | @snoc ms P P' m _ _ hs ih =>
    obtain ⟨k, hk⟩ := ih
    cases m with
    | start i q =>
      obtain ⟨-, rfl⟩ := Pool.step_start.mp hs
      refine ⟨max k (i + 1), fun id hid => ?_⟩
      rw [Pool.procs_setProc_of_ne _ _ _ _ (by omega)]
      exact hk id (by omega)
    | serve i w =>
      obtain ⟨q, tr, c, next, hp, rfl⟩ := Pool.step_serve.mp hs
      refine ⟨k, fun id hid => ?_⟩
      have hne : id ≠ i := by
        rintro rfl
        rw [hk id hid] at hp
        cases hp
      rw [Pool.procs_setProc_of_ne _ _ _ _ hne, Pool.procs_setShared, hk id hid]
    | crash i =>
      obtain ⟨p, hp, rfl⟩ := Pool.step_crash.mp hs
      refine ⟨k, fun id hid => ?_⟩
      have hne : id ≠ i := by
        rintro rfl
        rw [hk id hid] at hp
        cases hp
      rw [Pool.procs_setProc_of_ne _ _ _ _ hne, hk id hid]
    | env n =>
      rw [Pool.step_env.mp hs]
      exact ⟨k, hk⟩

/-- An agent is at rest when its histories are aligned. -/
theorem resting_of_aligned (hinit : StartsWith B t a s₀ state₀ mem₀)
    (hlive : HoldsPair B t a s₀ state₀ mem₀)
    (hfrozen : state₀.status = AgentLifecycleStatus.frozen.toI32)
    (h : Run (step M B) (FreezesHydrated t a) (start s₀) ms P)
    (haligned : List.Forall₂ (Paired B) (P.shared.history (agentStateKey t a))
      (P.shared.history (workingMemoryKey t a))) :
    ∃ k state mem, Resting B t a P k state mem := by
  obtain ⟨vs, hvs, -⟩ := hinit.stateRecord
  obtain ⟨vm, hvm, -⟩ := hinit.memoryRecord
  obtain ⟨k, hunused⟩ := run_unused h
  -- Both cells are the newest entries of their histories, and these are paired.
  obtain ⟨⟨cs, hcs⟩, ⟨cm, hcm⟩⟩ := run_present hlive h
  obtain ⟨x, xs, hx, hxv, -⟩ := (run_journaled hvs.journaled h).exists_newest hcs
  obtain ⟨y, ys, hy, hyv, -⟩ := (run_journaled hvm.journaled h).exists_newest hcm
  have hxmem : x ∈ P.shared.history (agentStateKey t a) := by simp [hx]
  obtain ⟨state, hstate⟩ := (run_decodes hinit h).1 x hxmem
  obtain ⟨mem, hmem⟩ := (run_decodes hinit h).2 y (by simp [hy])
  rw [hx, hy] at haligned
  have hversion : stateVersionOf B x = memVersionOf B y :=
    (List.forall₂_cons.mp haligned).1.version
  rw [stateVersionOf_eq hstate, memVersionOf_eq hmem] at hversion
  refine ⟨k, state, mem, hunused, ⟨⟨cs, hcs, ?_⟩, ⟨cm, hcm, ?_⟩⟩,
    run_frozen hinit hfrozen h hxmem hstate, UInt64.toNat_inj.mp hversion⟩
  · rw [← hxv, hstate]
  · rw [← hyv, hmem]

/-- A new client can hydrate the agent: in some continuation of the run it returns a result. -/
def Usable (M : AgentHydrationManager) (B : Build) (t a : String) (P : Swarm) : Prop :=
  ∃ ms P' id p r, Run (step M B) (FreezesHydrated t a) P ms P' ∧ P.procs id = none ∧
    P'.procs id = some p ∧ p.request = .hydrate t a ∧ p.rest = done (.hydrated (.ok r))

/-- An agent at rest can be used. -/
theorem Resting.usable {k : Nat} {state : AgentStateRecord} {mem : WorkingMemoryRecord}
    (hrest : Resting B t a P k state mem) : Usable M B t a P := by
  obtain ⟨ws, hlen, hws⟩ := exists_prepared 3 P.shared
  have hcalm : Calm 3 ws := hlen ▸ hws.calm
  have hend : (exec (serve (some k)) (M.hydrate B t a).run ws P.shared).ending
      = .returned (.ok ⟨state, mem, false⟩) := by
    obtain ⟨w₁, w₂, w₃, ws, rfl, h₁, h₂, h₃⟩ := hcalm.exists_three
    rw [(exec_hydrate h₁ h₂ h₃).2]
    exact hrest.pair.hydrateOn hrest.versions (by rw [hrest.frozen]; decide)
  have hok : AdmitsAnswers (FreezesHydrated t a) := admitsSmooth_freezesHydrated.answers
  obtain ⟨ms, P', hrun, hproc, -, -⟩ := run_hydrate_alone (M := M) Prepared (hok.serve k)
    (fun c w ws s hws => hws.serve (some k) c) (freezesHydrated_hydrate P k)
    (hrest.unused k (Nat.le_refl k)) hws hend
  exact ⟨ms, P', k, _, _, hrun, hrest.unused k (Nat.le_refl k), hproc, rfl, rfl⟩

/-- What can be used after some moves can be used before them. -/
theorem Usable.of_run (h : Usable M B t a P')
    (hrun : Run (step M B) (FreezesHydrated t a) P ms P') : Usable M B t a P := by
  obtain ⟨ms', P'', id, p, r, hrun', hnew, hp, hq, hdone⟩ := h
  refine ⟨ms ++ ms', P'', id, p, r, hrun.append hrun', ?_, hp, hq, hdone⟩
  cases hbefore : P.procs id with
  | none => rfl
  | some p₀ =>
    obtain ⟨p₁, hp₁, -⟩ := Pool.run_extends hrun id p₀ hbefore
    rw [hnew] at hp₁
    cases hp₁

/-- A freeze that waits for its state write can make it, and then the agent is at rest. -/
theorem usable_of_pending (hinit : StartsWith B t a s₀ state₀ mem₀)
    (hlive : HoldsPair B t a s₀ state₀ mem₀)
    (hfrozen : state₀.status = AgentLifecycleStatus.frozen.toI32)
    (h : Run (step M B) (FreezesHydrated t a) (start s₀) ms P)
    (hdistinct : DistinctVersions B t a P.shared) {i : FreezeInput}
    (hroot : keyRoot i.tenantId i.agentId = keyRoot t a) {c₁ c₂ : Option Duration} {e₁ : ETag}
    (hp : P.procs id = some
      ⟨.freeze i, [⟨.now, c₁⟩, ⟨i.memoryWrite B c₁, .ok e₁⟩, ⟨.now, c₂⟩],
        .frozen <$> ask (i.stateWrite B c₁ c₂) (i.afterStateWrite B c₁ c₂), false⟩) :
    Usable M B t a P := by
  have hkey : agentStateKey i.tenantId i.agentId = agentStateKey t a :=
    (agentStateKey_eq_iff _ _ _ _).mpr hroot
  have hne : workingMemoryKey t a ≠ agentStateKey t a :=
    (agentStateKey_ne_workingMemoryKey _ _ _ _).symm
  obtain ⟨r, hfrom⟩ := run_afterHydrate (run_freezesInputs h) hp rfl hroot
  obtain ⟨x, y, xs, ys, hfinds⟩ :=
    pending_state_write_finds hinit hlive h hdistinct hroot hp hfrom
  obtain ⟨ws, hlen, hws⟩ := exists_prepared 1 P.shared
  obtain ⟨w, rfl⟩ := List.length_eq_one_iff.mp hlen
  have hacc : P.shared.accepts (agentStateKey i.tenantId i.agentId) (some i.stateEtag) = true := by
    rw [hkey]
    exact hfinds.accepted
  have hexec : exec (serve (some id))
      (Response.frozen <$> ask (i.stateWrite B c₁ c₂) (i.afterStateWrite B c₁ c₂)) [w] P.shared
      = ⟨.stopped, [⟨i.stateWrite B c₁ c₂, .ok w.etag⟩],
          P.shared.put (some id) (agentStateKey i.tenantId i.agentId) (i.stateBytes B c₁ c₂) none
            w.etag⟩ := by
    rw [exec_map, exec_set (hws.fault (by simp)) hacc]
    rfl
  have htrace : Trace
      (Response.frozen <$> ask (i.stateWrite B c₁ c₂) (i.afterStateWrite B c₁ c₂))
      [⟨i.stateWrite B c₁ c₂, .ok w.etag⟩]
      (Response.frozen <$> i.afterStateWrite B c₁ c₂ (.ok w.etag)) := .cons (.nil _)
  have hok : AdmitsAnswers (FreezesHydrated t a) := admitsSmooth_freezesHydrated.answers
  obtain ⟨ms', P', hrun, -, hshared, -⟩ := run_continued (M := M) hok hp hws hexec htrace
  have h' := h.append hrun
  rw [hkey] at hshared
  -- The state history has one more entry, and the memory history is the same.
  have hstate : P'.shared.history (agentStateKey t a)
      = ⟨agentStateKey t a, i.stateBytes B c₁ c₂, w.etag, some id⟩ :: x :: xs := by
    rw [hshared, EtagStore.history_put_self, hfinds.stateHistory]
  have hmem : P'.shared.history (workingMemoryKey t a)
      = ⟨workingMemoryKey t a, i.memBytes B c₁, e₁, some id⟩ :: y :: ys := by
    rw [hshared, EtagStore.history_put_of_ne _ _ _ _ _ _ _ hne, hfinds.memoryHistory]
  have hdistinct' : DistinctVersions B t a P'.shared := by
    unfold DistinctVersions at hdistinct ⊢
    rwa [hmem, ← hfinds.memoryHistory]
  have hlength : xs.length = ys.length := hfinds.length
  cases run_phase hinit (run_freezesInputs h') hdistinct' with
  | idle haligned =>
    obtain ⟨k, state, mem, hrest⟩ := resting_of_aligned hinit hlive hfrozen h' haligned
    exact hrest.usable.of_run hrun
  | busy y' y₀ older hhist haligned _ =>
    -- A busy agent has fewer state records than memory records.
    have hlen := haligned.length_eq
    have hlen' := congrArg List.length hhist
    rw [hstate] at hlen
    rw [hmem] at hlen'
    simp only [List.length_cons] at hlen hlen'
    omega

/-- A client between its two writes that can go on stands before its state write, or before the
reading of the clock that comes first. -/
theorem HalfWritten.stage (hhalf : HalfWritten t a P id)
    (h : Run (step M B) ok (start s₀) ms P) (halive : ¬ P.Stopped id) :
    ∃ i c₁ e₁, keyRoot i.tenantId i.agentId = keyRoot t a ∧
      (P.procs id = some ⟨.freeze i, [⟨.now, c₁⟩, ⟨i.memoryWrite B c₁, .ok e₁⟩],
          .frozen <$> i.afterMemoryWrite B c₁ (.ok e₁), false⟩ ∨
        ∃ c₂, P.procs id = some
          ⟨.freeze i, [⟨.now, c₁⟩, ⟨i.memoryWrite B c₁, .ok e₁⟩, ⟨.now, c₂⟩],
            .frozen <$> ask (i.stateWrite B c₁ c₂) (i.afterStateWrite B c₁ c₂), false⟩) := by
  obtain ⟨⟨q, tr, rest, b⟩, value, etag, ttl, e, hp, hmem⟩ := hhalf.memory
  -- The memory write was made by a freeze of the agent.
  obtain ⟨t₁, t₂, ht⟩ := List.append_of_mem hmem
  obtain ⟨pre, w, post, P₁, P₂, next, -, hpre, -, -, -, hp₁, -⟩ :=
    Pool.run_served h (fun _ hp => by cases hp) hp ht
  obtain ⟨i, hq, hwrite⟩ := write_cases hpre hp₁
  obtain ⟨hroot, c, rfl, -⟩ := hwrite.eq_memory rfl
  have hq : q = .freeze i := hq
  have ht : tr = [⟨.now, c⟩] ++ ⟨.set (workingMemoryKey t a) value etag ttl, .ok e⟩ :: t₂ := ht
  subst hq
  -- It has not crashed, and it waits for a call.
  have hb : b = false := by
    cases b with
    | false => rfl
    | true => exact absurd ⟨_, hp, .inl rfl⟩ halive
  subst hb
  have hnotState : ∀ c₁ c₂ e₂, ⟨i.stateWrite B c₁ c₂, .ok e₂⟩ ∉ tr := by
    intro c₁ c₂ e₂ hstate
    refine hhalf.state ⟨_, i.stateBytes B c₁ c₂, some i.stateEtag, .none, e₂, hp, ?_⟩
    rwa [← (agentStateKey_eq_iff _ _ _ _).mpr hroot]
  have hinc : i.Increments B := by
    by_contra hinc
    have htrace : Trace (.frozen <$> (freeze B i).run) tr rest := run_traced h hp
    rw [freeze_run_overflow hinc, map_panic, trace_panic] at htrace
    rw [htrace.1] at ht
    cases ht
  have htrace : Trace (.frozen <$> (freeze B i).run) tr rest := run_traced h hp
  obtain ⟨rest', htrace', rfl⟩ := trace_map.mp htrace
  cases freeze_stage htrace' with
  | overflow hno => exact absurd hinc hno
  | start => cases ht
  | memory c₁ => simp at ht
  | memoryFailed c₁ e' => exact absurd ⟨_, hp, .inr fun c next hask => by cases hask⟩ halive
  | stamp c₁ e₁ =>
    refine ⟨i, c₁, e₁, hroot, .inl ?_⟩
    have hhere : Trace (freeze B i).run [⟨.now, c₁⟩, ⟨i.memoryWrite B c₁, .ok e₁⟩]
        (i.afterMemoryWrite B c₁ (.ok e₁)) := by
      rw [freeze_run_eq hinc]
      exact .cons (.cons (.nil _))
    rwa [← htrace'.unique hhere]
  | state c₁ c₂ e₁ => exact ⟨i, c₁, e₁, hroot, .inr ⟨c₂, hp⟩⟩
  | stateFailed c₁ c₂ e₁ e' =>
    exact absurd ⟨_, hp, .inr fun c next hask => by cases hask⟩ halive
  | seq c₁ c₂ e₁ e₂ => exact absurd (by simp) (hnotState c₁ c₂ e₂)
  | created c₁ c₂ c₃ e₁ e₂ => exact absurd (by simp) (hnotState c₁ c₂ e₂)
  | checkpoint c₁ c₂ c₃ c₄ e₁ e₂ => exact absurd (by simp) (hnotState c₁ c₂ e₂)
  | returned c₁ c₂ c₃ c₄ e₁ e₂ reply seq => exact absurd (by simp) (hnotState c₁ c₂ e₂)

/-- The agent of a client that can go on between its two writes can still be used. -/
theorem HalfWritten.usable (hhalf : HalfWritten t a P id)
    (hinit : StartsWith B t a s₀ state₀ mem₀) (hlive : HoldsPair B t a s₀ state₀ mem₀)
    (hfrozen : state₀.status = AgentLifecycleStatus.frozen.toI32)
    (h : Run (step M B) (FreezesHydrated t a) (start s₀) ms P)
    (hdistinct : DistinctVersions B t a P.shared) (halive : ¬ P.Stopped id) :
    Usable M B t a P := by
  obtain ⟨i, c₁, e₁, hroot, hp | ⟨c₂, hp⟩⟩ := hhalf.stage h halive
  · -- First the clock, then the state write.
    obtain ⟨ws, hlen, hws⟩ := exists_prepared 1 P.shared
    obtain ⟨w, rfl⟩ := List.length_eq_one_iff.mp hlen
    have hexec : exec (serve (some id))
        (Response.frozen <$> i.afterMemoryWrite B c₁ (.ok e₁)) [w] P.shared
        = ⟨.stopped, [⟨.now, w.clock⟩], P.shared⟩ := by
      rw [exec_map, FreezeInput.afterMemoryWrite, exec_now]
      rfl
    have htrace : Trace (Response.frozen <$> i.afterMemoryWrite B c₁ (.ok e₁)) [⟨.now, w.clock⟩]
        (Response.frozen <$> ask (i.stateWrite B c₁ w.clock) (i.afterStateWrite B c₁ w.clock)) :=
      .cons (.nil _)
    have hok : AdmitsAnswers (FreezesHydrated t a) := admitsSmooth_freezesHydrated.answers
    obtain ⟨ms', P', hrun, hp', hshared, -⟩ := run_continued (M := M) hok hp hws hexec htrace
    have hdistinct' : DistinctVersions B t a P'.shared := by
      rw [hshared]
      exact hdistinct
    have husable : Usable M B t a P' :=
      usable_of_pending hinit hlive hfrozen (h.append hrun) hdistinct' hroot hp'
    exact husable.of_run hrun
  · exact usable_of_pending hinit hlive hfrozen h hdistinct hroot hp

/-- The agent can be used as long as no client is gone between its two writes. -/
theorem usable_of_alive (hinit : StartsWith B t a s₀ state₀ mem₀)
    (hlive : HoldsPair B t a s₀ state₀ mem₀)
    (hfrozen : state₀.status = AgentLifecycleStatus.frozen.toI32)
    (h : Run (step M B) (FreezesHydrated t a) (start s₀) ms P)
    (hdistinct : DistinctVersions B t a P.shared)
    (halive : ∀ id, HalfWritten t a P id → ¬ P.Stopped id) : Usable M B t a P := by
  have hinputs := run_freezesInputs h
  cases run_phase hinit hinputs hdistinct with
  | idle haligned =>
    obtain ⟨k, state, mem, hrest⟩ := resting_of_aligned hinit hlive hfrozen h haligned
    exact hrest.usable
  | busy y y₀ older hhist haligned _ =>
    obtain ⟨id, -, hhalf⟩ := exists_halfWritten hinit hinputs hhist haligned
    exact hhalf.usable hinit hlive hfrozen h hdistinct (halive id hhalf)

/-- It cannot be used when one is. -/
theorem not_usable_of_gone (hinit : StartsWith B t a s₀ state₀ mem₀)
    (h : Run (step M B) (FreezesHydrated t a) (start s₀) ms P) (hhalf : HalfWritten t a P id)
    (hgone : P.Stopped id) (hdistinct : DistinctVersions B t a P.shared) :
    ¬ Usable M B t a P := by
  rintro ⟨ms', P', id', p, r, hrun, hnew, hp, hq, hdone⟩
  have hrun' : Run (step M B) (FreezesInputs t a) P ms' P' :=
    hrun.mono fun _ _ _ _ hok => hok.toFreezesInputs
  exact run_torn_hydrate hinit (run_freezesInputs h) hhalf hgone hrun' hdistinct hnew hp hq rfl r
    hdone

/-- An agent that starts FROZEN can be used, at any moment of any run, exactly as long as no client
is gone between its two writes. -/
theorem usable_iff (hinit : StartsWith B t a s₀ state₀ mem₀)
    (hlive : HoldsPair B t a s₀ state₀ mem₀)
    (hfrozen : state₀.status = AgentLifecycleStatus.frozen.toI32)
    (h : Run (step M B) (FreezesHydrated t a) (start s₀) ms P)
    (hshort : B.overflowChecks = false → ms.length < 2 ^ 64) :
    Usable M B t a P ↔ ∀ id, HalfWritten t a P id → ¬ P.Stopped id := by
  have hdistinct : DistinctVersions B t a P.shared :=
    distinct_of_short hinit (run_freezesInputs h) hshort
  constructor
  · intro husable id hhalf hgone
    exact not_usable_of_gone hinit h hhalf hgone hdistinct husable
  · intro halive
    exact usable_of_alive hinit hlive hfrozen h hdistinct halive

/-- After the crash of client 1 the agent cannot be used. -/
theorem usable_iff_crash :
    ∃ ms P, Run (step .new debugBuild) (FreezesHydrated "acme" "writer")
        (start (blankStore none debugBuild "acme" "writer")) ms P ∧
      ¬ Usable .new debugBuild "acme" "writer" P := by
  obtain ⟨ms, P, c, e, hrun, hhalf, hgone, -⟩ := run_crash_blank .new debugBuild "acme" "writer"
  refine ⟨ms, P, hrun, fun husable => ?_⟩
  exact (usable_iff (startsWith_pairStore rfl) holdsPair_pairStore rfl hrun
    fun hno => by cases hno).mp husable 1 hhalf hgone

/-! ### The reason of a refusal -/

/-- The memory record that another client has written lies above the one that the freeze `id`
names. -/
def Overtaken (t a : String) (P : Swarm) (id : Nat) (i : FreezeInput) : Prop :=
  ∃ id' y y', id' ≠ id ∧ P.HasWritten id' (workingMemoryKey t a) ∧ y'.author = some id' ∧
    y.etag = i.memoryEtag ∧ [y', y].Sublist (P.shared.history (workingMemoryKey t a))

/-- A memory write that is refused comes after a memory write of another client. -/
theorem overtaken_of_refused (hinit : StartsWith B t a s₀ state₀ mem₀)
    (hlive : HoldsPair B t a s₀ state₀ mem₀)
    (h : Run (step M B) (FreezesHydrated t a) (start s₀) ms P) {i : FreezeInput}
    (hroot : keyRoot i.tenantId i.agentId = keyRoot t a) {c₁ : Option Duration}
    {next : Reply (i.memoryWrite B c₁) → Async Response}
    (hp : P.procs id = some ⟨.freeze i, [⟨.now, c₁⟩], ask (i.memoryWrite B c₁) next, false⟩)
    (hrefused : P.shared.accepts (workingMemoryKey t a) (some i.memoryEtag) = false) :
    Overtaken t a P id i := by
  obtain ⟨vm, hvm, -⟩ := hinit.memoryRecord
  have hinputs := run_freezesInputs h
  obtain ⟨r, hfrom⟩ := run_afterHydrate hinputs hp rfl hroot
  obtain ⟨x, y, hnames⟩ := hfrom.names hinit h hroot
  -- The newest memory record can be read, and it has another tag.
  obtain ⟨c, hc⟩ := (run_present hlive h).2
  obtain ⟨y', older, hhist, -, htag⟩ := (run_journaled hvm.journaled h).exists_newest hc
  have hne : y'.etag ≠ i.memoryEtag := by
    intro hsame
    rw [EtagStore.accepts_some.mpr ⟨c, hc, htag.symm.trans hsame⟩] at hrefused
    cases hrefused
  have hy : y ∈ older := by
    have hmem := hnames.memoryEntry
    rw [hhist, List.mem_cons] at hmem
    rcases hmem with rfl | hmem
    · exact absurd hnames.memoryTag hne
    · exact hmem
  obtain ⟨id', hauthor⟩ := exists_author hinit hinputs hhist hy
  have hy' : y' ∈ P.shared.history (workingMemoryKey t a) := by simp [hhist]
  refine ⟨id', y, y', ?_, hasWritten_of_author hinit h hy' hauthor, hauthor, hnames.memoryTag, ?_⟩
  · -- The freeze itself has not written yet.
    rintro rfl
    refine run_not_author hinit.unauthored h hp ?_ y' hy' hauthor
    intro value etag ttl e hmem
    rw [List.mem_singleton] at hmem
    cases hmem
  · rw [hhist]
    exact (List.singleton_sublist.mpr hy).cons_cons y'

theorem Overtaken.of_run {i : FreezeInput} (h : Overtaken t a P id i)
    (hrun : Run (step M B) ok P ms P') : Overtaken t a P' id i := by
  obtain ⟨id', y, y', hne, hwritten, hauthor, htag, hsublist⟩ := h
  exact ⟨id', y, y', hne, hwritten.kept hrun, hauthor, htag,
    hsublist.trans ((run_later hrun).history _).sublist⟩

/-- A freeze that returns `ETagConflict` was refused at its memory write, and another client has
written the memory after the record that it names. No freeze is refused without a competitor. -/
theorem run_refused_by (hinit : StartsWith B t a s₀ state₀ mem₀)
    (hlive : HoldsPair B t a s₀ state₀ mem₀)
    (h : Run (step M B) (FreezesHydrated t a) (start s₀) ms P)
    (hshort : B.overflowChecks = false → ms.length < 2 ^ 64)
    {p : Proc Reply Request Response} (hp : P.procs id = some p) {i : FreezeInput}
    (hq : p.request = .freeze i) (hroot : keyRoot i.tenantId i.agentId = keyRoot t a) {key : String}
    (hdone : p.rest = done (.frozen (.error (.eTagConflict key)))) :
    key = workingMemoryKey t a ∧ Overtaken t a P id i := by
  have hdistinct : DistinctVersions B t a P.shared :=
    distinct_of_short hinit (run_freezesInputs h) hshort
  have hkeys : agentStateKey i.tenantId i.agentId = agentStateKey t a :=
    (agentStateKey_eq_iff _ _ _ _).mpr hroot
  have hkeym : workingMemoryKey i.tenantId i.agentId = workingMemoryKey t a :=
    (workingMemoryKey_eq_iff _ _ _ _).mpr hroot
  have htrace := frozen_trace h hp hq hdone
  generalize htr : p.transcript = tr at htrace
  cases freeze_stage htrace with
  | memoryFailed c₁ =>
    have htr' : p.transcript
        = [⟨.now, c₁⟩] ++ ⟨i.memoryWrite B c₁, .error (.eTagConflict key)⟩ :: [] := htr
    obtain ⟨pre, w, post, P₁, P₂, next, -, hpre, hok, hs, hpost, hp₁, hreply⟩ :=
      Pool.run_served h (fun _ hp => by cases hp) hp htr'
    rw [hq] at hp₁
    have hserve : (serve (some id) (i.memoryWrite B c₁) w P₁.shared).1
        = .error (.eTagConflict key) := hreply.symm
    -- The reply of the store decides between success, refusal and failure.
    obtain ⟨-, -, hsrv⟩ | ⟨-, hrefused, hsrv⟩ | ⟨msg, -, hsrv⟩ :=
      serve_set_cases (some id) (workingMemoryKey i.tenantId i.agentId) (i.memBytes B c₁)
        (some i.memoryEtag) (.seconds 86400) w P₁.shared
    · rw [hsrv] at hserve
      cases hserve
    · rw [hsrv] at hserve
      rw [hkeym] at hserve hrefused
      cases hserve
      have hrun : Run (step M B) (FreezesHydrated t a) P₁ (.serve id w :: post) P :=
        .cons hok hs hpost
      exact ⟨rfl, (overtaken_of_refused hinit hlive hpre hroot hp₁ hrefused).of_run hrun⟩
    · rw [hsrv] at hserve
      cases hserve
  | stateFailed c₁ c₂ e₁ =>
    have htr' : p.transcript = [⟨.now, c₁⟩, ⟨i.memoryWrite B c₁, .ok e₁⟩, ⟨.now, c₂⟩] ++
        ⟨i.stateWrite B c₁ c₂, .error (.eTagConflict key)⟩ :: [] := htr
    obtain ⟨pre, w, post, P₁, P₂, next, -, hpre, hok, hs, hpost, hp₁, hreply⟩ :=
      Pool.run_served h (fun _ hp => by cases hp) hp htr'
    rw [hq] at hp₁
    have hdistinct₁ : DistinctVersions B t a P₁.shared :=
      hdistinct.of_later ((step_later hs).trans (run_later hpost))
    obtain ⟨r, hfrom⟩ := run_afterHydrate (run_freezesInputs hpre) hp₁ rfl hroot
    obtain ⟨x, y, xs, ys, hfinds⟩ :=
      pending_state_write_finds hinit hlive hpre hdistinct₁ hroot hp₁ hfrom
    have hserve : (serve (some id) (i.stateWrite B c₁ c₂) w P₁.shared).1
        = .error (.eTagConflict key) := hreply.symm
    -- The guard of the state write passes.
    obtain ⟨-, -, hsrv⟩ | ⟨-, hrefused, -⟩ | ⟨msg, -, hsrv⟩ :=
      serve_set_cases (some id) (agentStateKey i.tenantId i.agentId) (i.stateBytes B c₁ c₂)
        (some i.stateEtag) .none w P₁.shared
    · rw [hsrv] at hserve
      cases hserve
    · rw [hkeys, hfinds.accepted] at hrefused
      cases hrefused
    · rw [hsrv] at hserve
      cases hserve

/-- Client 2 freezes the blank records with the tags that client 1 has used up. -/
theorem run_refused_by_blank :
    ∃ ms P p, Run (step .new debugBuild) (FreezesHydrated "acme" "writer")
        (start (blankStore none debugBuild "acme" "writer")) ms P ∧
      P.procs 2 = some p ∧
      p.rest = done (.frozen (.error (.eTagConflict (workingMemoryKey "acme" "writer")))) ∧
      Overtaken "acme" "writer" P 2 (blankInput "acme" "writer") := by
  obtain ⟨ms₁, P₁, p₁, seq, hrun₁, hp₁, hq₁, -, hshared, hnew, -⟩ :=
    run_replaces_blank .new freezesHydrated_hydrate admitsSmooth_freezesHydrated
      fun P p rs rm hp hreads => freezesHydrated_freeze (afterHydrate_blank hp hreads)
  obtain ⟨r, hfrom⟩ := run_afterHydrate (run_freezesInputs hrun₁) hp₁ hq₁ rfl
  obtain ⟨ws, hlen, hws⟩ := exists_prepared 2 P₁.shared
  obtain ⟨w₁, w₂, rfl⟩ := List.length_eq_two.mp hlen
  -- The stored memory record has the tag of client 1.
  have hacc : P₁.shared.accepts (workingMemoryKey "acme" "writer") (some ⟨"1"⟩) = false := by
    have hlookup : (frozenStore (none : Author) (some 1) debugBuild "acme" "writer").lookup
        (workingMemoryKey "acme" "writer") = some ⟨_, ⟨"3"⟩, _⟩ :=
      FreezeInput.lookup_memory_finished ..
    rw [hshared, EtagStore.accepts, hlookup]
    rfl
  have hend : (exec ((service .new debugBuild).serve 2)
      ((service .new debugBuild).prog (.freeze (blankInput "acme" "writer"))) [w₁, w₂]
      P₁.shared).ending
        = .returned (.frozen (.error (.eTagConflict (workingMemoryKey "acme" "writer")))) := by
    show (exec (serve (some 2)) (Response.frozen <$> (freeze debugBuild _).run) [w₁, w₂]
      P₁.shared).ending = _
    rw [exec_map, (exec_freeze_refused (fits_blankInput "acme" "writer").increments hacc
      (hws.fault (by simp))).1]
    rfl
  have hok : AdmitsAnswers (FreezesHydrated "acme" "writer") := admitsSmooth_freezesHydrated.answers
  obtain ⟨ms₂, P₂, hrun₂, hp₂, -, -⟩ := Pool.run_alone (S := service .new debugBuild) Prepared
    (hok.serve 2) (fun c w ws s hws => hws.serve (some 2) c) (freezesHydrated_freeze hfrom) hnew
    hws hend
  have hrun := hrun₁.append hrun₂
  have hrefused := run_refused_by (startsWith_pairStore rfl) holdsPair_pairStore hrun
    (fun hno => by cases hno) hp₂ rfl rfl rfl
  exact ⟨_, P₂, _, hrun, hp₂, rfl, hrefused.2⟩

end Swarm

end SwarmRuntime.State
