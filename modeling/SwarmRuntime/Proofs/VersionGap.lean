import SwarmRuntime.Proofs.Committed

/-!
# `SwarmRuntime.Proofs.VersionGap`: the memory is at most one version ahead

A hydrate takes two records of different versions for a torn write. This rests on a fact
about every reachable store (`run_versionGap`): the memory version is the version that the
state names, or the next one. The memory version also counts the memory writes that have
succeeded, and at most one freeze stands between its two writes.

* `history_length_step`: a move adds an entry to a history exactly when it writes the key.
* `NewestMemory.step`, `run_memoryVersion`: so the newest memory version is the first one plus
  the number of writes. From this the versions are distinct, and `run_phase` applies.
* `Phase.gap`: in both phases the newest state record names the version of the newest memory
  record or of the one below it.
-/

set_option autoImplicit false

namespace SwarmRuntime.State

open SwarmRuntime.Lib SwarmRuntime.Lib.Interaction

namespace Swarm

variable {M : AgentHydrationManager} {B : Build} {t a : String} {P P' : Swarm} {m : SwarmMove}
  {ok : Swarm → SwarmMove → Prop} {s₀ : Backing Author} {ms : List SwarmMove}
  {state₀ : AgentStateRecord} {mem₀ : WorkingMemoryRecord}

/-! ### Counting the writes of a run -/

/-- In the move a client writes `key`, and the store answers with `Ok`. -/
def writes (key : String) (P : Swarm) : SwarmMove → Bool
  | .serve id w =>
      match P.pending id with
      | some (.set key' value etag ttl) =>
          key' == key && (serve (some id) (.set key' value etag ttl) w P.shared).1.isOk
      | _ => false
  | _ => false

/-- How many memory writes of the agent have succeeded in the run. -/
def memoryWrites (M : AgentHydrationManager) (B : Build) (t a : String) (s₀ : Backing Author)
    (ms : List SwarmMove) : Nat :=
  tally (step M B) (writes (workingMemoryKey t a)) (start s₀) ms

/-- A move that writes a key is a successful write of one client. -/
theorem writes_iff (hs : step M B P m = some P') {key : String} :
    writes key P m = true ↔
      ∃ id q tr value etag ttl w, Wrote P P' m id q tr key value etag ttl w := by
  constructor
  · intro hwrites
    cases m with
    | start id q => cases hwrites
    | crash id => cases hwrites
    | env n => cases hwrites
    | serve id w =>
      obtain ⟨q, tr, c, next, hp, -⟩ := Pool.step_serve.mp hs
      have hpending : P.pending id = some c := by rw [pending, hp]
      rw [writes, hpending] at hwrites
      cases c with
      | get key' => cases hwrites
      | now => cases hwrites
      | set key' value etag ttl =>
        obtain ⟨hkey, hok⟩ := Bool.and_eq_true_iff.mp hwrites
        rw [eq_of_beq hkey] at hp hok
        cases hreply : (serve (some id) (.set key value etag ttl) w P.shared).1 with
        | error e =>
          rw [hreply] at hok
          cases hok
        | ok e => exact ⟨id, q, tr, value, etag, ttl, w, (wrote_of_served hs hp hreply).1⟩
  · rintro ⟨id, q, tr, value, etag, ttl, w, hw⟩
    have hpending : P.pending id = some (.set key value etag ttl) := hw.pending
    obtain ⟨rest, hafter⟩ := hw.after
    obtain ⟨next, hbefore⟩ := hw.before
    rw [hw.move] at hs ⊢
    obtain ⟨q', tr', c, next', hp, rfl⟩ := Pool.step_serve.mp hs
    rw [hbefore, Option.some.injEq, Proc.mk.injEq] at hp
    obtain ⟨rfl, rfl, hask, -⟩ := hp
    cases hask
    -- The reply is the last one of the transcript.
    have hreply : (serve (some id) (.set key value etag ttl) w P.shared).1 = .ok w.etag := by
      rw [Pool.procs_setProc_self, Option.some.injEq, Proc.mk.injEq] at hafter
      have hlast := List.append_cancel_left hafter.2.1
      rw [List.cons.injEq, Sigma.mk.injEq] at hlast
      exact eq_of_heq hlast.1.2
    show writes key P (.serve id w) = true
    rw [writes, hpending]
    show (key == key && _) = true
    rw [hreply, beq_self_eq_true]
    rfl

/-- A move adds an entry to the history of a key exactly when it writes the key. -/
theorem history_length_step (hs : step M B P m = some P') (key : String) :
    (P'.shared.history key).length
      = (P.shared.history key).length + (writes key P m).toNat := by
  cases hwrites : writes key P m with
  | true =>
    obtain ⟨id, q, tr, value, etag, ttl, w, hw⟩ := (writes_iff hs).mp hwrites
    rw [hw.history_self, List.length_cons]
    rfl
  | false =>
    obtain ⟨n, htick, -⟩ | ⟨id, q, tr, key', value, etag, ttl, w, hw⟩ := step_cases hs
    · rw [htick, EtagStore.history_tick]
      rfl
    · have hkey : key ≠ key' := by
        intro hkey
        subst hkey
        rw [(writes_iff hs).mpr ⟨id, q, tr, value, etag, ttl, w, hw⟩] at hwrites
        cases hwrites
      rw [hw.history_of_ne hkey]
      rfl

/-! ### The newest memory version -/

/-- The newest memory record has the version `first + count`, and there are `count` older ones. -/
def NewestMemory (B : Build) (t a : String) (s : Backing Author) (first count : Nat) : Prop :=
  ∃ y older, s.history (workingMemoryKey t a) = y :: older ∧ older.length = count ∧
    memVersionOf B y = first + count

theorem newestMemory_start (h : StartsWith B t a s₀ state₀ mem₀) :
    NewestMemory B t a s₀ mem₀.version.toNat 0 := by
  obtain ⟨v, hv, hdec⟩ := h.memoryRecord
  obtain ⟨y, hhist, hy, -⟩ := hv.exists_entry
  exact ⟨y, [], hhist, rfl, memVersionOf_eq (hy ▸ hdec)⟩

/-- The memory write of a freeze that names the newest version installs the next one. -/
theorem NewestMemory.write {first count id : Nat} {i : FreezeInput} {c₁ : Option Duration}
    {w : Answer} (h : NewestMemory B t a P.shared first count)
    (hw : Wrote P P' m id (.freeze i) [⟨.now, c₁⟩] (workingMemoryKey t a) (i.memBytes B c₁)
      (some i.memoryEtag) (.seconds 86400) w)
    (hnames : i.workingMemory.version.toNat = first + count) (hfits : i.Fits) :
    NewestMemory B t a P'.shared first (count + 1) := by
  obtain ⟨y, older, hhist, holder, -⟩ := h
  refine ⟨_, y :: older, by rw [hw.history_self, hhist], ?_, ?_⟩
  · rw [List.length_cons, holder]
  · rw [memVersionOf_memBytes hfits, hnames, Nat.add_assoc]

/-- One move of a client adds to the count what it writes. -/
theorem NewestMemory.step {first count : Nat} (h : NewestMemory B t a P.shared first count)
    (hinit : StartsWith B t a s₀ state₀ mem₀)
    (hr : Run (step M B) (FreezesInputs t a) (start s₀) ms P) (hs : step M B P m = some P')
    (hbound : B.overflowChecks = false →
      first + (count + (writes (workingMemoryKey t a) P m).toNat) < 2 ^ 64) :
    NewestMemory B t a P'.shared first
      (count + (writes (workingMemoryKey t a) P m).toNat) := by
  -- A move that leaves the history does not count.
  have hsame : P'.shared.history (workingMemoryKey t a)
      = P.shared.history (workingMemoryKey t a) →
      NewestMemory B t a P'.shared first
        (count + (writes (workingMemoryKey t a) P m).toNat) := by
    intro hsame
    have hlength := history_length_step hs (workingMemoryKey t a)
    rw [hsame] at hlength
    have hzero : (writes (workingMemoryKey t a) P m).toNat = 0 := by omega
    rw [hzero, NewestMemory, hsame]
    exact h
  obtain ⟨-, hmem⟩ | ⟨id, i, c₁, w, hroot, hw⟩ | ⟨id, i, c₁, c₂, e₁, w, hroot, hw⟩ :=
    step_primary hr hs t a
  · exact hsame hmem
  · have hwrites : writes (workingMemoryKey t a) P m = true :=
      (writes_iff hs).mpr ⟨id, _, _, _, _, _, w, hw⟩
    rw [hwrites] at hbound ⊢
    -- The write lands on the record that its hydrate has read.
    obtain ⟨r, x, y, older, hhist, hread⟩ := hw.onto_hydrated hinit hr hroot
    have hnames : i.workingMemory.version.toNat = first + count := by
      obtain ⟨y', older', hhist', -, hversion⟩ := h
      rw [hhist, List.cons.injEq] at hhist'
      rw [← hversion, ← hhist'.1, hread.version]
    have hfits : i.Fits := by
      obtain ⟨next, hp⟩ := hw.before
      refine (run_increments hr hp).fits fun hno => ?_
      have hlt : first + (count + 1) < 2 ^ 64 := hbound hno
      show i.workingMemory.version.toNat + 1 < 2 ^ 64
      omega
    exact h.write hw hnames hfits
  · exact hsame (hw.history_of_ne (agentStateKey_ne_workingMemoryKey _ _ _ _).symm)

/-- The newest memory record has the first version plus the number of memory writes. In a build
that does not check overflow this version has to fit. -/
theorem run_memoryVersion (hinit : StartsWith B t a s₀ state₀ mem₀)
    (h : Run (step M B) (FreezesInputs t a) (start s₀) ms P)
    (hbound : B.overflowChecks = false →
      mem₀.version.toNat + memoryWrites M B t a s₀ ms < 2 ^ 64) :
    NewestMemory B t a P.shared mem₀.version.toNat (memoryWrites M B t a s₀ ms) := by
  induction h with
  | nil => exact newestMemory_start hinit
  | @snoc ms P P' m hr _ hs ih =>
    have hsnoc : memoryWrites M B t a s₀ (ms ++ [m])
        = memoryWrites M B t a s₀ ms + (writes (workingMemoryKey t a) P m).toNat :=
      tally_snoc _ hr hs
    rw [hsnoc] at hbound ⊢
    have hbefore : NewestMemory B t a P.shared mem₀.version.toNat
        (memoryWrites M B t a s₀ ms) :=
      ih fun hno => Nat.lt_of_le_of_lt (by omega) (hbound hno)
    exact hbefore.step hinit hr hs hbound

/-- So the versions are distinct: there are fewer of them than numbers of 64 bits. -/
theorem distinct_of_bound (hinit : StartsWith B t a s₀ state₀ mem₀)
    (h : Run (step M B) (FreezesInputs t a) (start s₀) ms P)
    (hbound : B.overflowChecks = false →
      mem₀.version.toNat + memoryWrites M B t a s₀ ms < 2 ^ 64) :
    DistinctVersions B t a P.shared := by
  obtain ⟨y, older, hhist, holder, hversion⟩ := run_memoryVersion hinit h hbound
  refine (run_counts hinit h).pairwise_ne ?_
  have hlt : memVersionOf B y < 2 ^ 64 := memVersionOf_lt B y
  rw [hhist, List.length_cons]
  omega

/-! ### The stored pair -/

/-- Each record in the two histories of the agent decodes. -/
theorem run_decodes (hinit : StartsWith B t a s₀ state₀ mem₀)
    (h : Run (step M B) ok (start s₀) ms P) :
    (∀ x ∈ P.shared.history (agentStateKey t a), ∃ state, B.state.decode x.value = .ok state) ∧
      ∀ y ∈ P.shared.history (workingMemoryKey t a),
        ∃ mem, B.memory.decode y.value = .ok mem := by
  refine h.invariant (fun P =>
    (∀ x ∈ P.shared.history (agentStateKey t a), ∃ state, B.state.decode x.value = .ok state) ∧
      ∀ y ∈ P.shared.history (workingMemoryKey t a),
        ∃ mem, B.memory.decode y.value = .ok mem) ⟨?_, ?_⟩ ?_
  · obtain ⟨v, hv, hdec⟩ := hinit.stateRecord
    obtain ⟨x₀, hhist, hx₀, -⟩ := hv.exists_entry
    show ∀ x ∈ s₀.history (agentStateKey t a), _
    rw [hhist]
    intro x hx
    rw [List.mem_singleton.mp hx, hx₀]
    exact ⟨state₀, hdec⟩
  · obtain ⟨v, hv, hdec⟩ := hinit.memoryRecord
    obtain ⟨y₀, hhist, hy₀, -⟩ := hv.exists_entry
    show ∀ y ∈ s₀.history (workingMemoryKey t a), _
    rw [hhist]
    intro y hy
    rw [List.mem_singleton.mp hy, hy₀]
    exact ⟨mem₀, hdec⟩
  · intro ms P m P' hr hP _ hs
    have hne : agentStateKey t a ≠ workingMemoryKey t a :=
      agentStateKey_ne_workingMemoryKey _ _ _ _
    obtain ⟨hstate, hmem⟩ | ⟨id, i, c₁, w, -, hw⟩ | ⟨id, i, c₁, c₂, e₁, w, -, hw⟩ :=
      step_primary hr hs t a
    · rwa [hstate, hmem]
    · rw [hw.history_of_ne hne, hw.history_self]
      refine ⟨hP.1, List.forall_mem_cons.mpr ⟨?_, hP.2⟩⟩
      exact ⟨_, B.memory.decode_encodeToVec (i.frozenMemory B c₁)⟩
    · rw [hw.history_of_ne hne.symm, hw.history_self]
      refine ⟨List.forall_mem_cons.mpr ⟨?_, hP.1⟩, hP.2⟩
      exact ⟨_, B.state.decode_encodeToVec (i.frozenState B c₁ c₂)⟩

/-- In both phases the newest state record names the version of the newest memory record, or of
the one below it. -/
theorem Phase.gap {s : Backing Author} (h : Phase B t a s)
    {x y : Entry String Bytes ETag Author} {xs ys : List (Entry String Bytes ETag Author)}
    (hx : s.history (agentStateKey t a) = x :: xs)
    (hy : s.history (workingMemoryKey t a) = y :: ys) (hlength : ys.length ≤ memVersionOf B y) :
    stateVersionOf B x ≤ memVersionOf B y ∧ memVersionOf B y ≤ stateVersionOf B x + 1 := by
  cases h with
  | idle haligned =>
    rw [hx, hy] at haligned
    cases haligned with
    | cons hpaired _ =>
      rw [hpaired.version]
      omega
  | busy y' y₀ older hhist haligned hversion =>
    rw [hhist, List.cons.injEq] at hy
    obtain ⟨rfl, rfl⟩ := hy
    rw [hx] at haligned
    cases haligned with
    | cons hpaired _ =>
      rw [hpaired.version]
      -- The version has not wrapped: it is not zero.
      have hlt : memVersionOf B y₀ < 2 ^ 64 := memVersionOf_lt B y₀
      rw [List.length_cons] at hlength
      omega

/-! ### Freezes that stand between their two writes -/

/-- The client has made a write to `key` that succeeded. -/
def HasWritten (P : Swarm) (id : Nat) (key : String) : Prop :=
  ∃ p value etag ttl e, P.procs id = some p ∧ ⟨.set key value etag ttl, .ok e⟩ ∈ p.transcript

/-- The client has written the memory of the agent and has not written its state. It may be
running, or have crashed, or have returned an error. -/
structure HalfWritten (t a : String) (P : Swarm) (id : Nat) : Prop where
  memory : P.HasWritten id (workingMemoryKey t a)
  state : ¬ P.HasWritten id (agentStateKey t a)

/-- The memory record of such a client is the newest one, so there is one such client at
most. -/
theorem Phase.author_of_halfWritten (hphase : Phase B t a P.shared)
    (hinit : StartsWith B t a s₀ state₀ mem₀) (h : Run (step M B) ok (start s₀) ms P) {id : Nat}
    (hhalf : HalfWritten t a P id) {y : Entry String Bytes ETag Author}
    {ys : List (Entry String Bytes ETag Author)}
    (hhist : P.shared.history (workingMemoryKey t a) = y :: ys) : y.author = some id := by
  obtain ⟨p, value, etag, ttl, e, hp, hmem⟩ := hhalf.memory
  have hwritten : ⟨workingMemoryKey t a, value, e, some id⟩ ∈
      P.shared.history (workingMemoryKey t a) := run_written h hp hmem
  -- A memory record with a partner has an author who has written its state.
  have hunpaired : ∀ zs, List.Forall₂ (Paired B) (P.shared.history (agentStateKey t a)) zs →
      ⟨workingMemoryKey t a, value, e, some id⟩ ∉ zs := by
    intro zs haligned hz
    obtain ⟨x, hx, hpaired⟩ := exists_left_of_forall₂ haligned hz
    obtain ⟨p', etag', ttl', hp', hstate⟩ := run_wrote hinit.unauthored h hx hpaired.author
    exact hhalf.state ⟨p', _, etag', ttl', _, hp', hstate⟩
  cases hphase with
  | idle haligned => exact absurd hwritten (hunpaired _ haligned)
  | busy y' y₀ older hhist' haligned _ =>
    rw [hhist', List.cons.injEq] at hhist
    rw [hhist', List.mem_cons] at hwritten
    rcases hwritten with hy | hy
    · rw [← hhist.1, ← hy]
    · exact absurd hy (hunpaired _ haligned)

/-! ### Every reachable store -/

/-- What the store and the clients of an agent keep. The stored memory is the version that the
stored state names or the next one, it counts the memory writes, and at most one client stands
between its two writes. -/
structure VersionGap (M : AgentHydrationManager) (B : Build) (t a : String)
    (s₀ : Backing Author) (mem₀ : WorkingMemoryRecord) (ms : List SwarmMove) (P : Swarm) :
    Prop where
  stored : ∃ state mem, HoldsPair B t a P.shared state mem ∧
    state.workingMemoryVersion.toNat ≤ mem.version.toNat ∧
    mem.version.toNat ≤ state.workingMemoryVersion.toNat + 1 ∧
    mem.version.toNat = mem₀.version.toNat + memoryWrites M B t a s₀ ms
  unique : ∀ id id', HalfWritten t a P id → HalfWritten t a P id' → id = id'

/-- In every run of clients that freeze what they have hydrated, the stored memory is at most
one version ahead of the stored state. The calls interleave, each client can crash, each call can
fail. In a build that does not check overflow the last version has to fit. -/
theorem run_versionGap (hinit : StartsWith B t a s₀ state₀ mem₀)
    (hlive : HoldsPair B t a s₀ state₀ mem₀)
    (h : Run (step M B) (FreezesHydrated t a) (start s₀) ms P)
    (hbound : B.overflowChecks = false →
      mem₀.version.toNat + memoryWrites M B t a s₀ ms < 2 ^ 64) :
    VersionGap M B t a s₀ mem₀ ms P := by
  obtain ⟨vm, hvm, -⟩ := hinit.memoryRecord
  obtain ⟨vs, hvs, -⟩ := hinit.stateRecord
  have hinputs : Run (step M B) (FreezesInputs t a) (start s₀) ms P := run_freezesInputs h
  obtain ⟨y, ys, hhisty, hlength, hversion⟩ := run_memoryVersion hinit hinputs hbound
  have hphase : Phase B t a P.shared :=
    run_phase hinit hinputs (distinct_of_bound hinit hinputs hbound)
  constructor
  · -- Both cells are the newest entries of their histories, and these decode.
    obtain ⟨⟨cs, hcs⟩, ⟨cm, hcm⟩⟩ := run_present hlive h
    obtain ⟨x, xs, hhistx, hxv, -⟩ := (run_journaled hvs.journaled h).exists_newest hcs
    obtain ⟨y', ys', hhisty', hyv, -⟩ := (run_journaled hvm.journaled h).exists_newest hcm
    rw [hhisty, List.cons.injEq] at hhisty'
    obtain ⟨rfl, rfl⟩ := hhisty'
    obtain ⟨state, hstate⟩ := (run_decodes hinit h).1 x (by simp [hhistx])
    obtain ⟨mem, hmem⟩ := (run_decodes hinit h).2 y (by simp [hhisty])
    have hgap := hphase.gap hhistx hhisty (by omega)
    rw [stateVersionOf_eq hstate, memVersionOf_eq hmem] at hgap
    rw [memVersionOf_eq hmem] at hversion
    rw [hxv] at hstate
    rw [hyv] at hmem
    exact ⟨state, mem, ⟨⟨cs, hcs, hstate⟩, ⟨cm, hcm, hmem⟩⟩, hgap.1, hgap.2, hversion⟩
  · intro id id' hid hid'
    have hauthor : y.author = some id := hphase.author_of_halfWritten hinit h hid hhisty
    have hauthor' : y.author = some id' := hphase.author_of_halfWritten hinit h hid' hhisty
    exact Option.some.inj (hauthor.symm.trans hauthor')

/-- The run in which client 1 freezes the blank records that client 0 has hydrated: it has one
memory write, and the stored memory has version 1. -/
theorem run_versionGap_blank :
    ∃ ms P, Run (step .new debugBuild) (FreezesHydrated "acme" "writer")
        (start (blankStore none debugBuild "acme" "writer")) ms P ∧
      StartsWith debugBuild "acme" "writer" (blankStore none debugBuild "acme" "writer")
        (blankState "acme" "writer") (blankMemory "acme" "writer") ∧
      memoryWrites .new debugBuild "acme" "writer" (blankStore none debugBuild "acme" "writer") ms
        = 1 ∧
      VersionGap .new debugBuild "acme" "writer" (blankStore none debugBuild "acme" "writer")
        (blankMemory "acme" "writer") ms P := by
  obtain ⟨ms, P, -, -, hrun, -, -, -, hshared, -⟩ :=
    run_replaces_blank .new freezesHydrated_hydrate admitsSmooth_freezesHydrated
      fun P p rs rm hp hreads => freezesHydrated_freeze (afterHydrate_blank hp hreads)
  have hgap : VersionGap .new debugBuild "acme" "writer"
      (blankStore none debugBuild "acme" "writer") (blankMemory "acme" "writer") ms P :=
    run_versionGap (startsWith_pairStore rfl) holdsPair_pairStore hrun (fun hno => by cases hno)
  refine ⟨ms, P, hrun, startsWith_pairStore rfl, ?_, hgap⟩
  -- The stored memory is the one that client 1 has frozen.
  obtain ⟨state, mem, hpair, -, -, hcount⟩ := hgap.stored
  rw [hshared] at hpair
  have hmem := (hpair.unique holdsPair_frozenStore).2
  have hone : ((blankInput "acme" "writer").frozenMemory debugBuild
      (answerWith "2").clock).version.toNat = 1 := by decide
  have hzero : (blankMemory "acme" "writer").version.toNat = 0 := rfl
  rw [hmem, hone, hzero] at hcount
  omega

end Swarm

end SwarmRuntime.State
