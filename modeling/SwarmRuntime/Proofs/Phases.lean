import Mathlib.Data.List.Forall2
import SwarmRuntime.Lib.Counter
import SwarmRuntime.Proofs.Snapshot

/-!
# `SwarmRuntime.Proofs.Phases`: the phases of an agent under concurrent freezes

Clients that freeze with the tags that their own hydrate read take turns, whatever the
interleaving and whichever of them crash. The invariant is `Phase`. In the idle phase the two
histories of the agent are aligned: the state records and the memory records stand in pairs of
one author and one version. In the busy phase one freeze stands between its two writes: its
memory record is on top of aligned histories. A freeze that crashed or failed there leaves the
agent busy for ever.

A hydrate that returns while a freeze is busy has read an older pair, and the memory tag of
that pair is dead. So no other memory write succeeds before the state write of the busy freeze,
and this write finds the tag that its hydrate read (`pending_state_write_finds`).

The proof needs that a version names one memory record (`DistinctVersions`). Versions that
increase are distinct, and so are versions that wrap less than once around: in a build that does
not check overflow the run has to be shorter than one round of the versions (`distinct_of_short`).
-/

set_option autoImplicit false

namespace SwarmRuntime.State

open SwarmRuntime.Lib SwarmRuntime.Lib.Interaction

/-- The state record `x` and the memory record `y` have one author and one version. -/
structure Paired (B : Build) (x y : Entry String Bytes ETag Author) : Prop where
  author : x.author = y.author
  version : stateVersionOf B x = memVersionOf B y

/-- In aligned lists each element of the left one has a partner. -/
theorem exists_right_of_forall₂ {α β : Type} {R : α → β → Prop} {xs : List α} {ys : List β}
    (h : List.Forall₂ R xs ys) {x : α} (hx : x ∈ xs) : ∃ y ∈ ys, R x y := by
  induction h with
  | nil => cases hx
  | @cons x' y' xs ys hr _ ih =>
    rcases List.mem_cons.mp hx with rfl | hx
    · exact ⟨y', List.mem_cons_self, hr⟩
    · obtain ⟨y, hy, hxy⟩ := ih hx
      exact ⟨y, List.mem_cons_of_mem _ hy, hxy⟩

/-- In aligned lists each element of the right one has a partner. -/
theorem exists_left_of_forall₂ {α β : Type} {R : α → β → Prop} {xs : List α} {ys : List β}
    (h : List.Forall₂ R xs ys) {y : β} (hy : y ∈ ys) : ∃ x ∈ xs, R x y :=
  exists_right_of_forall₂ h.flip hy

namespace Swarm

variable {M : AgentHydrationManager} {B : Build} {t a : String} {P P' : Swarm} {m : SwarmMove}
  {s₀ : Backing Author} {ms : List SwarmMove}
  {state₀ : AgentStateRecord} {mem₀ : WorkingMemoryRecord}

/-- `r` is the result of a hydrate that read the records with the tags of the freeze input
`i`, and `i` keeps the memory version of `r`. -/
structure AfterHydrate (P : Swarm) (i : FreezeInput) (r : HydrationResult) : Prop where
  hydrate : ∃ id p rs rm, P.procs id = some p ∧ p.request = .hydrate i.tenantId i.agentId ∧
    p.rest = done (.hydrated (.ok r)) ∧
    ⟨.get (agentStateKey i.tenantId i.agentId), .ok (some rs)⟩ ∈ p.transcript ∧
    ⟨.get (workingMemoryKey i.tenantId i.agentId), .ok (some rm)⟩ ∈ p.transcript ∧
    rs.etag = i.stateEtag ∧ rm.etag = i.memoryEtag
  fromPrimary : r.recoveredFromCheckpoint = false
  version : i.workingMemory.version = r.workingMemory.version

/-- The moves of clients that freeze the agent with what they have hydrated. Each client can
crash, each call can fail, and each record can expire. -/
structure FreezesInputs (t a : String) (P : Swarm) (m : SwarmMove) : Prop where
  fresh : FreshTags P m
  inputs : ∀ id i, m = .start id (.freeze i) → keyRoot i.tenantId i.agentId = keyRoot t a →
    ∃ r, AfterHydrate P i r

/-- The same moves, while the two primary records do not expire. -/
structure FreezesHydrated (t a : String) (P : Swarm) (m : SwarmMove) : Prop
    extends FreezesInputs t a P m where
  noExpiry : ∀ n, m = .env n →
    (P.shared.tick n).lookup (agentStateKey t a) = P.shared.lookup (agentStateKey t a) ∧
      (P.shared.tick n).lookup (workingMemoryKey t a) = P.shared.lookup (workingMemoryKey t a)

/-- Runs without such an expiry are runs of these clients. -/
theorem run_freezesInputs (h : Run (step M B) (FreezesHydrated t a) (start s₀) ms P) :
    Run (step M B) (FreezesInputs t a) (start s₀) ms P :=
  h.mono fun _ _ _ _ hok => hok.toFreezesInputs

/-- What a finished hydrate returned stays. -/
theorem AfterHydrate.kept {i : FreezeInput} {r : HydrationResult} (h : AfterHydrate P i r)
    (hs : step M B P m = some P') : AfterHydrate P' i r := by
  -- A client that has returned keeps its result and its transcript.
  obtain ⟨id, p, rs, rm, hp, hq, hdone, hgs, hgm, hes, hem⟩ := h.hydrate
  obtain ⟨p', hp', hreq, hpre, hend⟩ := Pool.step_extends hs id p hp
  obtain ⟨hrest, htr⟩ := hend (by rw [hdone]; intro c next hask; cases hask)
  refine { h with hydrate := ?_ }
  exact ⟨id, p', rs, rm, hp', hreq.trans hq, hrest.trans hdone, hpre.subset hgs, hpre.subset hgm,
    hes, hem⟩

/-- What a finished hydrate returned stays along a run. -/
theorem AfterHydrate.kept_run {ok : Swarm → SwarmMove → Prop} {P₀ : Swarm}
    (h : Run (step M B) ok P₀ ms P) {i : FreezeInput} {r : HydrationResult}
    (hfrom : AfterHydrate P₀ i r) : AfterHydrate P i r :=
  h.invariant (fun P => AfterHydrate P i r) hfrom fun _ _ _ _ _ hfrom _ hs => hfrom.kept hs

/-- Both records of a finished hydrate decode to its result. -/
theorem AfterHydrate.decodes {ok : Swarm → SwarmMove → Prop}
    (h : Run (step M B) ok (start s₀) ms P) {i : FreezeInput} {r : HydrationResult}
    (hfrom : AfterHydrate P i r) :
    ∃ rs rm, P.HasRead (agentStateKey i.tenantId i.agentId) rs ∧
      P.HasRead (workingMemoryKey i.tenantId i.agentId) rm ∧
      rs.etag = i.stateEtag ∧ rm.etag = i.memoryEtag ∧
      B.state.decode rs.value = .ok r.state ∧ B.memory.decode rm.value = .ok r.workingMemory ∧
      r.workingMemory.version = r.state.workingMemoryVersion := by
  obtain ⟨id, p, rs, rm, hp, hq, hdone, hgs, hgm, hes, hem⟩ := hfrom.hydrate
  obtain ⟨hdecs, hdecm, hver⟩ := hydrate_ok_of_mem (hydrated_trace h hp hq hdone) hgs hgm
  exact ⟨rs, rm, ⟨id, p, hp, hgs⟩, ⟨id, p, hp, hgm⟩, hes, hem, hdecs, hdecm, hver⟩

/-- What a client has hydrated, it has read. -/
theorem AfterHydrate.fromReads {ok : Swarm → SwarmMove → Prop}
    (h : Run (step M B) ok (start s₀) ms P) {i : FreezeInput} {r : HydrationResult}
    (hfrom : AfterHydrate P i r) (hwrap : B.overflowChecks = false → i.Fits) :
    FromReads B P i := by
  obtain ⟨rs, rm, hrs, hrm, hes, hem, -, hdecm, -⟩ := hfrom.decodes h
  exact ⟨hwrap, ⟨rs, hrs, hes⟩, ⟨rm, r.workingMemory, hrm, hem, hdecm, hfrom.version.symm⟩⟩

/-- Clients that freeze what they have hydrated freeze what they have read, when no version
wraps. -/
theorem run_readsFirst_of_inputs {ok : Swarm → SwarmMove → Prop}
    (hok : ∀ P m, ok P m → FreezesInputs t a P m)
    (hwrap : ∀ P id i, ok P (.start id (.freeze i)) →
      keyRoot i.tenantId i.agentId = keyRoot t a → B.overflowChecks = false → i.Fits)
    (h : Run (step M B) ok (start s₀) ms P) :
    Run (step M B) (ReadsFirst B t a) (start s₀) ms P := by
  refine h.mono fun ms P m hr hm => ⟨(hok P m hm).fresh, ?_⟩
  intro id i hstart hroot
  subst hstart
  obtain ⟨r, hfrom⟩ := (hok P _ hm).inputs id i rfl hroot
  exact hfrom.fromReads hr (hwrap P id i hm hroot)

/-- The input of each freeze of the agent comes from a finished hydrate. -/
theorem run_afterHydrate (h : Run (step M B) (FreezesInputs t a) (start s₀) ms P) {id : Nat}
    {p : Proc Reply Request Response} (hp : P.procs id = some p) {i : FreezeInput}
    (hq : p.request = .freeze i) (hroot : keyRoot i.tenantId i.agentId = keyRoot t a) :
    ∃ r, AfterHydrate P i r := by
  induction h generalizing p with
  | nil => cases hp
  | @snoc ms P P' m hr hok hs ih =>
    have hold : ∀ p₀, P.procs id = some p₀ → p₀.request = p.request →
        ∃ r, AfterHydrate P' i r := by
      intro p₀ hp₀ hreq
      obtain ⟨r, hfrom⟩ := ih hp₀ (hreq.trans hq)
      exact ⟨r, hfrom.kept hs⟩
    obtain hp₀ | ⟨q, rfl, -, rfl⟩ | ⟨p₀, -, hp₀, rfl⟩ | ⟨w, q, tr, c, next, -, hp₀, rfl, -⟩ :=
      Pool.step_procs hs hp
    · exact hold p hp₀ rfl
    · cases hq
      obtain ⟨r, hfrom⟩ := hok.inputs id i rfl hroot
      exact ⟨r, hfrom.kept hs⟩
    · exact hold p₀ hp₀ rfl
    · exact hold _ hp₀ rfl

/-- The journal entries that the input of a freeze names: one for each record of the pair that
its hydrate returned. -/
structure Names (B : Build) (t a : String) (s : Backing Author) (i : FreezeInput)
    (r : HydrationResult) (x y : Entry String Bytes ETag Author) : Prop where
  stateEntry : x ∈ s.history (agentStateKey t a)
  memoryEntry : y ∈ s.history (workingMemoryKey t a)
  stateTag : x.etag = i.stateEtag
  memoryTag : y.etag = i.memoryEtag
  state : B.state.decode x.value = .ok r.state
  memory : B.memory.decode y.value = .ok r.workingMemory
  version : memVersionOf B y = i.workingMemory.version.toNat
  versions : stateVersionOf B x = memVersionOf B y

/-- A finished hydrate has read entries of the journal. -/
theorem AfterHydrate.names {ok : Swarm → SwarmMove → Prop}
    (hinit : StartsWith B t a s₀ state₀ mem₀) (h : Run (step M B) ok (start s₀) ms P)
    {i : FreezeInput} {r : HydrationResult} (hfrom : AfterHydrate P i r)
    (hroot : keyRoot i.tenantId i.agentId = keyRoot t a) :
    ∃ x y, Names B t a P.shared i r x y := by
  obtain ⟨vm, hvm, -⟩ := hinit.memoryRecord
  obtain ⟨vs, hvs, -⟩ := hinit.stateRecord
  obtain ⟨rs, rm, ⟨id, p, hp, hrs⟩, ⟨id', p', hp', hrm⟩, hes, hem, hdecs, hdecm, hver⟩ :=
    hfrom.decodes h
  rw [(agentStateKey_eq_iff _ _ _ _).mpr hroot] at hrs
  rw [(workingMemoryKey_eq_iff _ _ _ _).mpr hroot] at hrm
  obtain ⟨x, hx, hxv, hxe⟩ := run_reads hvs.journaled h hp hrs
  obtain ⟨y, hy, hyv, hye⟩ := run_reads hvm.journaled h hp' hrm
  have hdecx : B.state.decode x.value = .ok r.state := by rw [hxv, hdecs]
  have hdecy : B.memory.decode y.value = .ok r.workingMemory := by rw [hyv, hdecm]
  exact ⟨x, y,
    { stateEntry := hx
      memoryEntry := hy
      stateTag := hxe.trans hes
      memoryTag := hye.trans hem
      state := hdecx
      memory := hdecy
      version := by rw [memVersionOf_eq hdecy, hfrom.version]
      versions := by rw [stateVersionOf_eq hdecx, memVersionOf_eq hdecy, hver] }⟩

/-- A successful memory write lands on the entry that its hydrate has read. -/
theorem Wrote.onto_hydrated (hinit : StartsWith B t a s₀ state₀ mem₀)
    (h : Run (step M B) (FreezesInputs t a) (start s₀) ms P) {id : Nat} {i : FreezeInput}
    {tr : Transcript Reply} {value : Bytes} {ttl : TtlPolicy} {w : Answer}
    (hroot : keyRoot i.tenantId i.agentId = keyRoot t a)
    (hw : Wrote P P' m id (.freeze i) tr (workingMemoryKey t a) value (some i.memoryEtag) ttl w) :
    ∃ r x y older, P.shared.history (workingMemoryKey t a) = y :: older ∧
      Names B t a P.shared i r x y := by
  obtain ⟨vm, hvm, -⟩ := hinit.memoryRecord
  have hj : P.shared.Journaled (workingMemoryKey t a) := run_journaled hvm.journaled h
  have ht : P.shared.Tagged (workingMemoryKey t a) :=
    run_tagged (fun _ _ hok => hok.fresh) hvm.tagged h
  obtain ⟨next, hp⟩ := hw.before
  obtain ⟨r, hfrom⟩ := run_afterHydrate h hp rfl hroot
  obtain ⟨x, y, hnames⟩ := hfrom.names hinit h hroot
  obtain ⟨y₀, older, hhist, hye, -⟩ := hw.onto_named hj ht
    ⟨y, hnames.memoryEntry, hnames.memoryTag, hnames.version⟩
  have hsame : y = y₀ := ht.eq_of_etag hnames.memoryEntry (by simp [hhist])
    (hnames.memoryTag.trans hye.symm)
  subst hsame
  exact ⟨r, x, y, older, hhist, hnames⟩

/-! ### Versions that do not come twice -/

/-- Each memory record has the version after the one below it. -/
theorem run_counts (hinit : StartsWith B t a s₀ state₀ mem₀)
    (h : Run (step M B) (FreezesInputs t a) (start s₀) ms P) :
    Counts (2 ^ 64) (memVersionOf B) (P.shared.history (workingMemoryKey t a)) := by
  obtain ⟨vm, hvm, -⟩ := hinit.memoryRecord
  refine h.invariant (fun P => Counts (2 ^ 64) (memVersionOf B)
    (P.shared.history (workingMemoryKey t a))) ?_ ?_
  · obtain ⟨y₀, hhist, -⟩ := hvm.exists_entry
    show Counts _ _ (s₀.history _)
    rw [hhist]
    exact List.isChain_singleton _
  · intro ms P m P' hr hP _ hs
    show Counts _ _ (P'.shared.history _)
    obtain ⟨-, hsame⟩ | ⟨id, i, c₁, w, hroot, hw⟩ | ⟨id, i, c₁, c₂, e₁, w, hroot, hw⟩ :=
      step_primary hr hs t a
    · rwa [hsame]
    · -- The write lands on the record that its hydrate has read.
      obtain ⟨r, x, y, older, hhist, hnames⟩ := hw.onto_hydrated hinit hr hroot
      rw [hw.history_self, hhist]
      rw [hhist] at hP
      refine hP.cons ?_
      rw [memVersionOf_memBytes_mod, hnames.version]
    · rwa [hw.history_of_ne (agentStateKey_ne_workingMemoryKey _ _ _ _).symm]

/-- The versions of a run are distinct, when the build checks overflow or the run is shorter than
one round of the versions. -/
theorem distinct_of_short (hinit : StartsWith B t a s₀ state₀ mem₀)
    (h : Run (step M B) (FreezesInputs t a) (start s₀) ms P)
    (hshort : B.overflowChecks = false → ms.length < 2 ^ 64) :
    DistinctVersions B t a P.shared := by
  cases hchecks : B.overflowChecks with
  | true =>
    -- A freeze whose version would wrap panics before its first call.
    have hreads : Run (step M B) (ReadsFirst B t a) (start s₀) ms P := by
      refine run_readsFirst_of_inputs (fun _ _ hok => hok) ?_ h
      intro P id i _ _ hno
      rw [hchecks] at hno
      cases hno
    exact (run_memory_versions hinit hreads).distinct
  | false =>
    obtain ⟨vm, hvm, -⟩ := hinit.memoryRecord
    obtain ⟨y₀, hhist, -⟩ := hvm.exists_entry
    have hlen : (P.shared.history (workingMemoryKey t a)).length ≤
        (s₀.history (workingMemoryKey t a)).length + ms.length := run_history_length h _
    have hms : ms.length < 2 ^ 64 := hshort hchecks
    rw [hhist, List.length_singleton] at hlen
    exact (run_counts hinit h).pairwise_ne (by omega)

/-! ### The phases of an agent -/

/-- Where the histories of the agent stand. Idle: they are aligned in pairs. Busy: one more
memory record lies on top, and its version is the next one. -/
inductive Phase (B : Build) (t a : String) (s : Backing Author) : Prop
  | idle (haligned : List.Forall₂ (Paired B) (s.history (agentStateKey t a))
      (s.history (workingMemoryKey t a)))
  | busy (y y₀ : Entry String Bytes ETag Author) (older : List (Entry String Bytes ETag Author))
      (hhist : s.history (workingMemoryKey t a) = y :: y₀ :: older)
      (haligned : List.Forall₂ (Paired B) (s.history (agentStateKey t a)) (y₀ :: older))
      (hversion : memVersionOf B y = (memVersionOf B y₀ + 1) % 2 ^ 64)

/-- A client that waits for its state write has written its memory and has not written its
state. -/
theorem pending_state_write {ok : Swarm → SwarmMove → Prop}
    (hinit : StartsWith B t a s₀ state₀ mem₀) (h : Run (step M B) ok (start s₀) ms P)
    {id : Nat} {i : FreezeInput} (hroot : keyRoot i.tenantId i.agentId = keyRoot t a)
    {c₁ c₂ : Option Duration} {e₁ : ETag} {rest : Async Response}
    (hp : P.procs id = some
      ⟨.freeze i, [⟨.now, c₁⟩, ⟨i.memoryWrite B c₁, .ok e₁⟩, ⟨.now, c₂⟩], rest, false⟩) :
    ⟨workingMemoryKey t a, i.memBytes B c₁, e₁, some id⟩ ∈
        P.shared.history (workingMemoryKey t a) ∧
      ∀ x ∈ P.shared.history (agentStateKey t a), x.author ≠ some id := by
  constructor
  · show _ ∈ P.shared.history (workingMemoryKey t a)
    have hmem : ⟨workingMemoryKey i.tenantId i.agentId, i.memBytes B c₁, e₁, some id⟩ ∈
        P.shared.history (workingMemoryKey i.tenantId i.agentId) :=
      run_written h hp (List.mem_cons_of_mem _ List.mem_cons_self)
    rwa [(workingMemoryKey_eq_iff _ _ _ _).mpr hroot] at hmem
  · show ∀ x ∈ P.shared.history (agentStateKey t a), x.author ≠ some id
    rw [← (agentStateKey_eq_iff _ _ _ _).mpr hroot]
    exact run_not_author hinit.unauthored h hp fun _ _ _ _ =>
      (FreezeWrite.state c₁ c₂ e₁).not_written

/-- While a client waits for its state write the agent is busy with this client. -/
theorem Phase.busy_of_pending {ok : Swarm → SwarmMove → Prop} (hphase : Phase B t a P.shared)
    (hinit : StartsWith B t a s₀ state₀ mem₀) (h : Run (step M B) ok (start s₀) ms P)
    {id : Nat} {i : FreezeInput} (hroot : keyRoot i.tenantId i.agentId = keyRoot t a)
    {c₁ c₂ : Option Duration} {e₁ : ETag} {rest : Async Response}
    (hp : P.procs id = some
      ⟨.freeze i, [⟨.now, c₁⟩, ⟨i.memoryWrite B c₁, .ok e₁⟩, ⟨.now, c₂⟩], rest, false⟩) :
    ∃ y₀ older, P.shared.history (workingMemoryKey t a)
        = ⟨workingMemoryKey t a, i.memBytes B c₁, e₁, some id⟩ :: y₀ :: older ∧
      List.Forall₂ (Paired B) (P.shared.history (agentStateKey t a)) (y₀ :: older) ∧
      memVersionOf B ⟨workingMemoryKey t a, i.memBytes B c₁, e₁, some id⟩
        = (memVersionOf B y₀ + 1) % 2 ^ 64 := by
  obtain ⟨hmem, hnone⟩ := pending_state_write hinit h hroot hp
  -- A memory record with a partner has an author who has written its state.
  have hunpaired : ∀ ys, List.Forall₂ (Paired B) (P.shared.history (agentStateKey t a)) ys →
      ⟨workingMemoryKey t a, i.memBytes B c₁, e₁, some id⟩ ∉ ys := by
    intro ys haligned hy
    obtain ⟨x, hx, hpaired⟩ := exists_left_of_forall₂ haligned hy
    exact hnone x hx hpaired.author
  cases hphase with
  | idle haligned => exact absurd hmem (hunpaired _ haligned)
  | busy y y₀ older hhist haligned hversion =>
    rw [hhist, List.mem_cons] at hmem
    rcases hmem with hy | hy
    · subst hy
      exact ⟨y₀, older, hhist, haligned, hversion⟩
    · exact absurd hy (hunpaired _ haligned)

/-- The state entry that pairs with the newest committed memory entry is the newest state
entry. -/
theorem newest_of_aligned {xs : List (Entry String Bytes ETag Author)}
    {y₀ : Entry String Bytes ETag Author} {older : List (Entry String Bytes ETag Author)}
    (haligned : List.Forall₂ (Paired B) xs (y₀ :: older))
    (hversions : (y₀ :: older).Pairwise fun x y => memVersionOf B x ≠ memVersionOf B y)
    {x : Entry String Bytes ETag Author} (hx : x ∈ xs)
    (hxy : stateVersionOf B x = memVersionOf B y₀) :
    ∃ rest, xs = x :: rest ∧ Paired B x y₀ ∧ List.Forall₂ (Paired B) rest older := by
  cases haligned with
  | @cons x₀ _ rest _ hpaired hrest =>
    rcases List.mem_cons.mp hx with rfl | hx
    · exact ⟨rest, rfl, hpaired, hrest⟩
    · -- An older state entry has the version of an older memory entry.
      obtain ⟨y, hy, hxy'⟩ := exists_right_of_forall₂ hrest hx
      have hne : memVersionOf B y₀ ≠ memVersionOf B y := List.rel_of_pairwise_cons hversions hy
      exact absurd (hxy.symm.trans hxy'.version) hne

/-- While the agent is busy, no state entry has the version of the newest memory entry. -/
theorem version_ne_of_busy {s : Backing Author} (hdistinct : DistinctVersions B t a s)
    {y : Entry String Bytes ETag Author} {ys : List (Entry String Bytes ETag Author)}
    (hhist : s.history (workingMemoryKey t a) = y :: ys)
    {xs : List (Entry String Bytes ETag Author)} (haligned : List.Forall₂ (Paired B) xs ys)
    {x : Entry String Bytes ETag Author} (hx : x ∈ xs) :
    stateVersionOf B x ≠ memVersionOf B y := by
  unfold DistinctVersions at hdistinct
  rw [hhist] at hdistinct
  obtain ⟨y', hy', hpaired⟩ := exists_right_of_forall₂ haligned hx
  have hne : memVersionOf B y ≠ memVersionOf B y' := List.rel_of_pairwise_cons hdistinct hy'
  rw [hpaired.version]
  exact hne.symm

/-- The agent of the start is idle. -/
theorem phase_start (hinit : StartsWith B t a s₀ state₀ mem₀) : Phase B t a s₀ := by
  obtain ⟨x₀, y₀, hx₀, hy₀, hauthor, hver⟩ := exists_entries_start hinit
  refine .idle ?_
  show List.Forall₂ (Paired B) (s₀.history _) (s₀.history _)
  rw [hx₀, hy₀]
  exact .cons ⟨hauthor.symm, hver.symm⟩ .nil

/-- A move that writes neither record keeps the phase. -/
theorem Phase.unwritten {s s' : Backing Author} (h : Phase B t a s)
    (hstate : s'.history (agentStateKey t a) = s.history (agentStateKey t a))
    (hmem : s'.history (workingMemoryKey t a) = s.history (workingMemoryKey t a)) :
    Phase B t a s' := by
  cases h with
  | idle haligned => exact .idle (by rwa [hstate, hmem])
  | busy y y₀ older hhist haligned hversion =>
    exact .busy y y₀ older (by rw [hmem, hhist]) (by rwa [hstate]) hversion

/-- A memory write makes an idle agent busy, and a busy agent has none: the write lands on the
newest entry, and its hydrate has read that entry with a state of its version. -/
theorem Phase.memory_written (hP : Phase B t a P.shared)
    (hinit : StartsWith B t a s₀ state₀ mem₀)
    (h : Run (step M B) (FreezesInputs t a) (start s₀) ms P)
    (hdistinct : DistinctVersions B t a P.shared) {id : Nat} {i : FreezeInput}
    {c₁ : Option Duration} {w : Answer} (hroot : keyRoot i.tenantId i.agentId = keyRoot t a)
    (hw : Wrote P P' m id (.freeze i) [⟨.now, c₁⟩] (workingMemoryKey t a) (i.memBytes B c₁)
      (some i.memoryEtag) (.seconds 86400) w) : Phase B t a P'.shared := by
  obtain ⟨r, x, y, older, hhist, hnames⟩ := hw.onto_hydrated hinit h hroot
  cases hP with
  | idle haligned =>
    refine .busy _ y older (by rw [hw.history_self, hhist]) ?_ ?_
    · show List.Forall₂ (Paired B) (P'.shared.history (agentStateKey t a)) (y :: older)
      rwa [hw.history_of_ne (agentStateKey_ne_workingMemoryKey _ _ _ _), ← hhist]
    · show memVersionOf B _ = (memVersionOf B y + 1) % 2 ^ 64
      rw [memVersionOf_memBytes_mod, hnames.version]
  | busy y' y₀' older' hhist' haligned hversion =>
    have htop : y' = y := by
      rw [hhist] at hhist'
      exact (List.cons.inj hhist').1.symm
    subst htop
    -- No state entry has the version of the newest memory entry, but the one that was read has.
    exact absurd hnames.versions
      (version_ne_of_busy hdistinct hhist' haligned hnames.stateEntry)

/-- A state write completes the pair of the busy freeze, and the agent is idle again. -/
theorem Phase.state_written {ok : Swarm → SwarmMove → Prop} (hP : Phase B t a P.shared)
    (hinit : StartsWith B t a s₀ state₀ mem₀) (h : Run (step M B) ok (start s₀) ms P) {id : Nat}
    {i : FreezeInput} {c₁ c₂ : Option Duration} {e₁ : ETag} {w : Answer}
    (hroot : keyRoot i.tenantId i.agentId = keyRoot t a)
    (hw : Wrote P P' m id (.freeze i) [⟨.now, c₁⟩, ⟨i.memoryWrite B c₁, .ok e₁⟩, ⟨.now, c₂⟩]
      (agentStateKey t a) (i.stateBytes B c₁ c₂) (some i.stateEtag) .none w) :
    Phase B t a P'.shared := by
  obtain ⟨next, hp⟩ := hw.before
  obtain ⟨y₀, older, hhist, haligned, -⟩ := hP.busy_of_pending hinit h hroot hp
  refine .idle ?_
  rw [hw.history_self, hw.history_of_ne (agentStateKey_ne_workingMemoryKey _ _ _ _).symm, hhist]
  refine .cons ⟨rfl, ?_⟩ haligned
  rw [memVersionOf_memBytes_mod, stateVersionOf_stateBytes_mod]

/-- The phases of an agent along a run: a memory write makes it busy, the state write of the
same freeze makes it idle. -/
theorem run_phase (hinit : StartsWith B t a s₀ state₀ mem₀)
    (h : Run (step M B) (FreezesInputs t a) (start s₀) ms P)
    (hdistinct : DistinctVersions B t a P.shared) : Phase B t a P.shared := by
  refine h.invariant (fun P => DistinctVersions B t a P.shared → Phase B t a P.shared)
    (fun _ => phase_start hinit) ?_ hdistinct
  intro ms P m P' hr hP _ hs hdistinct'
  show Phase B t a P'.shared
  -- Versions that are distinct after the step were distinct before.
  have hdistinct : DistinctVersions B t a P.shared := hdistinct'.of_later (step_later hs)
  have hP : Phase B t a P.shared := hP hdistinct
  obtain ⟨hstate, hmem⟩ | ⟨id, i, c₁, w, hroot, hw⟩ | ⟨id, i, c₁, c₂, e₁, w, hroot, hw⟩ :=
    step_primary hr hs t a
  · exact hP.unwritten hstate hmem
  · exact hP.memory_written hinit hr hdistinct hroot hw
  · exact hP.state_written hinit hr hroot hw

/-! ### What a state write finds -/

/-- Both primary records stay in the store. -/
theorem run_present (hlive : HoldsPair B t a s₀ state₀ mem₀)
    (h : Run (step M B) (FreezesHydrated t a) (start s₀) ms P) :
    (∃ c, P.shared.lookup (agentStateKey t a) = some c) ∧
      ∃ c, P.shared.lookup (workingMemoryKey t a) = some c := by
  obtain ⟨cs, hcs, -⟩ := hlive.stateRecord
  obtain ⟨cm, hcm, -⟩ := hlive.memoryRecord
  refine h.invariant (fun P => (∃ c, P.shared.lookup (agentStateKey t a) = some c) ∧
    ∃ c, P.shared.lookup (workingMemoryKey t a) = some c) ⟨⟨cs, hcs⟩, ⟨cm, hcm⟩⟩ ?_
  intro ms P m P' hr hP hok hs
  have hne : agentStateKey t a ≠ workingMemoryKey t a :=
    agentStateKey_ne_workingMemoryKey _ _ _ _
  obtain ⟨n, htick, hn⟩ | ⟨id, q, tr, key, value, etag, ttl, w, hw⟩ := step_cases hs
  · rw [htick]
    rcases hn with rfl | hm
    · exact hP
    · obtain ⟨hstate, hmem⟩ := hok.noExpiry n hm
      rw [hstate, hmem]
      exact hP
  · by_cases hstate : key = agentStateKey t a
    · obtain ⟨i, c₁, c₂, e₁, -, hw⟩ := hw.stateWrite hr hstate
      rw [hw.shared, EtagStore.lookup_put_of_ne _ _ _ _ _ _ _ hne.symm]
      exact ⟨⟨_, EtagStore.lookup_put_none _ _ _ _ _⟩, hP.2⟩
    · by_cases hmem : key = workingMemoryKey t a
      · obtain ⟨i, c₁, -, hw⟩ := hw.memoryWrite hr hmem
        rw [hw.shared, EtagStore.lookup_put_of_ne _ _ _ _ _ _ _ hne]
        exact ⟨hP.1, ⟨_, EtagStore.lookup_put_some _ _ _ _ _ (by decide)⟩⟩
      · rw [hw.shared, EtagStore.lookup_put_of_ne _ _ _ _ _ _ _ (Ne.symm hstate),
          EtagStore.lookup_put_of_ne _ _ _ _ _ _ _ (Ne.symm hmem)]
        exact hP

/-- What the state write of a freeze finds: its own memory record on top of the pair that its
hydrate returned, and the state tag that its hydrate read. -/
structure Finds (B : Build) (t a : String) (s : Backing Author) (id : Nat) (i : FreezeInput)
    (r : HydrationResult) (c₁ : Option Duration) (e₁ : ETag)
    (x y : Entry String Bytes ETag Author) (xs ys : List (Entry String Bytes ETag Author)) :
    Prop where
  stateHistory : s.history (agentStateKey t a) = x :: xs
  memoryHistory : s.history (workingMemoryKey t a)
    = ⟨workingMemoryKey t a, i.memBytes B c₁, e₁, some id⟩ :: y :: ys
  state : B.state.decode x.value = .ok r.state
  memory : B.memory.decode y.value = .ok r.workingMemory
  paired : Paired B x y
  length : xs.length = ys.length
  accepted : s.accepts (agentStateKey t a) (some i.stateEtag) = true

/-- Once its memory write has succeeded, a freeze finds the state record that its hydrate
read: the state write does not conflict. -/
theorem pending_state_write_finds (hinit : StartsWith B t a s₀ state₀ mem₀)
    (hlive : HoldsPair B t a s₀ state₀ mem₀)
    (h : Run (step M B) (FreezesHydrated t a) (start s₀) ms P)
    (hdistinct : DistinctVersions B t a P.shared) {id : Nat} {i : FreezeInput}
    (hroot : keyRoot i.tenantId i.agentId = keyRoot t a) {c₁ c₂ : Option Duration} {e₁ : ETag}
    {rest : Async Response}
    (hp : P.procs id = some
      ⟨.freeze i, [⟨.now, c₁⟩, ⟨i.memoryWrite B c₁, .ok e₁⟩, ⟨.now, c₂⟩], rest, false⟩)
    {r : HydrationResult} (hfrom : AfterHydrate P i r) :
    ∃ x y xs ys, Finds B t a P.shared id i r c₁ e₁ x y xs ys := by
  obtain ⟨vs, hvs, -⟩ := hinit.stateRecord
  obtain ⟨y₀, older, hhist, haligned, hversion⟩ :=
    (run_phase hinit (run_freezesInputs h) hdistinct).busy_of_pending hinit h hroot hp
  obtain ⟨x, y, hnames⟩ := hfrom.names hinit h hroot
  -- The entry below the new memory record is the one that the hydrate read.
  have hy₀ : y₀ ∈ P.shared.history (workingMemoryKey t a) := by simp [hhist]
  have hsame : y = y₀ := by
    refine hdistinct.eq_of_version hnames.memoryEntry hy₀ ?_
    rw [memVersionOf_memBytes_mod] at hversion
    have hy : memVersionOf B y = i.workingMemory.version.toNat := hnames.version
    have hlt : memVersionOf B y < 2 ^ 64 := memVersionOf_lt B y
    have hlt₀ : memVersionOf B y₀ < 2 ^ 64 := memVersionOf_lt B y₀
    omega
  subst hsame
  have holder : (y :: older).Pairwise fun x y => memVersionOf B x ≠ memVersionOf B y := by
    unfold DistinctVersions at hdistinct
    rw [hhist] at hdistinct
    exact hdistinct.of_cons
  obtain ⟨xs, hhistx, hpaired, hrest⟩ :=
    newest_of_aligned haligned holder hnames.stateEntry hnames.versions
  -- The cell of the state key is the newest state entry.
  have haccepted : P.shared.accepts (agentStateKey t a) (some i.stateEtag) = true := by
    obtain ⟨c, hc⟩ := (run_present hlive h).1
    obtain ⟨x', older', hhistx', -, hx'⟩ := (run_journaled hvs.journaled h).exists_newest hc
    rw [hhistx, List.cons.injEq] at hhistx'
    obtain ⟨rfl, -⟩ := hhistx'
    exact EtagStore.accepts_some.mpr ⟨c, hc, hx'.symm.trans hnames.stateTag⟩
  exact ⟨x, y, xs, older,
    { stateHistory := hhistx
      memoryHistory := hhist
      state := hnames.state
      memory := hnames.memory
      paired := hpaired
      length := hrest.length_eq
      accepted := haccepted }⟩

/-! ### Runs that are admitted -/

/-- A start is admitted when its input comes from a hydrate. -/
theorem freezesHydrated_start {id : Nat} {q : Request}
    (hfrom : ∀ i, q = .freeze i → ∃ r, AfterHydrate P i r) :
    FreezesHydrated t a P (.start id q) where
  fresh := by
    intro id w key value etag ttl hm
    cases hm
  inputs := by
    intro id i hm _
    cases hm
    exact hfrom i rfl
  noExpiry := by
    intro n hm
    cases hm

theorem freezesHydrated_hydrate (P : Swarm) (id : Nat) :
    FreezesHydrated t a P (.start id (.hydrate t a)) := by
  refine freezesHydrated_start ?_
  intro i hi
  cases hi

theorem freezesHydrated_freeze {id : Nat} {i : FreezeInput} {r : HydrationResult}
    (hfrom : AfterHydrate P i r) : FreezesHydrated t a P (.start id (.freeze i)) := by
  refine freezesHydrated_start ?_
  intro i' hi'
  cases hi'
  exact ⟨r, hfrom⟩

/-- So is a call that does not fail and is answered with a new tag. -/
theorem admitsSmooth_freezesHydrated : AdmitsSmooth (FreezesHydrated t a) := by
  intro P id w _ hfresh
  refine ⟨⟨hfresh, ?_⟩, ?_⟩
  · intro id i hm
    cases hm
  · intro n hm
    cases hm

/-- A client that has hydrated the blank records can freeze them. -/
theorem afterHydrate_blank {p : Proc Reply Request Response} {rs rm : StateRecord}
    (hp : P.procs 0 = some p) (hreads : ReadsBlank B t a p rs rm) :
    AfterHydrate P (blankInput t a) ⟨blankState t a, blankMemory t a, false⟩ where
  hydrate := ⟨0, p, rs, rm, hp, hreads.request, hreads.result, hreads.stateRecord,
    hreads.memoryRecord, hreads.stateTag, hreads.memoryTag⟩
  fromPrimary := rfl
  version := rfl

end Swarm

end SwarmRuntime.State
