import SwarmRuntime.Proofs.Swarm
import SwarmRuntime.State.Codec

/-!
# `SwarmRuntime.Proofs.Snapshot`: what a hydrate returns is a snapshot

A hydrate reads the two records by two calls, and a freeze writes them by two calls. Between
any two of these calls other clients can act, and each client can crash. In every run of
clients that take the memory tag and the memory version of a freeze from one record that was
read before, the pair that a hydrate returns was written by one freeze, and it was the stored
pair at the moment of the state read (`hydrate_returns_snapshot`).

Two invariants carry the proof:

* `run_memory_versions`: the memory versions of the journal strictly increase with time. A
  memory write succeeds only on the newest record, and it installs the next version.
* `run_state_origin`: each state record of the journal has a memory record of the same author
  and the same version. A freeze writes its memory first.

So the version that the two records share names one memory write, the one of the author of
the state record.
-/

set_option autoImplicit false

namespace SwarmRuntime.State

open SwarmRuntime.Lib SwarmRuntime.Lib.Interaction

/-- The memory version of a journal entry, `0` when it does not decode. -/
def memVersionOf (B : Build) (x : Entry String Bytes ETag Author) : Nat :=
  match B.memory.decode x.value with
  | .ok mem => mem.version.toNat
  | .error _ => 0

/-- The memory version that the state record of a journal entry names, `0` when it does not
decode. -/
def stateVersionOf (B : Build) (x : Entry String Bytes ETag Author) : Nat :=
  match B.state.decode x.value with
  | .ok state => state.workingMemoryVersion.toNat
  | .error _ => 0

theorem memVersionOf_eq {B : Build} {x : Entry String Bytes ETag Author}
    {mem : WorkingMemoryRecord} (h : B.memory.decode x.value = .ok mem) :
    memVersionOf B x = mem.version.toNat := by
  rw [memVersionOf, h]

theorem stateVersionOf_eq {B : Build} {x : Entry String Bytes ETag Author}
    {state : AgentStateRecord} (h : B.state.decode x.value = .ok state) :
    stateVersionOf B x = state.workingMemoryVersion.toNat := by
  rw [stateVersionOf, h]

/-- A version is a number of 64 bits. -/
theorem memVersionOf_lt (B : Build) (x : Entry String Bytes ETag Author) :
    memVersionOf B x < 2 ^ 64 := by
  unfold memVersionOf
  split
  · exact UInt64.toNat_lt _
  · decide

/-- The entry of a memory write holds the next version. The version wraps. -/
theorem memVersionOf_memBytes_mod {B : Build} {i : FreezeInput} (c : Option Duration)
    (key : String) (e : ETag) (author : Author) :
    memVersionOf B ⟨key, i.memBytes B c, e, author⟩
      = (i.workingMemory.version.toNat + 1) % 2 ^ 64 := by
  have hdec : B.memory.decode (i.memBytes B c) = .ok (i.frozenMemory B c) :=
    B.memory.decode_encodeToVec _
  rw [memVersionOf_eq hdec, FreezeInput.frozenMemory_version, UInt64.toNat_add]
  rfl

/-- The entry of a state write names the next version. -/
theorem stateVersionOf_stateBytes_mod {B : Build} {i : FreezeInput} (c₁ c₂ : Option Duration)
    (key : String) (e : ETag) (author : Author) :
    stateVersionOf B ⟨key, i.stateBytes B c₁ c₂, e, author⟩
      = (i.workingMemory.version.toNat + 1) % 2 ^ 64 := by
  have hdec : B.state.decode (i.stateBytes B c₁ c₂) = .ok (i.frozenState B c₁ c₂) :=
    B.state.decode_encodeToVec _
  rw [stateVersionOf_eq hdec, FreezeInput.frozenState_workingMemoryVersion, UInt64.toNat_add]
  rfl

/-- A version that fits does not wrap. -/
theorem memVersionOf_memBytes {B : Build} {i : FreezeInput} (h : i.Fits) (c : Option Duration)
    (key : String) (e : ETag) (author : Author) :
    memVersionOf B ⟨key, i.memBytes B c, e, author⟩ = i.workingMemory.version.toNat + 1 := by
  rw [memVersionOf_memBytes_mod, Nat.mod_eq_of_lt h]

theorem stateVersionOf_stateBytes {B : Build} {i : FreezeInput} (h : i.Fits)
    (c₁ c₂ : Option Duration) (key : String) (e : ETag) (author : Author) :
    stateVersionOf B ⟨key, i.stateBytes B c₁ c₂, e, author⟩
      = i.workingMemory.version.toNat + 1 := by
  rw [stateVersionOf_stateBytes_mod, Nat.mod_eq_of_lt h]

namespace Swarm

variable {M : AgentHydrationManager} {B : Build} {t a : String} {P P' : Swarm} {m : SwarmMove}
  {ok : Swarm → SwarmMove → Prop} {s₀ : Backing Author} {ms : List SwarmMove}
  {state₀ : AgentStateRecord} {mem₀ : WorkingMemoryRecord}

/-- The tags and the version of a freeze input come from records that were read before: the
memory tag and the version from one record. In a build that does not check overflow, the next
version fits. -/
structure FromReads (B : Build) (P : Swarm) (i : FreezeInput) : Prop where
  noWrap : B.overflowChecks = false → i.Fits
  state : ∃ r, P.HasRead (agentStateKey i.tenantId i.agentId) r ∧ r.etag = i.stateEtag
  memory : ∃ r mem, P.HasRead (workingMemoryKey i.tenantId i.agentId) r ∧
    r.etag = i.memoryEtag ∧ B.memory.decode r.value = .ok mem ∧
    mem.version = i.workingMemory.version

/-- The moves of clients that freeze the agent with what they have read. Everything else is
free: hydrates, reads, crashes, failing calls, delays, and the freezes of other agents. -/
structure ReadsFirst (B : Build) (t a : String) (P : Swarm) (m : SwarmMove) : Prop where
  fresh : FreshTags P m
  inputs : ∀ id i, m = .start id (.freeze i) → keyRoot i.tenantId i.agentId = keyRoot t a →
    FromReads B P i

/-- A freeze input names a journal entry of the memory key, with its tag and its version. -/
def NamesMemory (B : Build) (t a : String) (s : Backing Author) (i : FreezeInput) : Prop :=
  ∃ y ∈ s.history (workingMemoryKey t a), y.etag = i.memoryEtag ∧
    memVersionOf B y = i.workingMemory.version.toNat

/-- The memory entry of a freeze was in the journal when the freeze started, and stays. -/
theorem run_names_memory (hj : s₀.Journaled (workingMemoryKey t a))
    (h : Run (step M B) (ReadsFirst B t a) (start s₀) ms P) {id : Nat}
    {p : Proc Reply Request Response} (hp : P.procs id = some p) {i : FreezeInput}
    (hq : p.request = .freeze i) (hroot : keyRoot i.tenantId i.agentId = keyRoot t a) :
    (B.overflowChecks = false → i.Fits) ∧ NamesMemory B t a P.shared i := by
  induction h generalizing p with
  | nil => cases hp
  | @snoc ms P P' m hr hok hs ih =>
    have hlater : P.shared.Later P'.shared := step_later hs
    -- A client that was there before keeps its entry.
    have hold : ∀ p₀, P.procs id = some p₀ → p₀.request = p.request →
        (B.overflowChecks = false → i.Fits) ∧ NamesMemory B t a P'.shared i := by
      intro p₀ hp₀ hreq
      obtain ⟨hwrap, y, hy, hye, hyv⟩ := ih hp₀ (hreq.trans hq)
      exact ⟨hwrap, y, hlater.mem_history hy, hye, hyv⟩
    obtain hp₀ | ⟨q, rfl, -, rfl⟩ | ⟨p₀, -, hp₀, rfl⟩ | ⟨w, q, tr, c, next, -, hp₀, rfl, -⟩ :=
      Pool.step_procs hs hp
    · exact hold p hp₀ rfl
    · -- The client starts here. What it has read is in the journal.
      cases hq
      obtain ⟨hwrap, -, r, mem, ⟨id', p', hp', hread⟩, hre, hdec, hver⟩ :=
        hok.inputs id i rfl hroot
      rw [(workingMemoryKey_eq_iff _ _ _ _).mpr hroot] at hread
      obtain ⟨y, hy, hyv, hye⟩ := run_reads hj hr hp' hread
      have hydec : B.memory.decode y.value = .ok mem := by rw [hyv, hdec]
      have hyver : memVersionOf B y = i.workingMemory.version.toNat := by
        rw [memVersionOf_eq hydec, hver]
      exact ⟨hwrap, y, hlater.mem_history hy, hye.trans hre, hyver⟩
    · exact hold p₀ hp₀ rfl
    · exact hold _ hp₀ rfl

/-- A freeze that waits for a call has a version that fits. -/
theorem run_fits (hj : s₀.Journaled (workingMemoryKey t a))
    (h : Run (step M B) (ReadsFirst B t a) (start s₀) ms P) {id : Nat} {i : FreezeInput}
    {tr : Transcript Reply} {c : Call} {next : Reply c → Async Response} {b : Bool}
    (hp : P.procs id = some ⟨.freeze i, tr, ask c next, b⟩)
    (hroot : keyRoot i.tenantId i.agentId = keyRoot t a) : i.Fits := by
  have hinc : i.Increments B := run_increments h hp
  exact hinc.fits (run_names_memory hj h hp rfl hroot).1

/-- The memory write of a freeze goes on top of the record that the freeze names. -/
theorem Wrote.onto_named (hj : P.shared.Journaled (workingMemoryKey t a))
    (ht : P.shared.Tagged (workingMemoryKey t a)) {id : Nat} {i : FreezeInput}
    {tr : Transcript Reply} {value : Bytes} {ttl : TtlPolicy} {w : Answer}
    (hw : Wrote P P' m id (.freeze i) tr (workingMemoryKey t a) value (some i.memoryEtag) ttl w)
    (hnames : NamesMemory B t a P.shared i) :
    ∃ y older, P.shared.history (workingMemoryKey t a) = y :: older ∧ y.etag = i.memoryEtag ∧
      memVersionOf B y = i.workingMemory.version.toNat := by
  obtain ⟨y, older, hhist, hye⟩ := EtagStore.exists_newest_of_accepts hj hw.accepted
  obtain ⟨y', hy', hye', hyv'⟩ := hnames
  have hy : y ∈ P.shared.history (workingMemoryKey t a) := by simp [hhist]
  have hsame : y = y' := ht.eq_of_etag hy hy' (hye.trans hye'.symm)
  exact ⟨y, older, hhist, hye, by rw [hsame, hyv']⟩

/-- The memory versions of the journal strictly increase with time. The newest entry is
first. -/
def MemoryVersions (B : Build) (t a : String) (s : Backing Author) : Prop :=
  (s.history (workingMemoryKey t a)).Pairwise fun x y => memVersionOf B y < memVersionOf B x

/-- In every run the memory versions of the journal increase. A memory write lands on the newest
entry, and its version is one above. -/
theorem run_memory_versions (hinit : StartsWith B t a s₀ state₀ mem₀)
    (h : Run (step M B) (ReadsFirst B t a) (start s₀) ms P) : MemoryVersions B t a P.shared := by
  obtain ⟨v₀, hv₀, -⟩ := hinit.memoryRecord
  refine h.invariant (fun P => MemoryVersions B t a P.shared) ?_ ?_
  · obtain ⟨x, hhist, -⟩ := hv₀.exists_entry
    show (s₀.history _).Pairwise _
    rw [hhist]
    exact List.pairwise_singleton _ _
  · intro ms P m P' hr hP hok hs
    have hj : P.shared.Journaled (workingMemoryKey t a) := run_journaled hv₀.journaled hr
    have ht : P.shared.Tagged (workingMemoryKey t a) :=
      run_tagged (fun _ _ hok => hok.fresh) hv₀.tagged hr
    unfold MemoryVersions at hP ⊢
    obtain ⟨-, hsame⟩ | ⟨id, i, c₁, w, hroot, hw⟩ | ⟨id, i, c₁, c₂, e₁, w, hroot, hw⟩ :=
      step_primary hr hs t a
    · show (P'.shared.history (workingMemoryKey t a)).Pairwise _
      rwa [hsame]
    · -- The new version is one above the newest, which is above every other.
      obtain ⟨next, hp⟩ := hw.before
      have hnames : NamesMemory B t a P.shared i :=
        (run_names_memory hv₀.journaled hr hp rfl hroot).2
      have hfits : i.Fits := run_fits hv₀.journaled hr hp hroot
      obtain ⟨y, older, hhist, -, hyv⟩ := hw.onto_named hj ht hnames
      rw [hw.history_self, List.pairwise_cons]
      refine ⟨?_, hP⟩
      intro z hz
      rw [memVersionOf_memBytes hfits]
      rw [hhist] at hz hP
      rcases List.mem_cons.mp hz with rfl | hz
      · show memVersionOf B z < i.workingMemory.version.toNat + 1
        omega
      · have hlt : memVersionOf B z < memVersionOf B y := List.rel_of_pairwise_cons hP hz
        omega
    · rwa [hw.history_of_ne (agentStateKey_ne_workingMemoryKey _ _ _ _).symm]

/-- Each state record of the journal has a memory record of its author and its version. -/
def StateOrigin (B : Build) (t a : String) (s : Backing Author) : Prop :=
  ∀ x ∈ s.history (agentStateKey t a), ∃ y ∈ s.history (workingMemoryKey t a),
    y.author = x.author ∧ memVersionOf B y = stateVersionOf B x

/-- The start has one entry for each record, of one author and one version. -/
theorem exists_entries_start (hinit : StartsWith B t a s₀ state₀ mem₀) :
    ∃ x₀ y₀, s₀.history (agentStateKey t a) = [x₀] ∧ s₀.history (workingMemoryKey t a) = [y₀] ∧
      y₀.author = x₀.author ∧ memVersionOf B y₀ = stateVersionOf B x₀ := by
  obtain ⟨vm, hvm, hdecm⟩ := hinit.memoryRecord
  obtain ⟨vs, hvs, hdecs⟩ := hinit.stateRecord
  obtain ⟨x₀, hx₀, hxv, hxa⟩ := hvs.exists_entry
  obtain ⟨y₀, hy₀, hyv, hya⟩ := hvm.exists_entry
  have hver : memVersionOf B y₀ = stateVersionOf B x₀ := by
    rw [memVersionOf_eq (hyv ▸ hdecm), stateVersionOf_eq (hxv ▸ hdecs), hinit.versions]
  exact ⟨x₀, y₀, hx₀, hy₀, hya.trans hxa.symm, hver⟩

theorem state_origin_start (hinit : StartsWith B t a s₀ state₀ mem₀) : StateOrigin B t a s₀ := by
  obtain ⟨x₀, y₀, hx₀, hy₀, hauthor, hver⟩ := exists_entries_start hinit
  intro x hx
  rw [hx₀, List.mem_singleton] at hx
  subst hx
  have hy : y₀ ∈ s₀.history (workingMemoryKey t a) := by simp [hy₀]
  exact ⟨y₀, hy, hauthor, hver⟩

/-- The state entry of a state write has a memory entry: its author has written its memory
before. -/
theorem Wrote.exists_origin (hj : s₀.Journaled (workingMemoryKey t a))
    (h : Run (step M B) (ReadsFirst B t a) (start s₀) ms P) {id : Nat} {i : FreezeInput}
    {c₁ c₂ : Option Duration} {e₁ : ETag} {w : Answer}
    (hroot : keyRoot i.tenantId i.agentId = keyRoot t a)
    (hw : Wrote P P' m id (.freeze i) [⟨.now, c₁⟩, ⟨i.memoryWrite B c₁, .ok e₁⟩, ⟨.now, c₂⟩]
      (agentStateKey t a) (i.stateBytes B c₁ c₂) (some i.stateEtag) .none w) :
    ∃ y ∈ P.shared.history (workingMemoryKey t a), y.author = some id ∧ memVersionOf B y
      = stateVersionOf B ⟨agentStateKey t a, i.stateBytes B c₁ c₂, w.etag, some id⟩ := by
  obtain ⟨next, hp⟩ := hw.before
  have hfits : i.Fits := run_fits hj h hp hroot
  have hmem : ⟨workingMemoryKey i.tenantId i.agentId, i.memBytes B c₁, e₁, some id⟩ ∈
      P.shared.history (workingMemoryKey i.tenantId i.agentId) :=
    run_written h hp (List.mem_cons_of_mem _ List.mem_cons_self)
  rw [(workingMemoryKey_eq_iff _ _ _ _).mpr hroot] at hmem
  refine ⟨_, hmem, rfl, ?_⟩
  rw [memVersionOf_memBytes hfits, stateVersionOf_stateBytes hfits]

/-- In every run each state record of the journal has its memory record. -/
theorem run_state_origin (hinit : StartsWith B t a s₀ state₀ mem₀)
    (h : Run (step M B) (ReadsFirst B t a) (start s₀) ms P) : StateOrigin B t a P.shared := by
  obtain ⟨vm, hvm, -⟩ := hinit.memoryRecord
  refine h.invariant (fun P => StateOrigin B t a P.shared) (state_origin_start hinit) ?_
  intro ms P m P' hr hP _ hs
  show StateOrigin B t a P'.shared
  have hlater : P.shared.Later P'.shared := step_later hs
  -- An older state record keeps its memory record.
  have hold : ∀ x ∈ P.shared.history (agentStateKey t a),
      ∃ y ∈ P'.shared.history (workingMemoryKey t a),
        y.author = x.author ∧ memVersionOf B y = stateVersionOf B x := by
    intro x hx
    obtain ⟨y, hy, hya, hyv⟩ := hP x hx
    exact ⟨y, hlater.mem_history hy, hya, hyv⟩
  intro x hx
  obtain ⟨hsame, -⟩ | ⟨id, i, c₁, w, hroot, hw⟩ | ⟨id, i, c₁, c₂, e₁, w, hroot, hw⟩ :=
    step_primary hr hs t a
  · rw [hsame] at hx
    exact hold x hx
  · rw [hw.history_of_ne (agentStateKey_ne_workingMemoryKey _ _ _ _)] at hx
    exact hold x hx
  · rw [hw.history_self, List.mem_cons] at hx
    rcases hx with rfl | hx
    · obtain ⟨y, hy, hya, hyv⟩ := hw.exists_origin hvm.journaled hr hroot
      exact ⟨y, hlater.mem_history hy, hya, hyv⟩
    · exact hold x hx

/-- Where a pair comes from: it is the pair of the start, or the freeze with the given number
wrote both of its records. -/
def Origin (B : Build) (t a : String) (state₀ : AgentStateRecord) (mem₀ : WorkingMemoryRecord)
    (P : Swarm) (state : AgentStateRecord) (mem : WorkingMemoryRecord) : Author → Prop
  | none => state = state₀ ∧ mem = mem₀
  | some id => ∃ p i c₁ c₂ e₁ e₂, P.procs id = some p ∧ p.request = .freeze i ∧
      keyRoot i.tenantId i.agentId = keyRoot t a ∧
      ⟨i.memoryWrite B c₁, .ok e₁⟩ ∈ p.transcript ∧
      ⟨i.stateWrite B c₁ c₂, .ok e₂⟩ ∈ p.transcript ∧
      state = i.frozenState B c₁ c₂ ∧ mem = i.frozenMemory B c₁

/-- No two memory entries of the journal have one version. -/
def DistinctVersions (B : Build) (t a : String) (s : Backing Author) : Prop :=
  (s.history (workingMemoryKey t a)).Pairwise fun x y => memVersionOf B x ≠ memVersionOf B y

theorem DistinctVersions.eq_of_version {s : Backing Author} (h : DistinctVersions B t a s)
    {x y : Entry String Bytes ETag Author} (hx : x ∈ s.history (workingMemoryKey t a))
    (hy : y ∈ s.history (workingMemoryKey t a)) (hxy : memVersionOf B x = memVersionOf B y) :
    x = y := by
  have hsymm : Std.Symm fun x y : Entry String Bytes ETag Author =>
      memVersionOf B x ≠ memVersionOf B y := ⟨fun _ _ hab => hab.symm⟩
  by_contra hxy'
  exact List.Pairwise.forall h hx hy hxy' hxy

/-- What is distinct at a later moment was distinct before. -/
theorem DistinctVersions.of_later {s s' : Backing Author} (h : DistinctVersions B t a s')
    (hlater : s.Later s') : DistinctVersions B t a s :=
  List.Pairwise.sublist (hlater.history _).sublist h

/-- Strictly increasing versions are distinct. -/
theorem MemoryVersions.distinct {s : Backing Author} (h : MemoryVersions B t a s) :
    DistinctVersions B t a s :=
  List.Pairwise.imp (fun hlt => Nat.ne_of_gt hlt) h

/-- Two memory entries of one version are one entry. -/
theorem MemoryVersions.eq_of_version {s : Backing Author} (h : MemoryVersions B t a s)
    {x y : Entry String Bytes ETag Author} (hx : x ∈ s.history (workingMemoryKey t a))
    (hy : y ∈ s.history (workingMemoryKey t a)) (hxy : memVersionOf B x = memVersionOf B y) :
    x = y :=
  h.distinct.eq_of_version hx hy hxy

/-- A memory entry that is the newest now, and was there at an earlier moment, has been the
newest since. -/
theorem MemoryVersions.history_eq {s s' : Backing Author} (h : MemoryVersions B t a s')
    (hlater : s.Later s') {y : Entry String Bytes ETag Author}
    {older : List (Entry String Bytes ETag Author)}
    (hnewest : s'.history (workingMemoryKey t a) = y :: older)
    (hy : y ∈ s.history (workingMemoryKey t a)) :
    s'.history (workingMemoryKey t a) = s.history (workingMemoryKey t a) := by
  obtain ⟨newer, hnewer⟩ := hlater.history (workingMemoryKey t a)
  cases newer with
  | nil => exact hnewer.symm
  | cons z newer =>
    -- Otherwise the newest entry stands twice in the history.
    rw [hnewest, List.cons_append, List.cons.injEq] at hnewer
    obtain ⟨-, holder⟩ := hnewer
    have hmem : y ∈ older := by
      rw [← holder]
      exact List.mem_append_right _ hy
    unfold MemoryVersions at h
    rw [hnewest] at h
    exact absurd (List.rel_of_pairwise_cons h hmem) (Nat.lt_irrefl _)

/-- A state entry and a memory entry of one author and one version hold a pair with an
origin. The version has to name one memory entry. -/
theorem run_origin (hinit : StartsWith B t a s₀ state₀ mem₀)
    (h : Run (step M B) ok (start s₀) ms P) (hdistinct : DistinctVersions B t a P.shared)
    {x y : Entry String Bytes ETag Author} (hx : x ∈ P.shared.history (agentStateKey t a))
    (hy : y ∈ P.shared.history (workingMemoryKey t a)) (hauthor : y.author = x.author)
    (hver : memVersionOf B y = stateVersionOf B x) {state : AgentStateRecord}
    {mem : WorkingMemoryRecord} (hdecx : B.state.decode x.value = .ok state)
    (hdecy : B.memory.decode y.value = .ok mem) :
    Origin B t a state₀ mem₀ P state mem x.author := by
  obtain ⟨vm, hvm, hdecm⟩ := hinit.memoryRecord
  obtain ⟨vs, hvs, hdecs⟩ := hinit.stateRecord
  cases hauth : x.author with
  | none =>
    -- Both entries were there from the start.
    obtain ⟨x₀, hhistx₀, hx₀v, -⟩ := hvs.exists_entry
    obtain ⟨y₀, hhisty₀, hy₀v, -⟩ := hvm.exists_entry
    have hx₀ : x ∈ s₀.history (agentStateKey t a) := run_unauthored h hx hauth
    have hy₀ : y ∈ s₀.history (workingMemoryKey t a) :=
      run_unauthored h hy (hauthor.trans hauth)
    rw [hhistx₀, List.mem_singleton] at hx₀
    rw [hhisty₀, List.mem_singleton] at hy₀
    rw [hx₀, hx₀v, hdecs] at hdecx
    rw [hy₀, hy₀v, hdecm] at hdecy
    exact ⟨(Except.ok.inj hdecx).symm, (Except.ok.inj hdecy).symm⟩
  | some author =>
    -- The state entry is a write of one client, a freeze, and it wrote its memory before.
    obtain ⟨p, etag, ttl, hp, hwrote⟩ := run_wrote hinit.unauthored h hx hauth
    obtain ⟨i, c₁, c₂, e₁, hreq, hroot, -, hval, hmemw, hstatew⟩ :=
      run_stateWrites h hp hwrote
    have hdec : B.state.decode x.value = .ok (i.frozenState B c₁ c₂) := by
      rw [hval]
      exact B.state.decode_encodeToVec _
    have hstate : state = i.frozenState B c₁ c₂ := by
      rw [hdec] at hdecx
      exact (Except.ok.inj hdecx).symm
    -- Its memory entry has the version of `y`, so it is `y`.
    have hwritten : ⟨workingMemoryKey i.tenantId i.agentId, i.memBytes B c₁, e₁, some author⟩ ∈
        P.shared.history (workingMemoryKey i.tenantId i.agentId) := run_written h hp hmemw
    rw [(workingMemoryKey_eq_iff _ _ _ _).mpr hroot] at hwritten
    have hsame := hdistinct.eq_of_version hwritten hy (by
      rw [memVersionOf_memBytes_mod, hver, stateVersionOf_eq hdec,
        FreezeInput.frozenState_workingMemoryVersion, UInt64.toNat_add]
      rfl)
    have hmem : mem = i.frozenMemory B c₁ := by
      rw [← hsame] at hdecy
      rw [FreezeInput.memBytes, B.memory.decode_encodeToVec] at hdecy
      exact (Except.ok.inj hdecy).symm
    exact ⟨p, i, c₁, c₂, e₁, x.etag, hp, hreq, hroot, hmemw, hstatew, hstate, hmem⟩

/-- A hydrate that returns a result returns a snapshot: the pair of the start or a pair that
one freeze wrote, and the stored pair at a moment of the run. This holds in every run of
clients that freeze with what they have read: interleaved at the level of single calls, with
crashes, failing calls and expiring records. -/
theorem hydrate_returns_snapshot (hinit : StartsWith B t a s₀ state₀ mem₀)
    (h : Run (step M B) (ReadsFirst B t a) (start s₀) ms P) {id : Nat}
    {p : Proc Reply Request Response} (hp : P.procs id = some p)
    (hq : p.request = .hydrate t a) {r : HydrationResult}
    (hdone : p.rest = done (.hydrated (.ok r))) :
    (∃ author, Origin B t a state₀ mem₀ P r.state r.workingMemory author) ∧
      Once (step M B) (ReadsFirst B t a) (start s₀) ms fun P' =>
        HoldsPair B t a P'.shared r.state r.workingMemory := by
  obtain ⟨vm, hvm, -⟩ := hinit.memoryRecord
  obtain ⟨vs, hvs, -⟩ := hinit.stateRecord
  obtain ⟨P₁, P₂, cs, cm, hreads⟩ := run_hydrated h hp hq hdone
  obtain ⟨pre₁, hpre₁, hrun₁⟩ := hreads.first
  obtain ⟨pre₂, hpre₂, hrun₂⟩ := hreads.second
  -- The state entry `x` at the first read, the memory entry `y` at the second.
  obtain ⟨x, olderx, hhistx, hxv, -⟩ :=
    (run_journaled hvs.journaled hrun₁).exists_newest hreads.stateCell
  obtain ⟨y, oldery, hhisty, hyv, -⟩ :=
    (run_journaled hvm.journaled hrun₂).exists_newest hreads.memoryCell
  have hx₁ : x ∈ P₁.shared.history (agentStateKey t a) := by simp [hhistx]
  have hy₂ : y ∈ P₂.shared.history (workingMemoryKey t a) := by simp [hhisty]
  have hdecx : B.state.decode x.value = .ok r.state := by rw [hxv, hreads.state]
  have hdecy : B.memory.decode y.value = .ok r.workingMemory := by rw [hyv, hreads.memory]
  have hver : memVersionOf B y = stateVersionOf B x := by
    rw [memVersionOf_eq hdecy, stateVersionOf_eq hdecx, hreads.versions]
  have hversions : MemoryVersions B t a P₂.shared := run_memory_versions hinit hrun₂
  -- The memory entry of the author of `x` has the version of `y`, so it is `y`.
  obtain ⟨y', hy', hauthor, hver'⟩ := run_state_origin hinit hrun₁ x hx₁
  have hsame : y' = y :=
    hversions.eq_of_version (hreads.between.mem_history hy') hy₂ (hver'.trans hver.symm)
  subst hsame
  have hx : x ∈ P.shared.history (agentStateKey t a) :=
    (hreads.between.trans hreads.after).mem_history hx₁
  have hy : y' ∈ P.shared.history (workingMemoryKey t a) := hreads.after.mem_history hy₂
  constructor
  · show ∃ author, Origin B t a state₀ mem₀ P r.state r.workingMemory author
    exact ⟨x.author, run_origin hinit h (run_memory_versions hinit h).distinct hx hy hauthor hver
      hdecx hdecy⟩
  · -- `y` was the newest memory entry already at the state read.
    have hkeep : P₂.shared.history (workingMemoryKey t a)
        = P₁.shared.history (workingMemoryKey t a) :=
      hversions.history_eq hreads.between hhisty hy'
    have hmemory : P₁.shared.lookup (workingMemoryKey t a) = some cm :=
      hreads.between.lookup_of_lookup hkeep hreads.memoryCell
    exact ⟨pre₁, P₁, hpre₁, hrun₁, ⟨cs, hreads.stateCell, hreads.state⟩,
      ⟨cm, hmemory, hreads.memory⟩⟩

/-- A client that has read the blank records can freeze them. -/
theorem readsFirst_blank {p : Proc Reply Request Response} {rs rm : StateRecord}
    (hp : P.procs 0 = some p) (hreads : ReadsBlank B t a p rs rm) :
    ReadsFirst B t a P (.start 1 (.freeze (blankInput t a))) where
  fresh := by
    intro id w key value etag ttl hm
    cases hm
  inputs := by
    intro id i hm _
    cases hm
    exact ⟨fun _ => fits_blankInput t a, ⟨rs, ⟨0, p, hp, hreads.stateRecord⟩, hreads.stateTag⟩,
      ⟨rm, blankMemory t a, ⟨0, p, hp, hreads.memoryRecord⟩, hreads.memoryTag, hreads.memory,
        rfl⟩⟩

/-- The records that a hydrate returns after one freeze of the blank records. -/
theorem hydrate_returns_snapshot_cycle :
    ∃ ms P frozenAt snapshotAt,
      Run (step .new releaseBuild) (ReadsFirst releaseBuild "acme" "writer")
        (start (blankStore none releaseBuild "acme" "writer")) ms P ∧
      (∃ author, Origin releaseBuild "acme" "writer" (blankState "acme" "writer")
        (blankMemory "acme" "writer") P
        (thawedState releaseBuild (blankState "acme" "writer") 0 frozenAt)
        (thawedMemory releaseBuild (blankMemory "acme" "writer") snapshotAt) author) ∧
      Once (step .new releaseBuild) (ReadsFirst releaseBuild "acme" "writer")
        (start (blankStore none releaseBuild "acme" "writer")) ms fun P' =>
        HoldsPair releaseBuild "acme" "writer" P'.shared
          (thawedState releaseBuild (blankState "acme" "writer") 0 frozenAt)
          (thawedMemory releaseBuild (blankMemory "acme" "writer") snapshotAt) := by
  have hhydrate : ∀ P id,
      ReadsFirst releaseBuild "acme" "writer" P (.start id (.hydrate "acme" "writer")) := by
    intro P id
    refine ⟨?_, ?_⟩
    · show FreshTags P (.start id (.hydrate "acme" "writer"))
      intro id w key value etag ttl hm
      cases hm
    · intro id i hm
      cases hm
  have hsmooth : AdmitsSmooth (ReadsFirst releaseBuild "acme" "writer") := by
    intro P id w _ hfresh
    refine ⟨hfresh, ?_⟩
    intro id i hm
    cases hm
  obtain ⟨ms, P, p, frozenAt, snapshotAt, hrun, hp, hq, hdone⟩ :=
    run_cycle .new hhydrate hsmooth fun P p rs rm hp hreads => readsFirst_blank hp hreads
  exact ⟨ms, P, frozenAt, snapshotAt, hrun,
    hydrate_returns_snapshot (startsWith_pairStore rfl) hrun hp hq hdone⟩

end Swarm

end SwarmRuntime.State
