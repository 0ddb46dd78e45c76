import SwarmRuntime.Lib.Runs
import SwarmRuntime.Proofs.RecoveringHydrate
import SwarmRuntime.Proofs.Recovery

/-!
# `SwarmRuntime.Proofs.MatchedPair`: when a recovered pair is one pair

A hydrate that recovers returns the stored state beside the memory of the last checkpoint. The
two are of one freeze exactly as far as the freeze that wrote the stored state has also written
its checkpoint. In every run in which each recovery finds such a checkpoint or none, every hydrate
that returns `Ok` returns a pair of one version that one freeze wrote (`hydrate_matched`).

The invariant is `Stands`: the stored state, the memory that was written with it, and what the
memory record and the checkpoints can hold beside them. A memory record is the right one, or one
of a torn write, whose version is the next one. `FreezeLeaves` follows a freeze from one
successful write to the next.

One failed checkpoint write is enough to bring the two apart (`not_hydrate_matched`).
-/

set_option autoImplicit false

namespace SwarmRuntime.State

open SwarmRuntime.Lib SwarmRuntime.Lib.Interaction

namespace RecoveringOwner

variable {M : AgentHydrationManager} {B : Build} {t a : String}

/-! ### What stands in the store -/

/-- The store holds the state record `state`, which was written with `mem`. When `covered`, the
last checkpoint holds `mem`. -/
structure Stands (B : Build) (t a : String) (state : AgentStateRecord) (mem : WorkingMemoryRecord)
    (covered : Bool) (s : Backing Unit) : Prop where
  stateRecord : ∃ v e, s.cells (agentStateKey t a) = some ⟨v, e, none⟩ ∧
    B.state.decode v = .ok state
  memoryRecord : ∀ c, s.lookup (workingMemoryKey t a) = some c →
    ∃ mem', B.memory.decode c.value = .ok mem' ∧
      (mem' = mem ∨ mem'.version = mem.version + 1)
  versions : state.workingMemoryVersion = mem.version
  checkpoint : covered = true → ∃ n v e cp, s.cells (checkpointKey t a n) = some ⟨v, e, none⟩ ∧
    B.checkpoint.decode v = .ok cp ∧ cp.memorySnapshot = some mem ∧
    ∀ n' c, s.lookup (checkpointKey t a n') = some c → n' ≤ n

section
variable {state : AgentStateRecord} {mem : WorkingMemoryRecord} {covered : Bool}
  {s : Backing Unit} {i : FreezeInput} {c₁ c₂ c₃ c₄ : Option Duration} {e : ETag}

/-- Time takes away at most the memory record. -/
theorem Stands.tick (h : Stands B t a state mem covered s) (n : Nat) :
    Stands B t a state mem covered (s.tick n) where
  stateRecord := h.stateRecord
  memoryRecord := fun c hc => h.memoryRecord c (EtagStore.lookup_of_lookup_tick hc)
  versions := h.versions
  checkpoint := by
    intro hcovered
    obtain ⟨k, v, e, cp, hcell, hdec, hmem, hmax⟩ := h.checkpoint hcovered
    exact ⟨k, v, e, cp, hcell, hdec, hmem, fun n' c hc =>
      hmax n' c (EtagStore.lookup_of_lookup_tick hc)⟩

/-- A freeze of `mem` tears the pair by its memory write. -/
theorem Stands.memory_written
    (h : Stands B i.tenantId i.agentId state mem covered s)
    (hver : i.workingMemory.version = mem.version) :
    Stands B i.tenantId i.agentId state mem covered (i.withMemory B () s c₁ e) where
  stateRecord := by
    obtain ⟨v, e', hcell, hdec⟩ := h.stateRecord
    refine ⟨v, e', ?_, hdec⟩
    show (i.withMemory B () s c₁ e).cells (agentStateKey i.tenantId i.agentId) = _
    rw [FreezeInput.withMemory, EtagStore.cells_put_of_ne _ _ _ _ _ _ _
      (agentStateKey_ne_workingMemoryKey _ _ _ _), hcell]
  memoryRecord := by
    intro c hc
    rw [FreezeInput.lookup_memory_withMemory, Option.some.injEq] at hc
    subst hc
    refine ⟨_, B.memory.decode_encodeToVec (i.frozenMemory B c₁), .inr ?_⟩
    rw [FreezeInput.frozenMemory_version, hver]
  versions := h.versions
  checkpoint := by
    intro hcovered
    obtain ⟨n, v, e', cp, hcell, hdec, hmem, hmax⟩ := h.checkpoint hcovered
    refine ⟨n, v, e', cp, ?_, hdec, hmem, ?_⟩
    · show (i.withMemory B () s c₁ e).cells (checkpointKey i.tenantId i.agentId n) = _
      rw [FreezeInput.withMemory, EtagStore.cells_put_of_ne _ _ _ _ _ _ _
        (checkpointKey_ne_workingMemoryKey _ _ _ _ _), hcell]
    · intro n' c hc
      rw [FreezeInput.lookup_checkpoint_withMemory] at hc
      exact hmax n' c hc

/-- The state write makes the pair of the freeze stand, when the memory record is still its own.
No checkpoint covers it yet. -/
theorem stands_state_written
    (hmem : ∀ c, s.lookup (workingMemoryKey i.tenantId i.agentId) = some c →
      c.value = i.memBytes B c₁) :
    Stands B i.tenantId i.agentId (i.frozenState B c₁ c₂) (i.frozenMemory B c₁) false
      (s.put () (agentStateKey i.tenantId i.agentId) (i.stateBytes B c₁ c₂) none e) where
  stateRecord :=
    ⟨_, _, EtagStore.cells_put_self _ _ _ _ _ _, B.state.decode_encodeToVec _⟩
  memoryRecord := by
    intro c hc
    rw [EtagStore.lookup_put_of_ne _ _ _ _ _ _ _
      (agentStateKey_ne_workingMemoryKey _ _ _ _).symm] at hc
    refine ⟨i.frozenMemory B c₁, ?_, .inl rfl⟩
    rw [hmem c hc]
    exact B.memory.decode_encodeToVec _
  versions := rfl
  checkpoint := fun hfalse => by cases hfalse

/-- The checkpoint write covers the pair, when its clock is not behind a stored checkpoint. -/
theorem Stands.checkpoint_written
    (h : Stands B i.tenantId i.agentId (i.frozenState B c₁ c₂) (i.frozenMemory B c₁) covered s)
    (hclock : ∀ n c, s.lookup (checkpointKey i.tenantId i.agentId n) = some c →
      n ≤ secondsOf c₃) :
    Stands B i.tenantId i.agentId (i.frozenState B c₁ c₂) (i.frozenMemory B c₁) true
      (s.put () (checkpointKey i.tenantId i.agentId (secondsOf c₃))
        (B.checkpoint.encodeToVec (i.frozenCheckpoint B c₁ c₂ (secondsOf c₃) c₄)) none e) where
  stateRecord := by
    obtain ⟨v, e', hcell, hdec⟩ := h.stateRecord
    refine ⟨v, e', ?_, hdec⟩
    rw [EtagStore.cells_put_of_ne _ _ _ _ _ _ _ (checkpointKey_ne_agentStateKey _ _ _ _ _).symm,
      hcell]
  memoryRecord := by
    intro c hc
    rw [EtagStore.lookup_put_of_ne _ _ _ _ _ _ _
      (checkpointKey_ne_workingMemoryKey _ _ _ _ _).symm] at hc
    exact h.memoryRecord c hc
  versions := h.versions
  checkpoint := by
    intro _
    refine ⟨secondsOf c₃, _, _, _, EtagStore.cells_put_self _ _ _ _ _ _,
      B.checkpoint.decode_encodeToVec _, rfl, ?_⟩
    intro n c hc
    by_cases hn : n = secondsOf c₃
    · rw [hn]
      exact UInt64.le_refl _
    · -- Every other checkpoint was there before.
      rw [EtagStore.lookup_put_of_ne _ _ _ _ _ _ _ fun hkey => hn (checkpointKey_inj.mp hkey)]
        at hc
      exact hclock n c hc

end

/-! ### A freeze, write by write -/

/-- The two primary writes of the freeze have succeeded, and these are their records. -/
def WroteBoth (B : Build) (i : FreezeInput) (tr : Transcript Reply) (state : AgentStateRecord)
    (mem : WorkingMemoryRecord) : Prop :=
  ∃ c₁ c₂ e₁ e₂, ⟨i.memoryWrite B c₁, .ok e₁⟩ ∈ tr ∧ ⟨i.stateWrite B c₁ c₂, .ok e₂⟩ ∈ tr ∧
    state = i.frozenState B c₁ c₂ ∧ mem = i.frozenMemory B c₁

/-- The clock of every answer is at or past every stored checkpoint of the agent. -/
def NotBehind (t a : String) (ws : List LateAnswer) (s : Backing Unit) : Prop :=
  ∀ w ∈ ws, ∀ n c, s.lookup (checkpointKey t a n) = some c → n ≤ secondsOf w.answer.clock

/-- The transcript of a freeze up to its state write. -/
abbrev stateWritten (B : Build) (i : FreezeInput) (c₁ c₂ : Option Duration) (e₁ e₂ : ETag) :
    Transcript Reply :=
  [⟨.now, c₁⟩, ⟨i.memoryWrite B c₁, .ok e₁⟩, ⟨.now, c₂⟩, ⟨i.stateWrite B c₁ c₂, .ok e₂⟩]

/-- Where a freeze of a pair that stands has left the store, by its successful writes so far. -/
inductive FreezeLeaves (B : Build) (i : FreezeInput) (ws : List LateAnswer)
    (state : AgentStateRecord) (mem : WorkingMemoryRecord) (covered : Bool)
    (tr : Transcript Reply) (s : Backing Unit) : Prop
  | unwritten (hwrites : okWrites tr = 0)
      (hstands : Stands B i.tenantId i.agentId state mem covered s)
      (hclock : NotBehind i.tenantId i.agentId ws s)
  | memory (hwrites : okWrites tr = 1)
      (hstands : Stands B i.tenantId i.agentId state mem covered s)
      (hclock : NotBehind i.tenantId i.agentId ws s) (c₁ : Option Duration) (e₁ : ETag)
      (hpre : [⟨.now, c₁⟩, ⟨i.memoryWrite B c₁, .ok e₁⟩] <+: tr)
      (hmem : ∀ c, s.lookup (workingMemoryKey i.tenantId i.agentId) = some c →
        c.value = i.memBytes B c₁)
  | state (hwrites : okWrites tr = 2) (c₁ c₂ : Option Duration) (e₁ e₂ : ETag)
      (hpre : stateWritten B i c₁ c₂ e₁ e₂ <+: tr)
      (hstands : Stands B i.tenantId i.agentId (i.frozenState B c₁ c₂) (i.frozenMemory B c₁)
        false s)
      (hclock : NotBehind i.tenantId i.agentId ws s)
  | checkpoint (hwrites : okWrites tr = 3) (c₁ c₂ : Option Duration) (e₁ e₂ : ETag)
      (hpre : stateWritten B i c₁ c₂ e₁ e₂ <+: tr)
      (hstands : Stands B i.tenantId i.agentId (i.frozenState B c₁ c₂) (i.frozenMemory B c₁)
        true s)

section
variable {state : AgentStateRecord} {mem : WorkingMemoryRecord} {covered : Bool}
  {s : Backing Unit} {i : FreezeInput} {ws : List LateAnswer} {tr : Transcript Reply}

theorem okWrites_append (tr tr' : Transcript Reply) :
    okWrites (tr ++ tr') = okWrites tr + okWrites tr' := List.countP_append

theorem NotBehind.tick (h : NotBehind t a ws s) (n : Nat) : NotBehind t a ws (s.tick n) :=
  fun w hw k c hc => h w hw k c (EtagStore.lookup_of_lookup_tick hc)

/-- While time passes the freeze stays where it is. -/
theorem FreezeLeaves.tick (h : FreezeLeaves B i ws state mem covered tr s) (n : Nat) :
    FreezeLeaves B i ws state mem covered tr (s.tick n) := by
  cases h with
  | unwritten hwrites hstands hclock =>
    exact .unwritten hwrites (hstands.tick n) (hclock.tick n)
  | memory hwrites hstands hclock c₁ e₁ hpre hmem =>
    exact .memory hwrites (hstands.tick n) (hclock.tick n) c₁ e₁ hpre fun c hc =>
      hmem c (EtagStore.lookup_of_lookup_tick hc)
  | state hwrites c₁ c₂ e₁ e₂ hpre hstands hclock =>
    exact .state hwrites c₁ c₂ e₁ e₂ hpre (hstands.tick n) (hclock.tick n)
  | checkpoint hwrites c₁ c₂ e₁ e₂ hpre hstands =>
    exact .checkpoint hwrites c₁ c₂ e₁ e₂ hpre (hstands.tick n)

/-- So does a call that is no successful write. -/
theorem FreezeLeaves.silent (h : FreezeLeaves B i ws state mem covered tr s)
    {x : (c : Call) × Reply c} (hx : okWrites [x] = 0) :
    FreezeLeaves B i ws state mem covered (tr ++ [x]) s := by
  have hsame : okWrites (tr ++ [x]) = okWrites tr := by rw [okWrites_append, hx, Nat.add_zero]
  have hlonger : tr <+: tr ++ [x] := List.prefix_append tr [x]
  cases h with
  | unwritten hwrites hstands hclock => exact .unwritten (hsame.trans hwrites) hstands hclock
  | memory hwrites hstands hclock c₁ e₁ hpre hmem =>
    exact .memory (hsame.trans hwrites) hstands hclock c₁ e₁ (hpre.trans hlonger) hmem
  | state hwrites c₁ c₂ e₁ e₂ hpre hstands hclock =>
    exact .state (hsame.trans hwrites) c₁ c₂ e₁ e₂ (hpre.trans hlonger) hstands hclock
  | checkpoint hwrites c₁ c₂ e₁ e₂ hpre hstands =>
    exact .checkpoint (hsame.trans hwrites) c₁ c₂ e₁ e₂ (hpre.trans hlonger) hstands

/-- The memory write. -/
theorem FreezeLeaves.write_memory {c₁ : Option Duration} {e : ETag}
    (h : FreezeLeaves B i ws state mem covered [⟨.now, c₁⟩] s)
    (hver : i.workingMemory.version = mem.version) :
    FreezeLeaves B i ws state mem covered [⟨.now, c₁⟩, ⟨i.memoryWrite B c₁, .ok e⟩]
      (i.withMemory B () s c₁ e) := by
  cases h with
  | memory hwrites => cases hwrites
  | state hwrites => cases hwrites
  | checkpoint hwrites => cases hwrites
  | unwritten hwrites hstands hclock =>
    refine .memory rfl (hstands.memory_written hver) ?_ c₁ e List.prefix_rfl ?_
    · intro w hw n c hc
      rw [FreezeInput.lookup_checkpoint_withMemory] at hc
      exact hclock w hw n c hc
    · intro c hc
      rw [FreezeInput.lookup_memory_withMemory, Option.some.injEq] at hc
      subst hc
      rfl

/-- The state write. -/
theorem FreezeLeaves.write_state {c₁ c₂ : Option Duration} {e₁ e : ETag}
    (h : FreezeLeaves B i ws state mem covered
      [⟨.now, c₁⟩, ⟨i.memoryWrite B c₁, .ok e₁⟩, ⟨.now, c₂⟩] s) :
    FreezeLeaves B i ws state mem covered (stateWritten B i c₁ c₂ e₁ e)
      (s.put () (agentStateKey i.tenantId i.agentId) (i.stateBytes B c₁ c₂) none e) := by
  cases h with
  | unwritten hwrites => cases hwrites
  | state hwrites => cases hwrites
  | checkpoint hwrites => cases hwrites
  | memory hwrites hstands hclock c₁' e₁' hpre hmem =>
    -- The transcript starts with the clock reading of this memory write.
    have hc₁ : c₁' = c₁ := by
      obtain ⟨tail, htail⟩ := hpre
      cases htail
      rfl
    subst hc₁
    refine .state rfl c₁' c₂ e₁ e List.prefix_rfl (stands_state_written hmem) ?_
    intro w hw n c hc
    rw [EtagStore.lookup_put_of_ne _ _ _ _ _ _ _ (checkpointKey_ne_agentStateKey _ _ _ _ _)] at hc
    exact hclock w hw n c hc

/-- The checkpoint write. Its sequence number is a reading of the clock of the freeze. -/
theorem FreezeLeaves.write_checkpoint {c₁ c₂ c₃ c₄ : Option Duration} {e₁ e₂ e : ETag}
    (h : FreezeLeaves B i ws state mem covered
      (stateWritten B i c₁ c₂ e₁ e₂ ++ [⟨.now, c₃⟩, ⟨.now, c₄⟩]) s)
    (hread : ∃ w ∈ ws, w.answer.clock = c₃) :
    FreezeLeaves B i ws state mem covered
      (stateWritten B i c₁ c₂ e₁ e₂ ++
        [⟨.now, c₃⟩, ⟨.now, c₄⟩, ⟨i.checkpointWrite B c₁ c₂ c₃ c₄, .ok e⟩])
      (s.put () (checkpointKey i.tenantId i.agentId (secondsOf c₃))
        (B.checkpoint.encodeToVec (i.frozenCheckpoint B c₁ c₂ (secondsOf c₃) c₄)) none e) := by
  cases h with
  | unwritten hwrites => cases hwrites
  | memory hwrites => cases hwrites
  | checkpoint hwrites => cases hwrites
  | state hwrites c₁' c₂' e₁' e₂' hpre hstands hclock =>
    have hc : c₁' = c₁ ∧ c₂' = c₂ := by
      obtain ⟨tail, htail⟩ := hpre
      cases htail
      exact ⟨rfl, rfl⟩
    obtain ⟨rfl, rfl⟩ := hc
    obtain ⟨w, hw, rfl⟩ := hread
    exact .checkpoint rfl c₁' c₂' e₁ e₂ (List.prefix_append _ _)
      (hstands.checkpoint_written fun n c hc => hclock w hw n c hc)

/-- A freeze of the memory that stands, whatever its answers are: wherever it ends, the store
stands by its successful writes. -/
theorem freeze_leaves (hstands : Stands B i.tenantId i.agentId state mem covered s)
    (hver : i.workingMemory.version = mem.version)
    (hclock : NotBehind i.tenantId i.agentId ws s) :
    FreezeLeaves B i ws state mem covered
      (exec (serveLate ()) (freeze B i).run ws s).transcript
      (exec (serveLate ()) (freeze B i).run ws s).state := by
  -- The invariant also says that each clock reading is that of an answer.
  refine (exec_invariant (serveLate ()) (fun tr s' => FreezeLeaves B i ws state mem covered tr s' ∧
    ∀ c, ⟨.now, c⟩ ∈ tr → ∃ w ∈ ws, w.answer.clock = c)
    ⟨.unwritten rfl hstands hclock, fun c hc => by cases hc⟩ ?_).1
  intro tr s' c next w htrace hw hI
  obtain ⟨hleaves, hreadings⟩ := hI
  have hlate : FreezeLeaves B i ws state mem covered tr (s'.tick w.delay) := hleaves.tick w.delay
  constructor
  · cases c with
    | get key =>
      have hstate : (serveLate () (.get key) w s').2 = s'.tick w.delay := serve_get_state
      rw [hstate]
      exact hlate.silent rfl
    | now => exact hlate.silent rfl
    | set key value etag ttl =>
      -- A write is applied, or refused, or fails.
      obtain ⟨-, -, hserve⟩ | ⟨-, -, hserve⟩ | ⟨msg, -, hserve⟩ :=
        serve_set_cases () key value etag ttl w.answer (s'.tick w.delay)
      · have hserved : serveLate () (.set key value etag ttl) w s' = (.ok w.answer.etag,
            (s'.tick w.delay).put () key value ttl.lifetime w.answer.etag) := hserve
        rw [hserved]
        cases freeze_write htrace with
        | memory c₁ => exact hlate.write_memory hver
        | state c₁ c₂ e₁ => exact hlate.write_state
        | checkpoint c₁ c₂ c₃ c₄ e₁ e₂ =>
          exact hlate.write_checkpoint (hreadings c₃ (by simp))
      · have hserved : serveLate () (.set key value etag ttl) w s'
            = (.error (.eTagConflict key), s'.tick w.delay) := hserve
        rw [hserved]
        exact hlate.silent rfl
      · have hserved : serveLate () (.set key value etag ttl) w s'
            = (.error (.daprError msg), s'.tick w.delay) := hserve
        rw [hserved]
        exact hlate.silent rfl
  · intro c' hc'
    rcases List.mem_append.mp hc' with hc' | hc'
    · exact hreadings c' hc'
    · rw [List.mem_singleton] at hc'
      cases hc'
      exact ⟨w, hw, rfl⟩

end

/-! ### A hydrate -/

section
variable {state : AgentStateRecord} {mem : WorkingMemoryRecord} {o : RecoveringOwner}
  {ws : List LateAnswer} {r : HydrationResult}

/-- A hydrate lets time pass, and nothing else happens to the store. -/
theorem hydrateOutcome_tick (o : RecoveringOwner) (ws : List LateAnswer) :
    ∃ n, (o.hydrateOutcome M B t a ws).state = o.store.tick n :=
  (reads_hydrateWith (reads_recoverLatest o.store)).exec_tick ws

/-- When a covered pair stands, the recovery returns its memory. -/
theorem Stands.recovered {s : Backing Unit} (h : Stands B t a state mem true s) {n : Nat}
    {mem' : WorkingMemoryRecord}
    (hok : (exec (serveLate ()) (recoverLatest B t a s).run ws (s.tick n)).ending
      = .returned (.ok mem')) : mem' = mem := by
  obtain ⟨seq, c, cp, hseq, hc, hdec, hmem⟩ := exec_recoverLatest_ok hok
  obtain ⟨k, v, e, cp', hcell, hdec', hmem', hmax⟩ := h.checkpoint rfl
  obtain ⟨⟨c', hc'⟩, hgreatest⟩ := latestSeq_eq_some.mp hseq
  -- The number that is read and the number that covers are both the greatest.
  have hle : seq ≤ k := hmax seq c' hc'
  have hge : k ≤ seq := hgreatest k _ (EtagStore.lookup_of_cells hcell rfl)
  have hsame : seq = k := UInt64.le_antisymm hle hge
  subst hsame
  have hread : s.lookup (checkpointKey t a seq) = some c := EtagStore.lookup_of_lookup_tick hc
  rw [EtagStore.lookup_of_cells hcell rfl, Option.some.injEq] at hread
  subst hread
  rw [hdec, Except.ok.injEq] at hdec'
  subst hdec'
  rw [hmem, Option.some.injEq] at hmem'
  exact hmem'

/-- A stored memory of the version that the state names is the one that was written with it. A
torn one has the next version. -/
theorem Stands.eq_of_fits {covered : Bool} {s : Backing Unit}
    (h : Stands B t a state mem covered s) {n : Nat} {mem' : WorkingMemoryRecord}
    (hfits : MemoryFits B t a state (s.tick n) mem') : mem' = mem := by
  obtain ⟨c, hc, hdec, hver⟩ := hfits
  obtain ⟨mem'', hdec'', heq | htorn⟩ := h.memoryRecord c (EtagStore.lookup_of_lookup_tick hc)
  · rw [hdec, Except.ok.injEq] at hdec''
    rw [hdec'', heq]
  · rw [hdec, Except.ok.injEq] at hdec''
    subst hdec''
    rw [hver, h.versions] at htorn
    exact absurd htorn (by simp)

/-- The state that stands is the only one that is read. -/
theorem Stands.eq_of_lookup {covered : Bool} {s : Backing Unit}
    (h : Stands B t a state mem covered s) {n : Nat} {c : Cell Bytes ETag}
    {state' : AgentStateRecord} (hc : (s.tick n).lookup (agentStateKey t a) = some c)
    (hdec : B.state.decode c.value = .ok state') : state' = state := by
  obtain ⟨v, e, hcell, hdec'⟩ := h.stateRecord
  have hread : s.lookup (agentStateKey t a) = some c := EtagStore.lookup_of_lookup_tick hc
  rw [EtagStore.lookup_of_cells hcell rfl, Option.some.injEq] at hread
  subst hread
  rw [hdec, Except.ok.injEq] at hdec'
  exact hdec'

/-- A hydrate that returned `Ok` returns what stands, when its recovery is vouched for. -/
theorem Stands.hydrate_ok (h : Stands B t a state mem o.covered o.store)
    (hvouched : o.Vouched B t a (.hydrate ws))
    (hok : (o.hydrateOutcome M B t a ws).ending = .returned (.ok r)) :
    r.state = state ∧ r.workingMemory = mem := by
  obtain ⟨⟨c, hc, hdec⟩, hsource⟩ := exec_hydrateWith_ok hok
  have hstate : r.state = state := h.eq_of_lookup (n := 0) hc hdec
  refine ⟨hstate, ?_⟩
  cases hsource with
  | stored hfits => exact h.eq_of_fits (hstate ▸ hfits)
  | recovered hnot ws' hreturned =>
    rcases hvouched with hwhole | hnone | hcovered
    · -- A pair that was whole when the memory was read leads to no recovery.
      obtain ⟨state', mem', hpair, hver⟩ := hwhole
      obtain ⟨cs, hcs, hdecs⟩ := hpair.stateRecord
      obtain ⟨cm, hcm, hdecm⟩ := hpair.memoryRecord
      have hstate' : state' = r.state := (h.eq_of_lookup hcs hdecs).trans hstate.symm
      subst hstate'
      exact absurd ⟨cm, hcm, hdecm, hver⟩ (hnot mem')
    · obtain ⟨seq, -, -, hseq, -⟩ := exec_recoverLatest_ok hreturned
      rw [hnone] at hseq
      cases hseq
    · rw [hcovered] at h
      exact h.recovered hreturned

end

/-! ### The run -/

/-- The moves as a machine that takes every move. -/
abbrev next (M : AgentHydrationManager) (B : Build) (t a : String) (o : RecoveringOwner)
    (m : RecoveringMove) : Option RecoveringOwner :=
  some (o.step M B t a m)

/-- The pair is the one of the start, or one freeze of the run has written both of its records. -/
def OneFreeze (M : AgentHydrationManager) (B : Build) (t a : String) (o₀ : RecoveringOwner)
    (state₀ : AgentStateRecord) (mem₀ : WorkingMemoryRecord) (ms : List RecoveringMove)
    (state : AgentStateRecord) (mem : WorkingMemoryRecord) : Prop :=
  (state = state₀ ∧ mem = mem₀) ∨
    ∃ pre i ws post o, ms = pre ++ .freeze i ws :: post ∧
      Run (next M B t a) (fun _ _ => True) o₀ pre o ∧
      WroteBoth B i (o.freezeOutcome B i ws).transcript state mem

/-- The start: a pair of one version, that the client has not hydrated yet. It is covered only when
the last checkpoint of the store holds its memory. -/
structure StartsWhole (B : Build) (t a : String) (o : RecoveringOwner) (state : AgentStateRecord)
    (mem : WorkingMemoryRecord) : Prop where
  stateRecord : ∃ v e, o.store.cells (agentStateKey t a) = some ⟨v, e, none⟩ ∧
    B.state.decode v = .ok state
  memoryRecord : ∃ c, o.store.lookup (workingMemoryKey t a) = some c ∧
    B.memory.decode c.value = .ok mem
  versions : state.workingMemoryVersion = mem.version
  hydrated : o.hydrated = none
  checkpoint : o.covered = true → ∃ n v e cp,
    o.store.cells (checkpointKey t a n) = some ⟨v, e, none⟩ ∧
    B.checkpoint.decode v = .ok cp ∧ cp.memorySnapshot = some mem ∧
    ∀ n' c, o.store.lookup (checkpointKey t a n') = some c → n' ≤ n

/-- The moves of the client, when each recovery is vouched for. -/
def Admits (B : Build) (t a : String) (o : RecoveringOwner) (m : RecoveringMove) : Prop :=
  o.Cycles t a m ∧ o.Vouched B t a m

section
variable {o₀ o : RecoveringOwner} {ms : List RecoveringMove} {state₀ state : AgentStateRecord}
  {mem₀ mem : WorkingMemoryRecord} {ws : List LateAnswer} {r : HydrationResult}

theorem OneFreeze.snoc (h : OneFreeze M B t a o₀ state₀ mem₀ ms state mem) (m : RecoveringMove) :
    OneFreeze M B t a o₀ state₀ mem₀ (ms ++ [m]) state mem := by
  obtain hstart | ⟨pre, i, ws, post, o, rfl, hrun, hwrote⟩ := h
  · exact .inl hstart
  · exact .inr ⟨pre, i, ws, post ++ [m], o, by simp, hrun, hwrote⟩

/-- What stands after a run, and what the client keeps of it. -/
structure Standing (M : AgentHydrationManager) (B : Build) (t a : String) (o₀ : RecoveringOwner)
    (state₀ : AgentStateRecord) (mem₀ : WorkingMemoryRecord) (ms : List RecoveringMove)
    (o : RecoveringOwner) (state : AgentStateRecord) (mem : WorkingMemoryRecord) : Prop where
  stands : Stands B t a state mem o.covered o.store
  origin : OneFreeze M B t a o₀ state₀ mem₀ ms state mem
  hydrated : ∀ r, o.hydrated = some r → r.workingMemory.version = mem.version

theorem StartsWhole.standing (h : StartsWhole B t a o state₀ mem₀) :
    Standing M B t a o state₀ mem₀ [] o state₀ mem₀ where
  stands := by
    obtain ⟨c, hc, hdec⟩ := h.memoryRecord
    refine ⟨h.stateRecord, fun c' hc' => ?_, h.versions, h.checkpoint⟩
    rw [hc, Option.some.injEq] at hc'
    subst hc'
    exact ⟨mem₀, hdec, .inl rfl⟩
  origin := .inl ⟨rfl, rfl⟩
  hydrated := by
    intro r hr
    rw [h.hydrated] at hr
    cases hr

/-- A hydrate keeps what stands, and the client takes it. -/
theorem Standing.hydrate (h : Standing M B t a o₀ state₀ mem₀ ms o state mem)
    (hvouched : o.Vouched B t a (.hydrate ws)) :
    Standing M B t a o₀ state₀ mem₀ (ms ++ [.hydrate ws]) (o.step M B t a (.hydrate ws)) state
      mem where
  stands := by
    obtain ⟨n, hn⟩ := o.hydrateOutcome_tick (M := M) (B := B) (t := t) (a := a) ws
    show Stands B t a state mem o.covered (o.hydrateOutcome M B t a ws).state
    rw [hn]
    exact h.stands.tick n
  origin := h.origin.snoc _
  hydrated := by
    intro r hr
    have hr : o.hydratedAfter M B t a ws = some r := hr
    unfold hydratedAfter at hr
    split at hr
    · rename_i r' hok
      rw [Option.some.injEq] at hr
      subst hr
      rw [(h.stands.hydrate_ok hvouched hok).2]
    · cases hr

/-- A freeze keeps what stands until its state write, which makes its own pair stand. -/
theorem Standing.freeze (h : Standing M B t a o₀ state₀ mem₀ ms o state mem)
    (hrun : Run (next M B t a) (fun _ _ => True) o₀ ms o) {i : FreezeInput}
    (hcycles : o.Cycles t a (.freeze i ws)) :
    ∃ state' mem', Standing M B t a o₀ state₀ mem₀ (ms ++ [.freeze i ws])
      (o.step M B t a (.freeze i ws)) state' mem' := by
  obtain ⟨rfl, rfl, ⟨r, hr, hver⟩, hclock⟩ := hcycles
  have hleaves := freeze_leaves h.stands (hver.trans (h.hydrated r hr)) hclock
  -- The freeze uses up what was hydrated.
  have hnothing : ∀ (mem' : WorkingMemoryRecord) r,
      (o.step M B i.tenantId i.agentId (.freeze i ws)).hydrated = some r →
        r.workingMemory.version = mem'.version := by
    intro mem' r hr
    cases hr
  have hcovered : (o.step M B i.tenantId i.agentId (.freeze i ws)).covered
      = coveredAfter o.covered (o.freezeOutcome B i ws).transcript := rfl
  have hboth : ∀ c₁ c₂ e₁ e₂,
      stateWritten B i c₁ c₂ e₁ e₂ <+: (o.freezeOutcome B i ws).transcript →
      OneFreeze M B i.tenantId i.agentId o₀ state₀ mem₀ (ms ++ [.freeze i ws])
        (i.frozenState B c₁ c₂) (i.frozenMemory B c₁) := by
    intro c₁ c₂ e₁ e₂ hpre
    refine .inr ⟨ms, i, ws, [], o, rfl, hrun, c₁, c₂, e₁, e₂, ?_, ?_, rfl, rfl⟩
    · exact hpre.subset (by simp)
    · exact hpre.subset (by simp)
  cases hleaves with
  | unwritten hwrites hstands _ =>
    refine ⟨state, mem, ?_, h.origin.snoc _, hnothing mem⟩
    rw [hcovered, coveredAfter, freezeOutcome, hwrites]
    exact hstands
  | memory hwrites hstands _ _ _ _ _ =>
    refine ⟨state, mem, ?_, h.origin.snoc _, hnothing mem⟩
    rw [hcovered, coveredAfter, freezeOutcome, hwrites]
    exact hstands
  | state hwrites c₁ c₂ e₁ e₂ hpre hstands _ =>
    refine ⟨_, _, ?_, hboth c₁ c₂ e₁ e₂ hpre, hnothing _⟩
    rw [hcovered, coveredAfter, freezeOutcome, hwrites]
    exact hstands
  | checkpoint hwrites c₁ c₂ e₁ e₂ hpre hstands =>
    refine ⟨_, _, ?_, hboth c₁ c₂ e₁ e₂ hpre, hnothing _⟩
    rw [hcovered, coveredAfter, freezeOutcome, hwrites]
    exact hstands

/-- After every run a pair stands. -/
theorem run_standing (hstart : StartsWhole B t a o₀ state₀ mem₀)
    (h : Run (next M B t a) (Admits B t a) o₀ ms o) :
    ∃ state mem, Standing M B t a o₀ state₀ mem₀ ms o state mem := by
  induction h with
  | nil => exact ⟨state₀, mem₀, hstart.standing⟩
  | @snoc ms o o' m hr hok hs ih =>
    obtain ⟨state, mem, hstanding⟩ := ih
    obtain ⟨hcycles, hvouched⟩ := hok
    rw [Option.some.injEq] at hs
    subst hs
    cases m with
    | wait n =>
      exact ⟨state, mem, hstanding.stands.tick n, hstanding.origin.snoc _, hstanding.hydrated⟩
    | hydrate ws => exact ⟨state, mem, hstanding.hydrate hvouched⟩
    | freeze i ws => exact hstanding.freeze (hr.mono fun _ _ _ _ _ => trivial) hcycles

/-- In every run whose recoveries are vouched for, a hydrate that returns `Ok` returns a pair of
one version that one freeze wrote. -/
theorem hydrate_matched (hstart : StartsWhole B t a o₀ state₀ mem₀)
    (h : Run (next M B t a) (Admits B t a) o₀ ms o)
    (hvouched : o.Vouched B t a (.hydrate ws))
    (hok : (o.hydrateOutcome M B t a ws).ending = .returned (.ok r)) :
    r.state.workingMemoryVersion = r.workingMemory.version ∧
      OneFreeze M B t a o₀ state₀ mem₀ ms r.state r.workingMemory := by
  obtain ⟨state, mem, hstanding⟩ := run_standing hstart h
  obtain ⟨hstate, hmem⟩ := hstanding.stands.hydrate_ok hvouched hok
  rw [hstate, hmem]
  exact ⟨hstanding.stands.versions, hstanding.origin⟩

end

/-! ### One failed checkpoint write -/

/-- An answer without a delay. -/
def prompt (w : Answer) : LateAnswer := ⟨0, w⟩

/-- With prompt answers a program runs as before. -/
theorem exec_prompt {T : Type} (p : Async T) (ws : List Answer) (s : Backing Unit) :
    exec (serveLate ()) p (ws.map prompt) s = exec (serve ()) p ws s := by
  induction p generalizing ws s with
  | done x => rw [exec_done, exec_done]
  | panic msg => rw [exec_panic, exec_panic]
  | ask c next ih =>
    cases ws with
    | nil => rfl
    | cons w ws =>
      have hserve : serveLate () c (prompt w) s = serve () c w s := by
        unfold serveLate prompt
        rw [EtagStore.tick_zero]
      rw [List.map_cons, exec_ask_cons, exec_ask_cons, hserve, ih]

section
variable {state : AgentStateRecord} {mem : WorkingMemoryRecord} {o : RecoveringOwner}
  {ws : List Answer}

/-- The state half of a hydrate of a record that is not ACTIVE. -/
theorem hydrateOutcome_of_state {w : Answer} {cs : Cell Bytes ETag} (hw : w.fault = none)
    (hcs : o.store.lookup (agentStateKey t a) = some cs)
    (hdec : B.state.decode cs.value = .ok state)
    (hactive : state.status ≠ AgentLifecycleStatus.active.toI32) :
    (o.hydrateOutcome M B t a ((w :: ws).map prompt)).ending
      = (exec (serve ()) (AgentHydrationManager.loadMemoryWith B t a
          (recoverLatest B t a o.store) state) ws o.store).ending := by
  unfold hydrateOutcome
  rw [exec_prompt, hydrateWith_run_eq, exec_get hw, Outcome.after_ending, hcs, Option.map_some,
    AgentHydrationManager.afterStateReadWith, hdec]
  simp only
  rw [if_neg hactive]

/-- A hydrate of a whole pair returns it. -/
theorem hydrate_whole (hpair : HoldsPair B t a o.store state mem)
    (hver : state.workingMemoryVersion = mem.version)
    (hactive : state.status ≠ AgentLifecycleStatus.active.toI32) :
    (o.hydrateOutcome M B t a (blankAnswers.map prompt)).ending
      = .returned (.ok ⟨state, mem, false⟩) := by
  obtain ⟨cs, hcs, hdecs⟩ := hpair.stateRecord
  obtain ⟨cm, hcm, hdecm⟩ := hpair.memoryRecord
  rw [blankAnswers, hydrateOutcome_of_state rfl hcs hdecs hactive,
    AgentHydrationManager.loadMemoryWith, exec_get rfl, Outcome.after_ending, hcm,
    Option.map_some, AgentHydrationManager.afterMemoryReadWith, hdecm]
  simp only
  rw [if_neg (not_not_intro hver.symm), exec_done]

/-- Without the memory record a hydrate returns the stored state and the memory of the last
checkpoint. -/
theorem hydrate_missing {cs c : Cell Bytes ETag} {seq : UInt64} {cp : CheckpointRecord}
    (hcs : o.store.lookup (agentStateKey t a) = some cs)
    (hdecs : B.state.decode cs.value = .ok state)
    (hactive : state.status ≠ AgentLifecycleStatus.active.toI32)
    (hgone : o.store.lookup (workingMemoryKey t a) = none)
    (hseq : latestSeq t a o.store = some seq)
    (hc : o.store.lookup (checkpointKey t a seq) = some c)
    (hdec : B.checkpoint.decode c.value = .ok cp) (hmem : cp.memorySnapshot = some mem) :
    (o.hydrateOutcome M B t a (blankAnswers.map prompt)).ending
      = .returned (.ok ⟨state, mem, true⟩) := by
  rw [blankAnswers, hydrateOutcome_of_state rfl hcs hdecs hactive,
    AgentHydrationManager.loadMemoryWith, exec_get rfl, Outcome.after_ending, hgone,
    Option.map_none, AgentHydrationManager.afterMemoryReadWith, exec_map,
    recoverLatest_run_some hseq, exec_get rfl, exec_done, hc, Option.map_some, recoveredMemory,
    hdec]
  simp only [hmem, Outcome.after_ending]
  rfl

/-- A hydrate of a whole pair leaves the client with it. -/
theorem step_hydrate_whole (hpair : HoldsPair B t a o.store state mem)
    (hver : state.workingMemoryVersion = mem.version)
    (hactive : state.status ≠ AgentLifecycleStatus.active.toI32) :
    o.step M B t a (.hydrate (blankAnswers.map prompt))
      = { o with hydrated := some ⟨state, mem, false⟩ } := by
  have hstore : (o.hydrateOutcome M B t a (blankAnswers.map prompt)).state = o.store := by
    unfold hydrateOutcome
    rw [exec_prompt]
    exact (reads_hydrateWith (reads_recoverLatest o.store)).exec_same blankAnswers
  rw [step, hstore, hydratedAfter, hydrate_whole hpair hver hactive]

/-- A freeze on current tags, whose two primary writes do not fail, finishes. -/
theorem store_step_freeze {i : FreezeInput} {w₁ w₂ w₃ w₄ w₅ w₆ w₇ : Answer}
    (hinc : i.Increments B) (hcur : i.Current o.store) (h₂ : w₂.fault = none)
    (h₄ : w₄.fault = none) :
    (o.step M B t a (.freeze i ([w₁, w₂, w₃, w₄, w₅, w₆, w₇].map prompt))).store
      = i.finished B () o.store w₁ w₂ w₃ w₄ w₅ w₆ w₇ := by
  show (exec (serveLate ()) (freeze B i).run ([w₁, w₂, w₃, w₄, w₅, w₆, w₇].map prompt)
    o.store).state = _
  rw [exec_prompt]
  exact (exec_freeze hinc hcur h₂ h₄).2

end

section
variable (B : Build) (t a : String)

/-- The clock of the blank freeze. -/
abbrev firstClock : Option Duration := some ⟨1700000000, 0⟩

/-- The freeze of what the blank freeze has written, with its tags. -/
def secondInput : FreezeInput :=
  { tenantId := t
    agentId := a
    state := (blankInput t a).frozenState B firstClock firstClock
    workingMemory := (blankInput t a).frozenMemory B firstClock
    stateEtag := ⟨"5"⟩
    memoryEtag := ⟨"3"⟩
    checkpointTrigger := .freeze }

/-- An answer a minute later. -/
def secondAnswer (fault : Option String) (tag : String) : Answer :=
  ⟨fault, ⟨tag⟩, some ⟨1700000060, 0⟩⟩

/-- The answers to this freeze. Its checkpoint write fails. -/
def secondAnswers : List Answer :=
  [secondAnswer none "9", secondAnswer none "10", secondAnswer none "11", secondAnswer none "12",
    secondAnswer none "13", secondAnswer none "14", secondAnswer (some "unavailable") "15"]

/-- The store after both freezes. -/
def secondStore : Backing Unit :=
  (secondInput B t a).finished B () (frozenStore () () B t a) (secondAnswer none "9")
    (secondAnswer none "10") (secondAnswer none "11") (secondAnswer none "12")
    (secondAnswer none "13") (secondAnswer none "14") (secondAnswer (some "unavailable") "15")

/-- The clock of the second freeze. -/
abbrev secondClock : Option Duration := some ⟨1700000060, 0⟩

variable {B t a}

/-- The tags of the second freeze are current. -/
theorem current_secondInput : (secondInput B t a).Current (frozenStore () () B t a) where
  state := ⟨_, FreezeInput.lookup_state_finished () B _ (blankInput t a) _ _ _ _ _ _ _, rfl⟩
  memory := ⟨_, FreezeInput.lookup_memory_finished () B _ (blankInput t a) _ _ _ _ _ _ _, rfl⟩

theorem fits_secondInput : (secondInput B t a).Fits := by
  show ((0 : UInt64) + 1).toNat + 1 < 2 ^ 64
  decide

/-- The second freeze leaves the checkpoints as they were. -/
theorem lookup_checkpoint_secondStore (n : UInt64) :
    (secondStore B t a).lookup (checkpointKey t a n)
      = (frozenStore () () B t a).lookup (checkpointKey t a n) :=
  (secondInput B t a).lookup_checkpoint_withState B () (frozenStore () () B t a) secondClock
    secondClock ⟨"10"⟩ ⟨"12"⟩ t a n

/-- A day after a freeze its memory record is gone, and its state record is not. -/
theorem lookup_day_after (i : FreezeInput) (s : Backing Unit) (w₁ w₂ w₃ w₄ w₅ w₆ w₇ : Answer) :
    ((i.finished B () s w₁ w₂ w₃ w₄ w₅ w₆ w₇).tick 86400).lookup
        (agentStateKey i.tenantId i.agentId)
        = some ⟨i.stateBytes B w₁.clock w₃.clock, w₄.etag, none⟩ ∧
      ((i.finished B () s w₁ w₂ w₃ w₄ w₅ w₆ w₇).tick 86400).lookup
        (workingMemoryKey i.tenantId i.agentId) = none := by
  constructor
  · exact EtagStore.lookup_tick_of_none 86400 (FreezeInput.lookup_state_finished _ _ _ _ _ _ _ _ _
      _ _) rfl
  · rw [EtagStore.lookup_tick_of_some 86400 (FreezeInput.lookup_memory_finished _ _ _ _ _ _ _ _ _
      _ _) rfl, FreezeInput.time_finished, if_neg (Nat.lt_irrefl _)]

/-- The checkpoint of the first freeze. -/
theorem lookup_checkpoint_frozenStore :
    (frozenStore () () B t a).lookup (checkpointKey t a 1700000000)
      = some ⟨B.checkpoint.encodeToVec ((blankInput t a).frozenCheckpoint B firstClock firstClock
          1700000000 firstClock), ⟨"8"⟩, none⟩ :=
  (blankInput t a).lookup_checkpoint_withCheckpoint B () (blankStore () B t a) firstClock
    firstClock firstClock firstClock ⟨"3"⟩ ⟨"5"⟩ ⟨"8"⟩

/-- It is the greatest one. -/
theorem le_of_checkpoint_frozenStore {n : UInt64} {c : Cell Bytes ETag}
    (hc : (frozenStore () () B t a).lookup (checkpointKey t a n) = some c) : n ≤ 1700000000 := by
  rw [Owner.eq_of_checkpoint_frozenStore hc]
  exact UInt64.le_refl _

/-- The first freeze leaves a covered pair. -/
theorem startsWhole_frozenStore :
    StartsWhole B t a ⟨frozenStore () () B t a, none, true⟩
      ((blankInput t a).frozenState B firstClock firstClock)
      ((blankInput t a).frozenMemory B firstClock) where
  stateRecord := by
    have hread := FreezeInput.lookup_state_finished () B (blankStore () B t a) (blankInput t a)
      (answerWith "2") (answerWith "3") (answerWith "4") (answerWith "5") (answerWith "6")
      (answerWith "7") (answerWith "8")
    exact ⟨_, _, (EtagStore.lookup_eq_some.mp hread).1, B.state.decode_encodeToVec _⟩
  memoryRecord := holdsPair_frozenStore.memoryRecord
  versions := rfl
  hydrated := rfl
  checkpoint := fun _ =>
    ⟨1700000000, _, _, _, (EtagStore.lookup_eq_some.mp lookup_checkpoint_frozenStore).1,
      B.checkpoint.decode_encodeToVec _, rfl, fun _ _ hc => le_of_checkpoint_frozenStore hc⟩

/-- The only checkpoint that is stored a day after the first freeze is its own. -/
theorem latestSeq_of_frozenStore {s : Backing Unit}
    (hsame : ∀ n, s.lookup (checkpointKey t a n)
      = (frozenStore () () B t a).lookup (checkpointKey t a n)) :
    latestSeq t a (s.tick 86400) = some 1700000000 ∧
      (s.tick 86400).lookup (checkpointKey t a 1700000000)
        = some ⟨B.checkpoint.encodeToVec ((blankInput t a).frozenCheckpoint B firstClock firstClock
            1700000000 firstClock), ⟨"8"⟩, none⟩ := by
  have hstored : (s.tick 86400).lookup (checkpointKey t a 1700000000)
      = some ⟨B.checkpoint.encodeToVec ((blankInput t a).frozenCheckpoint B firstClock firstClock
          1700000000 firstClock), ⟨"8"⟩, none⟩ :=
    EtagStore.lookup_tick_of_none 86400 ((hsame _).trans lookup_checkpoint_frozenStore) rfl
  refine ⟨latestSeq_eq_some.mpr ⟨⟨_, hstored⟩, ?_⟩, hstored⟩
  intro n c hc
  have hc : s.lookup (checkpointKey t a n) = some c := EtagStore.lookup_of_lookup_tick hc
  rw [hsame] at hc
  exact le_of_checkpoint_frozenStore hc

end

/-- The first freeze has written everything, and its memory record has expired: the recovery
returns its pair. -/
theorem hydrate_matched_day_after :
    ∃ r, (RecoveringOwner.hydrateOutcome .new releaseBuild "acme" "writer"
          ⟨(frozenStore () () releaseBuild "acme" "writer").tick 86400, none, true⟩
          (blankAnswers.map prompt)).ending = .returned (.ok r) ∧
      r.recoveredFromCheckpoint = true ∧
      r.state.workingMemoryVersion = r.workingMemory.version ∧
      OneFreeze .new releaseBuild "acme" "writer"
        ⟨frozenStore () () releaseBuild "acme" "writer", none, true⟩
        ((blankInput "acme" "writer").frozenState releaseBuild firstClock firstClock)
        ((blankInput "acme" "writer").frozenMemory releaseBuild firstClock) [.wait 86400]
        r.state r.workingMemory := by
  let o₀ : RecoveringOwner := ⟨frozenStore () () releaseBuild "acme" "writer", none, true⟩
  let o : RecoveringOwner := o₀.step .new releaseBuild "acme" "writer" (.wait 86400)
  have hwait : Admits releaseBuild "acme" "writer" o₀ (.wait 86400) := ⟨trivial, trivial⟩
  have hrun : Run (next .new releaseBuild "acme" "writer")
      (Admits releaseBuild "acme" "writer") o₀ [.wait 86400] o := .snoc .nil hwait rfl
  obtain ⟨hseq, hc⟩ := latestSeq_of_frozenStore (B := releaseBuild) (t := "acme") (a := "writer")
    (s := frozenStore () () releaseBuild "acme" "writer") fun _ => rfl
  obtain ⟨hstate, hgone⟩ : o.store.lookup _ = some _ ∧ o.store.lookup _ = none :=
    lookup_day_after (blankInput "acme" "writer") _ _ _ _ _ _ _ _
  have hok := hydrate_missing (M := .new) (o := o) hstate
    (releaseBuild.state.decode_encodeToVec _) (by decide) hgone hseq hc
    (releaseBuild.checkpoint.decode_encodeToVec _) rfl
  exact ⟨_, hok, rfl, hydrate_matched startsWhole_frozenStore hrun (.inr (.inr rfl)) hok⟩

/-- A hydrate, and a freeze of what it has returned, without delays. -/
def cycle (i : FreezeInput) (ws : List Answer) : List RecoveringMove :=
  [.hydrate (blankAnswers.map prompt), .freeze i (ws.map prompt)]

/-- Of two cycles only the freezes read a clock that counts. -/
theorem clockIncreases_cycles {i i' : FreezeInput} {ws ws' : List Answer} {x y : UInt64}
    (hws : ∀ w ∈ ws, secondsOf w.clock = x) (hws' : ∀ w ∈ ws', secondsOf w.clock = y)
    (hlt : x < y) (n : Nat) :
    ClockIncreases (cycle i ws ++ cycle i' ws' ++ [.wait n]) := by
  have hclocks : ∀ w ∈ ws, ∀ w' ∈ ws', secondsOf w.clock < secondsOf w'.clock := by
    intro w hw w' hw'
    rw [hws w hw, hws' w' hw']
    exact hlt
  simpa [ClockIncreases, cycle, RecoveringMove.clocks, prompt, secondsOf] using hclocks

/-- A whole pair that is not ACTIVE is hydrated, and a freeze of it on current tags finishes: one
cycle of the client. -/
theorem run_cycle (o : RecoveringOwner) (i : FreezeInput) (w₁ w₂ w₃ w₄ w₅ w₆ w₇ : Answer)
    {state : AgentStateRecord} {mem : WorkingMemoryRecord}
    (hpair : HoldsPair B i.tenantId i.agentId o.store state mem)
    (hver : state.workingMemoryVersion = mem.version)
    (hactive : state.status ≠ AgentLifecycleStatus.active.toI32)
    (hkeeps : i.workingMemory.version = mem.version) (hinc : i.Increments B)
    (hcur : i.Current o.store) (h₂ : w₂.fault = none) (h₄ : w₄.fault = none)
    (hclock : ∀ w ∈ [w₁, w₂, w₃, w₄, w₅, w₆, w₇], ∀ n c,
      o.store.lookup (checkpointKey i.tenantId i.agentId n) = some c →
        n ≤ (w.clock.getD default).asSecs) :
    ∃ o', Run (next M B i.tenantId i.agentId) (fun o m => o.Cycles i.tenantId i.agentId m) o
        (cycle i [w₁, w₂, w₃, w₄, w₅, w₆, w₇]) o' ∧
      o'.store = i.finished B () o.store w₁ w₂ w₃ w₄ w₅ w₆ w₇ := by
  let ws : List LateAnswer := [w₁, w₂, w₃, w₄, w₅, w₆, w₇].map prompt
  let m₁ : RecoveringMove := .hydrate (blankAnswers.map prompt)
  let m₂ : RecoveringMove := .freeze i ws
  have hstep : o.step M B i.tenantId i.agentId m₁
      = { o with hydrated := some ⟨state, mem, false⟩ } := step_hydrate_whole hpair hver hactive
  have hfirst : o.Cycles i.tenantId i.agentId m₁ := trivial
  have hsecond : (o.step M B i.tenantId i.agentId m₁).Cycles i.tenantId i.agentId m₂ := by
    rw [hstep]
    refine ⟨rfl, rfl, ⟨_, rfl, hkeeps⟩, fun w hw => ?_⟩
    obtain ⟨w', hw', rfl⟩ := List.mem_map.mp hw
    exact hclock w' hw'
  refine ⟨_, .snoc (.snoc .nil hfirst rfl) hsecond rfl, ?_⟩
  show ((o.step M B i.tenantId i.agentId m₁).step M B i.tenantId i.agentId m₂).store = _
  rw [hstep]
  exact store_step_freeze hinc hcur h₂ h₄

/-- When the checkpoint write of the second freeze fails and its memory record expires, the
hydrate returns the state of the second freeze beside the memory of the first one. -/
theorem not_hydrate_matched :
    ¬ ∀ ms o ws r,
      Run (next .new releaseBuild "acme" "writer") (fun o m => o.Cycles "acme" "writer" m)
        ⟨blankStore () releaseBuild "acme" "writer", none, false⟩ ms o →
      ClockIncreases ms →
      (o.hydrateOutcome .new releaseBuild "acme" "writer" ws).ending = .returned (.ok r) →
      r.state.workingMemoryVersion = r.workingMemory.version := by
  intro h
  -- The first cycle writes its checkpoint.
  obtain ⟨o₁, hrun₁, hstore₁⟩ := run_cycle (M := .new) (B := releaseBuild)
    ⟨blankStore () releaseBuild "acme" "writer", none, false⟩ (blankInput "acme" "writer")
    (answerWith "2") (answerWith "3") (answerWith "4") (answerWith "5") (answerWith "6")
    (answerWith "7") (answerWith "8") holdsPair_pairStore rfl (by decide) rfl
    (fits_blankInput "acme" "writer").increments current_blankInput rfl rfl
    (fun w _ n c hc => by cases (lookup_checkpoint_pairStore _ _ n).symm.trans hc)
  have hstore₁ : o₁.store = frozenStore () () releaseBuild "acme" "writer" := hstore₁
  -- The second one does not.
  have hlater : ∀ w ∈ secondAnswers, (1700000000 : UInt64) ≤ (w.clock.getD default).asSecs := by
    decide
  obtain ⟨o₂, hrun₂, hstore₂⟩ := run_cycle (M := .new) (B := releaseBuild) o₁
    (secondInput releaseBuild "acme" "writer") (secondAnswer none "9") (secondAnswer none "10")
    (secondAnswer none "11") (secondAnswer none "12") (secondAnswer none "13")
    (secondAnswer none "14") (secondAnswer (some "unavailable") "15")
    (hstore₁ ▸ holdsPair_frozenStore) rfl (by decide) rfl fits_secondInput.increments
    (hstore₁ ▸ current_secondInput) rfl rfl
    (fun w hw n c hc => UInt64.le_trans (le_of_checkpoint_frozenStore (hstore₁ ▸ hc))
      (hlater w hw))
  have hstore₂ : o₂.store = secondStore releaseBuild "acme" "writer" := by
    rw [hstore₂, hstore₁]
    rfl
  -- A day later the memory record is gone, and the last checkpoint is that of the first freeze.
  let o : RecoveringOwner := o₂.step .new releaseBuild "acme" "writer" (.wait 86400)
  have hwait : o₂.Cycles "acme" "writer" (.wait 86400) := trivial
  have hrun : Run (next .new releaseBuild "acme" "writer") (fun o m => o.Cycles "acme" "writer" m)
      ⟨blankStore () releaseBuild "acme" "writer", none, false⟩ _ o :=
    .snoc (hrun₁.append hrun₂) hwait rfl
  have hstore : o.store = (secondStore releaseBuild "acme" "writer").tick 86400 := by
    show o₂.store.tick 86400 = _
    rw [hstore₂]
  obtain ⟨hstate, hgone⟩ : o.store.lookup _ = some _ ∧ o.store.lookup _ = none := by
    rw [hstore]
    exact lookup_day_after (secondInput releaseBuild "acme" "writer") _ _ _ _ _ _ _ _
  obtain ⟨hseq, hc⟩ := latestSeq_of_frozenStore (B := releaseBuild)
    (lookup_checkpoint_secondStore (B := releaseBuild) (t := "acme") (a := "writer"))
  rw [← hstore] at hseq hc
  have hok := hydrate_missing (M := .new) hstate (releaseBuild.state.decode_encodeToVec _)
    (by decide) hgone hseq hc (releaseBuild.checkpoint.decode_encodeToVec _) rfl
  have hfirst : ∀ w ∈ blankAnswers, secondsOf w.clock = 1700000000 := by decide
  have hsecond : ∀ w ∈ secondAnswers, secondsOf w.clock = 1700000060 := by decide
  have hclock : ClockIncreases (cycle (blankInput "acme" "writer") blankAnswers ++
      cycle (secondInput releaseBuild "acme" "writer") secondAnswers ++ [.wait 86400]) :=
    clockIncreases_cycles hfirst hsecond (by decide) 86400
  have hversions := h _ _ _ _ hrun hclock hok
  exact absurd hversions (by decide)

end RecoveringOwner

end SwarmRuntime.State
