import SwarmRuntime.Proofs.Committed
import SwarmRuntime.Proofs.Cycles

/-!
# `SwarmRuntime.Proofs.WrapAround`: a version that comes round

The memory version has 64 bits, and a build that does not check overflow wraps it. A hydrate
that reads the state record, waits for `2 ^ 64` freezes and then reads the memory record sees
one version in both: it returns a pair that was never stored, with the tag of a memory record
that is current (`run_race`). The memory write of the freeze that follows succeeds between the
two writes of another freeze, and the checkpoint of that one holds a pair that was never stored
(`not_checkpoints_committed`).

So the bound on the length of the runs of `checkpoints_committed` cannot be dropped.
-/

set_option autoImplicit false

namespace SwarmRuntime.State

open SwarmRuntime.Lib SwarmRuntime.Lib.Interaction

namespace Swarm

variable {M : AgentHydrationManager} {B : Build} {t a : String} {P P' : Swarm}
  {ok : Swarm → SwarmMove → Prop} {s : Backing Author} {k : Nat}
  {state : AgentStateRecord} {mem : WorkingMemoryRecord}

/-- The condition on the moves admits each hydrate of the agent, each freeze of what was hydrated,
and each call with a new tag. -/
structure AdmitsAll (t a : String) (ok : Swarm → SwarmMove → Prop) : Prop where
  fresh : ∀ P m, ok P m → FreshTags P m
  answers : AdmitsAnswers ok
  hydrate : ∀ P id, ok P (.start id (.hydrate t a))
  freeze : ∀ P id i r, AfterHydrate P i r → ok P (.start id (.freeze i))

/-- No client freezes a record with turns in it. -/
def Plain (P : Swarm) : Prop :=
  ∀ id p i, P.procs id = some p → p.request = .freeze i → i.state.totalTurns = 0

/-- No client but `id` does. -/
def PlainBut (id : Nat) (P : Swarm) : Prop :=
  ∀ id₀ p i, id₀ ≠ id → P.procs id₀ = some p → p.request = .freeze i → i.state.totalTurns = 0

theorem Plain.plainBut (h : Plain P) (id : Nat) : PlainBut id P :=
  fun id₀ p i _ => h id₀ p i

/-- Only the client `x` has moved. It is `id`, or what it asks for is plain. -/
theorem PlainBut.moved {id x : Nat} (h : PlainBut id P)
    (hothers : ∀ id', id' ≠ x → P'.procs id' = P.procs id') {p : Proc Reply Request Response}
    (hp : P'.procs x = some p)
    (hx : x = id ∨ ∀ i, p.request = .freeze i → i.state.totalTurns = 0) : PlainBut id P' := by
  intro id₀ p₀ i hne hp₀ hreq
  by_cases hid : id₀ = x
  · rw [hid, hp, Option.some.injEq] at hp₀
    rw [← hp₀] at hreq
    rcases hx with hx | hx
    · exact absurd (hid.trans hx) hne
    · exact hx i hreq
  · rw [hothers id₀ hid] at hp₀
    exact h id₀ p₀ i hne hp₀ hreq

/-- The client `x` alone has moved, and what it asks for is plain. -/
theorem Plain.moved {x : Nat} (h : Plain P)
    (hothers : ∀ id', id' ≠ x → P'.procs id' = P.procs id') {p : Proc Reply Request Response}
    (hp : P'.procs x = some p) (hx : ∀ i, p.request = .freeze i → i.state.totalTurns = 0) :
    Plain P' := by
  intro id₀ p₀ i hp₀ hreq
  have hbut : PlainBut (id₀ + 1) P' := (h.plainBut (id₀ + 1)).moved hothers hp (.inr hx)
  exact hbut id₀ p₀ i (by omega) hp₀ hreq

/-! ### Cycle after cycle -/

/-- After `n` cycles the version is `n` further on, modulo `2 ^ 64`. -/
theorem run_cycles (hok : AdmitsAll t a ok) (hwrap : B.overflowChecks = false) (n : Nat)
    (hrest : Resting B t a P k state mem) (hplain : Plain P) (hturns : state.totalTurns = 0) :
    ∃ ms P' state' mem', Run (step M B) ok P ms P' ∧ Resting B t a P' (k + 2 * n) state' mem' ∧
      mem'.version = mem.version + UInt64.ofNat n ∧ state'.totalTurns = 0 ∧ Plain P' ∧
      ∀ id, id < k → P'.procs id = P.procs id := by
  induction n with
  | zero => exact ⟨[], P, state, mem, .nil, hrest, by simp, hturns, hplain, fun _ _ => rfl⟩
  | succ n ih =>
    obtain ⟨ms₁, P₁, state₁, mem₁, hrun₁, hrest₁, hver₁, hturns₁, hplain₁, hothers₁⟩ := ih
    have hchecks : B.overflowChecks = true → mem₁.version.toNat + 1 < 2 ^ 64 := by
      rw [hwrap]
      intro hno
      cases hno
    obtain ⟨ms₂, P₂, i, p, q, hrun₂, -, -, hi, him, hrest₂, hq, hqreq, hp, hpreq, -, hothers₂⟩ :=
      run_cycle_rest (M := M) hok.answers (hok.hydrate P₁ _)
        (fun P i r hfrom _ => hok.freeze P _ i r hfrom) hrest₁ hchecks
    refine ⟨ms₁ ++ ms₂, P₂, _, _, hrun₁.append hrun₂, hrest₂, ?_, ?_, ?_, ?_⟩
    · show i.workingMemory.version + 1 = mem.version + UInt64.ofNat (n + 1)
      rw [him, hver₁, UInt64.ofNat_add]
      exact UInt64.add_assoc _ _ _
    · show i.state.totalTurns = 0
      rw [hi, hturns₁]
    · -- The two new clients are a hydrate and a freeze of a record without turns.
      intro id p' i' hp' hreq
      by_cases hlt : id < k + 2 * n
      · rw [hothers₂ id hlt] at hp'
        exact hplain₁ id p' i' hp' hreq
      · rcases Nat.lt_or_ge id (k + 2 * n + 2) with hlt' | hge
        · rcases Nat.lt_or_ge id (k + 2 * n + 1) with hfirst | hsecond
          · have hid : id = k + 2 * n := by omega
            rw [hid, hq, Option.some.injEq] at hp'
            rw [← hp', hqreq] at hreq
            cases hreq
          · have hid : id = k + 2 * n + 1 := by omega
            rw [hid, hp, Option.some.injEq] at hp'
            rw [← hp', hpreq] at hreq
            cases hreq
            rw [hi, hturns₁]
        · rw [hrest₂.unused id hge] at hp'
          cases hp'
    · intro id hid
      rw [hothers₂ id (by omega), hothers₁ id hid]

/-! ### A freeze and a hydrate that stop halfway -/

section
variable {id : Nat} {ws : List Answer} {o : Outcome Reply Response (Backing Author)}
  {rest : Async Response}

/-- A client that starts and is served with the answers `ws` stands where its transcript leads. -/
theorem run_started (hok : AdmitsAnswers ok) {q : Request} (hstart : ok P (.start id q))
    (hid : P.procs id = none) (hws : Prepared ws P.shared)
    (hexec : exec (serve (some id)) (q.prog M B) ws P.shared = o)
    (htrace : Trace (q.prog M B) o.transcript rest) :
    ∃ ms P', Run (step M B) ok P ms P' ∧ P'.procs id = some ⟨q, o.transcript, rest, false⟩ ∧
      P'.shared = o.state ∧ ∀ id', id' ≠ id → P'.procs id' = P.procs id' := by
  subst hexec
  obtain ⟨ms, P', rest', hrun, hproc, htrace', hshared, hothers, -⟩ :=
    Pool.run_start_serve (S := service M B) Prepared (hok.serve id)
      (fun c w ws s hws => hws.serve (some id) c) hstart hid hws
  rw [htrace'.unique htrace] at hproc
  exact ⟨ms, P', hrun, hproc, hshared, hothers⟩

/-- A client that goes on, with the answers `ws`. -/
theorem run_continued (hok : AdmitsAnswers ok) {q : Request} {tr : Transcript Reply}
    {p : Async Response} (hid : P.procs id = some ⟨q, tr, p, false⟩) (hws : Prepared ws P.shared)
    (hexec : exec (serve (some id)) p ws P.shared = o) (htrace : Trace p o.transcript rest) :
    ∃ ms P', Run (step M B) ok P ms P' ∧
      P'.procs id = some ⟨q, tr ++ o.transcript, rest, false⟩ ∧ P'.shared = o.state ∧
      ∀ id', id' ≠ id → P'.procs id' = P.procs id' := by
  subst hexec
  obtain ⟨ms, P', rest', hrun, hproc, htrace', hshared, hothers, -⟩ :=
    Pool.run_serve (S := service M B) Prepared (hok.serve id)
      (fun c w ws s hws => hws.serve (some id) c) hws hid
  rw [htrace'.unique htrace] at hproc
  exact ⟨ms, P', hrun, hproc, hshared, hothers⟩

/-- A freeze with a current memory tag, up to its memory write. -/
theorem run_memory_write (hok : AdmitsAnswers ok) {i : FreezeInput}
    (hstart : ok P (.start id (.freeze i))) (hid : P.procs id = none) (hinc : i.Increments B)
    (hacc : P.shared.accepts (workingMemoryKey i.tenantId i.agentId) (some i.memoryEtag)
      = true) :
    ∃ ms P' c e, Run (step M B) ok P ms P' ∧
      P'.procs id = some ⟨.freeze i, [⟨.now, c⟩, ⟨i.memoryWrite B c, .ok e⟩],
        .frozen <$> i.afterMemoryWrite B c (.ok e), false⟩ ∧
      P'.shared = i.withMemory B (some id) P.shared c e ∧
      ∀ id', id' ≠ id → P'.procs id' = P.procs id' := by
  obtain ⟨ws, hlen, hws⟩ := exists_prepared 2 P.shared
  obtain ⟨w₁, w₂, rfl⟩ := List.length_eq_two.mp hlen
  have h₂ : w₂.fault = none := hws.fault (by simp)
  have hprog : Request.prog M B (.freeze i) = Response.frozen <$> (freeze B i).run := rfl
  have hexec : exec (serve (some id)) (Request.prog M B (.freeze i)) [w₁, w₂] P.shared
      = ⟨.stopped, [⟨.now, w₁.clock⟩, ⟨i.memoryWrite B w₁.clock, .ok w₂.etag⟩],
          i.withMemory B (some id) P.shared w₁.clock w₂.etag⟩ := by
    rw [hprog, exec_map, freeze_run_eq hinc, exec_now, exec_set h₂ hacc]
    rfl
  have htrace : Trace (Request.prog M B (.freeze i))
      [⟨.now, w₁.clock⟩, ⟨i.memoryWrite B w₁.clock, .ok w₂.etag⟩]
      (Response.frozen <$> i.afterMemoryWrite B w₁.clock (.ok w₂.etag)) := by
    rw [hprog, freeze_run_eq hinc]
    exact .cons (.cons (.nil _))
  obtain ⟨ms, P', hrun, hproc, hshared, hothers⟩ := run_started hok hstart hid hws hexec htrace
  exact ⟨ms, P', w₁.clock, w₂.etag, hrun, hproc, hshared, hothers⟩

/-- A hydrate of a record that is not ACTIVE, up to its state read. -/
theorem run_state_read (hok : AdmitsAnswers ok) (hstart : ok P (.start id (.hydrate t a)))
    (hid : P.procs id = none) {c : Cell Bytes ETag}
    (hcell : P.shared.lookup (agentStateKey t a) = some c)
    (hdec : B.state.decode c.value = .ok state)
    (hactive : state.status ≠ AgentLifecycleStatus.active.toI32) :
    ∃ ms P', Run (step M B) ok P ms P' ∧
      P'.procs id = some ⟨.hydrate t a,
        [⟨.get (agentStateKey t a), .ok (some ⟨c.value, c.etag⟩)⟩],
        .hydrated <$> AgentHydrationManager.loadMemory B t a state, false⟩ ∧
      P'.shared = P.shared ∧ ∀ id', id' ≠ id → P'.procs id' = P.procs id' := by
  obtain ⟨ws, hlen, hws⟩ := exists_prepared 1 P.shared
  obtain ⟨w, rfl⟩ := List.length_eq_one_iff.mp hlen
  have hafter : M.afterStateRead B t a (.ok (some ⟨c.value, c.etag⟩))
      = AgentHydrationManager.loadMemory B t a state := by
    simp only [AgentHydrationManager.afterStateRead, hdec, if_neg hactive]
  have hprog : Request.prog M B (.hydrate t a) = Response.hydrated <$> (M.hydrate B t a).run := rfl
  have hexec : exec (serve (some id)) (Request.prog M B (.hydrate t a)) [w] P.shared
      = ⟨.stopped, [⟨.get (agentStateKey t a), .ok (some ⟨c.value, c.etag⟩)⟩], P.shared⟩ := by
    rw [hprog, exec_map, hydrate_run_eq, exec_get (hws.fault (by simp)), hcell, Option.map_some,
      hafter]
    rfl
  have htrace : Trace (Request.prog M B (.hydrate t a))
      [⟨.get (agentStateKey t a), .ok (some ⟨c.value, c.etag⟩)⟩]
      (Response.hydrated <$> AgentHydrationManager.loadMemory B t a state) := by
    rw [hprog, hydrate_run_eq, ← hafter]
    exact .cons (.nil _)
  exact run_started hok hstart hid hws hexec htrace

/-- The rest of this hydrate, on a memory record of its version. -/
theorem run_memory_read (hok : AdmitsAnswers ok) {rs : StateRecord}
    (hid : P.procs id = some ⟨.hydrate t a, [⟨.get (agentStateKey t a), .ok (some rs)⟩],
      .hydrated <$> AgentHydrationManager.loadMemory B t a state, false⟩)
    {c : Cell Bytes ETag} (hcell : P.shared.lookup (workingMemoryKey t a) = some c)
    (hdec : B.memory.decode c.value = .ok mem)
    (hver : mem.version = state.workingMemoryVersion) :
    ∃ ms P', Run (step M B) ok P ms P' ∧
      P'.procs id = some ⟨.hydrate t a,
        [⟨.get (agentStateKey t a), .ok (some rs)⟩,
          ⟨.get (workingMemoryKey t a), .ok (some ⟨c.value, c.etag⟩)⟩],
        done (.hydrated (.ok ⟨state, mem, false⟩)), false⟩ ∧
      P'.shared = P.shared ∧ ∀ id', id' ≠ id → P'.procs id' = P.procs id' := by
  obtain ⟨ws, hlen, hws⟩ := exists_prepared 1 P.shared
  obtain ⟨w, rfl⟩ := List.length_eq_one_iff.mp hlen
  have hafter : AgentHydrationManager.afterMemoryRead B state (.ok (some ⟨c.value, c.etag⟩))
      = done (.ok ⟨state, mem, false⟩) := by
    simp only [AgentHydrationManager.afterMemoryRead, hdec, hver, ne_eq, not_true, if_false]
  have hexec : exec (serve (some id))
      (Response.hydrated <$> AgentHydrationManager.loadMemory B t a state) [w] P.shared
      = ⟨.returned (.hydrated (.ok ⟨state, mem, false⟩)),
          [⟨.get (workingMemoryKey t a), .ok (some ⟨c.value, c.etag⟩)⟩], P.shared⟩ := by
    rw [exec_map, AgentHydrationManager.loadMemory, exec_get (hws.fault (by simp)), hcell,
      Option.map_some, hafter, exec_done]
    rfl
  have htrace := exec_trace (serve (some id)) (congrArg Outcome.ending hexec)
  rw [hexec] at htrace
  exact run_continued hok hid hws hexec htrace

end

/-! ### The race -/

/-- The freeze `i` of the client `id` stands between its two writes, its version has wrapped to
`0`, and its record alone has a turn in it. The freeze `j` of the client `id'` has written the
memory over it, with the tag of a state record that is no longer stored. -/
structure Race (B : Build) (t a : String) (P : Swarm) (id id' : Nat) (i j : FreezeInput) :
    Prop where
  writer : ∃ c e, P.procs id = some ⟨.freeze i, [⟨.now, c⟩, ⟨i.memoryWrite B c, .ok e⟩],
    .frozen <$> i.afterMemoryWrite B c (.ok e), false⟩
  racer : ∃ c e, P.procs id' = some ⟨.freeze j, [⟨.now, c⟩, ⟨j.memoryWrite B c, .ok e⟩],
    .frozen <$> j.afterMemoryWrite B c (.ok e), false⟩
  writerAgent : i.tenantId = t ∧ i.agentId = a
  racerAgent : j.tenantId = t ∧ j.agentId = a
  state : ∃ c, P.shared.lookup (agentStateKey t a) = some c ∧ c.etag = i.stateEtag
  racerTag : i.stateEtag ≠ j.stateEtag
  memory : ∃ c mem, P.shared.lookup (workingMemoryKey t a) = some c ∧
    B.memory.decode c.value = .ok mem ∧ mem.version = 1
  wrapped : i.workingMemory.version + 1 = 0
  turns : i.state.totalTurns = 1
  plain : PlainBut id P

/-- A stored state record with the tag of the first one is the first one. -/
theorem tag_names_first {M : AgentHydrationManager} (hok : AdmitsAll t a ok)
    {ms : List SwarmMove} (h : Run (step M B) ok (start (blankStore none B t a)) ms P)
    {c : Cell Bytes ETag} (hc : P.shared.lookup (agentStateKey t a) = some c)
    (hdec : B.state.decode c.value = .ok state) (htag : c.etag = ⟨"1"⟩) :
    state = blankState t a := by
  have hinit : StartsWith B t a (blankStore none B t a) (blankState t a) (blankMemory t a) :=
    startsWith_pairStore rfl
  obtain ⟨v, hv, hdecv⟩ := hinit.stateRecord
  have htagged : P.shared.Tagged (agentStateKey t a) := run_tagged hok.fresh hv.tagged h
  obtain ⟨x, older, hhist, hxv, hxe⟩ := (run_journaled hv.journaled h).exists_newest hc
  obtain ⟨e, n, hcell, hfirst⟩ := hv
  -- The first record is still in the history, under this tag.
  have hone : e = ⟨"1"⟩ := by
    have hlookup : (blankStore (none : Author) B t a).cells (agentStateKey t a)
        = some ⟨B.state.encodeToVec (blankState t a), ⟨"1"⟩, none⟩ :=
      (EtagStore.lookup_eq_some.mp lookup_state_pairStore).1
    rw [hlookup, Option.some.injEq] at hcell
    exact (congrArg Cell.etag hcell).symm
  have hmem : (⟨agentStateKey t a, v, e, none⟩ : Entry String Bytes ETag Author) ∈
      P.shared.history (agentStateKey t a) :=
    (run_later h).mem_history (by
      show _ ∈ (blankStore (none : Author) B t a).history _
      rw [hfirst]
      exact List.mem_cons_self)
  have hsame := htagged.eq_of_etag (by simp [hhist]) hmem (hxe.trans (htag.trans hone.symm))
  have hvalue : c.value = v := by rw [← hxv, hsame]
  rw [hvalue, hdecv] at hdec
  exact (Except.ok.inj hdec).symm

/-- Before the race: client 0 has read the first state record and waits, the version has reached
its last value, and `i` is a freeze of what was hydrated then. Its record alone has a turn in it.
The clients from `k` on have not started. -/
structure BeforeRace (B : Build) (t a : String) (P : Swarm) (k : Nat) (i : FreezeInput) :
    Prop where
  waiting : P.procs 0 = some ⟨.hydrate t a,
    [⟨.get (agentStateKey t a), .ok (some ⟨B.state.encodeToVec (blankState t a), ⟨"1"⟩⟩)⟩],
    .hydrated <$> AgentHydrationManager.loadMemory B t a (blankState t a), false⟩
  positive : 0 < k
  unused : ∀ id, k ≤ id → P.procs id = none
  agent : i.tenantId = t ∧ i.agentId = a
  hydrated : ∃ r, AfterHydrate P i r
  current : i.Current P.shared
  wrapped : i.workingMemory.version + 1 = 0
  turns : i.state.totalTurns = 1
  stateTag : i.stateEtag ≠ ⟨"1"⟩
  plain : Plain P

/-- The race is prepared. -/
theorem run_beforeRace (M : AgentHydrationManager) (hok : AdmitsAll t a ok)
    (hwrap : B.overflowChecks = false) :
    ∃ ms P k i, Run (step M B) ok (start (blankStore none B t a)) ms P ∧
      BeforeRace B t a P k i := by
  have hactive : (blankState t a).status ≠ AgentLifecycleStatus.active.toI32 := by
    show AgentLifecycleStatus.frozen.toI32 ≠ AgentLifecycleStatus.active.toI32
    decide
  -- Client 0 reads the state record of the start, and waits.
  obtain ⟨ms₁, P₁, hrun₁, hproc₁, hshared₁, hothers₁⟩ :=
    run_state_read (M := M) hok.answers (hok.hydrate (start (blankStore none B t a)) 0) rfl
      lookup_state_pairStore (B.state.decode_encodeToVec _) hactive
  have hrest₁ : Resting B t a P₁ 1 (blankState t a) (blankMemory t a) := by
    refine ⟨?_, hshared₁ ▸ holdsPair_pairStore, rfl, rfl⟩
    intro id hid
    exact hothers₁ id (by omega)
  have hplain₀ : Plain (start (blankStore none B t a)) := by
    intro id p i hp
    cases hp
  have hplain₁ : Plain P₁ := hplain₀.moved hothers₁ hproc₁ (by intro i hi; cases hi)
  -- The version goes round, up to its last value.
  obtain ⟨ms₂, P₂, state, mem, hrun₂, hrest₂, hver₂, hturns₂, hplain₂, hothers₂⟩ :=
    run_cycles (M := M) hok hwrap (2 ^ 64 - 1) hrest₁ hplain₁ rfl
  have hlast : mem.version + 1 = 0 := by
    rw [hver₂]
    show (0 : UInt64) + UInt64.ofNat (2 ^ 64 - 1) + 1 = 0
    decide
  have hpos : 0 < 1 + 2 * (2 ^ 64 - 1) := by decide
  generalize 1 + 2 * (2 ^ 64 - 1) = k at hrest₂ hpos
  -- The next client hydrates.
  obtain ⟨ms₃, P₃, q₃, es, em, hrun₃, hrest₃, -, hq₃, hqreq₃, hothers₃, hafter₃⟩ :=
    run_hydrate_rest (M := M) hok.answers (hok.hydrate P₂ k) hrest₂
  have hrun := (hrun₁.append hrun₂).append hrun₃
  let i : FreezeInput := ⟨t, a, { state with totalTurns := 1 }, mem, es, em, .freeze⟩
  obtain ⟨hfrom, hcur⟩ := hafter₃ i rfl rfl rfl rfl rfl
  have hzero : P₃.procs 0 = P₁.procs 0 := by
    rw [hothers₃ 0 (by omega), hothers₂ 0 Nat.one_pos]
  refine ⟨_, P₃, k + 1, i, hrun,
    { waiting := hzero.trans hproc₁
      positive := Nat.succ_pos k
      unused := hrest₃.unused
      agent := ⟨rfl, rfl⟩
      hydrated := ⟨_, hfrom⟩
      current := hcur
      wrapped := hlast
      turns := rfl
      stateTag := ?_
      plain := hplain₂.moved hothers₃ hq₃ (by rw [hqreq₃]; intro i hi; cases hi) }⟩
  show es ≠ ⟨"1"⟩
  intro htag
  -- The tag `1` is the one of the first state record, and its version is not the last one.
  obtain ⟨cs, hcs, hes⟩ := hcur.state
  have hnewest : B.state.decode cs.value = .ok state := by
    obtain ⟨cs', hcs', hdec⟩ := hrest₃.pair.stateRecord
    rw [hcs] at hcs'
    rw [Option.some.inj hcs', hdec]
  have hfirst := tag_names_first hok hrun hcs hnewest (hes.trans htag)
  have hversion : mem.version = 0 := by
    rw [← hrest₃.versions, hfirst]
    rfl
  rw [hversion] at hlast
  exact absurd hlast (by decide)

/-- From there the race is reached: the freeze `i` writes its memory, client 0 reads it, and the
next client freezes what client 0 returns, up to its memory write. -/
theorem BeforeRace.race {i : FreezeInput} (h : BeforeRace B t a P k i)
    (M : AgentHydrationManager) (hok : AdmitsAll t a ok) (hwrap : B.overflowChecks = false) :
    ∃ ms P' j, Run (step M B) ok P ms P' ∧ Race B t a P' k (k + 1) i j := by
  have hinc : ∀ i : FreezeInput, i.Increments B := by
    intro i hchecks
    rw [hwrap] at hchecks
    cases hchecks
  have hpos : 0 < k := h.positive
  obtain ⟨rfl, rfl⟩ := h.agent
  obtain ⟨r, hfrom⟩ := h.hydrated
  obtain ⟨ms₁, P₁, c, e, hrun₁, hproc₁, hshared₁, hothers₁⟩ :=
    run_memory_write (M := M) hok.answers (hok.freeze P k i _ hfrom)
      (h.unused k (Nat.le_refl k)) (hinc i) h.current.accepts_memory
  -- Client 0 reads this memory record. It has the version of the first state record.
  have hcell₁ : P₁.shared.lookup (workingMemoryKey i.tenantId i.agentId)
      = some ⟨i.memBytes B c, e, some (P.shared.time + 86400)⟩ := by
    rw [hshared₁]
    exact FreezeInput.lookup_memory_withMemory ..
  have hzero : P₁.procs 0 = P.procs 0 := hothers₁ 0 (by omega)
  obtain ⟨ms₂, P₂, hrun₂, hproc₂, hshared₂, hothers₂⟩ :=
    run_memory_read (M := M) hok.answers (hzero.trans h.waiting) hcell₁
      (B.memory.decode_encodeToVec _) h.wrapped
  -- The next client freezes what client 0 has hydrated.
  let j : FreezeInput :=
    ⟨i.tenantId, i.agentId, blankState i.tenantId i.agentId, i.frozenMemory B c, ⟨"1"⟩, e, .freeze⟩
  have hfrom' : AfterHydrate P₂ j
      ⟨blankState i.tenantId i.agentId, i.frozenMemory B c, false⟩ :=
    ⟨⟨0, _, ⟨_, ⟨"1"⟩⟩, ⟨_, e⟩, hproc₂, rfl, rfl, List.mem_cons_self,
      List.mem_cons_of_mem _ List.mem_cons_self, rfl, rfl⟩, rfl, rfl⟩
  have hacc : P₂.shared.accepts (workingMemoryKey i.tenantId i.agentId) (some e) = true := by
    rw [EtagStore.accepts_some, hshared₂]
    exact ⟨_, hcell₁, rfl⟩
  have hunused : P₂.procs (k + 1) = none := by
    rw [hothers₂ _ (by omega), hothers₁ _ (by omega)]
    exact h.unused _ (by omega)
  obtain ⟨ms₃, P₃, c', e', hrun₃, hproc₃, hshared₃, hothers₃⟩ :=
    run_memory_write (M := M) hok.answers (hok.freeze P₂ (k + 1) j _ hfrom') hunused (hinc j) hacc
  have hproc : P₃.procs k = P₁.procs k := by
    rw [hothers₃ _ (by omega), hothers₂ _ (by omega)]
  have hcell₃ : P₃.shared.lookup (workingMemoryKey i.tenantId i.agentId)
      = some ⟨j.memBytes B c', e', some (P₂.shared.time + 86400)⟩ := by
    rw [hshared₃]
    exact FreezeInput.lookup_memory_withMemory ..
  have hone : (j.frozenMemory B c').version = 1 := by
    show i.workingMemory.version + 1 + 1 = 1
    rw [h.wrapped]
    rfl
  obtain ⟨cs, hcs, hes⟩ := h.current.state
  refine ⟨_, P₃, j, (hrun₁.append hrun₂).append hrun₃,
    { writer := ⟨c, e, hproc.trans hproc₁⟩
      racer := ⟨c', e', hproc₃⟩
      writerAgent := ⟨rfl, rfl⟩
      racerAgent := ⟨rfl, rfl⟩
      state := ⟨cs, ?_, hes⟩
      racerTag := h.stateTag
      memory := ⟨_, _, hcell₃, B.memory.decode_encodeToVec _, hone⟩
      wrapped := h.wrapped
      turns := h.turns
      plain := ?_ }⟩
  · show P₃.shared.lookup (agentStateKey i.tenantId i.agentId) = some cs
    rw [hshared₃, hshared₂, hshared₁]
    exact (FreezeInput.lookup_state_withMemory ..).trans
      ((FreezeInput.lookup_state_withMemory ..).trans hcs)
  · show PlainBut k P₃
    have hplain₁ : PlainBut k P₁ := (h.plain.plainBut k).moved hothers₁ hproc₁ (.inl rfl)
    have hplain₂ : PlainBut k P₂ :=
      hplain₁.moved hothers₂ hproc₂ (.inr (by intro i hi; cases hi))
    refine hplain₂.moved hothers₃ hproc₃ (.inr ?_)
    intro i' hi'
    cases hi'
    rfl

/-- The race is reached from the blank records. -/
theorem run_race (M : AgentHydrationManager) (hok : AdmitsAll t a ok)
    (hwrap : B.overflowChecks = false) :
    ∃ ms P id id' i j, Run (step M B) ok (start (blankStore none B t a)) ms P ∧
      Race B t a P id id' i j := by
  obtain ⟨ms₁, P₁, k, i, hrun₁, hbefore⟩ := run_beforeRace (B := B) M hok hwrap
  obtain ⟨ms₂, P₂, j, hrun₂, hrace⟩ := hbefore.race M hok hwrap
  exact ⟨_, P₂, k, k + 1, i, j, hrun₁.append hrun₂, hrace⟩

section
variable {M : AgentHydrationManager} {id id' : Nat} {i j : FreezeInput} {ms : List SwarmMove}

/-- The writer finishes. Its checkpoint is written, and the memory stays as it is. -/
theorem Race.finish (hrace : Race B t a P id id' i j) (M : AgentHydrationManager)
    (hok : AdmitsAnswers ok) :
    ∃ ms P' p c₁ c₂ c₃ c₄ e, Run (step M B) ok P ms P' ∧ P'.procs id = some p ∧
      ⟨i.checkpointWrite B c₁ c₂ c₃ c₄, .ok e⟩ ∈ p.transcript ∧
      P'.shared.history (workingMemoryKey t a) = P.shared.history (workingMemoryKey t a) := by
  obtain ⟨c, e, hproc⟩ := hrace.writer
  obtain ⟨rfl, rfl⟩ := hrace.writerAgent
  obtain ⟨ws, hlen, hws⟩ := exists_prepared 5 P.shared
  have hcalm : Calm 5 ws := hlen ▸ hws.calm
  obtain ⟨w₁, ws, rfl, -, hcalm⟩ := hcalm.exists_cons
  obtain ⟨w₂, ws, rfl, h₂, hcalm⟩ := hcalm.exists_cons
  obtain ⟨w₃, ws, rfl, -, hcalm⟩ := hcalm.exists_cons
  obtain ⟨w₄, ws, rfl, -, hcalm⟩ := hcalm.exists_cons
  obtain ⟨w₅, ws, rfl, h₅, -⟩ := hcalm.exists_cons
  have hacc : P.shared.accepts (agentStateKey i.tenantId i.agentId) (some i.stateEtag) = true :=
    EtagStore.accepts_some.mpr hrace.state
  -- The clock, the state write, two clocks, the checkpoint write.
  have hexec : exec (serve (some id)) (Response.frozen <$> i.afterMemoryWrite B c (.ok e))
      (w₁ :: w₂ :: w₃ :: w₄ :: w₅ :: ws) P.shared
      = ⟨.returned (.frozen (.ok (secondsOf w₃.clock))),
          [⟨.now, w₁.clock⟩, ⟨i.stateWrite B c w₁.clock, .ok w₂.etag⟩, ⟨.now, w₃.clock⟩,
            ⟨.now, w₄.clock⟩,
            ⟨i.checkpointWrite B c w₁.clock w₃.clock w₄.clock, .ok w₅.etag⟩],
          (P.shared.put (some id) (agentStateKey i.tenantId i.agentId)
            (i.stateBytes B c w₁.clock) none w₂.etag).put (some id)
              (checkpointKey i.tenantId i.agentId (secondsOf w₃.clock))
              (B.checkpoint.encodeToVec (i.frozenCheckpoint B c w₁.clock (secondsOf w₃.clock)
                w₄.clock)) none w₅.etag⟩ := by
    rw [exec_map, FreezeInput.afterMemoryWrite, exec_now, exec_set h₂ hacc,
      FreezeInput.afterStateWrite, exec_now, exec_now, exec_set h₅ rfl,
      FreezeInput.afterCheckpointWrite, exec_done]
    rfl
  have htrace := exec_trace (serve (some id)) (congrArg Outcome.ending hexec)
  rw [hexec] at htrace
  obtain ⟨ms, P', hrun, hproc', hshared, -⟩ :=
    run_continued (M := M) hok hproc hws hexec htrace
  refine ⟨ms, P', _, c, w₁.clock, w₃.clock, w₄.clock, w₅.etag, hrun, hproc', by simp, ?_⟩
  rw [hshared, EtagStore.history_put_of_ne _ _ _ _ _ _ _
    (checkpointKey_ne_workingMemoryKey _ _ _ _ _).symm, EtagStore.history_put_of_ne _ _ _ _ _ _ _
    (agentStateKey_ne_workingMemoryKey _ _ _ _).symm]

/-- The racer is refused at its state write, after its memory write. -/
theorem Race.refused (hrace : Race B t a P id id' i j) (M : AgentHydrationManager)
    (hok : AdmitsAnswers ok) :
    ∃ ms P' p c e, Run (step M B) ok P ms P' ∧ P'.procs id' = some p ∧ p.request = .freeze j ∧
      p.rest = done (.frozen (.error (.eTagConflict (agentStateKey t a)))) ∧
      ⟨j.memoryWrite B c, .ok e⟩ ∈ p.transcript := by
  obtain ⟨c, e, hproc⟩ := hrace.racer
  obtain ⟨rfl, rfl⟩ := hrace.racerAgent
  obtain ⟨ws, hlen, hws⟩ := exists_prepared 2 P.shared
  obtain ⟨w₁, w₂, rfl⟩ := List.length_eq_two.mp hlen
  have hacc : P.shared.accepts (agentStateKey j.tenantId j.agentId) (some j.stateEtag)
      = false := by
    obtain ⟨cs, hcs, hes⟩ := hrace.state
    unfold EtagStore.accepts
    rw [hcs]
    simpa [hes] using hrace.racerTag
  have hexec : exec (serve (some id')) (Response.frozen <$> j.afterMemoryWrite B c (.ok e))
      [w₁, w₂] P.shared
      = ⟨.returned (.frozen (.error (.eTagConflict (agentStateKey j.tenantId j.agentId)))),
          [⟨.now, w₁.clock⟩, ⟨j.stateWrite B c w₁.clock,
            .error (.eTagConflict (agentStateKey j.tenantId j.agentId))⟩], P.shared⟩ := by
    rw [exec_map, FreezeInput.afterMemoryWrite, exec_now,
      exec_set_refused (hws.fault (by simp)) hacc, FreezeInput.afterStateWrite, exec_done]
    rfl
  have htrace := exec_trace (serve (some id')) (congrArg Outcome.ending hexec)
  rw [hexec] at htrace
  obtain ⟨ms, P', hrun, hproc', -, -⟩ := run_continued (M := M) hok hproc hws hexec htrace
  exact ⟨ms, P', _, c, e, hrun, hproc', rfl, rfl, by simp⟩

/-- No stored state record has had a turn, up to the race. -/
theorem Race.turns_of_mem (hrace : Race B t a P id id' i j)
    (h : Run (step M B) ok (start (blankStore none B t a)) ms P)
    {x : Entry String Bytes ETag Author} (hx : x ∈ P.shared.history (agentStateKey t a))
    {st : AgentStateRecord} (hdec : B.state.decode x.value = .ok st) : st.totalTurns = 0 := by
  have hinit : StartsWith B t a (blankStore none B t a) (blankState t a) (blankMemory t a) :=
    startsWith_pairStore rfl
  cases hauthor : x.author with
  | none =>
    -- The record of the start.
    obtain ⟨v, hv, hdecv⟩ := hinit.stateRecord
    obtain ⟨x₀, hhist, hx₀v, -⟩ := hv.exists_entry
    have hx₀ : x ∈ (blankStore none B t a).history (agentStateKey t a) :=
      run_unauthored h hx hauthor
    rw [hhist, List.mem_singleton] at hx₀
    rw [hx₀, hx₀v, hdecv] at hdec
    rw [← Except.ok.inj hdec]
    rfl
  | some author =>
    obtain ⟨p, etag, ttl, hp, hmem⟩ := run_wrote hinit.unauthored h hx hauthor
    obtain ⟨i', c₁, c₂, e₁, hreq, -, -, hval, -, hstatew⟩ := run_stateWrites h hp hmem
    rw [hval, FreezeInput.stateBytes, B.state.decode_encodeToVec] at hdec
    rw [← Except.ok.inj hdec]
    show i'.state.totalTurns = 0
    refine hrace.plain author p i' ?_ hp hreq
    -- The writer has not written its state.
    intro hid
    obtain ⟨c, e, hproc⟩ := hrace.writer
    rw [hid, hproc, Option.some.injEq] at hp
    rw [← hp] at hstatew
    rcases List.mem_pair.mp hstatew with hnow | hmemory
    · cases congrArg Sigma.fst hnow
    · have hcall := congrArg Sigma.fst hmemory
      simp only [Call.set.injEq] at hcall
      exact absurd hcall.1 (agentStateKey_ne_workingMemoryKey _ _ _ _)

/-- The two records of the writer were never the stored pair: its state record was not stored up to
the race, and its memory record is not stored after it. -/
theorem Race.not_holdsPair (hrace : Race B t a P id id' i j)
    (h : Run (step M B) ok (start (blankStore none B t a)) ms P) {Q : Swarm}
    {c₁ c₂ : Option Duration}
    (hQ : (∃ post, Run (step M B) ok Q post P) ∨
      (P.shared.Later Q.shared ∧
        Q.shared.history (workingMemoryKey t a) = P.shared.history (workingMemoryKey t a)))
    (hj : Q.shared.Journaled (agentStateKey t a)) :
    ¬ HoldsPair B t a Q.shared (i.frozenState B c₁ c₂) (i.frozenMemory B c₁) := by
  intro hpair
  rcases hQ with ⟨post, hbefore⟩ | ⟨hlater, hsame⟩
  · obtain ⟨cs, hcs, hdecs⟩ := hpair.stateRecord
    obtain ⟨x, older, hhist, hxv, -⟩ := hj.exists_newest hcs
    have hx : x ∈ P.shared.history (agentStateKey t a) :=
      (run_later hbefore).mem_history (by simp [hhist])
    have hdec : B.state.decode x.value = .ok (i.frozenState B c₁ c₂) := by rw [hxv, hdecs]
    have hturns : (i.frozenState B c₁ c₂).totalTurns = 0 := hrace.turns_of_mem h hx hdec
    have hzero : i.state.totalTurns = 0 := hturns
    rw [hrace.turns] at hzero
    exact absurd hzero (by decide)
  · obtain ⟨cm, hcm, hdecm⟩ := hpair.memoryRecord
    obtain ⟨c, mem, hc, hdec, hver⟩ := hrace.memory
    -- The memory record is the one of the race.
    rw [hlater.lookup_of_lookup hsame hcm, Option.some.injEq] at hc
    rw [← hc, hdecm] at hdec
    have hzero : mem.version = 0 := by
      rw [← Except.ok.inj hdec]
      exact hrace.wrapped
    rw [hver] at hzero
    exact absurd hzero (by decide)

/-- Clients that freeze what they have hydrated can run into the race. -/
theorem admitsAll_freezesHydrated : AdmitsAll t a (FreezesHydrated t a) where
  fresh := fun _ _ hok => hok.fresh
  answers := admitsSmooth_freezesHydrated.answers
  hydrate := freezesHydrated_hydrate
  freeze := fun _ _ _ _ hfrom => freezesHydrated_freeze hfrom

/-- No client crashes in the move, and no call fails. -/
def Undisturbed (m : SwarmMove) : Prop :=
  (∀ id, m ≠ .crash id) ∧ ∀ id w, m = .serve id w → w.fault = none

theorem admitsAll_undisturbed :
    AdmitsAll t a fun P m => FreezesHydrated t a P m ∧ Undisturbed m where
  fresh := fun P m hok => hok.1.fresh
  answers := by
    intro P id tag hfresh
    refine ⟨admitsAll_freezesHydrated.answers P id tag hfresh, ?_, ?_⟩
    · intro id' hm
      cases hm
    · intro id' w hm
      cases hm
      rfl
  hydrate := by
    intro P id
    refine ⟨admitsAll_freezesHydrated.hydrate P id, ?_, ?_⟩
    · intro id' hm
      cases hm
    · intro id' w hm
      cases hm
  freeze := by
    intro P id i r hfrom
    refine ⟨admitsAll_freezesHydrated.freeze P id i r hfrom, ?_, ?_⟩
    · intro id' hm
      cases hm
    · intro id' w hm
      cases hm

/-- After a version has come round, a freeze can be refused after its memory write, although no
client has crashed and no call has failed. -/
theorem not_freeze_compare_and_swap :
    ¬ ∀ s₀ state₀ mem₀ ms P id p i result,
      StartsWith releaseBuild "acme" "writer" s₀ state₀ mem₀ →
      HoldsPair releaseBuild "acme" "writer" s₀ state₀ mem₀ →
      Run (step .new releaseBuild)
        (fun P m => FreezesHydrated "acme" "writer" P m ∧ Undisturbed m) (start s₀) ms P →
      P.procs id = some p → p.request = .freeze i →
      keyRoot i.tenantId i.agentId = keyRoot "acme" "writer" → p.rest = done (.frozen result) →
      (∃ seq, result = .ok seq) ∨ ∀ x ∈ P.shared.journal, x.author ≠ some id := by
  intro hall
  obtain ⟨ms₁, P₁, id, id', i, j, hrun₁, hrace⟩ :=
    run_race (B := releaseBuild) .new (admitsAll_undisturbed (t := "acme") (a := "writer")) rfl
  obtain ⟨ms₂, P₂, p, c, e, hrun₂, hp, hreq, hdone, hwrote⟩ :=
    hrace.refused .new admitsAll_undisturbed.answers
  have hx := run_written (hrun₁.append hrun₂) hp hwrote
  have hroot : keyRoot j.tenantId j.agentId = keyRoot "acme" "writer" := by
    rw [hrace.racerAgent.1, hrace.racerAgent.2]
  rcases hall _ _ _ _ P₂ id' p j _ (startsWith_pairStore rfl) holdsPair_pairStore
    (hrun₁.append hrun₂) hp hreq hroot hdone with ⟨seq, hok⟩ | hnothing
  · cases hok
  · exact hnothing _ (List.mem_of_mem_filter hx) rfl

/-- After a version has come round, a checkpoint can hold a pair that was never stored. -/
theorem not_checkpoints_committed :
    ¬ ∀ s₀ state₀ mem₀ ms P n x id,
      StartsWith releaseBuild "acme" "writer" s₀ state₀ mem₀ →
      HoldsPair releaseBuild "acme" "writer" s₀ state₀ mem₀ →
      Run (step .new releaseBuild) (FreezesHydrated "acme" "writer") (start s₀) ms P →
      x ∈ P.shared.history (checkpointKey "acme" "writer" n) → x.author = some id →
      Committed .new releaseBuild "acme" "writer" s₀ ms x.value := by
  intro hall
  obtain ⟨ms₁, P₁, id, id', i, j, hrun₁, hrace⟩ :=
    run_race (B := releaseBuild) .new (admitsAll_freezesHydrated (t := "acme") (a := "writer"))
      rfl
  obtain ⟨ms₂, P₂, p, c₁, c₂, c₃, c₄, e, hrun₂, hp, hwrote, hmemory⟩ :=
    hrace.finish .new admitsAll_freezesHydrated.answers
  have hx := run_written (hrun₁.append hrun₂) hp hwrote
  obtain ⟨htenant, hagent⟩ := hrace.writerAgent
  rw [htenant, hagent] at hx
  have hinit : StartsWith releaseBuild "acme" "writer"
      (blankStore none releaseBuild "acme" "writer") (blankState "acme" "writer")
      (blankMemory "acme" "writer") := startsWith_pairStore rfl
  obtain ⟨cp, st, mem, hdec, hst, hmem, -, pre, Q, hpre, hrunQ, hpair⟩ :=
    hall _ _ _ _ P₂ _ _ id hinit holdsPair_pairStore (hrun₁.append hrun₂) hx rfl
  have hcp : cp = i.frozenCheckpoint releaseBuild c₁ c₂ (secondsOf c₃) c₄ :=
    Except.ok.inj (hdec.symm.trans (releaseBuild.checkpoint.decode_encodeToVec _))
  subst hcp
  cases hst
  cases hmem
  obtain ⟨v, hv, -⟩ := hinit.stateRecord
  refine hrace.not_holdsPair hrun₁ ?_ (run_journaled hv.journaled hrunQ) hpair
  rcases Run.moment hrun₁ hrun₂ hpre hrunQ with hbefore | ⟨⟨post, hafter⟩, ⟨post', hend⟩⟩
  · exact .inl hbefore
  · -- No memory write comes after the race.
    right
    have hlater : P₁.shared.Later Q.shared := run_later hafter
    have hle := (hlater.history (workingMemoryKey "acme" "writer")).length_le
    have hsuffix := (run_later hend).history (workingMemoryKey "acme" "writer")
    rw [hmemory] at hsuffix
    exact ⟨hlater, hsuffix.eq_of_length_le hle⟩

end

end Swarm

end SwarmRuntime.State
