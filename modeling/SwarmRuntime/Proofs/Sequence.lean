import SwarmRuntime.Proofs.Committed
import SwarmRuntime.Proofs.Cycles

/-!
# `SwarmRuntime.Proofs.Sequence`: checkpoint sequence numbers

A freeze takes its sequence number from the clock, in whole seconds, after its state write. Two
freezes can take their numbers in one second, and then the second one overwrites the checkpoint
of the first. A freeze can also take its number after a freeze that was committed later has taken
its own (`not_sequenced`).

The numbers identify and order the freezes as long as the freezes take turns: each one reads the
clock for its checkpoint before a later freeze does, and in a second of its own (`InTurn`,
`sequenced_of_inTurn`). Once every freeze has returned, the condition is also necessary
(`inTurn_of_sequenced`).

* `Before`: the order of the state writes.
* `run_ordered`: the numbers follow this order.
* `run_owned`: the checkpoint of a number is the one of the freeze that has taken it.
-/

set_option autoImplicit false

namespace SwarmRuntime.State

open SwarmRuntime.Lib SwarmRuntime.Lib.Interaction

namespace Swarm

variable {M : AgentHydrationManager} {B : Build} {t a : String} {P P' : Swarm} {m : SwarmMove}
  {ok : Swarm → SwarmMove → Prop} {s₀ : Backing Author} {ms : List SwarmMove}
  {state₀ : AgentStateRecord} {mem₀ : WorkingMemoryRecord} {id id' : Nat} {i i' : FreezeInput}
  {n n' : UInt64} {c : Duration}

/-! ### Freezes and their numbers -/

/-- The moves of clients that freeze the agent with what they have hydrated. The clock is past the
epoch and never goes backward, and each checkpoint write succeeds. -/
structure SteadyFreezes (t a : String) (P : Swarm) (m : SwarmMove) : Prop
    extends FreezesInputs t a P m where
  clock : ∀ id w, m = .serve id w → P.pending id = some .now → w.clock.isSome ∧
    ∀ id' p c, P.procs id' = some p → ⟨.now, c⟩ ∈ p.transcript →
      secondsOf c ≤ secondsOf w.clock
  written : ∀ id w n value etag ttl, m = .serve id w →
    P.pending id = some (.set (checkpointKey t a n) value etag ttl) → w.fault = none

/-- The freeze `id` of the agent has returned `Ok(n)`. -/
def Returned (t a : String) (P : Swarm) (id : Nat) (i : FreezeInput) (n : UInt64) : Prop :=
  ∃ p, P.procs id = some p ∧ p.request = .freeze i ∧
    keyRoot i.tenantId i.agentId = keyRoot t a ∧ p.rest = done (.frozen (.ok n))

/-- The freeze `id` of the agent has read the clock for its checkpoint, and its number is `n`. -/
def TookSeq (B : Build) (t a : String) (P : Swarm) (id : Nat) (i : FreezeInput) (n : UInt64) :
    Prop :=
  ∃ p c₁ c₂ c₃ e₁ e₂ tail, P.procs id = some p ∧ p.request = .freeze i ∧
    keyRoot i.tenantId i.agentId = keyRoot t a ∧ secondsOf c₃ = n ∧
    p.transcript = [⟨.now, c₁⟩, ⟨i.memoryWrite B c₁, .ok e₁⟩, ⟨.now, c₂⟩,
      ⟨i.stateWrite B c₁ c₂, .ok e₂⟩, ⟨.now, c₃⟩] ++ tail

/-- The freeze `id` of the agent is about to read the clock for its checkpoint. -/
def AtSeq (B : Build) (t a : String) (P : Swarm) (id : Nat) (i : FreezeInput) : Prop :=
  ∃ c₁ c₂ e₁ e₂ next, keyRoot i.tenantId i.agentId = keyRoot t a ∧
    P.procs id = some ⟨.freeze i, [⟨.now, c₁⟩, ⟨i.memoryWrite B c₁, .ok e₁⟩, ⟨.now, c₂⟩,
      ⟨i.stateWrite B c₁ c₂, .ok e₂⟩], ask Call.now next, false⟩

/-- The state record of `id'` was written before the one of `id`. -/
def Before (t a : String) (s : Backing Author) (id' id : Nat) : Prop :=
  ∃ x' x, x'.author = some id' ∧ x.author = some id ∧
    [x, x'].Sublist (s.history (agentStateKey t a))

/-- The numbers of the freezes that have returned identify and order these freezes. -/
structure Sequenced (t a : String) (P : Swarm) : Prop where
  distinct : ∀ id id' i i' n n', Returned t a P id i n → Returned t a P id' i' n' → id ≠ id' →
    n ≠ n'
  notOverwritten : ∀ n, ∀ x ∈ P.shared.history (checkpointKey t a n), x.author.isSome →
    P.shared.history (checkpointKey t a n) = [x]
  ordered : ∀ id id' i i' n n', Returned t a P id i n → Returned t a P id' i' n' →
    i.workingMemory.version + 1 < i'.workingMemory.version + 1 → n < n'
  newest : ∀ id i n x older, Returned t a P id i n →
    P.shared.history (agentStateKey t a) = x :: older → x.author = some id →
    ∀ id' i' n', Returned t a P id' i' n' → n' ≤ n

/-- In a build that does not check overflow, no freeze of the agent starts from the last
version. -/
def NoWrap (B : Build) (t a : String) (m : SwarmMove) : Prop :=
  ∀ id i, m = .start id (.freeze i) → keyRoot i.tenantId i.agentId = keyRoot t a →
    B.overflowChecks = false → i.Fits

/-- The condition on a move under which the freezes take turns. When a freeze reads the clock for
its checkpoint, each freeze that has done so before was committed before it, in another second,
and no checkpoint of this second is stored. No version wraps. -/
structure InTurn (B : Build) (t a : String) (P : Swarm) (m : SwarmMove) : Prop where
  noWrap : NoWrap B t a m
  unused : ∀ id w i, m = .serve id w → AtSeq B t a P id i →
    P.shared.history (checkpointKey t a (secondsOf w.clock)) = []
  inOrder : ∀ id w i, m = .serve id w → AtSeq B t a P id i → ∀ id' i' n',
    TookSeq B t a P id' i' n' → n' ≠ secondsOf w.clock ∧ Before t a P.shared id' id

/-- What was written before stays so. -/
theorem Before.of_later {s s' : Backing Author} (h : Before t a s id' id) (hlater : s.Later s') :
    Before t a s' id' id := by
  obtain ⟨x', x, hx', hx, hsub⟩ := h
  exact ⟨x', x, hx', hx, hsub.trans (hlater.history _).sublist⟩

/-- A number that is taken stays taken. -/
theorem TookSeq.kept (h : TookSeq B t a P id i n) (hs : step M B P m = some P') :
    TookSeq B t a P' id i n := by
  obtain ⟨p, c₁, c₂, c₃, e₁, e₂, tail, hp, hq, hroot, hn, htr⟩ := h
  obtain ⟨p', hp', hreq, ⟨more, hmore⟩, -⟩ := Pool.step_extends hs id p hp
  refine ⟨p', c₁, c₂, c₃, e₁, e₂, tail ++ more, hp', hreq.trans hq, hroot, hn, ?_⟩
  rw [← hmore, htr, List.append_assoc]

/-- A number that is taken stays taken along a run. -/
theorem TookSeq.kept_run {P₀ : Swarm} (h : TookSeq B t a P₀ id i n)
    (hrun : Run (step M B) ok P₀ ms P) : TookSeq B t a P id i n :=
  hrun.invariant (fun P => TookSeq B t a P id i n) h fun _ _ _ _ _ htook _ hs => htook.kept hs

/-- A freeze that is served the clock takes its number. -/
theorem AtSeq.tookSeq (h : AtSeq B t a P id i) {w : Answer}
    (hs : step M B P (.serve id w) = some P') : TookSeq B t a P' id i (secondsOf w.clock) := by
  obtain ⟨c₁, c₂, e₁, e₂, next, hroot, hp⟩ := h
  obtain ⟨q, tr, c, next', hp', rfl⟩ := Pool.step_serve.mp hs
  rw [hp, Option.some.injEq, Proc.mk.injEq] at hp'
  obtain ⟨rfl, rfl, hask, -⟩ := hp'
  cases hask
  exact ⟨_, c₁, c₂, w.clock, e₁, e₂, [], Pool.procs_setProc_self _ _ _, rfl, hroot, rfl, rfl⟩

/-- A freeze takes one number. -/
theorem TookSeq.unique (h : TookSeq B t a P id i n) (h' : TookSeq B t a P id i' n') :
    i = i' ∧ n = n' := by
  obtain ⟨p, c₁, c₂, c₃, e₁, e₂, tail, hp, hq, -, rfl, htr⟩ := h
  obtain ⟨p', d₁, d₂, d₃, f₁, f₂, tail', hp', hq', -, rfl, htr'⟩ := h'
  rw [hp, Option.some.injEq] at hp'
  subst hp'
  rw [hq, Request.freeze.injEq] at hq'
  -- The clock reading for the checkpoint is the fifth reply of both.
  have hfifth := congrArg (fun tr : Transcript Reply => tr[4]?) (htr.symm.trans htr')
  simp only [List.cons_append, List.getElem?_cons_succ, List.getElem?_cons_zero,
    Option.some.injEq] at hfifth
  cases hfifth
  exact ⟨hq', rfl⟩

/-- A freeze that is about to read the clock has no number yet. -/
theorem AtSeq.not_tookSeq (h : AtSeq B t a P id i) : ¬ TookSeq B t a P id i' n := by
  intro htook
  obtain ⟨c₁, c₂, e₁, e₂, next, -, hp⟩ := h
  obtain ⟨p, c₁', c₂', c₃', e₁', e₂', tail, hp', -, -, -, htr⟩ := htook
  rw [hp, Option.some.injEq] at hp'
  subst hp'
  have hlen := congrArg List.length htr
  simp only [List.length_append, List.length_cons, List.length_nil] at hlen
  omega

/-- A freeze takes its number in one move: it is served the clock. -/
theorem tookSeq_step (hs : step M B P m = some P') (htook : TookSeq B t a P' id i n) :
    TookSeq B t a P id i n ∨
      ∃ w, m = .serve id w ∧ AtSeq B t a P id i ∧ secondsOf w.clock = n ∧
        P'.shared = P.shared := by
  obtain ⟨p, c₁, c₂, c₃, e₁, e₂, tail, hp, hq, hroot, hn, htr⟩ := htook
  obtain hp₀ | ⟨q, -, -, rfl⟩ | ⟨p₀, -, hp₀, rfl⟩ |
    ⟨w, q, tr, c, next, hm, hp₀, rfl, hshared⟩ := Pool.step_procs hs hp
  · exact .inl ⟨p, c₁, c₂, c₃, e₁, e₂, tail, hp₀, hq, hroot, hn, htr⟩
  · cases htr
  · exact .inl ⟨p₀, c₁, c₂, c₃, e₁, e₂, tail, hp₀, hq, hroot, hn, htr⟩
  · have hq : q = .freeze i := hq
    subst hq
    cases tail using List.reverseRecOn with
    | nil =>
      -- The clock reading is the last reply, so this move served it.
      right
      have htr' : tr ++ [⟨c, ((service M B).serve id c w P.shared).1⟩]
          = [⟨.now, c₁⟩, ⟨i.memoryWrite B c₁, .ok e₁⟩, ⟨.now, c₂⟩,
              ⟨i.stateWrite B c₁ c₂, .ok e₂⟩] ++ [⟨.now, c₃⟩] := htr
      obtain ⟨rfl, hlast⟩ := List.append_inj' htr' rfl
      cases hlast
      exact ⟨w, hm, ⟨c₁, c₂, e₁, e₂, next, hroot, hp₀⟩, hn, hshared⟩
    | append_singleton tail x =>
      -- A later reply came in this move.
      left
      have htr' : tr ++ [⟨c, ((service M B).serve id c w P.shared).1⟩]
          = ([⟨.now, c₁⟩, ⟨i.memoryWrite B c₁, .ok e₁⟩, ⟨.now, c₂⟩,
              ⟨i.stateWrite B c₁ c₂, .ok e₂⟩, ⟨.now, c₃⟩] ++ tail) ++ [x] := by
        rw [List.append_assoc]
        exact htr
      obtain ⟨rfl, -⟩ := List.append_inj' htr' rfl
      exact ⟨_, c₁, c₂, c₃, e₁, e₂, tail, hp₀, rfl, hroot, hn, rfl⟩

/-! ### Runs in which the freezes take turns -/

/-- The moves of steady freezes that take turns. -/
abbrev SteadyInTurn (B : Build) (t a : String) (P : Swarm) (m : SwarmMove) : Prop :=
  SteadyFreezes t a P m ∧ InTurn B t a P m

/-- The moves of steady freezes whose versions do not wrap. -/
abbrev SteadyNoWrap (B : Build) (t a : String) (P : Swarm) (m : SwarmMove) : Prop :=
  SteadyFreezes t a P m ∧ NoWrap B t a m

theorem run_noWrap (h : Run (step M B) (SteadyInTurn B t a) (start s₀) ms P) :
    Run (step M B) (SteadyNoWrap B t a) (start s₀) ms P :=
  h.mono fun _ _ _ _ hok => ⟨hok.1, hok.2.noWrap⟩

/-- The versions of the state records increase with time. -/
theorem state_versions {xs ys : List (Entry String Bytes ETag Author)}
    (haligned : List.Forall₂ (Paired B) xs ys)
    (h : ys.Pairwise fun x y => memVersionOf B y < memVersionOf B x) :
    xs.Pairwise fun x y => stateVersionOf B y < stateVersionOf B x := by
  induction haligned with
  | nil => exact .nil
  | @cons x y xs ys hpaired hrest ih =>
    obtain ⟨hy, hys⟩ := List.pairwise_cons.mp h
    refine List.pairwise_cons.mpr ⟨?_, ih hys⟩
    intro x' hx'
    obtain ⟨y', hy', hpaired'⟩ := exists_right_of_forall₂ hrest hx'
    rw [hpaired.version, hpaired'.version]
    exact hy y' hy'

/-- In every run of clients whose versions do not wrap, the versions of the state records
increase. -/
theorem run_state_versions (hinit : StartsWith B t a s₀ state₀ mem₀)
    (h : Run (step M B) (SteadyNoWrap B t a) (start s₀) ms P) :
    (P.shared.history (agentStateKey t a)).Pairwise fun x y =>
      stateVersionOf B y < stateVersionOf B x := by
  have hinputs : Run (step M B) (FreezesInputs t a) (start s₀) ms P :=
    h.mono fun _ _ _ _ hok => hok.1.toFreezesInputs
  have hreads : Run (step M B) (ReadsFirst B t a) (start s₀) ms P :=
    run_readsFirst_of_inputs (fun _ _ hok => hok.1.toFreezesInputs)
      (fun _ id i hok => hok.2 id i rfl) h
  have hversions : MemoryVersions B t a P.shared := run_memory_versions hinit hreads
  cases run_phase hinit hinputs hversions.distinct with
  | idle haligned => exact state_versions haligned hversions
  | busy y y₀ older hhist haligned =>
    unfold MemoryVersions at hversions
    rw [hhist] at hversions
    exact state_versions haligned hversions.of_cons

/-- The state record of a freeze has the version after the one of its input. -/
theorem version_of_author (hinit : StartsWith B t a s₀ state₀ mem₀)
    (h : Run (step M B) ok (start s₀) ms P) {x : Entry String Bytes ETag Author}
    (hx : x ∈ P.shared.history (agentStateKey t a)) (hauthor : x.author = some id)
    {p : Proc Reply Request Response} (hp : P.procs id = some p) (hq : p.request = .freeze i) :
    stateVersionOf B x = (i.workingMemory.version + 1).toNat := by
  obtain ⟨p', etag, ttl, hp', hmem⟩ := run_wrote hinit.unauthored h hx hauthor
  rw [hp, Option.some.injEq] at hp'
  subst hp'
  obtain ⟨i', c₁, c₂, e₁, hq', -, -, hvalue, -⟩ := run_stateWrites h hp hmem
  rw [hq, Request.freeze.injEq] at hq'
  subst hq'
  have hdec : B.state.decode x.value = .ok (i.frozenState B c₁ c₂) := by
    rw [hvalue]
    exact B.state.decode_encodeToVec _
  rw [stateVersionOf_eq hdec, FreezeInput.frozenState_workingMemoryVersion]

/-- The freeze that was committed before another one has the smaller version. -/
theorem Before.version_lt (h : Before t a P.shared id' id)
    (hinit : StartsWith B t a s₀ state₀ mem₀)
    (hrun : Run (step M B) (SteadyNoWrap B t a) (start s₀) ms P)
    {p p' : Proc Reply Request Response} (hp : P.procs id = some p)
    (hq : p.request = .freeze i) (hp' : P.procs id' = some p') (hq' : p'.request = .freeze i') :
    i'.workingMemory.version + 1 < i.workingMemory.version + 1 := by
  obtain ⟨x', x, hx', hx, hsub⟩ := h
  have hlt : stateVersionOf B x' < stateVersionOf B x :=
    List.pairwise_iff_forall_sublist.mp (run_state_versions hinit hrun) hsub
  rw [version_of_author hinit hrun (hsub.subset (by simp)) hx' hp' hq',
    version_of_author hinit hrun (hsub.subset (by simp)) hx hp hq] at hlt
  exact hlt

/-! ### The order of the numbers -/

/-- The numbers follow the order of the state writes. -/
def Ordered (B : Build) (t a : String) (P : Swarm) : Prop :=
  ∀ id id' i i' n n', TookSeq B t a P id i n → TookSeq B t a P id' i' n' → id ≠ id' →
    (n' < n ∧ Before t a P.shared id' id) ∨ (n < n' ∧ Before t a P.shared id id')

/-- No number that is taken is greater than the one that a freeze takes now. -/
theorem SteadyFreezes.seq_le (hok : SteadyFreezes t a P m) {w : Answer} (hm : m = .serve id w)
    (hseq : AtSeq B t a P id i) (htook : TookSeq B t a P id' i' n') :
    n' ≤ secondsOf w.clock := by
  obtain ⟨p, c₁, c₂, c₃, e₁, e₂, tail, hp, -, -, hn, htr⟩ := htook
  have hpending : P.pending id = some .now := by
    obtain ⟨d₁, d₂, f₁, f₂, next, -, hp⟩ := hseq
    rw [Swarm.pending, hp]
  rw [← hn]
  exact (hok.clock id w hm hpending).2 id' p c₃ hp (by simp [htr])

/-- A freeze that takes its number in turn takes a greater one than each freeze before it. -/
theorem InTurn.seq_lt (hturn : InTurn B t a P m) (hok : SteadyFreezes t a P m) {w : Answer}
    (hm : m = .serve id w) (hseq : AtSeq B t a P id i) (htook : TookSeq B t a P id' i' n') :
    n' < secondsOf w.clock ∧ Before t a P.shared id' id := by
  obtain ⟨hne, hbefore⟩ := hturn.inOrder id w i hm hseq id' i' n' htook
  exact ⟨UInt64.lt_of_le_of_ne (hok.seq_le hm hseq htook) hne, hbefore⟩

/-- When the freezes take turns, the numbers follow the order of the state writes. -/
theorem run_ordered (h : Run (step M B) (SteadyInTurn B t a) (start s₀) ms P) :
    Ordered B t a P := by
  refine h.invariant (Ordered B t a) ?_ ?_
  · intro id id' i i' n n' htook
    obtain ⟨p, -, -, -, -, -, -, hp, -⟩ := htook
    cases hp
  · intro ms P m P' hr hP hok hs id id' i i' n n' htook htook' hne
    have hlater : P.shared.Later P'.shared := step_later hs
    rcases tookSeq_step hs htook with hold | ⟨w, hm, hseq, rfl, -⟩
    · rcases tookSeq_step hs htook' with hold' | ⟨w', hm', hseq', rfl, -⟩
      · -- Both numbers were taken before.
        rcases hP id id' i i' n n' hold hold' hne with ⟨hlt, hbefore⟩ | ⟨hlt, hbefore⟩
        · exact .inl ⟨hlt, hbefore.of_later hlater⟩
        · exact .inr ⟨hlt, hbefore.of_later hlater⟩
      · obtain ⟨hlt, hbefore⟩ := hok.2.seq_lt hok.1 hm' hseq' hold
        exact .inr ⟨hlt, hbefore.of_later hlater⟩
    · rcases tookSeq_step hs htook' with hold' | ⟨w', hm', -⟩
      · obtain ⟨hlt, hbefore⟩ := hok.2.seq_lt hok.1 hm hseq hold'
        exact .inl ⟨hlt, hbefore.of_later hlater⟩
      · -- One move serves one client.
        rw [hm, Move.serve.injEq] at hm'
        exact absurd hm'.1 hne

/-- Two freezes with one number are one freeze. -/
theorem Ordered.eq_of_seq (h : Ordered B t a P) (htook : TookSeq B t a P id i n)
    (htook' : TookSeq B t a P id' i' n) : id = id' := by
  by_contra hne
  rcases h id id' i i' n n htook htook' hne with ⟨hlt, -⟩ | ⟨hlt, -⟩
  · exact UInt64.lt_irrefl n hlt
  · exact UInt64.lt_irrefl n hlt

/-! ### The checkpoint of a number -/

/-- Under the key of a number that is taken stands no checkpoint, or one, and it is of the freeze
that has taken the number. -/
def Owned (B : Build) (t a : String) (P : Swarm) : Prop :=
  ∀ id i n, TookSeq B t a P id i n → P.shared.history (checkpointKey t a n) = [] ∨
    ∃ x, P.shared.history (checkpointKey t a n) = [x] ∧ x.author = some id

/-- A client that writes a checkpoint has taken the number of the checkpoint, and has not written
it before. -/
theorem Wrote.tookSeq {q : Request} {tr : Transcript Reply} {value : Bytes}
    {etag : Option ETag} {ttl : TtlPolicy} {w : Answer}
    (hw : Wrote P P' m id q tr (checkpointKey t a n) value etag ttl w)
    (hinit : StartsWith B t a s₀ state₀ mem₀) (h : Run (step M B) ok (start s₀) ms P) :
    (∃ i, TookSeq B t a P id i n) ∧
      ∀ x ∈ P.shared.history (checkpointKey t a n), x.author ≠ some id := by
  obtain ⟨next, hp⟩ := hw.before
  obtain ⟨i, rfl, hwrite⟩ := write_cases h hp
  have hnone : ∀ x ∈ P.shared.history (checkpointKey t a n), x.author ≠ some id :=
    run_not_author hinit.unauthored h hp fun _ _ _ _ => hwrite.not_written
  obtain ⟨hroot, c₁, c₂, c₃, c₄, e₁, e₂, hn, rfl, -⟩ := hwrite.eq_checkpoint rfl
  exact ⟨⟨i, _, c₁, c₂, c₃, e₁, e₂, [⟨.now, c₄⟩], hp, rfl, hroot, hn, rfl⟩, hnone⟩

/-- When the freezes take turns, each checkpoint of the run is alone under its key. -/
theorem run_owned (hinit : StartsWith B t a s₀ state₀ mem₀)
    (h : Run (step M B) (SteadyInTurn B t a) (start s₀) ms P) : Owned B t a P := by
  refine h.invariant (Owned B t a) ?_ ?_
  · intro id i n htook
    obtain ⟨p, -, -, -, -, -, -, hp, -⟩ := htook
    cases hp
  · intro ms P m P' hr hP hok hs id i n htook
    rcases tookSeq_step hs htook with hold | ⟨w, hm, hseq, rfl, hshared⟩
    · obtain ⟨k, htick, -⟩ | ⟨id', q, tr, key, value, etag, ttl, w, hw⟩ := step_cases hs
      · rw [htick]
        exact hP id i n hold
      · by_cases hkey : key = checkpointKey t a n
        · -- The number names the client that writes, and it writes once.
          subst hkey
          obtain ⟨⟨i', htook'⟩, hnone⟩ := hw.tookSeq hinit hr
          have hid : id' = id := (run_ordered hr).eq_of_seq htook' hold
          subst hid
          rcases hP id' i n hold with hnil | ⟨x, hx, hauthor⟩
          · exact .inr ⟨_, by rw [hw.history_self, hnil], rfl⟩
          · exact absurd hauthor (hnone x (by simp [hx]))
        · rw [hw.history_of_ne (Ne.symm hkey)]
          exact hP id i n hold
    · left
      rw [hshared]
      exact hok.2.unused id w i hm hseq

/-! ### Freezes that have returned -/

/-- A freeze that has returned its number has taken it, and it has written a checkpoint under
it. -/
theorem Returned.tookSeq (hret : Returned t a P id i n)
    (hok : ∀ P m, ok P m → SteadyFreezes t a P m) (h : Run (step M B) ok (start s₀) ms P) :
    TookSeq B t a P id i n ∧
      ∃ x ∈ P.shared.history (checkpointKey t a n), x.author = some id := by
  obtain ⟨p, hp, hq, hroot, hdone⟩ := hret
  have htrace := frozen_trace h hp hq hdone
  generalize htr : p.transcript = tr at htrace
  cases freeze_stage htrace with
  | returned c₁ c₂ c₃ c₄ e₁ e₂ r seq hseq =>
    have hkey : checkpointKey i.tenantId i.agentId (secondsOf c₃)
        = checkpointKey t a (secondsOf c₃) := checkpointKey_eq_iff.mpr ⟨hroot, rfl⟩
    -- The checkpoint write was served, and it did not fail.
    have hsplit : p.transcript = [⟨.now, c₁⟩, ⟨i.memoryWrite B c₁, .ok e₁⟩, ⟨.now, c₂⟩,
        ⟨i.stateWrite B c₁ c₂, .ok e₂⟩, ⟨.now, c₃⟩, ⟨.now, c₄⟩] ++
          ⟨i.checkpointWrite B c₁ c₂ c₃ c₄, r⟩ :: [] := htr
    obtain ⟨pre, w, post, P₁, P₂, next, -, -, hok₁, -, -, hp₁, hreply⟩ :=
      Pool.run_served h (fun _ hp => by cases hp) hp hsplit
    have hpending : Swarm.pending P₁ id = some (.set (checkpointKey t a (secondsOf c₃))
        (B.checkpoint.encodeToVec (i.frozenCheckpoint B c₁ c₂ (secondsOf c₃) c₄)) none .none) := by
      rw [Swarm.pending, hp₁, ← hkey]
    have hfault : w.fault = none := (hok _ _ hok₁).written id w _ _ _ _ rfl hpending
    have hserve : (serve (some id) (i.checkpointWrite B c₁ c₂ c₃ c₄) w P₁.shared).1
        = .ok w.etag := by
      rw [serve_set_of_accepts hfault rfl]
    have hr : r = .ok w.etag := hreply.trans hserve
    subst hr
    have hn : n = secondsOf c₃ := hseq
    refine ⟨⟨p, c₁, c₂, c₃, e₁, e₂, _, hp, hq, hroot, hn.symm, htr⟩, ?_⟩
    have hmem : ⟨i.checkpointWrite B c₁ c₂ c₃ c₄, .ok w.etag⟩ ∈ p.transcript := by simp [htr]
    have hx := run_written h hp hmem
    rw [hkey, ← hn] at hx
    exact ⟨_, hx, rfl⟩

/-- The author of a checkpoint has taken the number of the checkpoint. -/
theorem run_checkpoint_tookSeq (hinit : StartsWith B t a s₀ state₀ mem₀)
    (h : Run (step M B) ok (start s₀) ms P) {x : Entry String Bytes ETag Author}
    (hx : x ∈ P.shared.history (checkpointKey t a n)) (hauthor : x.author = some id) :
    ∃ i, TookSeq B t a P id i n := by
  obtain ⟨p, etag, ttl, hp, hmem⟩ := run_wrote hinit.unauthored h hx hauthor
  obtain ⟨i, c₁, c₂, c₃, c₄, e₁, e₂, tail, hq, hroot, hn, -, htr⟩ := run_checkpointWrites h hp hmem
  exact ⟨i, p, c₁, c₂, c₃, e₁, e₂, tail, hp, hq, hroot, hn, htr⟩

/-- No freeze was committed after the one that wrote the newest state record. -/
theorem not_before_of_newest (hinit : StartsWith B t a s₀ state₀ mem₀)
    (h : Run (step M B) (SteadyNoWrap B t a) (start s₀) ms P)
    {x : Entry String Bytes ETag Author} {older : List (Entry String Bytes ETag Author)}
    (hhist : P.shared.history (agentStateKey t a) = x :: older) (hauthor : x.author = some id)
    {p : Proc Reply Request Response} (hp : P.procs id = some p) (hq : p.request = .freeze i) :
    ¬ Before t a P.shared id id' := by
  intro hbefore
  obtain ⟨y, y', hy, -, hsub⟩ := hbefore
  have hversions := run_state_versions hinit h
  rw [hhist] at hsub hversions
  -- The record of `id` that is older than another one is not the newest one.
  have holder : y ∈ older := hsub.tail.subset (by simp)
  have hlt : stateVersionOf B y < stateVersionOf B x := List.rel_of_pairwise_cons hversions holder
  rw [version_of_author hinit h (by simp [hhist, holder]) hy hp hq,
    version_of_author hinit h (by simp [hhist]) hauthor hp hq] at hlt
  exact Nat.lt_irrefl _ hlt

/-- A freeze returns one number. -/
theorem Returned.unique (h : Returned t a P id i n) (h' : Returned t a P id i' n') :
    i = i' ∧ n = n' := by
  obtain ⟨p, hp, hq, -, hdone⟩ := h
  obtain ⟨p', hp', hq', -, hdone'⟩ := h'
  rw [hp, Option.some.injEq] at hp'
  subst hp'
  rw [hq, Request.freeze.injEq] at hq'
  rw [hdone] at hdone'
  cases hdone'
  exact ⟨hq', rfl⟩

/-- When the freezes take turns, the numbers that they return follow the order of their state
writes. -/
theorem Returned.ordered (hret : Returned t a P id i n) (hret' : Returned t a P id' i' n')
    (h : Run (step M B) (SteadyInTurn B t a) (start s₀) ms P) (hne : id ≠ id') :
    (n' < n ∧ Before t a P.shared id' id) ∨ (n < n' ∧ Before t a P.shared id id') :=
  run_ordered h id id' i i' n n' (hret.tookSeq (fun _ _ hok => hok.1) h).1
    (hret'.tookSeq (fun _ _ hok => hok.1) h).1 hne

/-- When the freezes take turns, no checkpoint of the run is overwritten, and none overwrites
another one. -/
theorem run_not_overwritten (hinit : StartsWith B t a s₀ state₀ mem₀)
    (h : Run (step M B) (SteadyInTurn B t a) (start s₀) ms P)
    {x : Entry String Bytes ETag Author} (hx : x ∈ P.shared.history (checkpointKey t a n))
    (hauthor : x.author = some id) : P.shared.history (checkpointKey t a n) = [x] := by
  obtain ⟨i, htook⟩ := run_checkpoint_tookSeq hinit h hx hauthor
  rcases run_owned hinit h id i n htook with hnil | ⟨y, hy, -⟩
  · rw [hnil] at hx
    cases hx
  · rw [hy, List.mem_singleton] at hx
    rw [hy, hx]

/-- When the freezes take turns, their numbers identify and order them: distinct freezes return
distinct numbers, no checkpoint is overwritten, a greater version has a greater number, and the
newest state record has the greatest number. -/
theorem sequenced_of_inTurn (hinit : StartsWith B t a s₀ state₀ mem₀)
    (h : Run (step M B) (fun P m => SteadyFreezes t a P m ∧ InTurn B t a P m) (start s₀) ms P) :
    Sequenced t a P where
  distinct := by
    intro id id' i i' n n' hret hret' hne
    rcases hret.ordered hret' h hne with ⟨hlt, -⟩ | ⟨hlt, -⟩
    · exact (UInt64.ne_of_lt hlt).symm
    · exact UInt64.ne_of_lt hlt
  notOverwritten := by
    intro n x hx hauthor
    obtain ⟨id, hid⟩ := Option.isSome_iff_exists.mp hauthor
    exact run_not_overwritten hinit h hx hid
  ordered := by
    intro id id' i i' n n' hret hret' hlt
    have hne : id ≠ id' := by
      intro heq
      subst heq
      rw [(hret.unique hret').1] at hlt
      exact UInt64.lt_irrefl _ hlt
    rcases hret.ordered hret' h hne with ⟨-, hbefore⟩ | ⟨hlt', -⟩
    · -- The freeze that was committed first has the smaller version.
      obtain ⟨p, hp, hq, -⟩ := hret
      obtain ⟨p', hp', hq', -⟩ := hret'
      exact absurd (hbefore.version_lt hinit (run_noWrap h) hp hq hp' hq') (UInt64.lt_asymm hlt)
    · exact hlt'
  newest := by
    intro id i n x older hret hhist hauthor id' i' n' hret'
    by_cases heq : id = id'
    · subst heq
      rw [(hret.unique hret').2]
      exact UInt64.le_refl n'
    · rcases hret.ordered hret' h heq with ⟨hlt, -⟩ | ⟨-, hbefore⟩
      · exact UInt64.le_of_lt hlt
      · obtain ⟨p, hp, hq, -⟩ := hret
        exact absurd hbefore (not_before_of_newest hinit (run_noWrap h) hhist hauthor hp hq)

/-! ### The condition is necessary -/

/-- Of two elements of a list, one comes first. -/
theorem pair_sublist_or {α : Type} {l : List α} {x y : α} (hx : x ∈ l) (hy : y ∈ l)
    (hne : x ≠ y) : [x, y].Sublist l ∨ [y, x].Sublist l := by
  obtain ⟨l₁, l₂, rfl⟩ := List.append_of_mem hx
  rw [List.mem_append, List.mem_cons] at hy
  rcases hy with hy | rfl | hy
  · right
    exact (List.singleton_sublist.mpr hy).append (List.singleton_sublist.mpr List.mem_cons_self)
  · exact absurd rfl hne
  · left
    exact ((List.singleton_sublist.mpr hy).cons_cons x).trans (List.sublist_append_right l₁ _)

/-- The state record of a freeze that has written it. -/
theorem exists_state_entry (h : Run (step M B) ok (start s₀) ms P)
    {p : Proc Reply Request Response} (hp : P.procs id = some p)
    (hroot : keyRoot i.tenantId i.agentId = keyRoot t a) {c₁ c₂ : Option Duration} {e : ETag}
    (hmem : ⟨i.stateWrite B c₁ c₂, .ok e⟩ ∈ p.transcript) :
    ∃ x ∈ P.shared.history (agentStateKey t a), x.author = some id := by
  have hx := run_written h hp hmem
  rw [(agentStateKey_eq_iff _ _ _ _).mpr hroot] at hx
  exact ⟨_, hx, rfl⟩

/-- When a freeze reads the clock for its checkpoint, it has been committed, before or after each
freeze that has its number. -/
theorem AtSeq.before_or (hat : AtSeq B t a P id i) (h : Run (step M B) ok (start s₀) ms P)
    (htook : TookSeq B t a P id' i' n') :
    Before t a P.shared id' id ∨ Before t a P.shared id id' := by
  have hne : id ≠ id' := by
    intro heq
    subst heq
    exact hat.not_tookSeq htook
  obtain ⟨c₁, c₂, e₁, e₂, next, hroot, hp⟩ := hat
  obtain ⟨p', d₁, d₂, d₃, f₁, f₂, tail, hp', -, hroot', -, htr⟩ := htook
  have hmem : ⟨i.stateWrite B c₁ c₂, .ok e₂⟩ ∈ ([⟨.now, c₁⟩, ⟨i.memoryWrite B c₁, .ok e₁⟩,
      ⟨.now, c₂⟩, ⟨i.stateWrite B c₁ c₂, .ok e₂⟩] : Transcript Reply) := by simp
  have hmem' : ⟨i'.stateWrite B d₁ d₂, .ok f₂⟩ ∈ p'.transcript := by simp [htr]
  obtain ⟨x, hx, hauthor⟩ := exists_state_entry h hp hroot hmem
  obtain ⟨x', hx', hauthor'⟩ := exists_state_entry h hp' hroot' hmem'
  have hxx : x ≠ x' := by
    intro heq
    rw [heq, hauthor', Option.some.injEq] at hauthor
    exact hne hauthor.symm
  rcases pair_sublist_or hx hx' hxx with hsub | hsub
  · exact .inl ⟨x', x, hauthor', hauthor, hsub⟩
  · exact .inr ⟨x, x', hauthor, hauthor', hsub⟩

/-- The numbers that are taken are distinct, and a greater version has a greater number. -/
def Numbered (B : Build) (t a : String) (P : Swarm) : Prop :=
  ∀ id id' i i' n n', TookSeq B t a P id i n → TookSeq B t a P id' i' n' → id ≠ id' →
    n ≠ n' ∧ (i.workingMemory.version + 1 < i'.workingMemory.version + 1 → n < n')

/-- Where the numbers at the end are distinct and follow the versions, a freeze that reads the
clock takes a number that no freeze has, and each freeze with a number was committed before it.
The clock has not gone backward, so a freeze that was committed later has no number yet. -/
theorem Numbered.inOrder {P₁ P₂ : Swarm} {pre post : List SwarmMove} {w : Answer}
    (hnum : Numbered B t a P) (hinit : StartsWith B t a s₀ state₀ mem₀)
    (h : Run (step M B) (SteadyNoWrap B t a) (start s₀) ms P)
    (hpre : Run (step M B) (SteadyNoWrap B t a) (start s₀) pre P₁)
    (hok : SteadyFreezes t a P₁ (.serve id w)) (hs : step M B P₁ (.serve id w) = some P₂)
    (hpost : Run (step M B) ok P₂ post P) (hat : AtSeq B t a P₁ id i)
    (htook' : TookSeq B t a P₁ id' i' n') :
    n' ≠ secondsOf w.clock ∧ Before t a P₁.shared id' id := by
  have hle : n' ≤ secondsOf w.clock := hok.seq_le rfl hat htook'
  have hne : id' ≠ id := by
    intro heq
    subst heq
    exact hat.not_tookSeq htook'
  have hend : TookSeq B t a P id i (secondsOf w.clock) := (hat.tookSeq hs).kept_run hpost
  have hend' : TookSeq B t a P id' i' n' := (htook'.kept hs).kept_run hpost
  refine ⟨(hnum id' id i' i n' _ hend' hend hne).1, ?_⟩
  rcases hat.before_or hpre htook' with hbefore | hbefore
  · exact hbefore
  · -- A freeze that was committed later has a greater version, so it has a greater number.
    have hlater : P₁.shared.Later P.shared := (step_later hs).trans (run_later hpost)
    have hlt : i.workingMemory.version + 1 < i'.workingMemory.version + 1 := by
      obtain ⟨p, -, -, -, -, -, -, hp, hq, -⟩ := hend
      obtain ⟨p', -, -, -, -, -, -, hp', hq', -⟩ := hend'
      exact (hbefore.of_later hlater).version_lt hinit h hp' hq' hp hq
    have hseqlt : secondsOf w.clock < n' := (hnum id id' i i' _ n' hend hend' hne.symm).2 hlt
    exact absurd hle (UInt64.not_le.mpr hseqlt)

/-- When every freeze that has taken a number has returned it, and the numbers identify and order
the freezes, then the freezes have taken turns. -/
theorem inTurn_of_sequenced (hinit : StartsWith B t a s₀ state₀ mem₀)
    (h : Run (step M B) (SteadyNoWrap B t a) (start s₀) ms P)
    (hreturned : ∀ id i n, TookSeq B t a P id i n → Returned t a P id i n)
    (hseq : Sequenced t a P) :
    Run (step M B) (SteadyInTurn B t a) (start s₀) ms P := by
  have hnum : Numbered B t a P := by
    intro id id' i i' n n' htook htook' hne
    have hret := hreturned id i n htook
    have hret' := hreturned id' i' n' htook'
    exact ⟨hseq.distinct id id' i i' n n' hret hret' hne, hseq.ordered id id' i i' n n' hret hret'⟩
  refine h.mono_split ?_
  intro pre P₁ m P₂ post hpre hok hs hpost
  refine ⟨hok.1, hok.2, ?_, ?_⟩
  · show ∀ id w i, m = .serve id w → AtSeq B t a P₁ id i →
      P₁.shared.history (checkpointKey t a (secondsOf w.clock)) = []
    intro id w i hm hat
    subst hm
    -- At the end the checkpoint of this freeze is the only one, and it is not written yet.
    have hret : Returned t a P id i (secondsOf w.clock) :=
      hreturned _ _ _ ((hat.tookSeq hs).kept_run hpost)
    obtain ⟨x, hx, hauthor⟩ := (hret.tookSeq (fun _ _ hok => hok.1) h).2
    have hall := hseq.notOverwritten _ x hx (by simp [hauthor])
    have hlater : P₁.shared.Later P.shared := (step_later hs).trans (run_later hpost)
    have hsuffix := hlater.history (checkpointKey t a (secondsOf w.clock))
    rw [hall, List.suffix_cons_iff, List.suffix_nil] at hsuffix
    rcases hsuffix with hsame | hnil
    · have hx₁ : x ∈ P₁.shared.history (checkpointKey t a (secondsOf w.clock)) := by simp [hsame]
      obtain ⟨i', htook⟩ := run_checkpoint_tookSeq hinit hpre hx₁ hauthor
      exact absurd htook hat.not_tookSeq
    · exact hnil
  · show ∀ id w i, m = .serve id w → AtSeq B t a P₁ id i → ∀ id' i' n',
      TookSeq B t a P₁ id' i' n' → n' ≠ secondsOf w.clock ∧ Before t a P₁.shared id' id
    intro id w i hm hat id' i' n' htook'
    subst hm
    exact hnum.inOrder hinit h hpre hok.1 hs hpost hat htook'

/-- When there is no checkpoint at the start, and the numbers that are taken at the end are
distinct and follow the versions, then the freezes have taken turns. -/
theorem inTurn_of_numbered (hinit : StartsWith B t a s₀ state₀ mem₀)
    (hempty : ∀ n, s₀.history (checkpointKey t a n) = [])
    (h : Run (step M B) (SteadyNoWrap B t a) (start s₀) ms P) (hnum : Numbered B t a P) :
    Run (step M B) (SteadyInTurn B t a) (start s₀) ms P := by
  refine h.mono_split ?_
  intro pre P₁ m P₂ post hpre hok hs hpost
  refine ⟨hok.1, hok.2, ?_, ?_⟩
  · show ∀ id w i, m = .serve id w → AtSeq B t a P₁ id i →
      P₁.shared.history (checkpointKey t a (secondsOf w.clock)) = []
    intro id w i hm hat
    subst hm
    refine List.eq_nil_iff_forall_not_mem.mpr ?_
    intro x hx
    cases hauthor : x.author with
    | none =>
      have hx₀ := run_unauthored hpre hx hauthor
      rw [hempty] at hx₀
      cases hx₀
    | some author =>
      -- Its author has the number that this freeze takes now.
      obtain ⟨i', htook⟩ := run_checkpoint_tookSeq hinit hpre hx hauthor
      exact (hnum.inOrder hinit h hpre hok.1 hs hpost hat htook).1 rfl
  · show ∀ id w i, m = .serve id w → AtSeq B t a P₁ id i → ∀ id' i' n',
      TookSeq B t a P₁ id' i' n' → n' ≠ secondsOf w.clock ∧ Before t a P₁.shared id' id
    intro id w i hm hat id' i' n' htook'
    subst hm
    exact hnum.inOrder hinit h hpre hok.1 hs hpost hat htook'

/-! ### Runs with a given clock -/

/-- The moves of clients that freeze what they have hydrated, when no call fails and all clocks
show the second `c`. -/
structure SameSecond (c : Duration) (t a : String) (P : Swarm) (m : SwarmMove) : Prop
    extends FreezesInputs t a P m where
  answers : ∀ id w, m = .serve id w → ∃ tag, w = answerAt c tag

theorem admitsAnswers_sameSecond : AdmitsAnswersAt c (SameSecond c t a) := by
  intro P id tag hfresh
  refine ⟨(admitsSmooth_freezesHydrated P id (answerAt c tag) rfl hfresh).toFreezesInputs, ?_⟩
  intro id' w hm
  cases hm
  exact ⟨tag, rfl⟩

/-- A start is admitted when its input comes from a hydrate. -/
theorem sameSecond_start {q : Request} (hfrom : ∀ i, q = .freeze i → ∃ r, AfterHydrate P i r) :
    SameSecond c t a P (.start id q) := by
  refine ⟨(freezesHydrated_start hfrom).toFreezesInputs, ?_⟩
  intro id' w hm
  cases hm

/-- No clock reading of a client is later than the second `n`. -/
def ReadsUpTo (n : UInt64) (P : Swarm) : Prop :=
  ∀ id p c, P.procs id = some p → ⟨.now, c⟩ ∈ p.transcript → secondsOf c ≤ n

/-- While the clock shows `c`, no client reads a later second. -/
theorem run_readsUpTo (hreads : ReadsUpTo (secondsOf (some c)) P)
    (h : Run (step M B) (SameSecond c t a) P ms P') : ReadsUpTo (secondsOf (some c)) P' := by
  refine h.invariant (ReadsUpTo (secondsOf (some c))) hreads ?_
  intro ms P m P' _ hP hok hs id p d hp hd
  obtain hp₀ | ⟨q, -, -, rfl⟩ | ⟨p₀, -, hp₀, rfl⟩ |
    ⟨w, q, tr, call, next, hm, hp₀, rfl, -⟩ := Pool.step_procs hs hp
  · exact hP id p d hp₀ hd
  · cases hd
  · exact hP id p₀ d hp₀ hd
  · rcases List.mem_append.mp hd with hold | hlast
    · exact hP id _ d hp₀ hold
    · -- The last reply is the one of this move, and its answer shows `c`.
      obtain ⟨tag, rfl⟩ := hok.answers id w hm
      rw [List.mem_singleton] at hlast
      cases hlast
      exact UInt64.le_refl _

/-- A clock that shows one second, and none before that is later, does not go backward. -/
theorem run_steady (hreads : ReadsUpTo (secondsOf (some c)) P)
    (h : Run (step M B) (SameSecond c t a) P ms P') :
    Run (step M B) (SteadyFreezes t a) P ms P' := by
  refine h.mono ?_
  intro ms P₁ m hr hok
  have hbefore : ReadsUpTo (secondsOf (some c)) P₁ := run_readsUpTo hreads hr
  refine ⟨hok.toFreezesInputs, ?_, ?_⟩
  · intro id w hm _
    obtain ⟨tag, rfl⟩ := hok.answers id w hm
    exact ⟨rfl, hbefore⟩
  · intro id w n value etag ttl hm _
    obtain ⟨tag, rfl⟩ := hok.answers id w hm
    rfl

/-- One client hydrates an agent at rest, and the next one freezes what it has read, while the clock
shows `c`: the freeze returns this second. -/
theorem run_cycle_sameSecond {k : Nat} {state : AgentStateRecord} {mem : WorkingMemoryRecord}
    (hrest : Resting B t a P k state mem)
    (hinc : B.overflowChecks = true → mem.version.toNat + 1 < 2 ^ 64) :
    ∃ ms P' i state', Run (step M B) (SameSecond c t a) P ms P' ∧ i.workingMemory = mem ∧
      Resting B t a P' (k + 2) state' (i.frozenMemory B (some c)) ∧
      Returned t a P' (k + 1) i (secondsOf (some c)) ∧
      (∀ id, id < k → P'.procs id = P.procs id) ∧
      ∀ id p i, P'.procs id = some p → p.request = .freeze i → id = k + 1 ∨ id < k := by
  have hhydrate : SameSecond c t a P (.start k (.hydrate t a)) := by
    refine sameSecond_start ?_
    intro i hi
    cases hi
  have hfreeze : ∀ P i r, AfterHydrate P i r → i.workingMemory = mem →
      SameSecond c t a P (.start (k + 1) (.freeze i)) := by
    intro P i r hfrom _
    refine sameSecond_start ?_
    intro i' hi'
    cases hi'
    exact ⟨r, hfrom⟩
  obtain ⟨ms, P', i, p, q, hrun, ht, ha, -, hi, hrest', hq, hqreq, hp, hpreq, hdone, hothers⟩ :=
    run_cycle_rest (M := M) admitsAnswers_sameSecond hhydrate hfreeze hrest hinc
  have hroot : keyRoot i.tenantId i.agentId = keyRoot t a := by rw [ht, ha]
  refine ⟨ms, P', i, _, hrun, hi, hrest', ⟨p, hp, hpreq, hroot, hdone⟩, hothers, ?_⟩
  intro id p' i' hp' hreq
  by_contra hid
  rw [not_or] at hid
  by_cases hk : id = k
  · rw [hk, hq, Option.some.injEq] at hp'
    rw [← hp', hqreq] at hreq
    cases hreq
  · rw [hrest'.unused id (by omega)] at hp'
    cases hp'

/-- Two freezes of the blank records in a row, the first one in the second `c` and the other one in
the second `d`. -/
theorem run_two_cycles (c d : Duration) :
    ∃ ms₁ P₁ ms₂ P₂ i₁ i₂,
      Run (step .new debugBuild) (SameSecond c "acme" "writer")
        (start (blankStore none debugBuild "acme" "writer")) ms₁ P₁ ∧
      Run (step .new debugBuild) (SameSecond d "acme" "writer") P₁ ms₂ P₂ ∧
      i₁.workingMemory.version = 0 ∧ i₂.workingMemory.version = 1 ∧
      Returned "acme" "writer" P₂ 1 i₁ (secondsOf (some c)) ∧
      Returned "acme" "writer" P₂ 3 i₂ (secondsOf (some d)) ∧
      ∀ id p i, P₂.procs id = some p → p.request = .freeze i → id = 1 ∨ id = 3 := by
  obtain ⟨ms₁, P₁, i₁, state₁, hrun₁, hi₁, hrest₁, hret₁, -, hfreezes₁⟩ :=
    run_cycle_sameSecond (M := .new) (B := debugBuild) (t := "acme") (a := "writer") (c := c)
      resting_blank (fun _ => by decide)
  have hver₁ : i₁.workingMemory.version = 0 := by
    rw [hi₁]
    rfl
  have hver₂ : (i₁.frozenMemory debugBuild (some c)).version = 1 := by
    rw [FreezeInput.frozenMemory_version, hver₁]
    rfl
  have hinc : debugBuild.overflowChecks = true →
      (i₁.frozenMemory debugBuild (some c)).version.toNat + 1 < 2 ^ 64 := by
    intro _
    rw [hver₂]
    decide
  obtain ⟨ms₂, P₂, i₂, state₂, hrun₂, hi₂, -, hret₂, hothers, hfreezes₂⟩ :=
    run_cycle_sameSecond (M := .new) (c := d) hrest₁ hinc
  refine ⟨ms₁, P₁, ms₂, P₂, i₁, i₂, hrun₁, hrun₂, hver₁, by rw [hi₂, hver₂], ?_, hret₂, ?_⟩
  · -- The first freeze is still there.
    obtain ⟨p, hp, hreq, hroot, hdone⟩ := hret₁
    refine ⟨p, ?_, hreq, hroot, hdone⟩
    rw [hothers 1 (by decide)]
    exact hp
  · intro id p i hp hreq
    rcases hfreezes₂ id p i hp hreq with hid | hid
    · exact .inr hid
    · rw [hothers id hid] at hp
      rcases hfreezes₁ id p i hp hreq with hid₁ | hid₁
      · exact .inl hid₁
      · exact absurd hid₁ (Nat.not_lt_zero id)

/-- No client of a start has read the clock. -/
theorem readsUpTo_start (n : UInt64) : ReadsUpTo n (start s₀) := by
  intro id p c hp
  cases hp

/-- Two freezes, one minute after the other, take turns: they return two numbers, and the second
one, with the greater version, returns the greater number. -/
theorem sequenced_of_inTurn_blank :
    ∃ ms P i₁ i₂, Run (step .new debugBuild)
        (fun P m => SteadyFreezes "acme" "writer" P m ∧ InTurn debugBuild "acme" "writer" P m)
        (start (blankStore none debugBuild "acme" "writer")) ms P ∧
      i₁.workingMemory.version = 0 ∧ i₂.workingMemory.version = 1 ∧
      Returned "acme" "writer" P 1 i₁ 1700000000 ∧ Returned "acme" "writer" P 3 i₂ 1700000060 ∧
      Sequenced "acme" "writer" P := by
  obtain ⟨ms₁, P₁, ms₂, P₂, i₁, i₂, hrun₁, hrun₂, hver₁, hver₂, hret₁, hret₂, hfreezes⟩ :=
    run_two_cycles ⟨1700000000, 0⟩ ⟨1700000060, 0⟩
  have hreads := run_readsUpTo (readsUpTo_start _) hrun₁
  have hlater : secondsOf (some ⟨1700000000, 0⟩) ≤ secondsOf (some ⟨1700000060, 0⟩) := by decide
  have hsteady := (run_steady (readsUpTo_start _) hrun₁).append
    (run_steady (fun id p c hp hc => UInt64.le_trans (hreads id p c hp hc) hlater) hrun₂)
  have hnoWrap : Run (step .new debugBuild) (SteadyNoWrap debugBuild "acme" "writer")
      (start (blankStore none debugBuild "acme" "writer")) (ms₁ ++ ms₂) P₂ := by
    refine hsteady.mono ?_
    intro ms P m _ hok
    refine ⟨hok, ?_⟩
    intro id i _ _ hno
    cases hno
  have htook₁ := (hret₁.tookSeq (fun _ _ hok => hok.1) hnoWrap).1
  have htook₂ := (hret₂.tookSeq (fun _ _ hok => hok.1) hnoWrap).1
  -- A freeze with a number is client 1 or client 3, so its number is known.
  have hcases : ∀ id i n, TookSeq debugBuild "acme" "writer" P₂ id i n →
      (id = 1 ∧ i = i₁ ∧ n = 1700000000) ∨ (id = 3 ∧ i = i₂ ∧ n = 1700000060) := by
    intro id i n htook
    have htook₀ : TookSeq debugBuild "acme" "writer" P₂ id i n := htook
    obtain ⟨p, -, -, -, -, -, -, hp, hreq, -⟩ := htook₀
    rcases hfreezes id p i hp hreq with hid | hid
    · subst hid
      obtain ⟨hi, hn⟩ := htook.unique htook₁
      exact .inl ⟨rfl, hi, hn⟩
    · subst hid
      obtain ⟨hi, hn⟩ := htook.unique htook₂
      exact .inr ⟨rfl, hi, hn⟩
  have hnum : Numbered debugBuild "acme" "writer" P₂ := by
    intro id id' i i' n n' htook htook' hne
    rcases hcases id i n htook with ⟨rfl, rfl, rfl⟩ | ⟨rfl, rfl, rfl⟩
    · rcases hcases id' i' n' htook' with ⟨rfl, -, -⟩ | ⟨rfl, rfl, rfl⟩
      · exact absurd rfl hne
      · exact ⟨by decide, fun _ => by decide⟩
    · rcases hcases id' i' n' htook' with ⟨rfl, rfl, rfl⟩ | ⟨rfl, -, -⟩
      · rw [hver₁, hver₂]
        exact ⟨by decide, fun hlt => absurd hlt (by decide)⟩
      · exact absurd rfl hne
  have hturn := inTurn_of_numbered (startsWith_pairStore rfl) (history_checkpoint_pairStore _ _)
    hnoWrap hnum
  exact ⟨_, P₂, i₁, i₂, hturn, hver₁, hver₂, hret₁, hret₂,
    sequenced_of_inTurn (startsWith_pairStore rfl) hturn⟩

/-- Two freezes in one second return one number, although the clock does not go backward, each
checkpoint is written and each freeze has returned. -/
theorem not_sequenced :
    ¬ ∀ s₀ state₀ mem₀ ms P, StartsWith debugBuild "acme" "writer" s₀ state₀ mem₀ →
      HoldsPair debugBuild "acme" "writer" s₀ state₀ mem₀ →
      Run (step .new debugBuild) (SteadyFreezes "acme" "writer") (start s₀) ms P →
      (∀ id p i, P.procs id = some p → p.request = .freeze i →
        ∃ n, Returned "acme" "writer" P id i n) →
      Sequenced "acme" "writer" P := by
  intro hall
  obtain ⟨ms₁, P₁, ms₂, P₂, i₁, i₂, hrun₁, hrun₂, -, -, hret₁, hret₂, hfreezes⟩ :=
    run_two_cycles firstSecond firstSecond
  have hsteady := (run_steady (readsUpTo_start _) hrun₁).append
    (run_steady (run_readsUpTo (readsUpTo_start _) hrun₁) hrun₂)
  have hreturned : ∀ id p i, P₂.procs id = some p → p.request = .freeze i →
      ∃ n, Returned "acme" "writer" P₂ id i n := by
    intro id p i hp hreq
    -- A freeze that has returned has returned with its input.
    have hsame : ∀ j n, Returned "acme" "writer" P₂ id j n →
        Returned "acme" "writer" P₂ id i n := by
      intro j n hret
      obtain ⟨p', hp', hreq', hroot, hdone⟩ := hret
      rw [hp, Option.some.injEq] at hp'
      subst hp'
      rw [hreq, Request.freeze.injEq] at hreq'
      subst hreq'
      exact ⟨p, hp, hreq, hroot, hdone⟩
    rcases hfreezes id p i hp hreq with hid | hid
    · subst hid
      exact ⟨_, hsame i₁ _ hret₁⟩
    · subst hid
      exact ⟨_, hsame i₂ _ hret₂⟩
  have hseq : Sequenced "acme" "writer" P₂ :=
    hall _ _ _ _ P₂ (startsWith_pairStore rfl) holdsPair_pairStore hsteady hreturned
  exact hseq.distinct 1 3 i₁ i₂ _ _ hret₁ hret₂ (by decide) rfl

end Swarm

end SwarmRuntime.State
