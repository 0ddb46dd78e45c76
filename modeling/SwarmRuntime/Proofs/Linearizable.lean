import SwarmRuntime.Lib.Linearize
import SwarmRuntime.Proofs.VersionGap

/-!
# `SwarmRuntime.Proofs.Linearizable`: the records of an agent are one register

A hydrate reads two records with two calls, and a freeze writes them with two calls. Clients that
freeze what they have hydrated see a single register that holds a pair, with an atomic read and an
atomic compare-and-swap (`run_linearizes`). The calls interleave, clients crash, calls fail, records
expire.

* The value of the register is the newest pair that is committed (`Commits`): a memory record whose
  state record is not written yet lies on top of it.
* A hydrate takes effect at its state read. What it reads of the memory later has the version of
  that state record, so it is the memory record of the pair (`run_hydrate_point`).
* A freeze takes effect at its state write. The guard of this write names the state record of the
  pair that its hydrate returned, so the swap expects that pair (`Commits.swap`).
-/

set_option autoImplicit false

namespace SwarmRuntime.State

open SwarmRuntime.Lib SwarmRuntime.Lib.Interaction

/-- The two records of an agent. -/
abbrev AgentPair := AgentStateRecord × WorkingMemoryRecord

/-- The pair that a hydrate returned. -/
def HydrationResult.pair (r : HydrationResult) : AgentPair := (r.state, r.workingMemory)

/-- The pair that a freeze writes. -/
def FreezeInput.frozen (B : Build) (i : FreezeInput) (c₁ c₂ : Option Duration) : AgentPair :=
  (i.frozenState B c₁ c₂, i.frozenMemory B c₁)

namespace Swarm

variable {M : AgentHydrationManager} {B : Build} {t a : String} {P P' : Swarm} {m : SwarmMove}
  {ok : Swarm → SwarmMove → Prop} {s₀ : Backing Author} {ms : List SwarmMove}
  {state₀ : AgentStateRecord} {mem₀ : WorkingMemoryRecord}

/-! ### The value of the register -/

/-- The newest pair of the agent of which both records are written is `v`. -/
def Commits (B : Build) (t a : String) (s : Backing Author) (v : AgentPair) : Prop :=
  ∃ x xs top y ys, s.history (agentStateKey t a) = x :: xs ∧
    s.history (workingMemoryKey t a) = top ++ y :: ys ∧
    List.Forall₂ (Paired B) (x :: xs) (y :: ys) ∧
    B.state.decode x.value = .ok v.1 ∧ B.memory.decode y.value = .ok v.2

/-- There is one such pair at most. -/
theorem Commits.unique {s : Backing Author} {v v' : AgentPair} (h : Commits B t a s v)
    (h' : Commits B t a s v') : v = v' := by
  obtain ⟨x, xs, top, y, ys, hx, hy, haligned, hdecx, hdecy⟩ := h
  obtain ⟨x', xs', top', y', ys', hx', hy', haligned', hdecx', hdecy'⟩ := h'
  rw [hx, List.cons.injEq] at hx'
  obtain ⟨rfl, rfl⟩ := hx'
  -- Both memory records have as many older ones as the state record has.
  have hlen : (y :: ys).length = (y' :: ys').length :=
    haligned.length_eq.symm.trans haligned'.length_eq
  rw [hy] at hy'
  obtain ⟨-, hsame⟩ := List.append_inj' hy' hlen
  rw [List.cons.injEq] at hsame
  obtain ⟨rfl, -⟩ := hsame
  rw [hdecx, Except.ok.injEq] at hdecx'
  rw [hdecy, Except.ok.injEq] at hdecy'
  exact Prod.ext hdecx' hdecy'

/-- As long as no state is written, the pair stays. -/
theorem Commits.of_later {s s' : Backing Author} {v : AgentPair} (h : Commits B t a s v)
    (hlater : s.Later s')
    (hstate : s'.history (agentStateKey t a) = s.history (agentStateKey t a)) :
    Commits B t a s' v := by
  obtain ⟨x, xs, top, y, ys, hx, hy, haligned, hdecx, hdecy⟩ := h
  obtain ⟨new, hnew⟩ := hlater.history (workingMemoryKey t a)
  refine ⟨x, xs, new ++ top, y, ys, hstate.trans hx, ?_, haligned, hdecx, hdecy⟩
  rw [← hnew, hy, List.append_assoc]

/-- The pair of the start is committed. -/
theorem commits_start (hinit : StartsWith B t a s₀ state₀ mem₀) :
    Commits B t a s₀ (state₀, mem₀) := by
  obtain ⟨vs, hvs, hdecs⟩ := hinit.stateRecord
  obtain ⟨vm, hvm, hdecm⟩ := hinit.memoryRecord
  obtain ⟨x₀, hx₀, hx₀v, hx₀a⟩ := hvs.exists_entry
  obtain ⟨y₀, hy₀, hy₀v, hy₀a⟩ := hvm.exists_entry
  have hdecx : B.state.decode x₀.value = .ok state₀ := by rw [hx₀v, hdecs]
  have hdecy : B.memory.decode y₀.value = .ok mem₀ := by rw [hy₀v, hdecm]
  refine ⟨x₀, [], [], y₀, [], hx₀, hy₀, .cons ⟨hx₀a.trans hy₀a.symm, ?_⟩ .nil, hdecx, hdecy⟩
  rw [stateVersionOf_eq hdecx, memVersionOf_eq hdecy, hinit.versions]

/-! ### The moments at which the operations take effect -/

/-- The operation of the agent that takes effect in a move: a hydrate reads the state record, or
the state write of a freeze succeeds. -/
inductive Point (B : Build) (t a : String) :
    Swarm → SwarmMove → Swarm → Nat × CasOp AgentPair → Prop
  | read {P P' : Swarm} {id : Nat} {w : Answer} {t' a' : String} {v : AgentPair}
      {next : Reply (.get (agentStateKey t a)) → Async Response}
      (hroot : keyRoot t' a' = keyRoot t a)
      (hp : P.procs id = some ⟨.hydrate t' a', [], ask (.get (agentStateKey t a)) next, false⟩)
      (hv : Commits B t a P.shared v) : Point B t a P (.serve id w) P' (id, .read v)
  | swap {P P' : Swarm} {id : Nat} {w : Answer} {i : FreezeInput} {r : HydrationResult}
      {c₁ c₂ : Option Duration} {e₁ : ETag} (hroot : keyRoot i.tenantId i.agentId = keyRoot t a)
      (hfrom : AfterHydrate P i r)
      (hw : Wrote P P' (.serve id w) id (.freeze i)
        [⟨.now, c₁⟩, ⟨i.memoryWrite B c₁, .ok e₁⟩, ⟨.now, c₂⟩] (agentStateKey t a)
        (i.stateBytes B c₁ c₂) (some i.stateEtag) .none w) :
      Point B t a P (.serve id w) P' (id, .swap r.pair (i.frozen B c₁ c₂))

/-- Each operation takes effect in a move that serves its client. -/
theorem point_own : OwnPoints (Point B t a) := by
  intro P m P' e h
  cases h with
  | read _ _ _ => exact ⟨_, rfl⟩
  | swap _ _ _ => exact ⟨_, rfl⟩

/-- A move that serves a hydrate has a read at most. -/
theorem Point.of_hydrate {id : Nat} {w : Answer} {e : Nat × CasOp AgentPair}
    (h : Point B t a P (.serve id w) P' e) {t' a' : String} {tr : Transcript Reply}
    {rest : Async Response} {b : Bool} (hp : P.procs id = some ⟨.hydrate t' a', tr, rest, b⟩) :
    ∃ v, e = (id, .read v) ∧ Commits B t a P.shared v := by
  generalize hm : Move.serve id w = m at h
  cases h with
  | read _ _ hv =>
    cases hm
    exact ⟨_, rfl, hv⟩
  | swap _ _ hw =>
    cases hm
    obtain ⟨next, hserved⟩ := hw.before
    rw [hp, Option.some.injEq, Proc.mk.injEq] at hserved
    cases hserved.1

/-- The clients that freeze what they have hydrated, as long as no version comes twice. -/
structure FreezesDistinct (B : Build) (t a : String) (P : Swarm) (m : SwarmMove) : Prop
    extends FreezesInputs t a P m where
  distinct : DistinctVersions B t a P.shared

/-- When no version has come twice at the end of a run, none has before. -/
theorem run_freezesDistinct (h : Run (step M B) (FreezesInputs t a) (start s₀) ms P)
    (hdistinct : DistinctVersions B t a P.shared) :
    Run (step M B) (FreezesDistinct B t a) (start s₀) ms P := by
  refine h.mono_split fun pre P₁ m P₂ post _ hok hs hpost => ⟨hok, ?_⟩
  exact hdistinct.of_later ((step_later hs).trans (run_later hpost))

theorem run_inputs (h : Run (step M B) (FreezesDistinct B t a) (start s₀) ms P) :
    Run (step M B) (FreezesInputs t a) (start s₀) ms P :=
  h.mono fun _ _ _ _ hok => hok.toFreezesInputs

/-- The state write of a freeze swaps the pair that its hydrate returned for the pair that it
writes. -/
theorem Commits.swap {v : AgentPair} (h : Commits B t a P.shared v)
    (hinit : StartsWith B t a s₀ state₀ mem₀)
    (hr : Run (step M B) (FreezesInputs t a) (start s₀) ms P)
    (hdistinct : DistinctVersions B t a P.shared) {id : Nat} {i : FreezeInput}
    {r : HydrationResult} {c₁ c₂ : Option Duration} {e₁ : ETag} {w : Answer}
    (hroot : keyRoot i.tenantId i.agentId = keyRoot t a) (hfrom : AfterHydrate P i r)
    (hw : Wrote P P' m id (.freeze i) [⟨.now, c₁⟩, ⟨i.memoryWrite B c₁, .ok e₁⟩, ⟨.now, c₂⟩]
      (agentStateKey t a) (i.stateBytes B c₁ c₂) (some i.stateEtag) .none w) :
    r.pair = v ∧ Commits B t a P'.shared (i.frozen B c₁ c₂) := by
  obtain ⟨vs, hvs, -⟩ := hinit.stateRecord
  constructor
  · show r.pair = v
    obtain ⟨x, xs, top, y, ys, hx, hy, haligned, hdecx, hdecy⟩ := h
    obtain ⟨x', y', hnames⟩ := hfrom.names hinit hr hroot
    -- The guard of the write names the newest state record, and so does the input.
    obtain ⟨x₁, older, hx₁, htag⟩ :=
      EtagStore.exists_newest_of_accepts (run_journaled hvs.journaled hr) hw.accepted
    rw [hx, List.cons.injEq] at hx₁
    obtain ⟨rfl, -⟩ := hx₁
    have htagged : P.shared.Tagged (agentStateKey t a) :=
      run_tagged (fun _ _ hok => hok.fresh) hvs.tagged hr
    have hsamex : x' = x := htagged.eq_of_etag hnames.stateEntry (by simp [hx])
      (hnames.stateTag.trans htag.symm)
    subst hsamex
    -- The memory record of the pair is the one with the version of the state record.
    have hversion : stateVersionOf B x' = memVersionOf B y :=
      (List.forall₂_cons.mp haligned).1.version
    have hsamey : y' = y := hdistinct.eq_of_version hnames.memoryEntry (by simp [hy])
      (hnames.versions.symm.trans hversion)
    subst hsamey
    have hstate : r.state = v.1 := Except.ok.inj (hnames.state.symm.trans hdecx)
    have hmemory : r.workingMemory = v.2 := Except.ok.inj (hnames.memory.symm.trans hdecy)
    exact Prod.ext hstate hmemory
  · show Commits B t a P'.shared (i.frozen B c₁ c₂)
    obtain ⟨next, hp⟩ := hw.before
    obtain ⟨y₀, older, hhist, haligned, -⟩ :=
      (run_phase hinit hr hdistinct).busy_of_pending hinit hr hroot hp
    refine ⟨_, _, [], ⟨workingMemoryKey t a, i.memBytes B c₁, e₁, some id⟩, y₀ :: older,
      hw.history_self, ?_, .cons ⟨rfl, ?_⟩ haligned, B.state.decode_encodeToVec _,
      B.memory.decode_encodeToVec _⟩
    · rw [hw.history_of_ne (agentStateKey_ne_workingMemoryKey _ _ _ _).symm, hhist]
      rfl
    · rw [memVersionOf_memBytes_mod, stateVersionOf_stateBytes_mod]

/-- The log of a run is an execution of the register, and the register holds the committed
pair. -/
theorem logged_refines (hinit : StartsWith B t a s₀ state₀ mem₀)
    {log : List (Nat × CasOp AgentPair)}
    (h : Logged (step M B) (FreezesDistinct B t a) (Point B t a) (start s₀) ms P log) :
    ∃ v, CasOp.replay (state₀, mem₀) log = some v ∧ Commits B t a P.shared v := by
  refine h.refines (fun P v => Commits B t a P.shared v) (commits_start hinit) ?_ ?_
  · intro ms P m P' v hr hv hok hs hno
    show Commits B t a P'.shared v
    have hinputs := run_inputs hr
    obtain ⟨hstate, -⟩ | ⟨id, i, c₁, w, -, hw⟩ | ⟨id, i, c₁, c₂, e₁, w, hroot, hw⟩ :=
      step_primary hr hs t a
    · exact hv.of_later (step_later hs) hstate
    · exact hv.of_later (step_later hs)
        (hw.history_of_ne (agentStateKey_ne_workingMemoryKey _ _ _ _))
    · -- A state write is an operation.
      obtain ⟨next, hp⟩ := hw.before
      obtain ⟨r, hfrom⟩ := run_afterHydrate hinputs hp rfl hroot
      have hmove : m = .serve id w := hw.move
      subst hmove
      exact absurd (.swap hroot hfrom hw) (hno _)
  · intro ms P m P' v e hr hv hok hs hpoint
    cases hpoint with
    | read hroot hp hv' =>
      -- A read returns the committed pair, and leaves the state record.
      have hsame := hv'.unique hv
      subst hsame
      refine ⟨_, if_pos rfl, hv.of_later (step_later hs) ?_⟩
      obtain ⟨q, tr, c, next, hserved, rfl⟩ := Pool.step_serve.mp hs
      rw [hp, Option.some.injEq, Proc.mk.injEq] at hserved
      obtain ⟨-, -, hask, -⟩ := hserved
      cases hask
      have hread : ∀ id w, ((service M B).serve id (.get (agentStateKey t a)) w P.shared).2
          = P.shared := fun id w => serve_get_state (a := some id)
      rw [Pool.shared_setProc, Pool.shared_setShared, hread]
    | swap hroot hfrom hw =>
      obtain ⟨hexpected, hcommits⟩ := hv.swap hinit (run_inputs hr) hok.distinct hroot hfrom hw
      exact ⟨_, if_pos hexpected, hcommits⟩

/-! ### Each operation is in the log once -/

/-- The call is about the record under `key`. -/
def touches (key : String) : Call → Bool
  | .get key' => key' == key
  | .set key' _ _ _ => key' == key
  | .now => false

/-- The client has been answered to a call about the state record of the agent. -/
def Spent (t a : String) (P : Swarm) (id : Nat) : Prop :=
  ∃ p, P.procs id = some p ∧ ∃ x ∈ p.transcript, touches (agentStateKey t a) x.1 = true

theorem Spent.kept {id : Nat} (h : Spent t a P id) (hs : step M B P m = some P') :
    Spent t a P' id := by
  obtain ⟨p, hp, x, hx, htouches⟩ := h
  obtain ⟨p', hp', -, hpre, -⟩ := Pool.step_extends hs id p hp
  exact ⟨p', hp', x, hpre.subset hx, htouches⟩

/-- The client of an operation has not read or written the state record before. -/
theorem Point.not_spent {e : Nat × CasOp AgentPair} (h : Point B t a P m P' e) :
    ¬ Spent t a P e.1 := by
  rintro ⟨p, hp, x, hx, htouches⟩
  cases h with
  | read hroot hserved hv =>
    rw [hserved, Option.some.injEq] at hp
    rw [← hp] at hx
    cases hx
  | swap hroot hfrom hw =>
    obtain ⟨next, hserved⟩ := hw.before
    rw [hserved, Option.some.injEq] at hp
    rw [← hp] at hx
    -- Two readings of the clock, and a write to the memory key.
    have hne : ∀ t' a', (workingMemoryKey t' a' == agentStateKey t a) = false := by
      intro t' a'
      exact beq_eq_false_iff_ne.mpr (agentStateKey_ne_workingMemoryKey _ _ _ _).symm
    simp only [List.mem_cons, List.not_mem_nil, or_false] at hx
    rcases hx with rfl | rfl | rfl
    · cases htouches
    · rw [touches, hne] at htouches
      cases htouches
    · cases htouches

/-- The operation spends its client. -/
theorem Point.spent {e : Nat × CasOp AgentPair} (h : Point B t a P m P' e)
    (hs : step M B P m = some P') : Spent t a P' e.1 := by
  cases h with
  | read hroot hp hv =>
    obtain ⟨q, tr, c, next, hserved, rfl⟩ := Pool.step_serve.mp hs
    rw [hp, Option.some.injEq, Proc.mk.injEq] at hserved
    obtain ⟨rfl, rfl, hask, -⟩ := hserved
    cases hask
    exact ⟨_, Pool.procs_setProc_self _ _ _, _, List.mem_singleton.mpr rfl, beq_self_eq_true _⟩
  | swap hroot hfrom hw =>
    obtain ⟨rest, hp'⟩ := hw.after
    exact ⟨_, hp', _, List.mem_append_right _ (List.mem_singleton.mpr rfl), beq_self_eq_true _⟩

/-- No client has two operations in the log. -/
theorem logged_nodup {log : List (Nat × CasOp AgentPair)}
    (h : Logged (step M B) ok (Point B t a) (start s₀) ms P log) :
    (log.map Prod.fst).Nodup :=
  (h.nodup (Spent t a) (fun _ _ _ _ hpoint => hpoint.not_spent)
    (fun _ _ _ _ _ _ hs hpoint => hpoint.spent hs) fun _ _ _ _ hs hspent => hspent.kept hs).1

/-! ### The operations of the clients that have returned -/

/-- A hydrate that returned a result takes effect at its state read: the pair that was committed
then is the pair that it returned. -/
theorem run_hydrate_point (hinit : StartsWith B t a s₀ state₀ mem₀)
    (h : Run (step M B) ok (start s₀) ms P) (hdistinct : DistinctVersions B t a P.shared) {id : Nat}
    {p : Proc Reply Request Response} (hp : P.procs id = some p) {t' a' : String}
    (hq : p.request = .hydrate t' a') (hroot : keyRoot t' a' = keyRoot t a) {r : HydrationResult}
    (hdone : p.rest = done (.hydrated (.ok r))) :
    ∃ pre w post P₁ P₂ next, ms = pre ++ .serve id w :: post ∧
      Run (step M B) ok (start s₀) pre P₁ ∧ step M B P₁ (.serve id w) = some P₂ ∧
      P₁.procs id
        = some ⟨.hydrate t' a', [], ask (.get (agentStateKey t a)) next, false⟩ ∧
      ∀ v, Commits B t a P₁.shared v → v = r.pair := by
  obtain ⟨vs, hvs, -⟩ := hinit.stateRecord
  obtain ⟨vm, hvm, -⟩ := hinit.memoryRecord
  obtain ⟨rs, rm, tail, htr, -, hdecs, hdecm, hver, -⟩ := hydrate_ok (hydrated_trace h hp hq hdone)
  rw [(agentStateKey_eq_iff _ _ _ _).mpr hroot, (workingMemoryKey_eq_iff _ _ _ _).mpr hroot] at htr
  have htr' : p.transcript = [] ++ ⟨.get (agentStateKey t a), .ok (some rs)⟩ ::
      (tail ++ [⟨.get (workingMemoryKey t a), .ok (some rm)⟩]) := htr
  obtain ⟨pre, w, post, P₁, P₂, next, hms, hpre, hok, hs, hpost, hp₁, hreply⟩ :=
    Pool.run_served h (fun _ hp => by cases hp) hp htr'
  rw [hq] at hp₁
  refine ⟨pre, w, post, P₁, P₂, next, hms, hpre, hs, hp₁, ?_⟩
  rintro v ⟨x, xs, top, y, ys, hx, hy, haligned, hdecx, hdecy⟩
  -- The state record that was read is the newest one.
  have hserve : (serve (some id) (.get (agentStateKey t a)) w P₁.shared).1 = .ok (some rs) :=
    hreply.symm
  obtain ⟨c, hc, hcv, -⟩ := lookup_of_serve_get hserve
  obtain ⟨x', older, hx', hx'v, -⟩ := (run_journaled hvs.journaled hpre).exists_newest hc
  rw [hx, List.cons.injEq] at hx'
  obtain ⟨rfl, -⟩ := hx'
  have hstate : v.1 = r.state := by
    rw [hx'v, hcv, hdecs] at hdecx
    exact (Except.ok.inj hdecx).symm
  -- The memory record that was read has its version, and the one of the pair has it too.
  have hread : ⟨.get (workingMemoryKey t a), .ok (some rm)⟩ ∈ p.transcript := by
    rw [htr]
    simp
  obtain ⟨y', hy', hy'v, -⟩ := run_reads hvm.journaled h hp hread
  have hdecy' : B.memory.decode y'.value = .ok r.workingMemory := by rw [hy'v, hdecm]
  have hlater : P₁.shared.Later P.shared := (step_later hs).trans (run_later hpost)
  have hversion : memVersionOf B y = memVersionOf B y' := by
    rw [← (List.forall₂_cons.mp haligned).1.version, stateVersionOf_eq hdecx, hstate,
      memVersionOf_eq hdecy', hver]
  have hsame : y = y' :=
    hdistinct.eq_of_version (hlater.mem_history (by simp [hy])) hy' hversion
  subst hsame
  have hmemory : v.2 = r.workingMemory := Except.ok.inj (hdecy.symm.trans hdecy')
  exact Prod.ext hstate hmemory

/-- A hydrate that returned a result is in the log, as a read of what it returned. -/
theorem logged_hydrate (hinit : StartsWith B t a s₀ state₀ mem₀)
    {log : List (Nat × CasOp AgentPair)}
    (h : Logged (step M B) (FreezesDistinct B t a) (Point B t a) (start s₀) ms P log)
    (hdistinct : DistinctVersions B t a P.shared) {id : Nat}
    {p : Proc Reply Request Response} (hp : P.procs id = some p) {t' a' : String}
    (hq : p.request = .hydrate t' a') (hroot : keyRoot t' a' = keyRoot t a) {r : HydrationResult}
    (hdone : p.rest = done (.hydrated (.ok r))) : (id, .read r.pair) ∈ log := by
  obtain ⟨pre, w, post, P₁, P₂, next, rfl, hpre, hs, hp₁, hpair⟩ :=
    run_hydrate_point hinit h.run hdistinct hp hq hroot hdone
  obtain ⟨log₁, hlog₁⟩ := hpre.exists_logged (Point B t a)
  obtain ⟨v, -, hv⟩ := logged_refines hinit hlog₁
  have hread : Point B t a P₁ (.serve id w) P₂ (id, .read v) := .read hroot hp₁ hv
  obtain ⟨e, he, hpoint⟩ := h.exists_event hpre hs hread
  -- The event of this move is a read, since it serves a hydrate.
  obtain ⟨v', rfl, hv'⟩ := hpoint.of_hydrate hp₁
  rwa [hpair v' hv'] at he

/-- A freeze whose state write has succeeded is in the log. -/
theorem logged_freeze {log : List (Nat × CasOp AgentPair)}
    (h : Logged (step M B) (FreezesDistinct B t a) (Point B t a) (start s₀) ms P log) {id : Nat}
    {p : Proc Reply Request Response} (hp : P.procs id = some p) {i : FreezeInput}
    (hq : p.request = .freeze i) (hroot : keyRoot i.tenantId i.agentId = keyRoot t a)
    {c₁ c₂ : Option Duration} {e₂ : ETag}
    (hwrote : ⟨i.stateWrite B c₁ c₂, .ok e₂⟩ ∈ p.transcript) : ∃ o, (id, o) ∈ log := by
  obtain ⟨t₁, t₂, ht⟩ := List.append_of_mem hwrote
  obtain ⟨pre, w, post, P₁, P₂, next, rfl, hpre, hok, hs, hpost, hp₁, hreply⟩ :=
    Pool.run_served h.run (fun _ hp => by cases hp) hp ht
  rw [hq] at hp₁
  obtain ⟨hw, -⟩ := wrote_of_served hs hp₁ hreply.symm
  rw [(agentStateKey_eq_iff _ _ _ _).mpr hroot] at hw
  obtain ⟨i', c₁', c₂', e₁, -, hw'⟩ := hw.stateWrite hpre rfl
  obtain ⟨next', hp₁'⟩ := hw'.before
  have hi : i' = i := by
    rw [hp₁, Option.some.injEq, Proc.mk.injEq] at hp₁'
    exact (Request.freeze.inj hp₁'.1).symm
  subst hi
  obtain ⟨r, hfrom⟩ := run_afterHydrate (run_inputs hpre) hp₁ rfl hroot
  have hswap : Point B t a P₁ (.serve id w) P₂ (id, .swap r.pair (i'.frozen B c₁' c₂')) :=
    .swap hroot hfrom hw'
  obtain ⟨e, he, hpoint⟩ := h.exists_event hpre hs hswap
  obtain ⟨w', hm⟩ := point_own _ _ _ _ hpoint
  cases hm
  exact ⟨e.2, he⟩

/-! ### The stored pair, when no freeze stands between its writes -/

/-- The memory write of a client is its second call. -/
theorem run_memory_second (h : Run (step M B) ok (start s₀) ms P) {id : Nat}
    {p : Proc Reply Request Response} (hp : P.procs id = some p) {value : Bytes}
    {etag : Option ETag} {ttl : TtlPolicy} {r : StateResult ETag}
    (hw : ⟨.set (workingMemoryKey t a) value etag ttl, r⟩ ∈ p.transcript) :
    p.transcript[1]? = some ⟨.set (workingMemoryKey t a) value etag ttl, r⟩ := by
  obtain ⟨t₁, t₂, ht⟩ := List.append_of_mem hw
  obtain ⟨pre, w, post, P₁, P₂, next, -, hpre, -, -, -, hp₁, -⟩ :=
    Pool.run_served h (fun _ hp => by cases hp) hp ht
  obtain ⟨i, -, hwrite⟩ := write_cases hpre hp₁
  obtain ⟨-, c₁, rfl, -⟩ := hwrite.eq_memory rfl
  rw [ht]
  rfl

/-- A memory record with an older one below it is not the record of the start: a client has
written it. -/
theorem exists_author (hinit : StartsWith B t a s₀ state₀ mem₀)
    (h : Run (step M B) (FreezesInputs t a) (start s₀) ms P)
    {y z : Entry String Bytes ETag Author} {older : List (Entry String Bytes ETag Author)}
    (hhist : P.shared.history (workingMemoryKey t a) = y :: older) (hz : z ∈ older) :
    ∃ id, y.author = some id := by
  obtain ⟨vm, hvm, -⟩ := hinit.memoryRecord
  have htagged : P.shared.Tagged (workingMemoryKey t a) :=
    run_tagged (fun _ _ hok => hok.fresh) hvm.tagged h
  rw [EtagStore.Tagged, hhist] at htagged
  cases hauthor : y.author with
  | some id => exact ⟨id, rfl⟩
  | none =>
    -- The record of the start is the oldest one, and `y` has another tag than the older ones.
    obtain ⟨y₀, hy₀, -⟩ := hvm.exists_entry
    have hy : y = y₀ := by
      have hmem : y ∈ P.shared.history (workingMemoryKey t a) := by simp [hhist]
      have hstart := run_unauthored h hmem hauthor
      rwa [hy₀, List.mem_singleton] at hstart
    have hsuffix : [y₀] <:+ y :: older := by
      have hlater : s₀.history (workingMemoryKey t a) <:+ _ := (run_later h).history _
      rwa [hy₀, hhist] at hlater
    have hlast : y₀ ∈ older := by
      rcases List.suffix_cons_iff.mp hsuffix with hall | hrest
      · rw [List.cons.injEq] at hall
        rw [← hall.2] at hz
        cases hz
      · exact hrest.subset (List.mem_singleton.mpr rfl)
    exact absurd (congrArg Entry.etag hy) (List.rel_of_pairwise_cons htagged hlast)

/-- While the agent is busy, one client stands between its two writes: the author of the newest
memory record. -/
theorem exists_halfWritten (hinit : StartsWith B t a s₀ state₀ mem₀)
    (h : Run (step M B) (FreezesInputs t a) (start s₀) ms P)
    {y y₀ : Entry String Bytes ETag Author} {older : List (Entry String Bytes ETag Author)}
    (hhist : P.shared.history (workingMemoryKey t a) = y :: y₀ :: older)
    (haligned : List.Forall₂ (Paired B) (P.shared.history (agentStateKey t a)) (y₀ :: older)) :
    ∃ id, y.author = some id ∧ HalfWritten t a P id := by
  obtain ⟨vm, hvm, -⟩ := hinit.memoryRecord
  have htagged : P.shared.Tagged (workingMemoryKey t a) :=
    run_tagged (fun _ _ hok => hok.fresh) hvm.tagged h
  rw [EtagStore.Tagged, hhist] at htagged
  have hy : y ∈ P.shared.history (workingMemoryKey t a) := by simp [hhist]
  obtain ⟨id, hauthor⟩ := exists_author hinit h hhist List.mem_cons_self
  refine ⟨id, hauthor, ?_, ?_⟩
  · show P.HasWritten id (workingMemoryKey t a)
    obtain ⟨p, etag, ttl, hp, hmem⟩ := run_wrote hinit.unauthored h hy hauthor
    exact ⟨p, _, etag, ttl, _, hp, hmem⟩
  · rintro ⟨p, value, etag, ttl, e, hp, hstate⟩
    -- A state record of this client has a partner, and that one is not `y`.
    have hx := run_written h hp hstate
    obtain ⟨z, hz, hpaired⟩ := exists_right_of_forall₂ haligned hx
    have hz' : z ∈ P.shared.history (workingMemoryKey t a) := by
      rw [hhist]
      exact List.mem_cons_of_mem _ hz
    obtain ⟨p₁, etag₁, ttl₁, hp₁, hmem₁⟩ := run_wrote hinit.unauthored h hy hauthor
    obtain ⟨p₂, etag₂, ttl₂, hp₂, hmem₂⟩ :=
      run_wrote hinit.unauthored h hz' hpaired.author.symm
    rw [hp₁, Option.some.injEq] at hp₂
    subst hp₂
    have hsame := (run_memory_second h hp₁ hmem₁).symm.trans (run_memory_second h hp₁ hmem₂)
    simp only [Option.some.injEq, Sigma.mk.injEq] at hsame
    exact absurd (Except.ok.inj (eq_of_heq hsame.2)) (List.rel_of_pairwise_cons htagged hz)

/-- When no client stands between its two writes, the pair that can be read is the committed
one. -/
theorem Commits.eq_of_holdsPair {v : AgentPair} (hv : Commits B t a P.shared v)
    (hinit : StartsWith B t a s₀ state₀ mem₀)
    (h : Run (step M B) (FreezesInputs t a) (start s₀) ms P)
    (hdistinct : DistinctVersions B t a P.shared) (hquiet : ∀ id, ¬ HalfWritten t a P id)
    {state : AgentStateRecord} {mem : WorkingMemoryRecord}
    (hpair : HoldsPair B t a P.shared state mem) : (state, mem) = v := by
  obtain ⟨vs, hvs, -⟩ := hinit.stateRecord
  obtain ⟨vm, hvm, -⟩ := hinit.memoryRecord
  obtain ⟨cs, hcs, hdecs⟩ := hpair.stateRecord
  obtain ⟨cm, hcm, hdecm⟩ := hpair.memoryRecord
  obtain ⟨x, xs, hx, hxv, -⟩ := (run_journaled hvs.journaled h).exists_newest hcs
  obtain ⟨y, ys, hy, hyv, -⟩ := (run_journaled hvm.journaled h).exists_newest hcm
  cases run_phase hinit h hdistinct with
  | busy y' y₀ older hhist haligned _ =>
    obtain ⟨id, -, hhalf⟩ := exists_halfWritten hinit h hhist haligned
    exact absurd hhalf (hquiet id)
  | idle haligned =>
    -- The two newest records are paired.
    rw [hx, hy] at haligned
    refine Commits.unique ⟨x, xs, [], y, ys, hx, hy, haligned, ?_, ?_⟩ hv
    · rw [hxv, hdecs]
    · rw [hyv, hdecm]

/-! ### The register -/

/-- The client has hydrated an agent and has returned a result. -/
def hydrateReturned (P : Swarm) (id : Nat) : Bool :=
  match P.procs id with
  | some ⟨.hydrate _ _, _, .done (.hydrated (.ok _)), _⟩ => true
  | _ => false

/-- What the client `id` of the run has done to the records of the agent. -/
inductive Effect (B : Build) (t a : String) (P : Swarm) (id : Nat) : CasOp AgentPair → Prop
  | read {p : Proc Reply Request Response} {t' a' : String} {r : HydrationResult}
      (hp : P.procs id = some p) (hq : p.request = .hydrate t' a')
      (hroot : keyRoot t' a' = keyRoot t a) (hdone : p.rest = done (.hydrated (.ok r))) :
      Effect B t a P id (.read r.pair)
  | swap {p : Proc Reply Request Response} {i : FreezeInput} {r : HydrationResult}
      {c₁ c₂ : Option Duration} {e₁ e₂ : ETag} (hp : P.procs id = some p)
      (hq : p.request = .freeze i) (hroot : keyRoot i.tenantId i.agentId = keyRoot t a)
      (hfrom : AfterHydrate P i r) (hmemory : ⟨i.memoryWrite B c₁, .ok e₁⟩ ∈ p.transcript)
      (hstate : ⟨i.stateWrite B c₁ c₂, .ok e₂⟩ ∈ p.transcript) :
      Effect B t a P id (.swap r.pair (i.frozen B c₁ c₂))

/-- `log` is an order in which a register with compare-and-swap could have executed the operations
of the agent in the run `ms`, and `v` is its value at the end. -/
structure Linearizes (M : AgentHydrationManager) (B : Build) (t a : String) (s₀ : Backing Author)
    (v₀ : AgentPair) (ms : List SwarmMove) (P : Swarm) (log : List (Nat × CasOp AgentPair))
    (v : AgentPair) : Prop where
  legal : CasOp.replay v₀ log = some v
  once : (log.map Prod.fst).Nodup
  sound : ∀ e ∈ log, Effect B t a P e.1 e.2
  hydrates : ∀ id p t' a' r, P.procs id = some p → p.request = .hydrate t' a' →
    keyRoot t' a' = keyRoot t a → p.rest = done (.hydrated (.ok r)) → (id, .read r.pair) ∈ log
  freezes : ∀ id p i seq, P.procs id = some p → p.request = .freeze i →
    keyRoot i.tenantId i.agentId = keyRoot t a → p.rest = done (.frozen (.ok seq)) →
    ∃ o, (id, o) ∈ log
  failed : ∀ id p i e, P.procs id = some p → p.request = .freeze i →
    p.rest = done (.frozen (.error e)) → ∀ o, (id, o) ∉ log
  order : ∀ pre P₁ id p id', pre <+: ms → Run (step M B) (FreezesInputs t a) (start s₀) pre P₁ →
    P₁.procs id = some p → (∀ c next, p.rest ≠ ask c next) → P₁.procs id' = none →
    ∀ x ∈ log, ∀ y ∈ log, x.1 = id → y.1 = id' → [x, y].Sublist log
  stored : (∀ id, ¬ HalfWritten t a P id) → ∀ state mem,
    HoldsPair B t a P.shared state mem → (state, mem) = v

theorem hydrateReturned_iff {id : Nat} :
    hydrateReturned P id = true ↔ ∃ p t' a' r, P.procs id = some p ∧
      p.request = .hydrate t' a' ∧ p.rest = done (.hydrated (.ok r)) := by
  constructor
  · intro h
    unfold hydrateReturned at h
    split at h
    · rename_i t' a' tr r b hp
      exact ⟨_, t', a', r, hp, rfl, rfl⟩
    · cases h
  · rintro ⟨⟨q, tr, rest, b⟩, t', a', r, hp, hq, hdone⟩
    cases hq
    cases hdone
    rw [hydrateReturned, hp]

/-- A read that is in the log is of a hydrate of the agent. -/
theorem logged_read {log : List (Nat × CasOp AgentPair)}
    (h : Logged (step M B) ok (Point B t a) (start s₀) ms P log) {id : Nat} {v : AgentPair}
    (he : (id, .read v) ∈ log) :
    ∃ p t' a', P.procs id = some p ∧ p.request = .hydrate t' a' ∧ keyRoot t' a' = keyRoot t a := by
  obtain ⟨pre, m, post, P₁, P₂, -, -, -, hs, hpost, hpoint⟩ := h.exists_move he
  cases hpoint with
  | read hroot hp hv =>
    obtain ⟨p₂, hp₂, hq₂, -⟩ := Pool.step_extends hs id _ hp
    obtain ⟨p, hp, hq, -⟩ := Pool.run_extends hpost id p₂ hp₂
    exact ⟨p, _, _, hp, hq.trans hq₂, hroot⟩

/-- A swap that is in the log has taken effect. -/
theorem logged_swap {log : List (Nat × CasOp AgentPair)}
    (h : Logged (step M B) ok (Point B t a) (start s₀) ms P log) {id : Nat} {v v' : AgentPair}
    (he : (id, .swap v v') ∈ log) : Effect B t a P id (.swap v v') := by
  obtain ⟨pre, m, post, P₁, P₂, -, -, -, hs, hpost, hpoint⟩ := h.exists_move he
  cases hpoint with
  | @swap _ _ w i r c₁ c₂ e₁ hroot hfrom hw =>
    obtain ⟨rest, hp₂⟩ := hw.after
    obtain ⟨p, hp, hq, hpre, -⟩ := Pool.run_extends hpost id _ hp₂
    have hkey : agentStateKey i.tenantId i.agentId = agentStateKey t a :=
      (agentStateKey_eq_iff _ _ _ _).mpr hroot
    have hmemory : ⟨i.memoryWrite B c₁, .ok e₁⟩ ∈ p.transcript :=
      hpre.subset (List.mem_append_left _ (List.mem_cons_of_mem _ List.mem_cons_self))
    have hstate : ⟨i.stateWrite B c₁ c₂, .ok w.etag⟩ ∈ p.transcript := by
      refine hpre.subset (List.mem_append_right _ (List.mem_singleton.mpr ?_))
      show (⟨.set (agentStateKey i.tenantId i.agentId) _ _ _, _⟩ : (c : Call) × Reply c) = _
      rw [hkey]
    exact .swap hp hq hroot ((hfrom.kept hs).kept_run hpost) hmemory hstate

/-- A freeze that has written its state has returned no error. -/
theorem run_no_error (h : Run (step M B) ok (start s₀) ms P) {id : Nat}
    {p : Proc Reply Request Response} (hp : P.procs id = some p) {i : FreezeInput}
    (hq : p.request = .freeze i) {c₁ c₂ : Option Duration} {e₂ : ETag}
    (hstate : ⟨i.stateWrite B c₁ c₂, .ok e₂⟩ ∈ p.transcript) (e : StateError) :
    p.rest ≠ done (.frozen (.error e)) := by
  intro hdone
  have hne : agentStateKey i.tenantId i.agentId ≠ workingMemoryKey i.tenantId i.agentId :=
    agentStateKey_ne_workingMemoryKey _ _ _ _
  have htrace := frozen_trace h hp hq hdone
  generalize htr : p.transcript = tr at htrace hstate
  -- Both places at which a freeze returns an error come before a state write that succeeds.
  cases freeze_stage htrace with
  | memoryFailed c e => simp [hne] at hstate
  | stateFailed c c' e₁ e => simp [hne] at hstate

/-- A freeze that has returned `Ok` has written its state. -/
theorem run_frozen_ok (h : Run (step M B) ok (start s₀) ms P) {id : Nat}
    {p : Proc Reply Request Response} (hp : P.procs id = some p) {i : FreezeInput}
    (hq : p.request = .freeze i) {seq : UInt64} (hdone : p.rest = done (.frozen (.ok seq))) :
    ∃ c₁ c₂ e₂, ⟨i.stateWrite B c₁ c₂, .ok e₂⟩ ∈ p.transcript := by
  have htrace := frozen_trace h hp hq hdone
  generalize p.transcript = tr at htrace
  cases freeze_stage htrace with
  | returned c₁ c₂ c₃ c₄ e₁ e₂ reply _ _ => exact ⟨c₁, c₂, e₂, by simp⟩

/-- A run has a log of its operations that linearizes it, once the reads of the hydrates that have
returned no result are left out. -/
theorem exists_logged_linearizes (hinit : StartsWith B t a s₀ state₀ mem₀)
    (h : Run (step M B) (FreezesInputs t a) (start s₀) ms P)
    (hshort : B.overflowChecks = false → ms.length < 2 ^ 64) :
    ∃ log keep v, Logged (step M B) (FreezesDistinct B t a) (Point B t a) (start s₀) ms P log ∧
      Linearizes M B t a s₀ (state₀, mem₀) ms P (log.filter keep) v := by
  have hdistinct : DistinctVersions B t a P.shared := distinct_of_short hinit h hshort
  obtain ⟨log, hlog⟩ := (run_freezesDistinct h hdistinct).exists_logged (Point B t a)
  obtain ⟨v, hreplay, hv⟩ := logged_refines hinit hlog
  have hnodup : (log.map Prod.fst).Nodup := logged_nodup hlog
  -- The reads of the hydrates that have not returned a result are left out.
  let keep : Nat × CasOp AgentPair → Bool := fun e => !e.2.isRead || hydrateReturned P e.1
  have hmem : ∀ e, e ∈ log.filter keep ↔ e ∈ log ∧ keep e = true := fun e => List.mem_filter
  have hsublist : (log.filter keep).Sublist log := List.filter_sublist
  have hhydrates : ∀ id p t' a' r, P.procs id = some p → p.request = .hydrate t' a' →
      keyRoot t' a' = keyRoot t a → p.rest = done (.hydrated (.ok r)) →
      (id, .read r.pair) ∈ log := fun id p t' a' r hp hq hroot hdone =>
    logged_hydrate hinit hlog hdistinct hp hq hroot hdone
  have hsound : ∀ e ∈ log.filter keep, Effect B t a P e.1 e.2 := by
    rintro ⟨id, o⟩ he
    obtain ⟨he, hkeep⟩ := (hmem _).mp he
    cases o with
    | swap v v' => exact logged_swap hlog he
    | read v' =>
      obtain ⟨p, t', a', hp, hq, hroot⟩ := logged_read hlog he
      obtain ⟨p', _, _, r, hp', -, hdone⟩ := hydrateReturned_iff.mp hkeep
      rw [hp, Option.some.injEq] at hp'
      subst hp'
      -- The client has one operation in the log, and it is the read of its result.
      have hread := hhydrates id p t' a' r hp hq hroot hdone
      have hsame := List.inj_on_of_nodup_map hnodup he hread rfl
      cases hsame
      exact .read hp hq hroot hdone
  refine ⟨log, keep, v, hlog, ?_⟩
  exact
    { legal := CasOp.replay_filter (fun e he => by simp [keep, he]) hreplay
      once := hnodup.sublist (hsublist.map Prod.fst)
      sound := hsound
      hydrates := by
        intro id p t' a' r hp hq hroot hdone
        refine (hmem _).mpr ⟨hhydrates id p t' a' r hp hq hroot hdone, ?_⟩
        exact Bool.or_eq_true_iff.mpr (.inr (hydrateReturned_iff.mpr ⟨p, t', a', r, hp, hq, hdone⟩))
      freezes := by
        intro id p i seq hp hq hroot hdone
        obtain ⟨c₁, c₂, e₂, hstate⟩ := run_frozen_ok h hp hq hdone
        obtain ⟨o, ho⟩ := logged_freeze hlog hp hq hroot hstate
        refine ⟨o, (hmem _).mpr ⟨ho, ?_⟩⟩
        -- The operation of a freeze is not a read.
        cases o with
        | swap v v' => rfl
        | read v' =>
          obtain ⟨p', t', a', hp', hq', -⟩ := logged_read hlog ho
          rw [hp, Option.some.injEq] at hp'
          subst hp'
          rw [hq] at hq'
          cases hq'
      failed := by
        intro id p i e hp hq hdone o ho
        cases hsound _ ho with
        | read hp' hq' _ _ =>
          rw [hp, Option.some.injEq] at hp'
          subst hp'
          rw [hq] at hq'
          cases hq'
        | swap hp' hq' _ _ _ hstate =>
          rw [hp, Option.some.injEq] at hp'
          subst hp'
          exact run_no_error h hp hq' hstate e hdone
      order := by
        intro pre P₁ id p id' hpre hrun hp hend hnone x hx y hy hxi hyi
        have hcut := hpre
        obtain ⟨post, rfl⟩ := hcut
        obtain ⟨P₁', hrun', -⟩ := hlog.run.split
        have hsame : P₁' = P₁ := hrun'.unique hrun
        subst hsame
        have hstopped : P₁'.Stopped id := ⟨p, hp, .inr hend⟩
        exact hlog.ordered_filter point_own keep hpre hrun' hstopped hnone hx hy hxi hyi
      stored := fun hquiet state mem hpair =>
        hv.eq_of_holdsPair hinit h hdistinct hquiet hpair }

/-- In every run of clients that freeze what they have hydrated, the two records of an agent are
one register with an atomic read and an atomic compare-and-swap. A hydrate that returns a result is
a read of the register, a freeze that returns `Ok` is one swap of the pair that its hydrate
returned, and a freeze that returns an error has had no effect on the register. The order respects
real time. This holds with crashes, failing calls and expiring records. -/
theorem run_linearizes (hinit : StartsWith B t a s₀ state₀ mem₀)
    (h : Run (step M B) (FreezesInputs t a) (start s₀) ms P)
    (hshort : B.overflowChecks = false → ms.length < 2 ^ 64) :
    ∃ log v, Linearizes M B t a s₀ (state₀, mem₀) ms P log v := by
  obtain ⟨log, keep, v, -, hlinearizes⟩ := exists_logged_linearizes hinit h hshort
  exact ⟨log.filter keep, v, hlinearizes⟩

/-- The run in which client 1 freezes the blank records that client 0 has hydrated. -/
theorem run_linearizes_blank :
    ∃ ms P log v,
      Linearizes .new debugBuild "acme" "writer" (blankStore none debugBuild "acme" "writer")
        (blankState "acme" "writer", blankMemory "acme" "writer") ms P log v ∧
      ∃ o, (1, o) ∈ log := by
  obtain ⟨ms, P, p, seq, hrun, hp, hq, hdone, -, -⟩ :=
    run_replaces_blank .new freezesHydrated_hydrate admitsSmooth_freezesHydrated
      fun P p rs rm hp hreads => freezesHydrated_freeze (afterHydrate_blank hp hreads)
  have hshort : debugBuild.overflowChecks = false → ms.length < 2 ^ 64 := fun hno => by cases hno
  obtain ⟨log, v, hlog⟩ :=
    run_linearizes (startsWith_pairStore rfl) (run_freezesInputs hrun) hshort
  exact ⟨ms, P, log, v, hlog, hlog.freezes 1 p _ seq hp hq rfl hdone⟩

end Swarm

end SwarmRuntime.State
