import SwarmRuntime.Proofs.Swarm
import SwarmRuntime.State.Codec

/-!
# `SwarmRuntime.Proofs.Activation`: two hydrates of one agent

The stale-ACTIVE guard of `hydrate` is to keep a second client from an agent that a first one
has hydrated. It reads the status of the stored record, and no function of the crate stores an
ACTIVE status: `freeze` stores FROZEN, and `hydrate` makes no write. So from a FROZEN record
the guard never fires, and it never reads the clock (`run_no_guard`).

`Overlap` is the situation that the guard is for. A hydrate has returned a result, no freeze
has written the state record since, and a second hydrate evaluates its guard within the
threshold and returns. Such a second hydrate is never turned away (`singleActivation_run_iff`),
and every positive threshold leaves room for one (`exists_overlap`). So single activation holds
exactly for the threshold `0`, which asks for nothing (`singleActivation_iff`).
-/

set_option autoImplicit false

namespace SwarmRuntime.State

open SwarmRuntime.Lib SwarmRuntime.Lib.Interaction

namespace Swarm

variable {M : AgentHydrationManager} {B : Build} {t a : String} {P : Swarm}
  {ok : Swarm → SwarmMove → Prop} {s₀ : Backing Author} {ms : List SwarmMove}
  {state₀ : AgentStateRecord} {mem₀ : WorkingMemoryRecord}

/-- The clock of each client shows the time of the store, so the readings of a run never
decrease. -/
def ClockShowsTime (P : Swarm) (m : SwarmMove) : Prop :=
  ∀ id w, m = .serve id w → (secondsOf w.clock).toNat = P.shared.time

/-- In the move `m` a hydrate of the agent returns a result. -/
def Returns (M : AgentHydrationManager) (B : Build) (t a : String) (P : Swarm) (m : SwarmMove)
    (P' : Swarm) : Prop :=
  step M B P m = some P' ∧ ∃ id w q r, m = .serve id w ∧ P'.procs id = some q ∧
    q.request = .hydrate t a ∧ q.rest = done (.hydrated (.ok r))

/-- In the move `m` the hydrate `id` of the agent is served a state record that decodes, and it
evaluates its guard on it. A hydrate whose read fails, or finds no record or other bytes, returns
before its guard. -/
def Guards (M : AgentHydrationManager) (B : Build) (t a : String) (id : Nat) (P : Swarm)
    (m : SwarmMove) (P' : Swarm) : Prop :=
  step M B P m = some P' ∧ ∃ w q next r state, m = .serve id w ∧ P.procs id = some q ∧
    q.request = .hydrate t a ∧ q.rest = ask (.get (agentStateKey t a)) next ∧
    (serve (some id) (.get (agentStateKey t a)) w P.shared).1 = .ok (some r) ∧
    B.state.decode r.value = .ok state

/-- Two hydrates of the agent overlap. One returns a result, in the step to `P₁`. No freeze
writes the state record from there to `P₂`. At `P₂`, within the threshold of the return,
another one evaluates its guard. At the end of the run that one has returned `result`. -/
def Overlap (M : AgentHydrationManager) (B : Build) (t a : String) (s₀ : Backing Author)
    (ms : List SwarmMove) (P : Swarm) (result : StateResult HydrationResult) : Prop :=
  ∃ pre m₁ mid m₂ post P₀ P₁ P₂ P₃ id p, ms = pre ++ m₁ :: (mid ++ m₂ :: post) ∧
    Run (step M B) ClockShowsTime (start s₀) pre P₀ ∧ Returns M B t a P₀ m₁ P₁ ∧
    Run (step M B) ClockShowsTime P₁ mid P₂ ∧ Guards M B t a id P₂ m₂ P₃ ∧
    Run (step M B) ClockShowsTime P₃ post P ∧
    P₂.shared.history (agentStateKey t a) = P₁.shared.history (agentStateKey t a) ∧
    P₂.shared.time < P₁.shared.time + M.staleActiveThresholdSecs.toNat ∧
    P.procs id = some p ∧ p.rest = done (.hydrated result)

/-- The client `id` has hydrated the agent, with the result `r`. -/
def HasHydrated (t a : String) (P : Swarm) (id : Nat) (r : HydrationResult) : Prop :=
  ∃ p, P.procs id = some p ∧ p.request = .hydrate t a ∧ p.rest = done (.hydrated (.ok r))

/-- While an agent is hydrated, every other hydrate of it returns `AgentBusy`. -/
def SingleActivation (M : AgentHydrationManager) (B : Build) (t a : String)
    (s₀ : Backing Author) (ms : List SwarmMove) (P : Swarm) : Prop :=
  ∀ result, Overlap M B t a s₀ ms P result → ∃ age, result = .error (.agentBusy t a age)

/-- Every state record that a run stores is FROZEN. -/
theorem run_frozen (hinit : StartsWith B t a s₀ state₀ mem₀)
    (hfrozen : state₀.status = AgentLifecycleStatus.frozen.toI32)
    (h : Run (step M B) ok (start s₀) ms P) {x : Entry String Bytes ETag Author}
    (hx : x ∈ P.shared.history (agentStateKey t a)) {state : AgentStateRecord}
    (hdec : B.state.decode x.value = .ok state) :
    state.status = AgentLifecycleStatus.frozen.toI32 := by
  obtain ⟨vs, hvs, hdecs⟩ := hinit.stateRecord
  induction h with
  | nil =>
    obtain ⟨x₀, hhist, hx₀, -⟩ := hvs.exists_entry
    have hx : x ∈ s₀.history (agentStateKey t a) := hx
    rw [hhist, List.mem_singleton] at hx
    rw [hx, hx₀, hdecs] at hdec
    cases hdec
    exact hfrozen
  | snoc hr _ hs ih =>
    obtain ⟨hsame, -⟩ | ⟨id, i, c₁, w, hroot, hw⟩ | ⟨id, i, c₁, c₂, e₁, w, hroot, hw⟩ :=
      step_primary hr hs t a
    · rw [hsame] at hx
      exact ih hx
    · rw [hw.history_of_ne (agentStateKey_ne_workingMemoryKey _ _ _ _)] at hx
      exact ih hx
    · rw [hw.history_self, List.mem_cons] at hx
      rcases hx with rfl | hx
      · rw [FreezeInput.stateBytes, B.state.decode_encodeToVec] at hdec
        cases hdec
        rfl
      · exact ih hx

/-- The guard of a hydrate never gets as far as the clock. -/
theorem run_no_guard (hinit : StartsWith B t a s₀ state₀ mem₀)
    (hfrozen : state₀.status = AgentLifecycleStatus.frozen.toI32)
    (h : Run (step M B) ok (start s₀) ms P) {id : Nat} {p : Proc Reply Request Response}
    (hp : P.procs id = some p) (hq : p.request = .hydrate t a) {c : Option Duration} :
    ⟨.now, c⟩ ∉ p.transcript := by
  intro hnow
  obtain ⟨vs, hvs, -⟩ := hinit.stateRecord
  have htrace : Trace (p.request.prog M B) p.transcript p.rest := run_traced h hp
  rw [hq] at htrace
  obtain ⟨q, hq', -⟩ := trace_map.mp htrace
  obtain ⟨rs, state, hread, hdec, hactive⟩ := hydrate_clock hq' hnow
  obtain ⟨x, hx, hxv, -⟩ := run_reads hvs.journaled h hp hread
  have hstatus : state.status = AgentLifecycleStatus.frozen.toI32 :=
    run_frozen hinit hfrozen h hx (by rw [hxv, hdec])
  rw [hstatus] at hactive
  exact absurd hactive (by decide)

/-- A read that fails reports an error of the store. -/
theorem run_get_error (h : Run (step M B) ok (start s₀) ms P) {id : Nat}
    {p : Proc Reply Request Response} (hp : P.procs id = some p) {key : String} {e : StateError}
    (hmem : ⟨.get key, .error e⟩ ∈ p.transcript) : ∃ msg, e = .daprError msg := by
  obtain ⟨t₁, t₂, ht⟩ := List.append_of_mem hmem
  obtain ⟨pre, w, post, P₁, P₂, next, -, -, -, -, -, -, hreply⟩ :=
    Pool.run_served h (fun _ hp => by cases hp) hp ht
  have hserve : (serve (some id) (.get key) w P₁.shared).1 = .error e := hreply.symm
  simp only [serve] at hserve
  split at hserve
  · rename_i msg _
    exact ⟨msg, (Except.error.inj hserve).symm⟩
  · cases hserve

/-- No hydrate returns `AgentBusy`. -/
theorem run_not_busy (hinit : StartsWith B t a s₀ state₀ mem₀)
    (hfrozen : state₀.status = AgentLifecycleStatus.frozen.toI32)
    (h : Run (step M B) ok (start s₀) ms P) {id : Nat} {p : Proc Reply Request Response}
    (hp : P.procs id = some p) (hq : p.request = .hydrate t a) {age : UInt64} :
    p.rest ≠ done (.hydrated (.error (.agentBusy t a age))) := by
  intro hdone
  have htrace := hydrated_trace h hp hq hdone
  have hnow : ∀ c, ⟨.now, c⟩ ∉ p.transcript := fun c => run_no_guard hinit hfrozen h hp hq
  have herror : ∀ key, ⟨.get key, .error (.agentBusy t a age)⟩ ∉ p.transcript := by
    intro key hmem
    obtain ⟨msg, hmsg⟩ := run_get_error h hp hmem
    cases hmsg
  generalize p.transcript = tr at htrace hnow herror
  generalize hr : (.error (.agentBusy t a age) : StateResult HydrationResult) = result at htrace
  cases hydrate_stage htrace with
  | stateFailed e =>
    cases hr
    exact herror _ List.mem_cons_self
  | stateMissing => cases hr
  | stateUndecodable rs e => cases hr
  | busy rs state c => exact hnow c (by simp)
  | memoryFailed rs state tr' hpass e =>
    cases hr
    exact herror (workingMemoryKey t a) (by simp)
  | memoryUndecodable rs state tr' hpass rm e => cases hr
  | returned rs state tr' hpass rm mem => cases hr

/-- A run from a FROZEN pair has single activation exactly when it has no overlap: when no
second hydrate evaluates its guard within the threshold of a hydrate that returned a result,
without a state write in between, and returns. -/
theorem singleActivation_run_iff (hinit : StartsWith B t a s₀ state₀ mem₀)
    (hfrozen : state₀.status = AgentLifecycleStatus.frozen.toI32)
    (h : Run (step M B) ClockShowsTime (start s₀) ms P) :
    SingleActivation M B t a s₀ ms P ↔ ¬ ∃ result, Overlap M B t a s₀ ms P result := by
  constructor
  · intro hsingle hoverlap
    obtain ⟨result, hoverlap⟩ := hoverlap
    obtain ⟨age, rfl⟩ := hsingle result hoverlap
    obtain ⟨pre, m₁, mid, m₂, post, P₀, P₁, P₂, P₃, id, p, -, -, -, -, ⟨hs₂, hguards⟩, hpost, -, -,
      hp, hdone⟩ := hoverlap
    obtain ⟨w, q, next, -, -, -, hq, hreq, -⟩ := hguards
    -- The second hydrate is still a hydrate of the agent at the end.
    have hreq₂ : p.request = .hydrate t a := by
      have hext : P₂.Extends P := (Pool.step_extends hs₂).trans (Pool.run_extends hpost)
      obtain ⟨p', hp', hkeep, -, -⟩ := hext id q hq
      rw [hp, Option.some.injEq] at hp'
      subst hp'
      exact hkeep.trans hreq
    exact run_not_busy hinit hfrozen h hp hreq₂ hdone
  · intro hno result hoverlap
    exact absurd ⟨result, hoverlap⟩ hno

/-! ### Two hydrates in a row -/

/-- The answers show the time of the store. -/
def ShowTime (ws : List Answer) (s : Backing Author) : Prop :=
  ∀ w ∈ ws, (secondsOf w.clock).toNat = s.time

/-- A hydrate on a store that holds a FROZEN pair of one version, by a client that no other
client disturbs. -/
theorem run_hydrate_frozen (M : AgentHydrationManager)
    (hlive : HoldsPair B t a P.shared state₀ mem₀)
    (hver : state₀.workingMemoryVersion = mem₀.version)
    (hfrozen : state₀.status = AgentLifecycleStatus.frozen.toI32)
    (htime : P.shared.time < 2 ^ 64) {id : Nat} (hid : P.procs id = none) :
    ∃ ms P' tr, Run (step M B) ClockShowsTime P ms P' ∧
      P'.procs id = some ⟨.hydrate t a, tr, done (.hydrated (.ok ⟨state₀, mem₀, false⟩)), false⟩ ∧
      P'.shared = P.shared ∧ (∀ id', id' ≠ id → P'.procs id' = P.procs id') ∧
      ∃ rs rm tail, B.state.decode rs.value = .ok state₀ ∧
        tr = ⟨.get (agentStateKey t a), .ok (some rs)⟩ ::
          (tail ++ [⟨.get (workingMemoryKey t a), .ok (some rm)⟩]) := by
  let w : Answer := ⟨none, ⟨""⟩, some ⟨UInt64.ofNat P.shared.time, 0⟩⟩
  have hclock : (secondsOf w.clock).toNat = P.shared.time := UInt64.toNat_ofNat_of_lt' htime
  obtain ⟨cs, hcs, hdecs⟩ := hlive.stateRecord
  obtain ⟨cm, hcm, hdecm⟩ := hlive.memoryRecord
  have hend : (exec (serve (some id)) (M.hydrate B t a).run [w, w, w] P.shared).ending
      = .returned (.ok ⟨state₀, mem₀, false⟩) := by
    rw [(exec_hydrate rfl rfl rfl).2, hydrateOn_eq_ok]
    refine ⟨cs, cm, hcs, hdecs, ?_, hcm, hdecm, hver.symm, rfl⟩
    intro hguard
    rw [hfrozen] at hguard
    exact absurd hguard.1 (by decide)
  have hok : ∀ P w ws, ShowTime (w :: ws) P.shared → ClockShowsTime P (.serve id w) := by
    intro P w ws hI id' w' hm
    cases hm
    exact hI w List.mem_cons_self
  have hkeep : ∀ c w ws s, ShowTime (w :: ws) s → ShowTime ws (serve (some id) c w s).2 := by
    intro c w ws s hI w' hw'
    rw [serve_time]
    exact hI w' (List.mem_cons_of_mem _ hw')
  have hstart : ClockShowsTime P (.start id (.hydrate t a)) := by
    intro id' w' hm
    cases hm
  have hshow : ShowTime [w, w, w] P.shared := by
    intro w' hw'
    have hw : w' = w := by simpa using hw'
    rw [hw, hclock]
  obtain ⟨ms, P', hrun, hproc, hshared, hothers, -⟩ :=
    run_hydrate_alone ShowTime hok hkeep hstart hid hshow hend
  obtain ⟨rs, rm, tail, htr, -, hdec, -⟩ := hydrate_ok (exec_trace (serve (some id)) hend)
  exact ⟨ms, P', _, hrun, hproc, hshared, hothers, rs, rm, tail, hdec, htr⟩

/-- The step in which a finished hydrate returned. -/
theorem exists_returns {P₀ : Swarm} (htraced : P₀.Traced (service M B))
    (h : Run (step M B) ClockShowsTime P₀ ms P) {id : Nat}
    (hinit : ∀ p, P₀.procs id = some p → p.transcript = []) {tr : Transcript Reply}
    {r : HydrationResult}
    (hp : P.procs id = some ⟨.hydrate t a, tr, done (.hydrated (.ok r)), false⟩)
    {t₁ : Transcript Reply} {c : Call} {reply : Reply c} (htr : tr = t₁ ++ [⟨c, reply⟩]) :
    ∃ pre m post P₁ P₂, ms = pre ++ m :: post ∧ Run (step M B) ClockShowsTime P₀ pre P₁ ∧
      Returns M B t a P₁ m P₂ ∧ ClockShowsTime P₁ m ∧ Run (step M B) ClockShowsTime P₂ post P := by
  obtain ⟨pre, w, post, P₁, P₂, next, hms, hpre, hok, hs, hpost, hi, hreply⟩ :=
    Pool.run_served h hinit hp htr
  refine ⟨pre, .serve id w, post, P₁, P₂, hms, hpre, ⟨hs, id, w, ?_⟩, hok, hpost⟩
  obtain ⟨q, tr', c', next', hq, rfl⟩ := Pool.step_serve.mp hs
  rw [hi, Option.some.injEq, Proc.mk.injEq] at hq
  obtain ⟨rfl, rfl, hask, -⟩ := hq
  cases hask
  -- The transcript is complete after the step, so the hydrate stands where it stands at the end.
  have hproc₂ := Pool.procs_setProc_self (P₁.setShared (serve (some id) c w P₁.shared).2) id
    ⟨.hydrate t a, t₁ ++ [⟨c, (serve (some id) c w P₁.shared).1⟩],
      next (serve (some id) c w P₁.shared).1, false⟩
  have htraced₁ := Pool.run_traced (Pool.run_traced htraced hpre) (.snoc .nil hok hs)
  have hend := htraced₁ id _ hproc₂
  have hend' := Pool.run_traced htraced h id _ hp
  rw [htr, hreply] at hend'
  exact ⟨_, r, rfl, hproc₂, rfl, hend.unique hend'⟩

/-- The step in which a finished hydrate evaluated its guard. -/
theorem exists_guards {P₀ : Swarm} (h : Run (step M B) ClockShowsTime P₀ ms P) {id : Nat}
    (hinit : ∀ p, P₀.procs id = some p → p.transcript = []) {tr : Transcript Reply}
    {q : Async Response} (hp : P.procs id = some ⟨.hydrate t a, tr, q, false⟩)
    {rs : StateRecord} {t₂ : Transcript Reply}
    (htr : tr = ⟨.get (agentStateKey t a), .ok (some rs)⟩ :: t₂) {state : AgentStateRecord}
    (hdec : B.state.decode rs.value = .ok state) :
    ∃ pre m post P₁ P₂, ms = pre ++ m :: post ∧ Run (step M B) ClockShowsTime P₀ pre P₁ ∧
      Guards M B t a id P₁ m P₂ ∧ Run (step M B) ClockShowsTime P₂ post P := by
  have hsplit : tr = [] ++ ⟨.get (agentStateKey t a), .ok (some rs)⟩ :: t₂ := htr
  obtain ⟨pre, w, post, P₁, P₂, next, hms, hpre, -, hs, hpost, hi, hreply⟩ :=
    Pool.run_served h hinit hp hsplit
  have hguards : Guards M B t a id P₁ (.serve id w) P₂ :=
    ⟨hs, w, _, next, rs, state, rfl, hi, rfl, rfl, hreply.symm, hdec⟩
  exact ⟨pre, .serve id w, post, P₁, P₂, hms, hpre, hguards, hpost⟩

/-- From every FROZEN pair that can be read, a run leads to an overlap in which both hydrates
return the pair, when the threshold is positive. -/
theorem exists_overlap (hlive : HoldsPair B t a s₀ state₀ mem₀)
    (hver : state₀.workingMemoryVersion = mem₀.version)
    (hfrozen : state₀.status = AgentLifecycleStatus.frozen.toI32) (htime : s₀.time < 2 ^ 64)
    (hpos : M.staleActiveThresholdSecs ≠ 0) :
    ∃ ms P, Run (step M B) ClockShowsTime (start s₀) ms P ∧
      Overlap M B t a s₀ ms P (.ok ⟨state₀, mem₀, false⟩) ∧
      HasHydrated t a P 0 ⟨state₀, mem₀, false⟩ ∧ HasHydrated t a P 1 ⟨state₀, mem₀, false⟩ := by
  have hstart : ∀ id, (start s₀).procs id = none := fun _ => rfl
  have hlivea : HoldsPair B t a (start s₀).shared state₀ mem₀ := hlive
  -- The client 0 hydrates, and then the client 1 does.
  obtain ⟨msa, Pa, tra, hruna, hproca, hshareda, hothers, rs, rm, tail, -, htra⟩ :=
    run_hydrate_frozen M hlivea hver hfrozen htime (hstart 0)
  have hliveb : HoldsPair B t a Pa.shared state₀ mem₀ := by rwa [hshareda]
  have htimeb : Pa.shared.time < 2 ^ 64 := by rwa [hshareda]
  have hone : Pa.procs 1 = none := by rw [hothers 1 Nat.one_ne_zero, hstart]
  obtain ⟨msb, Pb, trb, hrunb, hprocb, hsharedb, hothersb, rsb, rmb, tailb, hdecb, htrb⟩ :=
    run_hydrate_frozen M hliveb hver hfrozen htimeb hone
  have hlast : tra = (⟨.get (agentStateKey t a), .ok (some rs)⟩ :: tail) ++
      [⟨.get (workingMemoryKey t a), .ok (some rm)⟩] := htra
  -- The step in which the first one returns, and the step of the second guard.
  obtain ⟨pre, m₁, mid, P₀, P₁, hmsa, hpre, hreturns, hok₁, hmid⟩ :=
    exists_returns (fun _ _ hp => by cases hp) hruna (fun _ hp => by cases hp) hproca hlast
  obtain ⟨pre', m₂, post, P₂, P₃, hmsb, hpre', hguards, hpost⟩ :=
    exists_guards hrunb (fun _ hp => by rw [hone] at hp; cases hp) hprocb htrb hdecb
  -- Nothing is written, and no time passes.
  have hbefore : s₀.Later P₁.shared :=
    (run_later hpre).trans (step_later hreturns.1)
  have hbetween : P₁.shared.Later s₀ := by
    have hlater := run_later hmid
    rwa [hshareda] at hlater
  have hafter : s₀.Later P₂.shared := by
    have hlater := run_later hpre'
    rwa [hshareda] at hlater
  have hend : P₂.shared.Later s₀ := by
    have hlater := (step_later hguards.1).trans (run_later hpost)
    rwa [hsharedb, hshareda] at hlater
  obtain ⟨htime₁, hhist₁⟩ := hbefore.unchanged hbetween (agentStateKey t a)
  obtain ⟨htime₂, hhist₂⟩ := hafter.unchanged hend (agentStateKey t a)
  have hthreshold : 0 < M.staleActiveThresholdSecs.toNat :=
    Nat.pos_of_ne_zero fun hzero => hpos (UInt64.toNat_inj.mp hzero)
  have hzero : Pb.procs 0 = _ := (hothersb 0 Nat.zero_ne_one).trans hproca
  refine ⟨msa ++ msb, Pb, hruna.append hrunb, ⟨pre, m₁, mid ++ pre', m₂, post, P₀, P₁, P₂, P₃, 1, _,
    ?_, hpre, hreturns, hmid.append hpre', hguards, hpost, ?_, ?_, hprocb, rfl⟩,
    ⟨_, hzero, rfl, rfl⟩, ⟨_, hprocb, rfl, rfl⟩⟩
  · rw [hmsa, hmsb]
    simp
  · show P₂.shared.history (agentStateKey t a) = P₁.shared.history (agentStateKey t a)
    rw [hhist₂, hhist₁]
  · show P₂.shared.time < P₁.shared.time + M.staleActiveThresholdSecs.toNat
    rw [htime₂, htime₁]
    omega

/-- From a FROZEN pair that can be read, every run has single activation exactly when the
threshold is `0`, where the property asks for nothing. -/
theorem singleActivation_iff (hinit : StartsWith B t a s₀ state₀ mem₀)
    (hlive : HoldsPair B t a s₀ state₀ mem₀)
    (hfrozen : state₀.status = AgentLifecycleStatus.frozen.toI32) (htime : s₀.time < 2 ^ 64) :
    (∀ ms P, Run (step M B) ClockShowsTime (start s₀) ms P →
      SingleActivation M B t a s₀ ms P) ↔ M.staleActiveThresholdSecs = 0 := by
  constructor
  · intro hsingle
    by_contra hpos
    obtain ⟨ms, P, hrun, hoverlap, -⟩ := exists_overlap hlive hinit.versions hfrozen htime hpos
    obtain ⟨age, hbusy⟩ := hsingle ms P hrun _ hoverlap
    cases hbusy
  · intro hzero ms P hrun result hoverlap
    obtain ⟨pre, m₁, mid, m₂, post, P₀, P₁, P₂, P₃, id, p, -, -, -, hmid, -, -, -, hwindow, -⟩ :=
      hoverlap
    -- The window of the threshold `0` is empty.
    have hlater : P₁.shared.time ≤ P₂.shared.time := (run_later hmid).time
    have hempty : M.staleActiveThresholdSecs.toNat = 0 := by rw [hzero]; rfl
    omega

/-- The default threshold on the blank records. -/
theorem singleActivation_iff_blank :
    (∀ ms P, Run (step .new releaseBuild) ClockShowsTime
        (start (blankStore none releaseBuild "acme" "writer")) ms P →
      SingleActivation .new releaseBuild "acme" "writer"
        (blankStore none releaseBuild "acme" "writer") ms P) ↔
      AgentHydrationManager.new.staleActiveThresholdSecs = 0 :=
  singleActivation_iff (startsWith_pairStore rfl) holdsPair_pairStore rfl (by decide)

/-- With the default threshold of 300 seconds two clients hydrate the blank records, one right
after the other, and both return them. -/
theorem not_singleActivation :
    ∃ ms P, Run (step .new releaseBuild) ClockShowsTime
        (start (blankStore none releaseBuild "acme" "writer")) ms P ∧
      HasHydrated "acme" "writer" P 0
        ⟨blankState "acme" "writer", blankMemory "acme" "writer", false⟩ ∧
      HasHydrated "acme" "writer" P 1
        ⟨blankState "acme" "writer", blankMemory "acme" "writer", false⟩ ∧
      ¬ SingleActivation .new releaseBuild "acme" "writer"
        (blankStore none releaseBuild "acme" "writer") ms P := by
  have hlive : HoldsPair releaseBuild "acme" "writer"
      (blankStore (none : Author) releaseBuild "acme" "writer") (blankState "acme" "writer")
      (blankMemory "acme" "writer") := holdsPair_pairStore
  have hpos : AgentHydrationManager.new.staleActiveThresholdSecs ≠ 0 := by decide
  obtain ⟨ms, P, hrun, hoverlap, hzero, hone⟩ := exists_overlap hlive rfl rfl (by decide) hpos
  refine ⟨ms, P, hrun, hzero, hone, ?_⟩
  intro hsingle
  obtain ⟨age, hbusy⟩ := hsingle _ hoverlap
  cases hbusy

end Swarm

end SwarmRuntime.State
