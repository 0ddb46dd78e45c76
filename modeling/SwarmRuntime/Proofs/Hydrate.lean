import SwarmRuntime.State.Hydrate

/-!
# `SwarmRuntime.Proofs.Hydrate`: the calls of a hydrate

`hydrate_run_eq` writes `hydrate` as its sequence of calls: the state read, a clock reading
when the record is ACTIVE, the memory read. What follows each reply is named:
`afterStateRead`, `loadMemory`, `afterMemoryRead`. `hydrateWith_run_eq` is the same for a
hydrate with an arbitrary recovery.

`hydrate_stage` lists where a hydrate can stand. A hydrate never writes (`hydrate_reads`),
reads the clock only for an ACTIVE record (`hydrate_clock`), and has read both records when
it returns a result (`hydrate_ok`). Because the recovery is a stub, no hydrate returns a
recovered result.
-/

set_option autoImplicit false

namespace SwarmRuntime.State

open SwarmRuntime.Lib SwarmRuntime.Lib.Interaction

namespace AgentHydrationManager

variable (M : AgentHydrationManager) (B : Build) (t a : String)

/-- What is left of the hydrate of `state` once the memory read has its reply. -/
def afterMemoryRead (state : AgentStateRecord) :
    StateResult (Option StateRecord) → Async (StateResult HydrationResult)
  | .error e => done (.error e)
  | .ok none => Interaction.panic "not yet implemented: checkpoint recovery — Phase 1"
  | .ok (some r) =>
      match B.memory.decode r.value with
      | .error e => done (.error (.protoError e))
      | .ok mem =>
          if mem.version ≠ state.workingMemoryVersion then
            Interaction.panic "not yet implemented: checkpoint recovery — Phase 1"
          else done (.ok ⟨state, mem, false⟩)

/-- What is left of the hydrate of `state` once the guard has passed. -/
def loadMemory (state : AgentStateRecord) : Async (StateResult HydrationResult) :=
  ask (.get (workingMemoryKey t a)) (afterMemoryRead B state)

/-- The age of an ACTIVE record as the guard computes it, with the clock at `c`. -/
def activeAge (state : AgentStateRecord) (c : Option Duration) : UInt64 :=
  saturatingSub (c.getD default).asSecs (lastHydratedSecs state)

/-- What is left of the hydrate once the state read has its reply. -/
def afterStateRead : StateResult (Option StateRecord) → Async (StateResult HydrationResult)
  | .error e => done (.error e)
  | .ok none =>
      done (.error (.invalidInput s!"no state record found for agent {a}; must create new agent"))
  | .ok (some r) =>
      match B.state.decode r.value with
      | .error e => done (.error (.protoError e))
      | .ok state =>
          if state.status = AgentLifecycleStatus.active.toI32 then
            ask .now fun c =>
              if activeAge state c < M.staleActiveThresholdSecs then
                done (.error (.agentBusy t a (activeAge state c)))
              else loadMemory B t a state
          else loadMemory B t a state

section
variable (recover : AsyncResult WorkingMemoryRecord)

/-- What a hydrate of `state` makes of the recovery after a torn write. -/
def ofTorn (state : AgentStateRecord) (mem : WorkingMemoryRecord) :
    StateResult WorkingMemoryRecord → StateResult HydrationResult
  | .ok recoveredMem => .ok ⟨state, recoveredMem, true⟩
  | .error _ => .error (.tornWrite a state.workingMemoryVersion mem.version)

/-- `afterMemoryRead` with an arbitrary recovery. -/
def afterMemoryReadWith (state : AgentStateRecord) :
    StateResult (Option StateRecord) → Async (StateResult HydrationResult)
  | .error e => done (.error e)
  | .ok none => Except.map (fun mem => ⟨state, mem, true⟩) <$> recover.run
  | .ok (some r) =>
      match B.memory.decode r.value with
      | .error e => done (.error (.protoError e))
      | .ok mem =>
          if mem.version ≠ state.workingMemoryVersion then ofTorn a state mem <$> recover.run
          else done (.ok ⟨state, mem, false⟩)

/-- `loadMemory` with an arbitrary recovery. -/
def loadMemoryWith (state : AgentStateRecord) : Async (StateResult HydrationResult) :=
  ask (.get (workingMemoryKey t a)) (afterMemoryReadWith B a recover state)

/-- `afterStateRead` with an arbitrary recovery. -/
def afterStateReadWith : StateResult (Option StateRecord) → Async (StateResult HydrationResult)
  | .error e => done (.error e)
  | .ok none =>
      done (.error (.invalidInput s!"no state record found for agent {a}; must create new agent"))
  | .ok (some r) =>
      match B.state.decode r.value with
      | .error e => done (.error (.protoError e))
      | .ok state =>
          if state.status = AgentLifecycleStatus.active.toI32 then
            ask .now fun c =>
              if activeAge state c < M.staleActiveThresholdSecs then
                done (.error (.agentBusy t a (activeAge state c)))
              else loadMemoryWith B t a recover state
          else loadMemoryWith B t a recover state

end

end AgentHydrationManager

open AgentHydrationManager

variable {M : AgentHydrationManager} {B : Build} {t a : String}

/-- A read, then `f` on what it returns. -/
theorem run_get_bind {T : Type} (key : String) (f : Option StateRecord → AsyncResult T) :
    (DaprStateStore.get key >>= f).run = ask (.get key) fun
      | .error e => done (.error e)
      | .ok r => (f r).run := by
  show (ask _ _ : Async _) = ask _ _
  congr 1
  funext r
  cases r with
  | error e => rfl
  | ok r => rfl

/-- A decode, then `f` on the message. -/
theorem run_decodeRecord_bind {T N : Type} (P : Message N) (bytes : Bytes)
    (f : N → AsyncResult T) :
    (decodeRecord P bytes >>= f).run = match P.decode bytes with
      | .error e => done (.error (.protoError e))
      | .ok m => (f m).run := by
  unfold decodeRecord
  cases P.decode bytes with
  | error e => rfl
  | ok m => rfl

/-- The guard, then `x`. -/
private theorem run_staleActiveGuard_bind {T : Type} (state : AgentStateRecord)
    (x : AsyncResult T) :
    (M.staleActiveGuard t a state >>= fun _ => x).run =
      if state.status = AgentLifecycleStatus.active.toI32 then
        ask .now fun c =>
          if activeAge state c < M.staleActiveThresholdSecs then
            done (.error (.agentBusy t a (activeAge state c)))
          else x.run
      else x.run := by
  unfold staleActiveGuard
  by_cases hactive : state.status = AgentLifecycleStatus.active.toI32
  · rw [if_pos hactive, if_pos hactive]
    show (ask _ _ : Async _) = ask _ _
    congr 1
    funext c
    show (Interaction.bind (ExceptT.run (if activeAge state c < M.staleActiveThresholdSecs then
      (throw (.agentBusy t a (activeAge state c)) : AsyncResult Unit) else pure ()))
        (ExceptT.bindCont fun _ => x) : Async _) = _
    by_cases hage : activeAge state c < M.staleActiveThresholdSecs
    · rw [if_pos hage, if_pos hage]
      rfl
    · rw [if_neg hage, if_neg hage]
      rfl
  · rw [if_neg hactive, if_neg hactive]
    rfl

/-- A recovery, then `f` on its result. -/
private theorem run_recover_bind {recover : AsyncResult WorkingMemoryRecord}
    {f : WorkingMemoryRecord → AsyncResult HydrationResult}
    {g : StateResult WorkingMemoryRecord → StateResult HydrationResult}
    (hok : ∀ mem, (f mem).run = done (g (.ok mem)))
    (herr : ∀ e, g (.error e) = .error e) : (recover >>= f).run = g <$> recover.run := by
  show (recover.run >>= ExceptT.bindCont f : Async _) = recover.run >>= fun x => done (g x)
  congr 1
  funext x
  cases x with
  | ok mem => exact hok mem
  | error e => exact congrArg done (herr e).symm

/-- A recovery whose error is replaced by a torn write. -/
private theorem run_mapErr_bind {recover : AsyncResult WorkingMemoryRecord}
    (state : AgentStateRecord) (mem : WorkingMemoryRecord) :
    (mapErr recover (fun _ => .tornWrite a state.workingMemoryVersion mem.version) >>=
      fun recoveredMem => (return ⟨state, recoveredMem, true⟩ : AsyncResult HydrationResult)).run
      = ofTorn a state mem <$> recover.run := by
  show Interaction.bind (Interaction.bind recover.run _) (ExceptT.bindCont _)
    = Interaction.bind recover.run fun x => done (ofTorn a state mem x)
  rw [Interaction.bind_assoc]
  congr 1
  funext x
  cases x with
  | ok mem => rfl
  | error e => rfl

/-- Step 3 and step 4 of a hydrate, as their call. -/
private theorem loadMemoryWith_eq (recover : AsyncResult WorkingMemoryRecord)
    (state : AgentStateRecord) :
    ExceptT.run (m := Async) (do
      match ← DaprStateStore.get (workingMemoryKey t a) with
      | none =>
          let mem ← recover
          return ⟨state, mem, true⟩
      | some r =>
          let mem ← decodeRecord B.memory r.value
          if mem.version ≠ state.workingMemoryVersion then
            let recoveredMem ← mapErr recover fun _ =>
              .tornWrite a state.workingMemoryVersion mem.version
            return ⟨state, recoveredMem, true⟩
          else return (⟨state, mem, false⟩ : HydrationResult))
      = loadMemoryWith B t a recover state := by
  -- One case for each reply of the memory read.
  rw [run_get_bind, loadMemoryWith]
  congr 1
  funext r
  match r with
  | .error e => rfl
  | .ok none => exact run_recover_bind (fun _ => rfl) fun _ => rfl
  | .ok (some r) =>
    simp only [afterMemoryReadWith]
    rw [run_decodeRecord_bind]
    cases B.memory.decode r.value with
    | error e => rfl
    | ok mem =>
      simp only
      by_cases hver : mem.version = state.workingMemoryVersion
      · rw [if_neg (not_not_intro hver), if_neg (not_not_intro hver)]
        rfl
      · rw [if_pos hver, if_pos hver]
        exact run_mapErr_bind state mem

/-- A hydrate with an arbitrary recovery, as its sequence of calls. -/
theorem hydrateWith_run_eq (recover : AsyncResult WorkingMemoryRecord) :
    (M.hydrateWith recover B t a).run
      = ask (.get (agentStateKey t a)) (afterStateReadWith M B t a recover) := by
  unfold hydrateWith
  rw [run_get_bind]
  congr 1
  funext r
  match r with
  | .error e => rfl
  | .ok none => rfl
  | .ok (some r) =>
    simp only [afterStateReadWith]
    rw [run_decodeRecord_bind]
    cases B.state.decode r.value with
    | error e => rfl
    | ok state =>
      simp only
      rw [run_staleActiveGuard_bind]
      by_cases hactive : state.status = AgentLifecycleStatus.active.toI32
      · rw [if_pos hactive, if_pos hactive]
        congr 1
        funext c
        by_cases hage : activeAge state c < M.staleActiveThresholdSecs
        · rw [if_pos hage, if_pos hage]
        · rw [if_neg hage, if_neg hage]
          exact loadMemoryWith_eq recover state
      · rw [if_neg hactive, if_neg hactive]
        exact loadMemoryWith_eq recover state

/-- A hydrate, as its sequence of calls. Its recovery panics, so nothing follows it. -/
theorem hydrate_run_eq :
    (M.hydrate B t a).run = ask (.get (agentStateKey t a)) (afterStateRead M B t a) := by
  unfold hydrate
  rw [hydrateWith_run_eq]
  rfl

/-! ### Where a hydrate can stand -/

/-- `tr` is the transcript of a hydrate that has read the record `rs`, a `state`, and has
passed the guard. -/
inductive GuardPassed (M : AgentHydrationManager) (B : Build) (t a : String) (rs : StateRecord)
    (state : AgentStateRecord) : Transcript Reply → Prop
  | notActive (hdec : B.state.decode rs.value = .ok state)
      (hactive : state.status ≠ AgentLifecycleStatus.active.toI32) :
      GuardPassed M B t a rs state [⟨.get (agentStateKey t a), .ok (some rs)⟩]
  | stale (c : Option Duration) (hdec : B.state.decode rs.value = .ok state)
      (hactive : state.status = AgentLifecycleStatus.active.toI32)
      (hage : M.staleActiveThresholdSecs ≤ activeAge state c) :
      GuardPassed M B t a rs state [⟨.get (agentStateKey t a), .ok (some rs)⟩, ⟨.now, c⟩]

/-- The places of a hydrate, each with its transcript. -/
inductive HydrateStage (M : AgentHydrationManager) (B : Build) (t a : String) :
    Transcript Reply → Async (StateResult HydrationResult) → Prop
  | start {k} : HydrateStage M B t a [] (ask (.get (agentStateKey t a)) k)
  | stateFailed (e : StateError) :
      HydrateStage M B t a [⟨.get (agentStateKey t a), .error e⟩] (done (.error e))
  | stateMissing :
      HydrateStage M B t a [⟨.get (agentStateKey t a), .ok none⟩] (done (.error (.invalidInput
        s!"no state record found for agent {a}; must create new agent")))
  | stateUndecodable (rs : StateRecord) (e : DecodeError)
      (hdec : B.state.decode rs.value = .error e) :
      HydrateStage M B t a [⟨.get (agentStateKey t a), .ok (some rs)⟩]
        (done (.error (.protoError e)))
  | guard {k} (rs : StateRecord) (state : AgentStateRecord)
      (hdec : B.state.decode rs.value = .ok state)
      (hactive : state.status = AgentLifecycleStatus.active.toI32) :
      HydrateStage M B t a [⟨.get (agentStateKey t a), .ok (some rs)⟩] (ask .now k)
  | busy (rs : StateRecord) (state : AgentStateRecord) (c : Option Duration)
      (hdec : B.state.decode rs.value = .ok state)
      (hactive : state.status = AgentLifecycleStatus.active.toI32)
      (hage : activeAge state c < M.staleActiveThresholdSecs) :
      HydrateStage M B t a [⟨.get (agentStateKey t a), .ok (some rs)⟩, ⟨.now, c⟩]
        (done (.error (.agentBusy t a (activeAge state c))))
  | memory {k} (rs : StateRecord) (state : AgentStateRecord) (tr : Transcript Reply)
      (hpass : GuardPassed M B t a rs state tr) :
      HydrateStage M B t a tr (ask (.get (workingMemoryKey t a)) k)
  | memoryFailed (rs : StateRecord) (state : AgentStateRecord) (tr : Transcript Reply)
      (hpass : GuardPassed M B t a rs state tr) (e : StateError) :
      HydrateStage M B t a (tr ++ [⟨.get (workingMemoryKey t a), .error e⟩]) (done (.error e))
  | memoryMissing (rs : StateRecord) (state : AgentStateRecord) (tr : Transcript Reply)
      (hpass : GuardPassed M B t a rs state tr) :
      HydrateStage M B t a (tr ++ [⟨.get (workingMemoryKey t a), .ok none⟩])
        (Interaction.panic "not yet implemented: checkpoint recovery — Phase 1")
  | memoryUndecodable (rs : StateRecord) (state : AgentStateRecord) (tr : Transcript Reply)
      (hpass : GuardPassed M B t a rs state tr) (rm : StateRecord) (e : DecodeError)
      (hdec : B.memory.decode rm.value = .error e) :
      HydrateStage M B t a (tr ++ [⟨.get (workingMemoryKey t a), .ok (some rm)⟩])
        (done (.error (.protoError e)))
  | torn (rs : StateRecord) (state : AgentStateRecord) (tr : Transcript Reply)
      (hpass : GuardPassed M B t a rs state tr) (rm : StateRecord) (mem : WorkingMemoryRecord)
      (hdec : B.memory.decode rm.value = .ok mem)
      (hver : mem.version ≠ state.workingMemoryVersion) :
      HydrateStage M B t a (tr ++ [⟨.get (workingMemoryKey t a), .ok (some rm)⟩])
        (Interaction.panic "not yet implemented: checkpoint recovery — Phase 1")
  | returned (rs : StateRecord) (state : AgentStateRecord) (tr : Transcript Reply)
      (hpass : GuardPassed M B t a rs state tr) (rm : StateRecord) (mem : WorkingMemoryRecord)
      (hdec : B.memory.decode rm.value = .ok mem)
      (hver : mem.version = state.workingMemoryVersion) :
      HydrateStage M B t a (tr ++ [⟨.get (workingMemoryKey t a), .ok (some rm)⟩])
        (done (.ok ⟨state, mem, false⟩))

/-- The places of a hydrate from the memory read on. -/
private theorem loadMemory_stage {rs : StateRecord} {state : AgentStateRecord}
    {tr tr' : Transcript Reply} {q : Async (StateResult HydrationResult)}
    (hpass : GuardPassed M B t a rs state tr) (h : Trace (loadMemory B t a state) tr' q) :
    HydrateStage M B t a (tr ++ tr') q := by
  rw [loadMemory, trace_ask] at h
  -- It waits at the memory read, or has its reply.
  rcases h with ⟨rfl, rfl⟩ | ⟨reply, tr', rfl, h⟩
  · rw [List.append_nil]
    exact .memory rs state tr hpass
  match reply with
  | .error e =>
    obtain ⟨rfl, rfl⟩ := trace_done.mp h
    exact .memoryFailed rs state tr hpass e
  | .ok none =>
    obtain ⟨rfl, rfl⟩ := trace_panic.mp h
    exact .memoryMissing rs state tr hpass
  | .ok (some rm) =>
    simp only [afterMemoryRead] at h
    cases hdec : B.memory.decode rm.value with
    | error e =>
      rw [hdec] at h
      obtain ⟨rfl, rfl⟩ := trace_done.mp h
      exact .memoryUndecodable rs state tr hpass rm e hdec
    | ok mem =>
      rw [hdec] at h
      by_cases hver : mem.version = state.workingMemoryVersion
      · simp only at h
        rw [if_neg (not_not_intro hver), trace_done] at h
        obtain ⟨rfl, rfl⟩ := h
        exact .returned rs state tr hpass rm mem hdec hver
      · simp only at h
        rw [if_pos hver, trace_panic] at h
        obtain ⟨rfl, rfl⟩ := h
        exact .torn rs state tr hpass rm mem hdec hver

/-- A hydrate stands at one of its places. The case split follows the replies, oldest
first. -/
theorem hydrate_stage {tr : Transcript Reply} {q : Async (StateResult HydrationResult)}
    (h : Trace (M.hydrate B t a).run tr q) : HydrateStage M B t a tr q := by
  rw [hydrate_run_eq, trace_ask] at h
  rcases h with ⟨rfl, rfl⟩ | ⟨reply, tr', rfl, h⟩
  · exact .start
  match reply with
  | .error e =>
    obtain ⟨rfl, rfl⟩ := trace_done.mp h
    exact .stateFailed e
  | .ok none =>
    obtain ⟨rfl, rfl⟩ := trace_done.mp h
    exact .stateMissing
  | .ok (some rs) =>
    simp only [afterStateRead] at h
    cases hdec : B.state.decode rs.value with
    | error e =>
      rw [hdec] at h
      obtain ⟨rfl, rfl⟩ := trace_done.mp h
      exact .stateUndecodable rs e hdec
    | ok state =>
      rw [hdec] at h
      simp only at h
      by_cases hactive : state.status = AgentLifecycleStatus.active.toI32
      · rw [if_pos hactive, trace_ask] at h
        -- Only an ACTIVE record leads to the clock.
        rcases h with ⟨rfl, rfl⟩ | ⟨c, tr'', rfl, h⟩
        · exact .guard rs state hdec hactive
        by_cases hage : activeAge state c < M.staleActiveThresholdSecs
        · rw [if_pos hage, trace_done] at h
          obtain ⟨rfl, rfl⟩ := h
          exact .busy rs state c hdec hactive hage
        · rw [if_neg hage] at h
          have hle : M.staleActiveThresholdSecs ≤ activeAge state c := UInt64.not_lt.mp hage
          exact loadMemory_stage (.stale c hdec hactive hle) h
      · rw [if_neg hactive] at h
        exact loadMemory_stage (.notActive hdec hactive) h

theorem GuardPassed.decode {rs : StateRecord} {state : AgentStateRecord} {tr : Transcript Reply}
    (h : GuardPassed M B t a rs state tr) : B.state.decode rs.value = .ok state := by
  cases h with
  | notActive hdec => exact hdec
  | stale _ hdec => exact hdec

/-- A hydrate that has passed the guard has read the state record first, and then at most the
clock. -/
theorem GuardPassed.exists_tail {rs : StateRecord} {state : AgentStateRecord}
    {tr : Transcript Reply} (h : GuardPassed M B t a rs state tr) :
    ∃ tail, tr = ⟨.get (agentStateKey t a), .ok (some rs)⟩ :: tail ∧
      ∀ x ∈ tail, x.1 = Call.now := by
  cases h with
  | notActive => exact ⟨[], rfl, by simp⟩
  | stale c => exact ⟨[⟨.now, c⟩], rfl, by simp⟩

/-- A hydrate makes no write. -/
theorem hydrate_reads {tr : Transcript Reply} {key : String} {value : Bytes}
    {etag : Option ETag} {ttl : TtlPolicy}
    {next : Reply (.set key value etag ttl) → Async (StateResult HydrationResult)} :
    ¬ Trace (M.hydrate B t a).run tr (ask (.set key value etag ttl) next) := by
  intro h
  cases hydrate_stage h

/-- What a hydrate has been answered when it returns a result: both records decode to what it
returns, the versions agree, nothing was recovered. -/
theorem hydrate_ok {tr : Transcript Reply} {r : HydrationResult}
    (h : Trace (M.hydrate B t a).run tr (done (.ok r))) :
    ∃ rs rm tail,
      tr = ⟨.get (agentStateKey t a), .ok (some rs)⟩ ::
        (tail ++ [⟨.get (workingMemoryKey t a), .ok (some rm)⟩]) ∧
      (∀ x ∈ tail, x.1 = Call.now) ∧
      B.state.decode rs.value = .ok r.state ∧ B.memory.decode rm.value = .ok r.workingMemory ∧
      r.workingMemory.version = r.state.workingMemoryVersion ∧
      r.recoveredFromCheckpoint = false := by
  cases hydrate_stage h with
  | returned rs state tr hpass rm mem hdec hver =>
    obtain ⟨tail, rfl, htail⟩ := hpass.exists_tail
    exact ⟨rs, rm, tail, rfl, htail, hpass.decode, hdec, hver, rfl⟩

/-- The two records that a hydrate has read when it returns a result decode to the result. -/
theorem hydrate_ok_of_mem {tr : Transcript Reply} {r : HydrationResult}
    (h : Trace (M.hydrate B t a).run tr (done (.ok r))) {rs rm : StateRecord}
    (hs : ⟨.get (agentStateKey t a), .ok (some rs)⟩ ∈ tr)
    (hm : ⟨.get (workingMemoryKey t a), .ok (some rm)⟩ ∈ tr) :
    B.state.decode rs.value = .ok r.state ∧ B.memory.decode rm.value = .ok r.workingMemory ∧
      r.workingMemory.version = r.state.workingMemoryVersion := by
  obtain ⟨rs', rm', tail, rfl, htail, hdecs, hdecm, hver, -⟩ := hydrate_ok h
  have hne : agentStateKey t a ≠ workingMemoryKey t a :=
    agentStateKey_ne_workingMemoryKey _ _ _ _
  -- Neither key is read twice.
  have hrs : rs = rs' := by
    rw [List.mem_cons, List.mem_append, List.mem_singleton] at hs
    rcases hs with hs | hs | hs
    · simpa using hs
    · exact absurd (htail _ hs) (by simp)
    · exact absurd (congrArg Sigma.fst hs) (by simpa using hne)
  have hrm : rm = rm' := by
    rw [List.mem_cons, List.mem_append, List.mem_singleton] at hm
    rcases hm with hm | hm | hm
    · exact absurd (congrArg Sigma.fst hm) (by simpa using hne.symm)
    · exact absurd (htail _ hm) (by simp)
    · simpa using hm
  rw [hrs, hrm]
  exact ⟨hdecs, hdecm, hver⟩

/-- A hydrate that has passed the guard with a clock reading has read an ACTIVE record. -/
theorem GuardPassed.active_of_now {rs : StateRecord} {state : AgentStateRecord}
    {tr : Transcript Reply} {c : Option Duration} (h : GuardPassed M B t a rs state tr)
    (hc : ⟨.now, c⟩ ∈ tr) : state.status = AgentLifecycleStatus.active.toI32 := by
  cases h with
  | notActive => simp at hc
  | stale _ _ hactive => exact hactive

/-- Only a hydrate that has read an ACTIVE record reads the clock. -/
theorem hydrate_clock {tr : Transcript Reply} {q : Async (StateResult HydrationResult)}
    {c : Option Duration} (h : Trace (M.hydrate B t a).run tr q) (hc : ⟨.now, c⟩ ∈ tr) :
    ∃ rs state, ⟨.get (agentStateKey t a), .ok (some rs)⟩ ∈ tr ∧
      B.state.decode rs.value = .ok state ∧
      state.status = AgentLifecycleStatus.active.toI32 := by
  -- The clock reading stands before the memory read, in the part that the guard has passed.
  have hguard : ∀ (rs : StateRecord) (state : AgentStateRecord) (tr' : Transcript Reply)
      (reply : StateResult (Option StateRecord)), GuardPassed M B t a rs state tr' →
      tr = tr' ++ [⟨.get (workingMemoryKey t a), reply⟩] →
      ∃ rs state, ⟨.get (agentStateKey t a), .ok (some rs)⟩ ∈ tr ∧
        B.state.decode rs.value = .ok state ∧
        state.status = AgentLifecycleStatus.active.toI32 := by
    intro rs state tr' reply hpass htr
    subst htr
    have hc' : ⟨.now, c⟩ ∈ tr' := by simpa using hc
    obtain ⟨tail, htail, -⟩ := hpass.exists_tail
    exact ⟨rs, state, by simp [htail], hpass.decode, hpass.active_of_now hc'⟩
  cases hydrate_stage h with
  | start => simp at hc
  | stateFailed => simp at hc
  | stateMissing => simp at hc
  | stateUndecodable => simp at hc
  | guard => simp at hc
  | busy rs state _ hdec hactive => exact ⟨rs, state, by simp, hdec, hactive⟩
  | memory rs state _ hpass =>
    obtain ⟨tail, htail, -⟩ := hpass.exists_tail
    exact ⟨rs, state, by simp [htail], hpass.decode, hpass.active_of_now hc⟩
  | memoryFailed rs state tr' hpass => exact hguard rs state tr' _ hpass rfl
  | memoryMissing rs state tr' hpass => exact hguard rs state tr' _ hpass rfl
  | memoryUndecodable rs state tr' hpass => exact hguard rs state tr' _ hpass rfl
  | torn rs state tr' hpass => exact hguard rs state tr' _ hpass rfl
  | returned rs state tr' hpass => exact hguard rs state tr' _ hpass rfl

end SwarmRuntime.State
