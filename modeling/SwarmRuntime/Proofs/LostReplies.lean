import SwarmRuntime.Proofs.Progress
import SwarmRuntime.State.LossySwarm

/-!
# `SwarmRuntime.Proofs.LostReplies`: writes that are applied and reported as failed

A freeze ends at the first error of a write, and its last write is the checkpoint. So a client that
loses the reply to a write makes no call any more, and to the other clients it is one that has
crashed after the write (`LosesReply`). A run with lost replies is, on the store, a run without
(`run_lossy_simulated`), and lost replies do no more harm than crashes.

The records of an agent are one register in these runs as well (`run_lossy_linearizes`), but for
what an error says: a freeze that returns a `DaprError` of its state write may have taken effect. A
freeze that returns another error has not.

The memory write is the dangerous one. When it is applied and its reply is lost, the freeze returns
without writing the state, and the agent is lost (`run_lossy_torn`).
-/

set_option autoImplicit false

namespace SwarmRuntime.State

open SwarmRuntime.Lib SwarmRuntime.Lib.Interaction

namespace Swarm

variable {M : AgentHydrationManager} {B : Build} {t a : String} {P P' : Swarm} {id : Nat}
  {s₀ : Backing Author} {ms : List LossyMove} {state₀ : AgentStateRecord}
  {mem₀ : WorkingMemoryRecord}

/-! ### A client with a lost reply -/

/-- The second client has lost the reply to one of the three writes of its freeze, and has ended
there. The first one has crashed after the write. -/
inductive LosesReply (B : Build) (i : FreezeInput) :
    Proc Reply Request Response → Proc Reply Request Response → Prop
  | memory (c₁ : Option Duration) (r : StateResult ETag) (rest : Async Response) (msg : String)
      (b : Bool) :
      LosesReply B i ⟨.freeze i, [⟨.now, c₁⟩, ⟨i.memoryWrite B c₁, r⟩], rest, true⟩
        ⟨.freeze i, [⟨.now, c₁⟩, ⟨i.memoryWrite B c₁, .error (.daprError msg)⟩],
          done (.frozen (.error (.daprError msg))), b⟩
  | state (c₁ c₂ : Option Duration) (e₁ : ETag) (r : StateResult ETag) (rest : Async Response)
      (msg : String) (b : Bool) :
      LosesReply B i
        ⟨.freeze i, [⟨.now, c₁⟩, ⟨i.memoryWrite B c₁, .ok e₁⟩, ⟨.now, c₂⟩,
          ⟨i.stateWrite B c₁ c₂, r⟩], rest, true⟩
        ⟨.freeze i, [⟨.now, c₁⟩, ⟨i.memoryWrite B c₁, .ok e₁⟩, ⟨.now, c₂⟩,
          ⟨i.stateWrite B c₁ c₂, .error (.daprError msg)⟩],
          done (.frozen (.error (.daprError msg))), b⟩
  | checkpoint (c₁ c₂ c₃ c₄ : Option Duration) (e₁ e₂ : ETag) (r : StateResult ETag)
      (seq : UInt64) (msg : String) (b : Bool) :
      LosesReply B i
        ⟨.freeze i, [⟨.now, c₁⟩, ⟨i.memoryWrite B c₁, .ok e₁⟩, ⟨.now, c₂⟩,
          ⟨i.stateWrite B c₁ c₂, .ok e₂⟩, ⟨.now, c₃⟩, ⟨.now, c₄⟩,
          ⟨i.checkpointWrite B c₁ c₂ c₃ c₄, r⟩], done (.frozen (.ok seq)), true⟩
        ⟨.freeze i, [⟨.now, c₁⟩, ⟨i.memoryWrite B c₁, .ok e₁⟩, ⟨.now, c₂⟩,
          ⟨i.stateWrite B c₁ c₂, .ok e₂⟩, ⟨.now, c₃⟩, ⟨.now, c₄⟩,
          ⟨i.checkpointWrite B c₁ c₂ c₃ c₄, .error (.daprError msg)⟩], done (.frozen (.ok 0)), b⟩

/-- A program at a write is that of a freeze. -/
theorem write_trace {q : Request} {tr : Transcript Reply} {key : String} {value : Bytes}
    {etag : Option ETag} {ttl : TtlPolicy}
    {next : Reply (.set key value etag ttl) → Async Response}
    (h : Trace (q.prog M B) tr (ask (.set key value etag ttl) next)) :
    ∃ i next', q = .freeze i ∧ Trace (freeze B i).run tr (ask (.set key value etag ttl) next') ∧
      (fun r => Response.frozen <$> next' r) = next := by
  cases q with
  | get key' =>
    obtain ⟨q', hq', hmap⟩ := trace_map.mp h
    obtain ⟨next', rfl, -⟩ := map_eq_ask.mp hmap.symm
    have hq' : Trace (ask (Call.get key') done) tr (ask (.set key value etag ttl) next') := hq'
    rw [trace_ask] at hq'
    rcases hq' with ⟨-, hask⟩ | ⟨r, tr', -, hdone⟩
    · cases hask
    · simp at hdone
  | hydrate t a =>
    obtain ⟨q', hq', hmap⟩ := trace_map.mp h
    obtain ⟨next', rfl, -⟩ := map_eq_ask.mp hmap.symm
    exact absurd hq' hydrate_reads
  | freeze i =>
    obtain ⟨q', hq', hmap⟩ := trace_map.mp h
    obtain ⟨next', rfl, hnext⟩ := map_eq_ask.mp hmap.symm
    exact ⟨i, next', rfl, hq', hnext⟩

/-- Where a program can lose a reply. -/
theorem lost_write {q : Request} {tr : Transcript Reply} {c : Call}
    {next : Reply c → Async Response} {r r' : Reply c} (h : Trace (q.prog M B) tr (ask c next))
    (hlost : LostWrite c r r') (b : Bool) :
    ∃ i, LosesReply B i ⟨q, tr ++ [⟨c, r⟩], next r, true⟩ ⟨q, tr ++ [⟨c, r'⟩], next r', b⟩ := by
  cases hlost with
  | intro key value etag ttl r msg =>
    obtain ⟨i, next', rfl, htrace, rfl⟩ := write_trace h
    refine ⟨i, ?_⟩
    cases freeze_stage htrace with
    | memory c₁ => exact .memory c₁ r _ msg b
    | state c₁ c₂ e₁ => exact .state c₁ c₂ e₁ r _ msg b
    | checkpoint c₁ c₂ c₃ c₄ e₁ e₂ =>
      cases r with
      | error e => exact .checkpoint c₁ c₂ c₃ c₄ e₁ e₂ (.error e) 0 msg b
      | ok e => exact .checkpoint c₁ c₂ c₃ c₄ e₁ e₂ (.ok e) (secondsOf c₃) msg b

/-- The client has ended. -/
theorem LosesReply.ended {i : FreezeInput} {p p' : Proc Reply Request Response}
    (h : LosesReply B i p p') (c : Call) (next : Reply c → Async Response) :
    p'.rest ≠ ask c next := by
  cases h with
  | memory => exact fun hask => by cases hask
  | state => exact fun hask => by cases hask
  | checkpoint => exact fun hask => by cases hask

/-- The swarm with lost replies is the swarm, but for the replies. -/
theorem loses_service (M : AgentHydrationManager) (B : Build) :
    Loses (service M B) (lossyService M B) LostWrite LossyAnswer.answer where
  prog := rfl
  env := rfl
  state := by
    intro id c w s
    show (serveLossy (some id) c w s).2 = (serve (some id) c w.answer s).2
    cases c with
    | get key => rfl
    | now => rfl
    | set key value etag ttl =>
      cases hlost : w.lost with
      | none => rw [serveLossy_of_none _ hlost]
      | some msg => rw [serveLossy_of_some hlost]
  reply := by
    intro id c w s
    show (serveLossy (some id) c w s).1 = (serve (some id) c w.answer s).1 ∨
      LostWrite c (serve (some id) c w.answer s).1 (serveLossy (some id) c w s).1
    cases c with
    | get key => exact .inl rfl
    | now => exact .inl rfl
    | set key value etag ttl =>
      cases hlost : w.lost with
      | none => exact .inl (by rw [serveLossy_of_none _ hlost])
      | some msg =>
        rw [serveLossy_of_some hlost]
        exact .inr (.intro key value etag ttl _ msg)
  ends := by
    intro q tr c next r r' htrace hlost c' next'
    obtain ⟨i, hloses⟩ := lost_write htrace hlost false
    exact hloses.ended c' next'

/-- Two swarms with one store and the same clients, but for those that have lost a reply. -/
abbrev Alike (M : AgentHydrationManager) (B : Build) : Swarm → Swarm → Prop :=
  Matches (service M B) LostWrite

/-- A client is the same in both, or it has lost the reply to a write. -/
theorem Alike.procs (h : Alike M B P P') (id : Nat) :
    P.procs id = P'.procs id ∨ ∃ p p' i, P.procs id = some p ∧ P'.procs id = some p' ∧
      LosesReply B i p p' := by
  rcases Matches.procs h id with hsame | ⟨p, p', hp, hp', hcut⟩
  · exact .inl hsame
  · cases hcut with
    | intro b htrace hlost =>
      obtain ⟨i, hloses⟩ := lost_write htrace hlost b
      exact .inr ⟨_, _, i, hp, hp', hloses⟩

/-! ### A run with a lost reply -/

/-- The condition `ok`, on the moves without their losses. -/
abbrev Admits (ok : Swarm → SwarmMove → Prop) (P : Swarm) (m : LossyMove) : Prop :=
  ok P m.plain

/-- The move, with no reply lost. -/
def lossless : SwarmMove → LossyMove
  | .start id q => .start id q
  | .serve id w => .serve id ⟨w, none⟩
  | .crash id => .crash id
  | .env n => .env n

theorem plain_lossless (m : SwarmMove) : (lossless m).plain = m := by
  cases m with
  | start id q => rfl
  | serve id w => rfl
  | crash id => rfl
  | env n => rfl

/-- Without a loss the swarm moves as it did. -/
theorem lossyStep_lossless (P : Swarm) (m : SwarmMove) :
    lossyStep M B P (lossless m) = step M B P m := by
  cases m with
  | start id q => rfl
  | crash id => rfl
  | env n => rfl
  | serve id w =>
    have hserve : ∀ c, (lossyService M B).serve id c ⟨w, none⟩ P.shared
        = (service M B).serve id c w P.shared := fun c => serveLossy_of_none c rfl
    refine Option.ext fun P' => ?_
    show Pool.step (lossyService M B) P (.serve id ⟨w, none⟩) = some P' ↔
      Pool.step (service M B) P (.serve id w) = some P'
    rw [Pool.step_serve, Pool.step_serve]
    simp only [hserve]

/-- Each run without losses is a run. -/
theorem run_lossless {ok : Swarm → SwarmMove → Prop} {ns : List SwarmMove} {P₀ : Swarm}
    (h : Run (step M B) ok P₀ ns P) : Run (lossyStep M B) (Admits ok) P₀ (ns.map lossless) P := by
  induction h with
  | nil => exact .nil
  | @snoc ns P P' m _ hok hs ih =>
    rw [List.map_append]
    refine .snoc ih ?_ ((lossyStep_lossless P m).trans hs)
    show ok P (lossless m).plain
    rwa [plain_lossless]

/-- A freeze that has returned the error of its write to `key`, and the write is in the store. -/
structure LosesWrite (key : String) (P : Swarm) (id : Nat) (i : FreezeInput) (msg : String) :
    Prop where
  returned : ∃ p, P.procs id = some p ∧ p.request = .freeze i ∧
    p.rest = done (.frozen (.error (.daprError msg)))
  applied : ∃ x ∈ P.shared.history key, x.author = some id

/-- The freeze makes no call any more. -/
theorem LosesWrite.stopped {key : String} {i : FreezeInput} {msg : String}
    (h : LosesWrite key P id i msg) : P.Stopped id := by
  obtain ⟨p, hp, -, hrest⟩ := h.returned
  exact ⟨p, hp, .inr fun c next hask => by rw [hrest] at hask; cases hask⟩

/-- Client 0 hydrates the blank records, client 1 freezes them and loses the reply to its memory
write. -/
theorem run_loses_memory (M : AgentHydrationManager) (B : Build) (t a msg : String) :
    ∃ ms P c e,
      Run (lossyStep M B) (Admits (FreezesHydrated t a)) (start (blankStore none B t a)) ms P ∧
      LosesWrite (workingMemoryKey t a) P 1 (blankInput t a) msg ∧
      (∀ x ∈ P.shared.history (agentStateKey t a), x.author ≠ some 1) ∧ P.procs 2 = none ∧
      P.shared = (blankInput t a).withMemory B (some 1) (blankStore none B t a) c e := by
  have hsmooth : AdmitsSmooth (FreezesHydrated t a) := admitsSmooth_freezesHydrated
  obtain ⟨ns₁, P₁, p, rs, rm, hrun₁, hp₁, hreads, hshared₁, hothers, -⟩ :=
    run_reads_blank (B := B) M freezesHydrated_hydrate hsmooth
  have hcur : (blankInput t a).Current P₁.shared := by
    rw [hshared₁]
    exact current_blankInput
  have hstart : Admits (FreezesHydrated t a) P₁ (.start 1 (.freeze (blankInput t a))) :=
    freezesHydrated_freeze (afterHydrate_blank hp₁ hreads)
  have hprog : (lossyService M B).prog (.freeze (blankInput t a))
      = .frozen <$> ask Call.now fun c₁ => ask ((blankInput t a).memoryWrite B c₁)
          ((blankInput t a).afterMemoryWrite B c₁) :=
    congrArg (Response.frozen <$> ·) (freeze_run_eq (fits_blankInput t a).increments)
  obtain ⟨P₂, hs₂, hp₂, hshared₂, htwo₂⟩ :
      ∃ P₂, lossyStep M B P₁ (.start 1 (.freeze (blankInput t a))) = some P₂ ∧
        P₂.procs 1 = some ⟨.freeze (blankInput t a), [], ask Call.now _, false⟩ ∧
        P₂.shared = P₁.shared ∧ P₂.procs 2 = none := by
    refine ⟨_, Pool.step_start.mpr ⟨hothers 1 (by decide), rfl⟩, ?_, rfl, ?_⟩
    · rw [hprog]
      exact Pool.procs_setProc_self _ _ _
    · rw [Pool.procs_setProc_of_ne _ _ _ _ (by decide)]
      exact hothers 2 (by decide)
  obtain ⟨ws, hlen, hws⟩ := exists_prepared 2 P₂.shared
  obtain ⟨w₁, w₂, rfl⟩ := List.length_eq_two.mp hlen
  have hfault₁ : w₁.fault = none := hws.fault (by simp)
  have hfault₂ : w₂.fault = none := hws.fault (by simp)
  -- The clock, and then the memory write.
  obtain ⟨P₃, hs₃, hp₃, hshared₃, htwo₃⟩ :
      ∃ P₃, lossyStep M B P₂ (.serve 1 ⟨w₁, none⟩) = some P₃ ∧
        P₃.procs 1 = some ⟨.freeze (blankInput t a), _,
          ask ((blankInput t a).memoryWrite B w₁.clock) _, false⟩ ∧
        P₃.shared = P₂.shared ∧ P₃.procs 2 = none :=
    ⟨_, Pool.step_serve.mpr ⟨_, _, _, _, hp₂, rfl⟩, Pool.procs_setProc_self _ _ _, rfl,
      (Pool.procs_setProc_of_ne _ _ _ _ (by decide)).trans htwo₂⟩
  obtain ⟨P₄, hs₄, hp₄, hshared₄, htwo₄⟩ :
      ∃ P₄, lossyStep M B P₃ (.serve 1 ⟨w₂, some msg⟩) = some P₄ ∧
        P₄.procs 1 = some ⟨.freeze (blankInput t a), _, done (.frozen (.error (.daprError msg))),
          false⟩ ∧
        P₄.shared = (serve (some 1) ((blankInput t a).memoryWrite B w₁.clock) w₂ P₃.shared).2 ∧
        P₄.procs 2 = none :=
    ⟨_, Pool.step_serve.mpr ⟨_, _, _, _, hp₃, rfl⟩, Pool.procs_setProc_self _ _ _, rfl,
      (Pool.procs_setProc_of_ne _ _ _ _ (by decide)).trans htwo₃⟩
  have hfresh₁ : Admits (FreezesHydrated t a) P₂ (.serve 1 ⟨w₁, none⟩) :=
    hsmooth P₂ 1 w₁ hfault₁ hws.2.freshTags
  have hws₂ : NewTags [w₂] P₃.shared := by
    rw [hshared₃]
    exact hws.2.serve none .now
  have hfresh₂ : Admits (FreezesHydrated t a) P₃ (.serve 1 ⟨w₂, some msg⟩) :=
    hsmooth P₃ 1 w₂ hfault₂ hws₂.freshTags
  have hserve : serve (some 1) ((blankInput t a).memoryWrite B w₁.clock) w₂ P₃.shared
      = (.ok w₂.etag, P₃.shared.put (some 1) (workingMemoryKey t a)
          ((blankInput t a).memBytes B w₁.clock) (some 86400) w₂.etag) := by
    refine serve_set_of_accepts hfault₂ ?_
    rw [hshared₃, hshared₂]
    exact hcur.accepts_memory
  have hrun := run_lossless hrun₁
  have hstore : P₄.shared = (blankInput t a).withMemory B (some 1) (blankStore none B t a)
      w₁.clock w₂.etag := by
    rw [hshared₄, hserve, hshared₃, hshared₂, hshared₁]
    rfl
  refine ⟨_, P₄, _, _, .snoc (.snoc (.snoc hrun hstart hs₂) hfresh₁ hs₃) hfresh₂ hs₄,
    ⟨⟨_, hp₄, rfl, rfl⟩, ?_⟩, ?_, htwo₄, hstore⟩
  · rw [hshared₄, hserve, EtagStore.history_put_self]
    exact ⟨_, List.mem_cons_self, rfl⟩
  · intro x hx hauthor
    rw [hshared₄, hserve, EtagStore.history_put_of_ne _ _ _ _ _ _ _
      (agentStateKey_ne_workingMemoryKey _ _ _ _), hshared₃, hshared₂, hshared₁] at hx
    -- The state record is the one of the start.
    have hstart := (startsWith_pairStore rfl).unauthored x (List.mem_of_mem_filter hx)
    rw [hauthor] at hstart
    cases hstart

/-- Client 0 hydrates the blank records, client 1 freezes them and loses the reply to its state
write. -/
theorem run_loses_state (M : AgentHydrationManager) (B : Build) (t a msg : String) :
    ∃ ms P, Run (lossyStep M B) (Admits (FreezesInputs t a)) (start (blankStore none B t a)) ms P ∧
      LosesWrite (agentStateKey t a) P 1 (blankInput t a) msg := by
  have hsmooth : AdmitsSmooth (FreezesHydrated t a) := admitsSmooth_freezesHydrated
  obtain ⟨ns₁, P₁, p, rs, rm, hrun₁, hp₁, hreads, hshared₁, hothers, -⟩ :=
    run_reads_blank (B := B) M freezesHydrated_hydrate hsmooth
  have hcur : (blankInput t a).Current P₁.shared := by
    rw [hshared₁]
    exact current_blankInput
  obtain ⟨ns₂, P₂, c₁, e₁, hrun₂, hp₂, hshared₂, -⟩ :=
    run_memory_write (M := M) (B := B) hsmooth.answers
      (freezesHydrated_freeze (afterHydrate_blank hp₁ hreads)) (hothers 1 (by decide))
      (fits_blankInput t a).increments hcur.accepts_memory
  have hrun := run_lossless (run_freezesInputs (hrun₁.append hrun₂))
  obtain ⟨ws, hlen, hws⟩ := exists_prepared 2 P₂.shared
  obtain ⟨w₁, w₂, rfl⟩ := List.length_eq_two.mp hlen
  have hfault₁ : w₁.fault = none := hws.fault (by simp)
  have hfault₂ : w₂.fault = none := hws.fault (by simp)
  -- The clock, and then the state write.
  obtain ⟨P₃, hs₃, hp₃, hshared₃⟩ : ∃ P₃, lossyStep M B P₂ (.serve 1 ⟨w₁, none⟩) = some P₃ ∧
      P₃.procs 1 = some ⟨.freeze (blankInput t a), _,
        ask ((blankInput t a).stateWrite B c₁ w₁.clock) _, false⟩ ∧ P₃.shared = P₂.shared :=
    ⟨_, Pool.step_serve.mpr ⟨_, _, _, _, hp₂, rfl⟩, Pool.procs_setProc_self _ _ _, rfl⟩
  have hacc : P₃.shared.accepts (agentStateKey t a) (some (blankInput t a).stateEtag) = true := by
    rw [hshared₃, hshared₂]
    exact hcur.accepts_state c₁ e₁
  obtain ⟨P₄, hs₄, hp₄, hshared₄⟩ : ∃ P₄, lossyStep M B P₃ (.serve 1 ⟨w₂, some msg⟩) = some P₄ ∧
      P₄.procs 1 = some ⟨.freeze (blankInput t a), _, done (.frozen (.error (.daprError msg))),
        false⟩ ∧
      P₄.shared = (serve (some 1) ((blankInput t a).stateWrite B c₁ w₁.clock) w₂ P₃.shared).2 :=
    ⟨_, Pool.step_serve.mpr ⟨_, _, _, _, hp₃, rfl⟩, Pool.procs_setProc_self _ _ _, rfl⟩
  have hfresh₁ : Admits (FreezesInputs t a) P₂ (.serve 1 ⟨w₁, none⟩) :=
    (hsmooth P₂ 1 w₁ hfault₁ hws.2.freshTags).toFreezesInputs
  have hws₂ : NewTags [w₂] P₃.shared := by
    rw [hshared₃]
    exact hws.2.serve none .now
  have hfresh₂ : Admits (FreezesInputs t a) P₃ (.serve 1 ⟨w₂, some msg⟩) :=
    (hsmooth P₃ 1 w₂ hfault₂ hws₂.freshTags).toFreezesInputs
  refine ⟨_, P₄, .snoc (.snoc hrun hfresh₁ hs₃) hfresh₂ hs₄, ⟨_, hp₄, rfl, rfl⟩, ?_⟩
  have hserve : serve (some 1) ((blankInput t a).stateWrite B c₁ w₁.clock) w₂ P₃.shared
      = (.ok w₂.etag, P₃.shared.put (some 1) (agentStateKey t a)
          ((blankInput t a).stateBytes B c₁ w₁.clock) none w₂.etag) :=
    serve_set_of_accepts hfault₂ hacc
  rw [hshared₄, hserve, EtagStore.history_put_self]
  exact ⟨_, List.mem_cons_self, rfl⟩

/-! ### The run without losses -/

/-- Tags that are fresh with the losses are fresh without. -/
theorem Alike.freshTags (h : Alike M B P P') {m : SwarmMove} (hfresh : FreshTags P' m) :
    FreshTags P m := by
  intro id w key value etag ttl hm hpending
  rw [Matches.shared h]
  refine hfresh id w key value etag ttl hm ?_
  rcases h.procs id with hsame | ⟨p, p', i, hp, -, hloses⟩
  · unfold pending at hpending ⊢
    rw [← hsame, hpending]
  · -- A client that has crashed waits for no call.
    unfold pending at hpending
    rw [hp] at hpending
    cases hloses with
    | memory => simp at hpending
    | state => simp at hpending
    | checkpoint => simp at hpending

theorem freshTags_crash (P : Swarm) (id : Nat) : FreshTags P (.crash id) := by
  intro id' w key value etag ttl hm
  cases hm

/-- A swarm without clients. -/
theorem start_traced (s : Backing Author) : (start s).Traced (service M B) := by
  intro id p hp
  cases hp

/-- From swarms that are alike, each run with losses is matched by a run without. -/
theorem run_lossless_of_alike {ok : Swarm → SwarmMove → Prop} (hcrash : ∀ P id, ok P (.crash id))
    (hok : ∀ P P' m, Alike M B P P' → ok P' m → ok P m) (hP : Alike M B P P')
    (htraced : P'.Traced (lossyService M B)) {P₁' : Swarm}
    (h : Run (lossyStep M B) (Admits ok) P' ms P₁') :
    ∃ ns P₁, ns.length ≤ 2 * ms.length ∧ Run (step M B) ok P ns P₁ ∧ Alike M B P₁ P₁' := by
  obtain ⟨ns, P₁, hlen, hrun, hP₁, -⟩ := Pool.run_loses (loses_service M B) hcrash
    (fun P P' m hP => hok P P' (Move.plain LossyAnswer.answer m) hP) hP htraced h
  exact ⟨ns, P₁, hlen, hrun, hP₁⟩

/-- For every run in which replies are lost there is a run without losses that leaves the same
store. The clients are the same, but that those with a lost reply have crashed. -/
theorem run_lossy_simulated
    (h : Run (lossyStep M B) (Admits FreshTags) (start s₀) ms P') :
    ∃ ns P, Run (step M B) FreshTags (start s₀) ns P ∧ P.shared = P'.shared ∧
      ∀ id, P.procs id = P'.procs id ∨ ∃ p p' i, P.procs id = some p ∧ P'.procs id = some p' ∧
        LosesReply B i p p' := by
  obtain ⟨ns, P, -, hrun, hP⟩ := run_lossless_of_alike freshTags_crash
    (fun _ _ _ hP hok => hP.freshTags hok) (.refl _) (start_traced s₀) h
  exact ⟨ns, P, hrun, hP.shared, Alike.procs hP⟩

/-- The store after a freeze that has lost the reply to its state write is the store of a run
without losses. -/
theorem run_lossy_simulated_blank :
    ∃ (ns : List SwarmMove) (P P' : Swarm),
      Run (step .new debugBuild) FreshTags (start (blankStore none debugBuild "acme" "writer"))
        ns P ∧ P.shared = P'.shared ∧
      LosesWrite (agentStateKey "acme" "writer") P' 1 (blankInput "acme" "writer")
        "deadline exceeded" := by
  obtain ⟨ms, P', hrun', hloses⟩ :=
    run_loses_state .new debugBuild "acme" "writer" "deadline exceeded"
  obtain ⟨ns, P, hrun, hshared, -⟩ :=
    run_lossy_simulated (hrun'.mono fun _ _ _ _ hok => hok.fresh)
  exact ⟨ns, P, P', hrun, hshared, hloses⟩

/-! ### What the clients can tell -/

/-- A write with the reply `r` may have been applied. -/
def MayBeApplied (r : StateResult ETag) : Prop :=
  (∃ e, r = .ok e) ∨ ∃ msg, r = .error (.daprError msg)

/-- The client has made a write to `key` that may have been applied. -/
def MayHaveWritten (P : Swarm) (id : Nat) (key : String) : Prop :=
  ∃ p value etag ttl r, P.procs id = some p ∧ ⟨.set key value etag ttl, r⟩ ∈ p.transcript ∧
    MayBeApplied r

section
variable {i : FreezeInput} {p p' : Proc Reply Request Response} {key : String} {value : Bytes}
  {etag : Option ETag} {ttl : TtlPolicy} {e : ETag}

theorem LosesReply.request (h : LosesReply B i p p') :
    p.request = .freeze i ∧ p'.request = .freeze i := by
  cases h with
  | memory => exact ⟨rfl, rfl⟩
  | state => exact ⟨rfl, rfl⟩
  | checkpoint => exact ⟨rfl, rfl⟩

/-- The two transcripts differ in the last reply. -/
theorem LosesReply.transcripts (h : LosesReply B i p p') :
    ∃ tr c r r', p.transcript = tr ++ [⟨c, r⟩] ∧ p'.transcript = tr ++ [⟨c, r'⟩] ∧
      LostWrite c r r' := by
  cases h with
  | memory c₁ r rest msg b =>
    exact ⟨[⟨.now, c₁⟩], i.memoryWrite B c₁, r, .error (.daprError msg), rfl, rfl, .intro ..⟩
  | state c₁ c₂ e₁ r rest msg b =>
    exact ⟨[⟨.now, c₁⟩, ⟨i.memoryWrite B c₁, .ok e₁⟩, ⟨.now, c₂⟩], i.stateWrite B c₁ c₂, r,
      .error (.daprError msg), rfl, rfl, .intro ..⟩
  | checkpoint c₁ c₂ c₃ c₄ e₁ e₂ r seq msg b =>
    exact ⟨[⟨.now, c₁⟩, ⟨i.memoryWrite B c₁, .ok e₁⟩, ⟨.now, c₂⟩, ⟨i.stateWrite B c₁ c₂, .ok e₂⟩,
      ⟨.now, c₃⟩, ⟨.now, c₄⟩], i.checkpointWrite B c₁ c₂ c₃ c₄, r, .error (.daprError msg), rfl,
      rfl, .intro ..⟩

/-- A write that has succeeded may have been applied, as the client sees it. -/
theorem LosesReply.mem_right (h : LosesReply B i p p')
    (hx : ⟨.set key value etag ttl, .ok e⟩ ∈ p.transcript) :
    ∃ r, ⟨.set key value etag ttl, r⟩ ∈ p'.transcript ∧ MayBeApplied r := by
  obtain ⟨tr, c, r, r', htr, htr', hlost⟩ := h.transcripts
  rw [htr, List.mem_append, List.mem_singleton] at hx
  rw [htr']
  rcases hx with hx | hx
  · exact ⟨.ok e, List.mem_append_left _ hx, .inl ⟨e, rfl⟩⟩
  · cases hx
    generalize hr : (Except.ok e : StateResult ETag) = r at hlost
    cases hlost with
    | intro _ _ _ _ _ msg =>
      exact ⟨.error (.daprError msg), List.mem_append_right _ (List.mem_singleton.mpr rfl),
        .inr ⟨msg, rfl⟩⟩

/-- A write with the reply `Ok` has succeeded. -/
theorem LosesReply.mem_left (h : LosesReply B i p p')
    (hx : ⟨.set key value etag ttl, .ok e⟩ ∈ p'.transcript) :
    ⟨.set key value etag ttl, .ok e⟩ ∈ p.transcript := by
  obtain ⟨tr, c, r, r', htr, htr', hlost⟩ := h.transcripts
  rw [htr', List.mem_append, List.mem_singleton] at hx
  rw [htr]
  rcases hx with hx | hx
  · exact List.mem_append_left _ hx
  · -- The lost reply is an error.
    cases hlost with
    | intro _ _ _ _ _ msg => cases hx

end

/-- A client that hydrates is the same in both runs. -/
theorem Alike.eq_of_hydrate (h : Alike M B P P') {p : Proc Reply Request Response} {t' a' : String}
    (hp : P.procs id = some p ∨ P'.procs id = some p) (hq : p.request = .hydrate t' a') :
    P.procs id = some p ∧ P'.procs id = some p := by
  rcases h.procs id with hsame | ⟨p₁, p₁', i, hp₁, hp₁', hloses⟩
  · rw [hsame, or_self] at hp
    exact ⟨hsame.trans hp, hp⟩
  · -- Only a freeze loses a reply.
    obtain ⟨hq₁, hq₁'⟩ := hloses.request
    rcases hp with hp | hp
    · rw [hp₁, Option.some.injEq] at hp
      rw [hp, hq] at hq₁
      cases hq₁
    · rw [hp₁', Option.some.injEq] at hp
      rw [hp, hq] at hq₁'
      cases hq₁'

theorem Alike.afterHydrate (h : Alike M B P P') {i : FreezeInput} {r : HydrationResult} :
    AfterHydrate P i r ↔ AfterHydrate P' i r := by
  constructor
  · intro hfrom
    obtain ⟨id, p, rs, rm, hp, hq, hreads⟩ := hfrom.hydrate
    exact { hfrom with hydrate := ⟨id, p, rs, rm, (h.eq_of_hydrate (.inl hp) hq).2, hq, hreads⟩ }
  · intro hfrom
    obtain ⟨id, p, rs, rm, hp, hq, hreads⟩ := hfrom.hydrate
    exact { hfrom with hydrate := ⟨id, p, rs, rm, (h.eq_of_hydrate (.inr hp) hq).1, hq, hreads⟩ }

/-- Clients that freeze what they have hydrated do so without the losses. -/
theorem Alike.freezesInputs (h : Alike M B P P') {m : SwarmMove} (hok : FreezesInputs t a P' m) :
    FreezesInputs t a P m := by
  refine ⟨h.freshTags hok.fresh, fun id i hm hroot => ?_⟩
  obtain ⟨r, hfrom⟩ := hok.inputs id i hm hroot
  exact ⟨r, h.afterHydrate.mpr hfrom⟩

/-- When each client that may have written the memory has written the state, none is between its
two writes. -/
theorem Alike.not_halfWritten (h : Alike M B P P')
    (hquiet : MayHaveWritten P' id (workingMemoryKey t a) → P'.HasWritten id (agentStateKey t a)) :
    ¬ HalfWritten t a P id := by
  intro hhalf
  obtain ⟨p, value, etag, ttl, e, hp, hmem⟩ := hhalf.memory
  refine hhalf.state ?_
  rcases h.procs id with hsame | ⟨p₁, p₁', i, hp₁, hp₁', hloses⟩
  · have hmay : MayHaveWritten P' id (workingMemoryKey t a) :=
      ⟨p, value, etag, ttl, .ok e, hsame ▸ hp, hmem, .inl ⟨e, rfl⟩⟩
    obtain ⟨p', value', etag', ttl', e', hp', hstate⟩ := hquiet hmay
    exact ⟨p', value', etag', ttl', e', hsame.trans hp', hstate⟩
  · rw [hp₁, Option.some.injEq] at hp
    subst hp
    obtain ⟨r, hmem', hr⟩ := hloses.mem_right hmem
    obtain ⟨p', value', etag', ttl', e', hp', hstate⟩ :=
      hquiet ⟨p₁', value, etag, ttl, r, hp₁', hmem', hr⟩
    rw [hp₁', Option.some.injEq] at hp'
    subst hp'
    exact ⟨p₁, value', etag', ttl', e', hp₁, hloses.mem_left hstate⟩

/-! ### The register -/

/-- What the client `id` of the run has done to the records of the agent. The reply to the state
write of a freeze may be lost. -/
inductive LossyEffect (B : Build) (t a : String) (P : Swarm) (id : Nat) : CasOp AgentPair → Prop
  | read {p : Proc Reply Request Response} {t' a' : String} {r : HydrationResult}
      (hp : P.procs id = some p) (hq : p.request = .hydrate t' a')
      (hroot : keyRoot t' a' = keyRoot t a) (hdone : p.rest = done (.hydrated (.ok r))) :
      LossyEffect B t a P id (.read r.pair)
  | swap {p : Proc Reply Request Response} {i : FreezeInput} {r : HydrationResult}
      {c₁ c₂ : Option Duration} {e₁ : ETag} {reply : StateResult ETag} (hp : P.procs id = some p)
      (hq : p.request = .freeze i) (hroot : keyRoot i.tenantId i.agentId = keyRoot t a)
      (hfrom : AfterHydrate P i r) (hmemory : ⟨i.memoryWrite B c₁, .ok e₁⟩ ∈ p.transcript)
      (hstate : ⟨i.stateWrite B c₁ c₂, reply⟩ ∈ p.transcript) (hreply : MayBeApplied reply) :
      LossyEffect B t a P id (.swap r.pair (i.frozen B c₁ c₂))

/-- A client whose state write has succeeded has not lost the reply to its memory write. -/
theorem LosesReply.memory_right {i i' : FreezeInput} {p p' : Proc Reply Request Response}
    (h : LosesReply B i p p') {c₁ c₂ : Option Duration} {e₁ e₂ : ETag}
    (hmemory : ⟨i'.memoryWrite B c₁, .ok e₁⟩ ∈ p.transcript)
    (hstate : ⟨i'.stateWrite B c₁ c₂, .ok e₂⟩ ∈ p.transcript) :
    ⟨i'.memoryWrite B c₁, .ok e₁⟩ ∈ p'.transcript := by
  have hne : ∀ i i' : FreezeInput, agentStateKey i.tenantId i.agentId
      ≠ workingMemoryKey i'.tenantId i'.agentId :=
    fun _ _ => agentStateKey_ne_workingMemoryKey _ _ _ _
  have hne' : ∀ (i i' : FreezeInput) (n : UInt64), workingMemoryKey i.tenantId i.agentId
      ≠ checkpointKey i'.tenantId i'.agentId n :=
    fun _ _ _ => (checkpointKey_ne_workingMemoryKey _ _ _ _ _).symm
  cases h with
  | memory => simp [hne] at hstate
  | state => simpa [(hne _ _).symm] using hmemory
  | checkpoint => simpa [(hne _ _).symm, hne'] using hmemory

/-- The operations of the clients with a lost reply are operations of these clients. -/
theorem Alike.effect (h : Alike M B P P') {o : CasOp AgentPair} (ho : Effect B t a P id o) :
    LossyEffect B t a P' id o := by
  cases ho with
  | read hp hq hroot hdone => exact .read (h.eq_of_hydrate (.inl hp) hq).2 hq hroot hdone
  | @swap p i r c₁ c₂ e₁ e₂ hp hq hroot hfrom hmemory hstate =>
    have hfrom' : AfterHydrate P' i r := h.afterHydrate.mp hfrom
    rcases h.procs id with hsame | ⟨p₁, p₁', i₁, hp₁, hp₁', hloses⟩
    · exact .swap (hsame ▸ hp) hq hroot hfrom' hmemory hstate (.inl ⟨e₂, rfl⟩)
    · rw [hp₁, Option.some.injEq] at hp
      subst hp
      obtain ⟨hq₁, hq₁'⟩ := hloses.request
      rw [hq] at hq₁
      obtain ⟨reply, hstate', hreply⟩ := hloses.mem_right hstate
      exact .swap hp₁' (hq₁'.trans hq₁.symm) hroot hfrom' (hloses.memory_right hmemory hstate)
        hstate' hreply

/-- `log` is an order in which a register with compare-and-swap could have executed the operations
of the agent in the run `ms` with lost replies, and `v` is its value at the end. -/
structure LossyLinearizes (M : AgentHydrationManager) (B : Build) (t a : String)
    (s₀ : Backing Author) (v₀ : AgentPair) (ms : List LossyMove) (P : Swarm)
    (log : List (Nat × CasOp AgentPair)) (v : AgentPair) : Prop where
  legal : CasOp.replay v₀ log = some v
  once : (log.map Prod.fst).Nodup
  sound : ∀ e ∈ log, LossyEffect B t a P e.1 e.2
  hydrates : ∀ id p t' a' r, P.procs id = some p → p.request = .hydrate t' a' →
    keyRoot t' a' = keyRoot t a → p.rest = done (.hydrated (.ok r)) → (id, .read r.pair) ∈ log
  freezes : ∀ id p i seq, P.procs id = some p → p.request = .freeze i →
    keyRoot i.tenantId i.agentId = keyRoot t a → p.rest = done (.frozen (.ok seq)) →
    ∃ o, (id, o) ∈ log
  failed : ∀ id p i e o, P.procs id = some p → p.request = .freeze i →
    p.rest = done (.frozen (.error e)) → (id, o) ∈ log →
    ∃ msg c₁ c₂, e = .daprError msg ∧ ⟨i.stateWrite B c₁ c₂, .error e⟩ ∈ p.transcript
  order : ∀ pre P₁ id p id', pre <+: ms →
    Run (lossyStep M B) (Admits (FreezesInputs t a)) (start s₀) pre P₁ → P₁.procs id = some p →
    (∀ c next, p.rest ≠ ask c next) → P₁.procs id' = none →
    ∀ x ∈ log, ∀ y ∈ log, x.1 = id → y.1 = id' → [x, y].Sublist log
  stored : (∀ id, MayHaveWritten P id (workingMemoryKey t a) →
      P.HasWritten id (agentStateKey t a)) →
    ∀ state mem, HoldsPair B t a P.shared state mem → (state, mem) = v

/-- A freeze that has lost a reply and has returned `Ok` has returned `Ok` without the loss. -/
theorem LosesReply.rest_ok {i : FreezeInput} {p p' : Proc Reply Request Response} {seq : UInt64}
    (h : LosesReply B i p p') (hdone : p'.rest = done (.frozen (.ok seq))) :
    ∃ seq, p.rest = done (.frozen (.ok seq)) := by
  cases h with
  | memory => cases hdone
  | state => cases hdone
  | checkpoint c₁ c₂ c₃ c₄ e₁ e₂ r seq msg b => exact ⟨seq, rfl⟩

/-- A freeze that has lost a reply and has returned an error has lost the reply to its state write,
when this write has succeeded. -/
theorem LosesReply.rest_error {i i' : FreezeInput} {p p' : Proc Reply Request Response}
    {e : StateError} (h : LosesReply B i p p') (hdone : p'.rest = done (.frozen (.error e)))
    {c₁ c₂ : Option Duration} {e₂ : ETag}
    (hstate : ⟨i'.stateWrite B c₁ c₂, .ok e₂⟩ ∈ p.transcript) :
    ∃ msg c₁ c₂, e = .daprError msg ∧ ⟨i.stateWrite B c₁ c₂, .error e⟩ ∈ p'.transcript := by
  have hne : ∀ i i' : FreezeInput, agentStateKey i.tenantId i.agentId
      ≠ workingMemoryKey i'.tenantId i'.agentId :=
    fun _ _ => agentStateKey_ne_workingMemoryKey _ _ _ _
  cases h with
  | memory => simp [hne] at hstate
  | state c₁ c₂ e₁ r rest msg b =>
    cases hdone
    exact ⟨msg, c₁, c₂, rfl, by simp⟩
  | checkpoint => cases hdone

/-- In every run of clients that freeze what they have hydrated, and that can lose the replies to
their writes, the two records of an agent are one register with an atomic read and an atomic
compare-and-swap. A hydrate that returns a result is a read, and a freeze that returns `Ok` is one
swap. A freeze that returns an error is none, or it is one and its error is the `DaprError` of its
state write. The order respects real time. -/
theorem run_lossy_linearizes (hinit : StartsWith B t a s₀ state₀ mem₀)
    (h : Run (lossyStep M B) (Admits (FreezesInputs t a)) (start s₀) ms P')
    (hshort : B.overflowChecks = false → ms.length < 2 ^ 63) :
    ∃ log v, LossyLinearizes M B t a s₀ (state₀, mem₀) ms P' log v := by
  obtain ⟨ns, P, hlen, hrun, hP, hmoments⟩ := Pool.run_loses (loses_service M B)
    (fun P id => (freezesHydrated_crash P id).toFreezesInputs)
    (fun P P' m hP hok => Alike.freezesInputs hP hok) (.refl _) (start_traced s₀) h
  have hshort' : B.overflowChecks = false → ns.length < 2 ^ 64 := by
    intro hno
    have hms := hshort hno
    omega
  obtain ⟨full, keep, v, hlog, hlin⟩ := exists_logged_linearizes hinit hrun hshort'
  have hP : Alike M B P P' := hP
  refine ⟨full.filter keep, v, ?_⟩
  exact
    { legal := hlin.legal
      once := hlin.once
      sound := fun e he => hP.effect (hlin.sound e he)
      hydrates := by
        intro id p t' a' r hp hq hroot hdone
        exact hlin.hydrates id p t' a' r (hP.eq_of_hydrate (.inr hp) hq).1 hq hroot hdone
      freezes := by
        intro id p i seq hp hq hroot hdone
        rcases hP.procs id with hsame | ⟨p₁, p₁', i₁, hp₁, hp₁', hloses⟩
        · exact hlin.freezes id p i seq (hsame.trans hp) hq hroot hdone
        · rw [hp, Option.some.injEq] at hp₁'
          subst hp₁'
          obtain ⟨hq₁, hq₁'⟩ := hloses.request
          rw [hq, Request.freeze.injEq] at hq₁'
          subst hq₁'
          obtain ⟨seq', hdone'⟩ := hloses.rest_ok hdone
          exact hlin.freezes id p₁ i seq' hp₁ hq₁ hroot hdone'
      failed := by
        intro id p i e o hp hq hdone ho
        rcases hP.procs id with hsame | ⟨p₁, p₁', i₁, hp₁, hp₁', hloses⟩
        · -- Without a lost reply the freeze has had no effect.
          exact absurd ho (hlin.failed id p i e (hsame.trans hp) hq hdone o)
        · rw [hp, Option.some.injEq] at hp₁'
          subst hp₁'
          obtain ⟨hq₁, hq₁'⟩ := hloses.request
          rw [hq, Request.freeze.injEq] at hq₁'
          subst hq₁'
          cases hlin.sound _ ho with
          | read hp' hq' _ _ =>
            rw [hp₁, Option.some.injEq] at hp'
            rw [← hp', hq₁] at hq'
            cases hq'
          | swap hp' _ _ _ _ hstate =>
            rw [hp₁, Option.some.injEq] at hp'
            rw [← hp'] at hstate
            exact hloses.rest_error hdone hstate
      order := by
        intro pre P₁' id p id' hpre hpre' hp hend hnone x hx y hy hxi hyi
        obtain ⟨npre, P₁, hnpre, -, hrun₁, hP₁⟩ := hmoments pre P₁' hpre hpre'
        have hstopped : P₁.Stopped id := hP₁.stopped ⟨p, hp, .inr hend⟩
        have hrun₁' : Run (step M B) (FreezesDistinct B t a) (start s₀) npre P₁ := by
          obtain ⟨post, rfl⟩ := hnpre
          obtain ⟨P₂, hrun₂, -⟩ := hlog.run.split
          rwa [hrun₂.unique hrun₁] at hrun₂
        exact hlog.ordered_filter point_own keep hnpre hrun₁' hstopped (hP₁.none_iff.mpr hnone)
          hx hy hxi hyi
      stored := by
        intro hquiet state mem hpair
        rw [← Matches.shared hP] at hpair
        exact hlin.stored (fun id => hP.not_halfWritten (hquiet id)) state mem hpair }

/-- The run in which client 1 loses the reply to its state write. -/
theorem run_lossy_linearizes_blank :
    ∃ ms P log v,
      LossyLinearizes .new debugBuild "acme" "writer" (blankStore none debugBuild "acme" "writer")
        (blankState "acme" "writer", blankMemory "acme" "writer") ms P log v ∧
      LosesWrite (agentStateKey "acme" "writer") P 1 (blankInput "acme" "writer")
        "deadline exceeded" := by
  obtain ⟨ms, P, hrun, hloses⟩ :=
    run_loses_state .new debugBuild "acme" "writer" "deadline exceeded"
  have hshort : debugBuild.overflowChecks = false → ms.length < 2 ^ 63 := fun hno => by cases hno
  obtain ⟨log, v, hlog⟩ := run_lossy_linearizes (startsWith_pairStore rfl) hrun hshort
  exact ⟨ms, P, log, v, hlog, hloses⟩

/-! ### A memory write without its state write -/

/-- A client that is gone is gone for good, and so is the agent when its memory write is in the
store and its state write is not. It does not matter whether the client has crashed, or has
returned an error for a write that was applied. In whatever way the run goes on, the two records
stay as they are, no new hydrate returns a result, and no freeze whose state record was not in the
store returns `Ok`. -/
theorem run_lossy_torn (hinit : StartsWith B t a s₀ state₀ mem₀) {ms' : List LossyMove}
    (h : Run (lossyStep M B) (Admits (FreezesInputs t a)) (start s₀) ms P)
    (hmemory : ∃ x ∈ P.shared.history (workingMemoryKey t a), x.author = some id)
    (hstate : ∀ x ∈ P.shared.history (agentStateKey t a), x.author ≠ some id)
    (hgone : P.Stopped id) (h' : Run (lossyStep M B) (Admits (FreezesInputs t a)) P ms' P')
    (hshort : B.overflowChecks = false → ms.length < 2 ^ 63) :
    (P'.shared.history (agentStateKey t a) = P.shared.history (agentStateKey t a) ∧
      P'.shared.history (workingMemoryKey t a) = P.shared.history (workingMemoryKey t a)) ∧
    (∀ id' p t' a' r, P.procs id' = none → P'.procs id' = some p → p.request = .hydrate t' a' →
      keyRoot t' a' = keyRoot t a → p.rest ≠ done (.hydrated (.ok r))) ∧
    ∀ id' p i seq, (∀ x ∈ P.shared.history (agentStateKey t a), x.author ≠ some id') →
      P'.procs id' = some p → p.request = .freeze i →
      keyRoot i.tenantId i.agentId = keyRoot t a → p.rest ≠ done (.frozen (.ok seq)) := by
  have hcrash : ∀ P id, FreezesInputs t a P (.crash id) :=
    fun P id => (freezesHydrated_crash P id).toFreezesInputs
  obtain ⟨npre, Q₁, hlen, hrun, hQ⟩ := run_lossless_of_alike hcrash
    (fun _ _ _ hP hok => hP.freezesInputs hok) (.refl _) (start_traced s₀) h
  obtain ⟨post, Q', -, hpost, hQ'⟩ := run_lossless_of_alike hcrash
    (fun _ _ _ hP hok => hP.freezesInputs hok) hQ (Pool.run_traced (start_traced s₀) h) h'
  -- In the run without losses the client stands between its two writes.
  have hhalf : HalfWritten t a Q₁ id := by
    rw [halfWritten_iff hinit hrun, Matches.shared hQ]
    exact ⟨hmemory, hstate⟩
  have hdistinct : DistinctVersions B t a Q₁.shared := by
    refine distinct_of_short hinit hrun fun hno => ?_
    have hms := hshort hno
    omega
  have hgone₁ : Q₁.Stopped id := Matches.stopped hQ hgone
  have hsame := run_torn_histories hinit hrun hhalf hgone₁ hpost hdistinct
  rw [Matches.shared hQ, Matches.shared hQ'] at hsame
  refine ⟨hsame, ?_, ?_⟩
  · intro id' p t' a' r hnew hp hq hroot
    exact run_torn_hydrate hinit hrun hhalf hgone₁ hpost hdistinct
      ((Matches.none_iff hQ).mpr hnew) (hQ'.eq_of_hydrate (.inr hp) hq).1 hq hroot r
  · intro id' p i seq hnot hp hq hroot hdone
    -- Without the losses the freeze has returned `Ok` too.
    have hok : ∃ p seq, Q'.procs id' = some p ∧ p.request = .freeze i ∧
        p.rest = done (.frozen (.ok seq)) := by
      rcases hQ'.procs id' with hsame | ⟨p₁, p₁', i₁, hp₁, hp₁', hloses⟩
      · exact ⟨p, seq, hsame.trans hp, hq, hdone⟩
      · rw [hp, Option.some.injEq] at hp₁'
        subst hp₁'
        obtain ⟨seq', hdone'⟩ := hloses.rest_ok hdone
        obtain ⟨hq₁, hq₁'⟩ := hloses.request
        exact ⟨p₁, seq', hp₁, hq₁.trans (hq₁'.symm.trans hq), hdone'⟩
    obtain ⟨p₁, seq', hp₁, hq₁, hdone₁⟩ := hok
    obtain ⟨c₁, c₂, e₂, hwrite⟩ := run_frozen_ok (hrun.append hpost) hp₁ hq₁ hdone₁
    have hx := run_written (hrun.append hpost) hp₁ hwrite
    rw [(agentStateKey_eq_iff _ _ _ _).mpr hroot, Matches.shared hQ', hsame.1] at hx
    exact hnot _ hx rfl

/-- After client 1 has lost the reply to its memory write, client 2 hydrates the agent: it is
served, and it panics instead of returning a result. -/
theorem run_lossy_torn_blank :
    ∃ (ms : List LossyMove) (P P' : Swarm) (p : Proc Reply Request Response),
      Run (lossyStep .new debugBuild) (Admits (FreezesInputs "acme" "writer"))
        (start (blankStore none debugBuild "acme" "writer")) ms P ∧
      LosesWrite (workingMemoryKey "acme" "writer") P 1 (blankInput "acme" "writer")
        "deadline exceeded" ∧
      P'.procs 2 = some p ∧ p.request = .hydrate "acme" "writer" ∧
      p.rest = Interaction.panic "not yet implemented: checkpoint recovery — Phase 1" ∧
      P'.shared.history (agentStateKey "acme" "writer")
        = P.shared.history (agentStateKey "acme" "writer") ∧
      ∀ r, p.rest ≠ done (.hydrated (.ok r)) := by
  obtain ⟨ms, P, c, e, hrun, hloses, hstate, hnew, hshared⟩ :=
    run_loses_memory .new debugBuild "acme" "writer" "deadline exceeded"
  have hrun : Run (lossyStep .new debugBuild) (Admits (FreezesInputs "acme" "writer"))
      (start (blankStore none debugBuild "acme" "writer")) ms P :=
    hrun.mono fun _ _ _ _ hok => FreezesHydrated.toFreezesInputs hok
  have hpanics : ∀ clock, hydrateOn .new debugBuild "acme" "writer" P.shared clock
      = .panicked "not yet implemented: checkpoint recovery — Phase 1" := by
    intro clock
    rw [hshared]
    exact hydrateOn_withMemory_blank
  obtain ⟨ns, P', tr, hrun', hp⟩ := run_hydrate_panics admitsSmooth_freezesHydrated.answers
    (freezesHydrated_hydrate P 2) hnew hpanics
  have hinputs : Run (lossyStep .new debugBuild) (Admits (FreezesInputs "acme" "writer")) P
      (ns.map lossless) P' :=
    run_lossless (hrun'.mono fun _ _ _ _ hok => hok.toFreezesInputs)
  obtain ⟨hsame, htorn, -⟩ := run_lossy_torn (startsWith_pairStore rfl) hrun hloses.applied hstate
    hloses.stopped hinputs fun hno => by cases hno
  exact ⟨ms, P, P', _, hrun, hloses, hp, rfl, rfl, hsame.1,
    fun r => htorn 2 _ _ _ r hnew hp rfl rfl⟩

end Swarm

end SwarmRuntime.State
