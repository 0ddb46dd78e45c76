import Mathlib.Data.Fintype.EquivFin
import SwarmRuntime.Proofs.Phases

/-!
# `SwarmRuntime.Proofs.Cycles`: one hydrate and one freeze after the other

Runs in which the clients come one after the other: a client hydrates the agent, and the next one
freezes what it has read. An agent at rest holds a FROZEN pair of one version, and the clients
from some number on have not started (`Resting`). No call fails, and the clock shows one second
while a cycle lasts; the next cycle can have a later one.

* `exists_preparedAt`: for each number of calls there are answers at a given second whose tags
  the store has not seen.
* `run_hydrate_rest`: a hydrate of an agent at rest returns the pair, with its current tags.
* `run_freeze_rest`: a freeze with current tags returns the second, and the agent rests again,
  one version later.
* `run_cycle_rest`: the two in a row.
-/

set_option autoImplicit false

namespace SwarmRuntime.State

open SwarmRuntime.Lib SwarmRuntime.Lib.Interaction

namespace Swarm

variable {M : AgentHydrationManager} {B : Build} {t a : String} {P P' : Swarm}
  {ok : Swarm → SwarmMove → Prop} {ws : List Answer} {s : Backing Author} {k : Nat}
  {state : AgentStateRecord} {mem : WorkingMemoryRecord} {c : Duration}

/-! ### Answers with new tags -/

/-- An answer that does not fail, when the clock shows `c`. -/
def answerAt (c : Duration) (tag : String) : Answer := ⟨none, ⟨tag⟩, some c⟩

/-- Answers that do not fail, with tags that are new to the store, when the clock shows `c`. -/
def PreparedAt (c : Duration) (ws : List Answer) (s : Backing Author) : Prop :=
  (∀ w ∈ ws, ∃ tag, w = answerAt c tag) ∧ NewTags ws s

/-- What is left of prepared answers after a call is prepared for the store that the call
leaves. -/
theorem PreparedAt.serve {w : Answer} (h : PreparedAt c (w :: ws) s) (author : Author)
    (call : Call) : PreparedAt c ws (serve author call w s).2 :=
  ⟨fun w' hw' => h.1 w' (List.mem_cons_of_mem _ hw'), h.2.serve author call⟩

/-- A prepared answer is no fault. -/
theorem PreparedAt.fault (h : PreparedAt c ws s) {w : Answer} (hw : w ∈ ws) : w.fault = none := by
  obtain ⟨tag, rfl⟩ := h.1 w hw
  rfl

/-- A prepared answer to a clock reading is the second of the preparation. -/
theorem PreparedAt.clock (h : PreparedAt c ws s) {w : Answer} (hw : w ∈ ws) :
    w.clock = some c := by
  obtain ⟨tag, rfl⟩ := h.1 w hw
  rfl

/-- With prepared answers no call fails. -/
theorem PreparedAt.calm (h : PreparedAt c ws s) : Calm ws.length ws :=
  ⟨Nat.le_refl _, fun _ hw => h.fault hw⟩

/-- For every number of calls and every second there are prepared answers: the store and the
answers so far have finitely many tags, so there is always one more. -/
theorem exists_preparedAt (c : Duration) (n : Nat) (s : Backing Author) :
    ∃ ws, ws.length = n ∧ PreparedAt c ws s := by
  induction n with
  | zero => exact ⟨[], rfl, by simp, by simp, by simp⟩
  | succ n ih =>
    obtain ⟨ws, hlen, hanswers, hnodup, hnew⟩ := ih
    -- One more tag, that neither the store nor the other answers have.
    obtain ⟨tag, htag⟩ := Infinite.exists_notMem_finset
      (ws.map (·.etag.value) ++ s.journal.map (·.etag.value)).toFinset
    rw [List.mem_toFinset, List.mem_append, not_or] at htag
    obtain ⟨hws, hjournal⟩ := htag
    have hfresh : (⟨tag⟩ : ETag) ∉ ws.map Answer.etag := by
      intro hmem
      obtain ⟨w, hw, hwtag⟩ := List.mem_map.mp hmem
      exact hws (List.mem_map.mpr ⟨w, hw, congrArg ETag.value hwtag⟩)
    refine ⟨answerAt c tag :: ws, by rw [List.length_cons, hlen], ?_, ?_, ?_⟩
    · show ∀ w ∈ answerAt c tag :: ws, ∃ tag, w = answerAt c tag
      intro w hw
      rcases List.mem_cons.mp hw with rfl | hw
      · exact ⟨tag, rfl⟩
      · exact hanswers w hw
    · show ((⟨tag⟩ : ETag) :: ws.map Answer.etag).Nodup
      exact List.nodup_cons.mpr ⟨hfresh, hnodup⟩
    · show ∀ w ∈ answerAt c tag :: ws, ∀ x ∈ s.journal, x.etag ≠ w.etag
      intro w hw x hx
      rcases List.mem_cons.mp hw with rfl | hw
      · intro hxtag
        exact hjournal (List.mem_map.mpr ⟨x, hx, congrArg ETag.value hxtag⟩)
      · exact hnew w hw x hx

/-- The condition on the moves admits each such answer. -/
def AdmitsAnswersAt (c : Duration) (ok : Swarm → SwarmMove → Prop) : Prop :=
  ∀ P id tag, FreshTags P (.serve id (answerAt c tag)) → ok P (.serve id (answerAt c tag))

/-- A condition that admits every answer without a fault admits those of one second. -/
theorem AdmitsSmooth.answersAt (h : AdmitsSmooth ok) : AdmitsAnswersAt c ok :=
  fun P id tag hfresh => h P id (answerAt c tag) rfl hfresh

/-- The first of the prepared answers may be served. -/
theorem AdmitsAnswersAt.serve (h : AdmitsAnswersAt c ok) (id : Nat) (P : Swarm) (w : Answer)
    (ws : List Answer) (hws : PreparedAt c (w :: ws) P.shared) : ok P (.serve id w) := by
  obtain ⟨tag, rfl⟩ := hws.1 w List.mem_cons_self
  exact h P id tag hws.2.freshTags

/-- The second at which a run has no reason to choose another one: the one of `answerWith`. -/
abbrev firstSecond : Duration := ⟨1700000000, 0⟩

/-- Prepared answers at the first second. -/
abbrev Prepared (ws : List Answer) (s : Backing Author) : Prop := PreparedAt firstSecond ws s

/-- The condition on the moves admits the answers of the first second. -/
abbrev AdmitsAnswers (ok : Swarm → SwarmMove → Prop) : Prop := AdmitsAnswersAt firstSecond ok

/-- For every number of calls there are prepared answers at the first second. -/
theorem exists_prepared (n : Nat) (s : Backing Author) : ∃ ws, ws.length = n ∧ Prepared ws s :=
  exists_preparedAt firstSecond n s

/-- A condition that admits every answer without a fault admits those of the first second. -/
theorem AdmitsSmooth.answers (h : AdmitsSmooth ok) : AdmitsAnswers ok := h.answersAt

/-! ### An agent at rest -/

/-- The agent holds a FROZEN pair of one version, and no client with a number from `k` on has
started. -/
structure Resting (B : Build) (t a : String) (P : Swarm) (k : Nat) (state : AgentStateRecord)
    (mem : WorkingMemoryRecord) : Prop where
  unused : ∀ id, k ≤ id → P.procs id = none
  pair : HoldsPair B t a P.shared state mem
  frozen : state.status = AgentLifecycleStatus.frozen.toI32
  versions : state.workingMemoryVersion = mem.version

/-- An agent that starts with the blank records is at rest: no client has started, and the two
records are FROZEN and of version 0. -/
theorem resting_blank :
    Resting B t a (start (blankStore none B t a)) 0 (blankState t a) (blankMemory t a) :=
  ⟨fun _ _ => rfl, holdsPair_pairStore, rfl, rfl⟩

/-- The next client hydrates the agent and returns the pair at rest; the store and the other
clients stay as they are. A freeze input with the tags that it has read and the version of this
pair comes after a hydrate (`AfterHydrate`), and its tags are current. -/
theorem run_hydrate_rest (hok : AdmitsAnswersAt c ok)
    (hstart : ok P (.start k (.hydrate t a))) (hrest : Resting B t a P k state mem) :
    ∃ ms P' p es em, Run (step M B) ok P ms P' ∧ Resting B t a P' (k + 1) state mem ∧
      P'.shared = P.shared ∧ P'.procs k = some p ∧ p.request = .hydrate t a ∧
      (∀ id, id ≠ k → P'.procs id = P.procs id) ∧
      ∀ i : FreezeInput, i.tenantId = t → i.agentId = a → i.stateEtag = es → i.memoryEtag = em →
        i.workingMemory.version = mem.version →
        AfterHydrate P' i ⟨state, mem, false⟩ ∧ i.Current P'.shared := by
  obtain ⟨ws, hlen, hws⟩ := exists_preparedAt c 3 P.shared
  have hcalm : Calm 3 ws := hlen ▸ hws.calm
  have hend : (exec (serve (some k)) (M.hydrate B t a).run ws P.shared).ending
      = .returned (.ok ⟨state, mem, false⟩) := by
    obtain ⟨w₁, w₂, w₃, ws, rfl, h₁, h₂, h₃⟩ := hcalm.exists_three
    rw [(exec_hydrate h₁ h₂ h₃).2]
    exact hrest.pair.hydrateOn hrest.versions (by rw [hrest.frozen]; decide)
  obtain ⟨ms, P', hrun, hproc, hshared, hothers, -⟩ := run_hydrate_alone (PreparedAt c)
    (hok.serve k) (fun call w ws s hws => hws.serve (some k) call) hstart
    (hrest.unused k (Nat.le_refl k)) hws hend
  obtain ⟨rs, rm, cs, cm, hgs, hgm, hcs, hes, hcm, hem, -, -, -⟩ := exec_hydrate_records hend
  refine ⟨ms, P', _, rs.etag, rm.etag, hrun, ?_, hshared, hproc, rfl, hothers, ?_⟩
  · show Resting B t a P' (k + 1) state mem
    refine ⟨?_, hshared ▸ hrest.pair, hrest.frozen, hrest.versions⟩
    intro id hid
    rw [hothers id (by omega)]
    exact hrest.unused id (by omega)
  · intro i ht ha hies hiem hver
    subst ht ha
    constructor
    · show AfterHydrate P' i ⟨state, mem, false⟩
      exact ⟨⟨k, _, rs, rm, hproc, rfl, rfl, hgs, hgm, hies.symm, hiem.symm⟩, rfl, hver⟩
    · show i.Current P'.shared
      rw [hshared]
      exact ⟨⟨cs, hcs, hes.trans hies.symm⟩, ⟨cm, hcm, hem.trans hiem.symm⟩⟩

/-- The next client freezes the agent with current tags. It returns the second that the clock
shows, and the agent rests again: it holds the pair that the freeze has made, and the client after
the next one has not started. -/
theorem run_freeze_rest (hok : AdmitsAnswersAt c ok) {i : FreezeInput}
    (hstart : ok P (.start k (.freeze i))) (hrest : Resting B i.tenantId i.agentId P k state mem)
    (hinc : i.Increments B) (hcur : i.Current P.shared) :
    ∃ ms P' p, Run (step M B) ok P ms P' ∧
      Resting B i.tenantId i.agentId P' (k + 1)
        (i.frozenState B (some c) (some c))
        (i.frozenMemory B (some c)) ∧
      P'.procs k = some p ∧ p.request = .freeze i ∧
      p.rest = done (.frozen (.ok (secondsOf (some c)))) ∧
      ∀ id, id ≠ k → P'.procs id = P.procs id := by
  obtain ⟨ws, hlen, hws⟩ := exists_preparedAt c 7 P.shared
  have hcalm : Calm 7 ws := hlen ▸ hws.calm
  obtain ⟨w₁, w₂, w₃, w₄, w₅, w₆, w₇, rest, rfl, h₂, h₄, h₇⟩ := hcalm.exists_seven
  have hc₁ : w₁.clock = some c := hws.clock (by simp)
  have hc₃ : w₃.clock = some c := hws.clock (by simp)
  have hc₅ : w₅.clock = some c := hws.clock (by simp)
  have hend : (exec (serve (some k)) (freeze B i).run
      (w₁ :: w₂ :: w₃ :: w₄ :: w₅ :: w₆ :: w₇ :: rest) P.shared).ending
        = .returned (.ok (secondsOf (some c))) := by
    rw [(exec_freeze hinc hcur h₂ h₄).1, finishedSeq, h₇, hc₅]
  obtain ⟨ms, P', hrun, hproc, hshared, hothers, -⟩ := run_freeze_alone (PreparedAt c)
    (hok.serve k) (fun call w ws s hws => hws.serve (some k) call) hstart
    (hrest.unused k (Nat.le_refl k)) hws hend
  rw [(exec_freeze hinc hcur h₂ h₄).2] at hshared
  refine ⟨ms, P', _, hrun, ⟨?_, ⟨?_, ?_⟩, rfl, rfl⟩, hproc, rfl, rfl, hothers⟩
  · show ∀ id, k + 1 ≤ id → P'.procs id = none
    intro id hid
    rw [hothers id (by omega)]
    exact hrest.unused id (by omega)
  · rw [hshared]
    refine ⟨_, FreezeInput.lookup_state_finished .., ?_⟩
    rw [hc₁, hc₃]
    exact B.state.decode_encodeToVec _
  · rw [hshared]
    refine ⟨_, FreezeInput.lookup_memory_finished .., ?_⟩
    rw [hc₁]
    exact B.memory.decode_encodeToVec _

/-- One client hydrates the agent and the next one freezes what it has read, without an edit. The
freeze returns the second that the clock shows, the agent rests again with a version that is one
further on, and the clients before these two stay as they are. -/
theorem run_cycle_rest (hok : AdmitsAnswersAt c ok)
    (hhydrate : ok P (.start k (.hydrate t a)))
    (hfreeze : ∀ P i r, AfterHydrate P i r → i.workingMemory = mem →
      ok P (.start (k + 1) (.freeze i)))
    (hrest : Resting B t a P k state mem)
    (hinc : B.overflowChecks = true → mem.version.toNat + 1 < 2 ^ 64) :
    ∃ ms P' i p q, Run (step M B) ok P ms P' ∧ i.tenantId = t ∧ i.agentId = a ∧
      i.state = state ∧ i.workingMemory = mem ∧
      Resting B t a P' (k + 2)
        (i.frozenState B (some c) (some c))
        (i.frozenMemory B (some c)) ∧
      P'.procs k = some q ∧ q.request = .hydrate t a ∧
      P'.procs (k + 1) = some p ∧ p.request = .freeze i ∧
      p.rest = done (.frozen (.ok (secondsOf (some c)))) ∧
      ∀ id, id < k → P'.procs id = P.procs id := by
  obtain ⟨ms₁, P₁, q, es, em, hrun₁, hrest₁, -, hq, hqreq, hothers₁, hafter⟩ :=
    run_hydrate_rest (M := M) hok hhydrate hrest
  let i : FreezeInput := ⟨t, a, state, mem, es, em, .freeze⟩
  obtain ⟨hfrom, hcur⟩ := hafter i rfl rfl rfl rfl rfl
  obtain ⟨ms₂, P₂, p, hrun₂, hrest₂, hp, hpreq, hpdone, hothers₂⟩ :=
    run_freeze_rest (M := M) hok (hfreeze P₁ i _ hfrom rfl) hrest₁ hinc hcur
  refine ⟨ms₁ ++ ms₂, P₂, i, p, q, hrun₁.append hrun₂, rfl, rfl, rfl, rfl, hrest₂, ?_, hqreq, hp,
    hpreq, hpdone, ?_⟩
  · rw [hothers₂ k (by omega), hq]
  · intro id hid
    rw [hothers₂ id (by omega), hothers₁ id (by omega)]

end Swarm

end SwarmRuntime.State
