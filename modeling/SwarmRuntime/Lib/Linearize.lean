import Mathlib.Data.List.Nodup
import SwarmRuntime.Lib.Pool

/-!
# `SwarmRuntime.Lib.Linearize`: operations that take effect at one move

A run of a pool is linearizable when its operations can be put in one order that the object
they act on could have executed, each operation within the interval between its start and its
end. The proof technique is the one of linearization points: a relation `point` names the move at
which an operation takes effect.

* `Logged`: a run together with the events of its moves, oldest first. Every run has such a log
  (`Run.exists_logged`), and the log splits where the run splits (`Logged.split`).
* `Logged.refines`: the simulation rule. When each event is a step of the abstract object and every
  other move keeps the abstraction, the log is an execution of the object.
* `Logged.ordered`: when each event belongs to the process that its move serves, a process that has
  stopped before another one starts comes first in the log.
* `CasOp`: the object that the rule is used with here, a register with compare-and-swap.
-/

set_option autoImplicit false

namespace SwarmRuntime.Lib

/-! ### Runs with their events -/

/-- A run with the events of its moves, oldest first. A move for which `point` knows an event has
one, and every other move has none. -/
inductive Logged {σ μ E : Type} (step : σ → μ → Option σ) (ok : σ → μ → Prop)
    (point : σ → μ → σ → E → Prop) (init : σ) : List μ → σ → List E → Prop
  | nil : Logged step ok point init [] init []
  | silent {ms : List μ} {s s' : σ} {m : μ} {log : List E} :
      Logged step ok point init ms s log → ok s m → step s m = some s' →
      (∀ e, ¬ point s m s' e) → Logged step ok point init (ms ++ [m]) s' log
  | event {ms : List μ} {s s' : σ} {m : μ} {log : List E} {e : E} :
      Logged step ok point init ms s log → ok s m → step s m = some s' →
      point s m s' e → Logged step ok point init (ms ++ [m]) s' (log ++ [e])

section
variable {σ μ E V : Type} {step : σ → μ → Option σ} {ok : σ → μ → Prop}
  {point : σ → μ → σ → E → Prop} {init s : σ} {ms : List μ} {log : List E}

/-- A run with its events is a run. -/
theorem Logged.run (h : Logged step ok point init ms s log) : Run step ok init ms s := by
  induction h with
  | nil => exact .nil
  | silent _ hok hs _ ih => exact .snoc ih hok hs
  | event _ hok hs _ ih => exact .snoc ih hok hs

/-- Each run has a log. -/
theorem Run.exists_logged (point : σ → μ → σ → E → Prop) (h : Run step ok init ms s) :
    ∃ log, Logged step ok point init ms s log := by
  induction h with
  | nil => exact ⟨[], .nil⟩
  | @snoc ms s s' m _ hok hs ih =>
    obtain ⟨log, hlog⟩ := ih
    by_cases hpoint : ∃ e, point s m s' e
    · obtain ⟨e, he⟩ := hpoint
      exact ⟨log ++ [e], .event hlog hok hs he⟩
    · exact ⟨log, .silent hlog hok hs fun e he => hpoint ⟨e, he⟩⟩

/-- The last move of a run with its events, and the event that it has or has not. -/
theorem Logged.exists_last {m : μ} (h : Logged step ok point init (ms ++ [m]) s log) :
    ∃ t log', Logged step ok point init ms t log' ∧ ok t m ∧ step t m = some s ∧
      ((log = log' ∧ ∀ e, ¬ point t m s e) ∨ ∃ e, log = log' ++ [e] ∧ point t m s e) := by
  generalize hms : ms ++ [m] = l at h
  cases h with
  | nil => simp at hms
  | silent hr hok hs hno =>
    obtain ⟨rfl, hm⟩ := List.append_inj' hms rfl
    cases hm
    exact ⟨_, _, hr, hok, hs, .inl ⟨rfl, hno⟩⟩
  | event hr hok hs hpoint =>
    obtain ⟨rfl, hm⟩ := List.append_inj' hms rfl
    cases hm
    exact ⟨_, _, hr, hok, hs, .inr ⟨_, rfl, hpoint⟩⟩

/-- The log splits at each prefix of the run. -/
theorem Logged.split {pre post : List μ} (h : Logged step ok point init (pre ++ post) s log) :
    ∃ t log₁ log₂, Logged step ok point init pre t log₁ ∧
      Logged step ok point t post s log₂ ∧ log = log₁ ++ log₂ := by
  induction post using List.reverseRecOn generalizing s log with
  | nil =>
    rw [List.append_nil] at h
    exact ⟨s, log, [], h, .nil, (List.append_nil log).symm⟩
  | append_singleton post m ih =>
    rw [← List.append_assoc] at h
    obtain ⟨s', log', hr, hok, hs, ⟨rfl, hno⟩ | ⟨e, rfl, hpoint⟩⟩ := h.exists_last
    · obtain ⟨t, log₁, log₂, h₁, h₂, rfl⟩ := ih hr
      exact ⟨t, log₁, log₂, h₁, .silent h₂ hok hs hno, rfl⟩
    · obtain ⟨t, log₁, log₂, h₁, h₂, rfl⟩ := ih hr
      exact ⟨t, log₁, log₂ ++ [e], h₁, .event h₂ hok hs hpoint, List.append_assoc _ _ _⟩

/-- A log splits where the run does, at a state that the run is known to reach. -/
theorem Logged.split_at {pre post : List μ} {t : σ}
    (h : Logged step ok point init (pre ++ post) s log) (hpre : Run step ok init pre t) :
    ∃ log₁ log₂, Logged step ok point init pre t log₁ ∧
      Logged step ok point t post s log₂ ∧ log = log₁ ++ log₂ := by
  obtain ⟨t', log₁, log₂, h₁, h₂, hlog⟩ := h.split
  have ht : t' = t := h₁.run.unique hpre
  subst ht
  exact ⟨log₁, log₂, h₁, h₂, hlog⟩

/-- A move inside the run that has an event has one in the log. -/
theorem Logged.exists_event {pre post : List μ} {m : μ} {t t' : σ} {e : E}
    (h : Logged step ok point init (pre ++ m :: post) s log) (hpre : Run step ok init pre t)
    (hs : step t m = some t') (he : point t m t' e) : ∃ e' ∈ log, point t m t' e' := by
  have hcut : pre ++ m :: post = (pre ++ [m]) ++ post := by simp
  rw [hcut] at h
  obtain ⟨t₂, log₁, log₂, h₁, -, rfl⟩ := h.split
  obtain ⟨t₁, log', hr, -, hs₁, hlast⟩ := h₁.exists_last
  -- The machine is deterministic, so the log has passed through `t` and `t'`.
  have ht : t₁ = t := hr.run.unique hpre
  subst ht
  rw [hs, Option.some.injEq] at hs₁
  subst hs₁
  rcases hlast with ⟨-, hno⟩ | ⟨e', rfl, he'⟩
  · exact absurd he (hno e)
  · exact ⟨e', by simp, he'⟩

/-- Each event of the log is an event of a move inside the run. -/
theorem Logged.exists_move (h : Logged step ok point init ms s log) {e : E} (he : e ∈ log) :
    ∃ pre m post t t', ms = pre ++ m :: post ∧ Run step ok init pre t ∧ ok t m ∧
      step t m = some t' ∧ Run step ok t' post s ∧ point t m t' e := by
  induction h with
  | nil => cases he
  | @silent ms s s' m log hr hok hs _ ih =>
    obtain ⟨pre, m', post, t, t', rfl, hpre, hok', hs', hpost, hpoint⟩ := ih he
    exact ⟨pre, m', post ++ [m], t, t', by simp, hpre, hok', hs', .snoc hpost hok hs, hpoint⟩
  | @event ms s s' m log e' hr hok hs hpoint' ih =>
    rcases List.mem_append.mp he with he | he
    · obtain ⟨pre, m', post, t, t', rfl, hpre, hok', hs', hpost, hpoint⟩ := ih he
      exact ⟨pre, m', post ++ [m], t, t', by simp, hpre, hok', hs', .snoc hpost hok hs, hpoint⟩
    · rw [List.mem_singleton] at he
      subst he
      exact ⟨ms, m, [], s, s', rfl, hr.run, hok, hs, .nil, hpoint'⟩

/-- The simulation rule. `apply` is one step of the abstract object. Each event is such a step, and
every other move keeps the abstraction `R`. Then the log is an execution of the object. -/
theorem Logged.refines {apply : V → E → Option V} (R : σ → V → Prop) {v₀ : V} (h0 : R init v₀)
    (hsilent : ∀ ms s m s' v, Run step ok init ms s → R s v → ok s m → step s m = some s' →
      (∀ e, ¬ point s m s' e) → R s' v)
    (hevent : ∀ ms s m s' v e, Run step ok init ms s → R s v → ok s m → step s m = some s' →
      point s m s' e → ∃ v', apply v e = some v' ∧ R s' v')
    (h : Logged step ok point init ms s log) : ∃ v, log.foldlM apply v₀ = some v ∧ R s v := by
  induction h with
  | nil => exact ⟨v₀, rfl, h0⟩
  | @silent ms s s' m log hr hok hs hno ih =>
    obtain ⟨v, hlog, hR⟩ := ih
    exact ⟨v, hlog, hsilent ms s m s' v hr.run hR hok hs hno⟩
  | @event ms s s' m log e hr hok hs hpoint ih =>
    obtain ⟨v, hlog, hR⟩ := ih
    obtain ⟨v', happly, hR'⟩ := hevent ms s m s' v e hr.run hR hok hs hpoint
    refine ⟨v', ?_, hR'⟩
    rw [List.foldlM_append, hlog]
    show (apply v e >>= fun v => some v) = some v'
    rw [happly]
    rfl

end

/-! ### Events of the processes of a pool -/

section
open Interaction

variable {C : Type} {R : C → Type} {Q α σ ω ε ι O : Type} [DecidableEq ι]
  {S : Service R Q α σ ω ε ι} {ok : Pool R Q α σ ι → Move Q ω ε ι → Prop}
  {point : Pool R Q α σ ι → Move Q ω ε ι → Pool R Q α σ ι → ι × O → Prop}
  {P₀ P : Pool R Q α σ ι} {ms : List (Move Q ω ε ι)} {log : List (ι × O)}

/-- Each event belongs to the process that its move serves. -/
def OwnPoints (point : Pool R Q α σ ι → Move Q ω ε ι → Pool R Q α σ ι → ι × O → Prop) : Prop :=
  ∀ P m P' e, point P m P' e → ∃ w, m = .serve e.1 w

/-- A stopped process has no event any more. -/
theorem Logged.not_mem_of_stopped (hown : OwnPoints point)
    (h : Logged (Pool.step S) ok point P₀ ms P log) {i : ι} (hi : P₀.Stopped i) :
    ∀ e ∈ log, e.1 ≠ i := by
  rintro e he rfl
  obtain ⟨pre, m, post, P₁, P₂, -, hpre, -, hs, -, hpoint⟩ := h.exists_move he
  obtain ⟨w, rfl⟩ := hown _ _ _ _ hpoint
  -- A stopped process stays stopped, and it is not served.
  exact (hi.run hpre).not_serve hs

/-- A process with an event has started. -/
theorem Logged.started (hown : OwnPoints point)
    (h : Logged (Pool.step S) ok point P₀ ms P log) {e : ι × O} (he : e ∈ log) :
    P.procs e.1 ≠ none := by
  obtain ⟨pre, m, post, P₁, P₂, -, -, -, hs, hpost, hpoint⟩ := h.exists_move he
  obtain ⟨w, rfl⟩ := hown _ _ _ _ hpoint
  obtain ⟨q, t, c, next, hserved, -⟩ := Pool.step_serve.mp hs
  obtain ⟨p', hp', -⟩ := Pool.step_extends hs e.1 _ hserved
  obtain ⟨p'', hp'', -⟩ := Pool.run_extends hpost e.1 p' hp'
  rw [hp'']
  exact Option.some_ne_none p''

/-- The order of the log respects real time: when `i` had stopped and `j` had not started at one
moment of the run, the events of `i` come before those of `j`. -/
theorem Logged.ordered (hown : OwnPoints point)
    (h : Logged (Pool.step S) ok point P₀ ms P log) {pre : List (Move Q ω ε ι)}
    {P₁ : Pool R Q α σ ι} (hpre : pre <+: ms) (hrun : Run (Pool.step S) ok P₀ pre P₁) {i j : ι}
    (hi : P₁.Stopped i) (hj : P₁.procs j = none) {x y : ι × O} (hx : x ∈ log) (hy : y ∈ log)
    (hxi : x.1 = i) (hyj : y.1 = j) : [x, y].Sublist log := by
  obtain ⟨post, rfl⟩ := hpre
  obtain ⟨log₁, log₂, h₁, h₂, rfl⟩ := h.split_at hrun
  -- `i` has no event after this moment, and `j` has none before it.
  have hx₁ : x ∈ log₁ := by
    rcases List.mem_append.mp hx with hx | hx
    · exact hx
    · exact absurd hxi (h₂.not_mem_of_stopped hown hi x hx)
  have hy₂ : y ∈ log₂ := by
    rcases List.mem_append.mp hy with hy | hy
    · exact absurd hj (hyj ▸ h₁.started hown hy)
    · exact hy
  exact (List.singleton_sublist.mpr hx₁).append (List.singleton_sublist.mpr hy₂)

/-- And so does the order of the events that are kept. -/
theorem Logged.ordered_filter (hown : OwnPoints point)
    (h : Logged (Pool.step S) ok point P₀ ms P log) (keep : ι × O → Bool)
    {pre : List (Move Q ω ε ι)} {P₁ : Pool R Q α σ ι} (hpre : pre <+: ms)
    (hrun : Run (Pool.step S) ok P₀ pre P₁) {i j : ι} (hi : P₁.Stopped i) (hj : P₁.procs j = none)
    {x y : ι × O} (hx : x ∈ log.filter keep) (hy : y ∈ log.filter keep) (hxi : x.1 = i)
    (hyj : y.1 = j) : [x, y].Sublist (log.filter keep) := by
  obtain ⟨hx, hkeepx⟩ := List.mem_filter.mp hx
  obtain ⟨hy, hkeepy⟩ := List.mem_filter.mp hy
  have hpair : [x, y].Sublist log := h.ordered hown hpre hrun hi hj hx hy hxi hyj
  have hkept : [x, y].filter keep = [x, y] := by simp [hkeepx, hkeepy]
  rw [← hkept]
  exact hpair.filter keep

/-- When a process is spent by its event, and stays spent, each process has one event at most. -/
theorem Logged.nodup (spent : Pool R Q α σ ι → ι → Prop)
    (hfresh : ∀ P m P' e, point P m P' e → ¬ spent P e.1)
    (hspent : ∀ ms P m P' e, Run (Pool.step S) ok P₀ ms P → P.step S m = some P' →
      point P m P' e → spent P' e.1)
    (hkept : ∀ P m P' i, P.step S m = some P' → spent P i → spent P' i)
    (h : Logged (Pool.step S) ok point P₀ ms P log) :
    (log.map Prod.fst).Nodup ∧ ∀ e ∈ log, spent P e.1 := by
  induction h with
  | nil => exact ⟨List.nodup_nil, fun e he => by cases he⟩
  | silent _ _ hs _ ih => exact ⟨ih.1, fun e he => hkept _ _ _ _ hs (ih.2 e he)⟩
  | @event ms P P' m log e hr _ hs hpoint ih =>
    obtain ⟨hnodup, hall⟩ := ih
    constructor
    · rw [List.map_append, List.map_singleton]
      refine List.nodup_append.mpr ⟨hnodup, List.nodup_singleton _, ?_⟩
      intro i hi j hj hij
      rw [List.mem_singleton] at hj
      obtain ⟨e', he', rfl⟩ := List.mem_map.mp hi
      -- An older event of the same process would have spent it.
      have hsame : e'.1 = e.1 := hij.trans hj
      exact hfresh _ _ _ _ hpoint (hsame ▸ hall e' he')
    · intro e' he'
      rcases List.mem_append.mp he' with he' | he'
      · exact hkept _ _ _ _ hs (hall e' he')
      · rw [List.mem_singleton] at he'
        subst he'
        exact hspent _ _ _ _ _ hr.run hs hpoint

end

/-! ### A register with compare-and-swap -/

/-- An operation of a register: a read with the value that it returned, or a compare-and-swap that
has succeeded, with the value that it expected and the value that it installed. -/
inductive CasOp (V : Type) where
  | read (v : V)
  | swap (expected new : V)
  deriving DecidableEq, Repr

namespace CasOp

variable {V ι : Type} [DecidableEq V]

/-- The value of the register after one operation, when the register can execute it. -/
def apply (cur : V) : CasOp V → Option V
  | read v => if v = cur then some cur else none
  | swap expected new => if expected = cur then some new else none

/-- Whether the operation reads. -/
def isRead : CasOp V → Bool
  | read _ => true
  | swap _ _ => false

/-- The register executes the operations of the processes one after the other. -/
def replay (v₀ : V) (log : List (ι × CasOp V)) : Option V := log.foldlM (fun v e => apply v e.2) v₀

/-- The register can do without any of the reads. -/
theorem replay_filter {keep : ι × CasOp V → Bool} (hkeep : ∀ e, e.2.isRead = false → keep e = true)
    {v₀ v : V} {log : List (ι × CasOp V)} (h : replay v₀ log = some v) :
    replay v₀ (log.filter keep) = some v := by
  induction log generalizing v₀ with
  | nil => exact h
  | cons e log ih =>
    unfold replay at h ih ⊢
    rw [List.foldlM_cons] at h
    obtain ⟨v₁, hv₁, hrest⟩ := Option.bind_eq_some_iff.mp h
    cases hk : keep e with
    | true =>
      rw [List.filter_cons_of_pos hk, List.foldlM_cons]
      exact Option.bind_eq_some_iff.mpr ⟨v₁, hv₁, ih hrest⟩
    | false =>
      -- What is left out is a read, and a read leaves the value.
      rw [List.filter_cons_of_neg (by simp [hk])]
      obtain ⟨i, o⟩ := e
      cases o with
      | swap expected new =>
        rw [hkeep (i, swap expected new) rfl] at hk
        cases hk
      | read v' =>
        have hsame : v₁ = v₀ := by
          simp only [apply] at hv₁
          split at hv₁
          · exact (Option.some.inj hv₁).symm
          · cases hv₁
        rw [← hsame]
        exact ih hrest

end CasOp

end SwarmRuntime.Lib
