import Mathlib.Logic.Function.Basic
import SwarmRuntime.Lib.Interaction
import SwarmRuntime.Lib.Runs

/-!
# `SwarmRuntime.Lib.Pool`: programs interleaved on a shared state

A pool holds any number of running programs and the state they share. One move starts a
program, serves the pending call of one program, crashes a program, or lets the
environment act on the shared state. Serving a call is atomic. Between two calls of one
program any number of moves of the others can come, so a run of the pool is an
interleaving at the level of single calls.

A process keeps its transcript. `Pool.Traced` says that each process stands where its
transcript says, and `Pool.Extends` says what a step keeps of every process: its request,
the transcript as a prefix, and its result once it has one.
-/

set_option autoImplicit false

namespace SwarmRuntime.Lib

open Interaction (Trace)

/-- A program in progress: the request it serves, the calls it has made, what is left of it. -/
structure Proc {C : Type} (R : C → Type) (Q α : Type) where
  request : Q
  transcript : Transcript R
  rest : Interaction R α
  crashed : Bool

/-- The shared state and the processes, by identifier. -/
structure Pool {C : Type} (R : C → Type) (Q α σ ι : Type) where
  shared : σ
  procs : ι → Option (Proc R Q α)

/-- One move of the pool: start a program, serve one call, crash a process, act on the
shared state. -/
inductive Move (Q ω ε ι : Type) : Type where
  | start (i : ι) (q : Q)
  | serve (i : ι) (w : ω)
  | crash (i : ι)
  | env (e : ε)

/-- What a pool runs: the program of each request, how one call is served to one process,
how the environment acts. -/
structure Service {C : Type} (R : C → Type) (Q α σ ω ε ι : Type) where
  prog : Q → Interaction R α
  serve : ι → (c : C) → ω → σ → R c × σ
  env : ε → σ → σ

namespace Pool

variable {C : Type} {R : C → Type} {Q α σ ω ε ι : Type}

/-- The pool with its shared state replaced. -/
def setShared (P : Pool R Q α σ ι) (s : σ) : Pool R Q α σ ι := { P with shared := s }

@[simp] theorem shared_setShared (P : Pool R Q α σ ι) (s : σ) :
    (P.setShared s).shared = s := rfl

@[simp] theorem procs_setShared (P : Pool R Q α σ ι) (s : σ) :
    (P.setShared s).procs = P.procs := rfl

variable [DecidableEq ι]

/-- The pool with the process `i` replaced. -/
def setProc (P : Pool R Q α σ ι) (i : ι) (p : Proc R Q α) : Pool R Q α σ ι :=
  { P with procs := Function.update P.procs i (some p) }

/-- One move. A start needs an unused identifier. A serve needs a process that waits at a
call and has not crashed. -/
def step (S : Service R Q α σ ω ε ι) (P : Pool R Q α σ ι) :
    Move Q ω ε ι → Option (Pool R Q α σ ι)
  | .start i q =>
      match P.procs i with
      | none => some (P.setProc i ⟨q, [], S.prog q, false⟩)
      | some _ => none
  | .serve i w =>
      match P.procs i with
      | some ⟨q, t, .ask c next, false⟩ =>
          -- The reply goes to the transcript and to the program, in one move.
          let (r, s) := S.serve i c w P.shared
          some ((P.setShared s).setProc i ⟨q, t ++ [⟨c, r⟩], next r, false⟩)
      | _ => none
  | .crash i =>
      match P.procs i with
      | some p => some (P.setProc i { p with crashed := true })
      | none => none
  | .env e => some (P.setShared (S.env e P.shared))

section
variable (P : Pool R Q α σ ι) (i j : ι) (p : Proc R Q α)

@[simp] theorem shared_setProc : (P.setProc i p).shared = P.shared := rfl

@[simp] theorem procs_setProc_self : (P.setProc i p).procs i = some p := by
  simp [setProc]

@[simp] theorem procs_setProc_of_ne (h : j ≠ i) : (P.setProc i p).procs j = P.procs j := by
  simp [setProc, h]

/-- The processes after one was replaced. -/
theorem procs_setProc : (P.setProc i p).procs j = if j = i then some p else P.procs j := by
  by_cases h : j = i
  · subst h; simp
  · simp [h]

end

variable {S : Service R Q α σ ω ε ι} {P P' : Pool R Q α σ ι}

/-! ### What one move does -/

theorem step_start {i : ι} {q : Q} :
    P.step S (.start i q) = some P' ↔
      P.procs i = none ∧ P' = P.setProc i ⟨q, [], S.prog q, false⟩ := by
  simp only [step]
  cases P.procs i <;> simp [eq_comm]

theorem step_serve {i : ι} {w : ω} :
    P.step S (.serve i w) = some P' ↔
      ∃ q t c next, P.procs i = some ⟨q, t, .ask c next, false⟩ ∧
        P' = (P.setShared (S.serve i c w P.shared).2).setProc i
          ⟨q, t ++ [⟨c, (S.serve i c w P.shared).1⟩], next (S.serve i c w P.shared).1, false⟩ := by
  simp only [step]
  split
  · rename_i q t c next hp
    constructor
    · intro h
      exact ⟨q, t, c, next, hp, (Option.some.inj h).symm⟩
    · rintro ⟨q', t', c', next', hp', rfl⟩
      rw [hp, Option.some.injEq, Proc.mk.injEq] at hp'
      obtain ⟨rfl, rfl, hask, -⟩ := hp'
      cases hask
      rfl
  · rename_i hno
    simp only [reduceCtorEq, false_iff, not_exists, not_and]
    intro q t c next hp
    exact absurd hp (hno q t c next)

theorem step_crash {i : ι} :
    P.step S (.crash i) = some P' ↔
      ∃ p, P.procs i = some p ∧ P' = P.setProc i { p with crashed := true } := by
  simp only [step]
  cases P.procs i <;> simp [eq_comm]

theorem step_env {e : ε} :
    P.step S (.env e) = some P' ↔ P' = P.setShared (S.env e P.shared) := by
  simp [step, eq_comm]

/-- Where a process comes from in one step: it was there before, or this step started it,
crashed it, or served it. -/
theorem step_procs {m : Move Q ω ε ι} (h : P.step S m = some P') {j : ι} {p' : Proc R Q α}
    (hp' : P'.procs j = some p') :
    P.procs j = some p' ∨
      (∃ q, m = .start j q ∧ P.procs j = none ∧ p' = ⟨q, [], S.prog q, false⟩) ∨
      (∃ p, m = .crash j ∧ P.procs j = some p ∧ p' = { p with crashed := true }) ∨
      ∃ w q t c next, m = .serve j w ∧ P.procs j = some ⟨q, t, .ask c next, false⟩ ∧
        p' = ⟨q, t ++ [⟨c, (S.serve j c w P.shared).1⟩], next (S.serve j c w P.shared).1, false⟩ ∧
        P'.shared = (S.serve j c w P.shared).2 := by
  cases m with
  | start i q =>
    obtain ⟨hnone, rfl⟩ := step_start.mp h
    rw [procs_setProc] at hp'
    split at hp'
    · rename_i hj
      subst hj
      exact .inr (.inl ⟨q, rfl, hnone, (Option.some.inj hp').symm⟩)
    · exact .inl hp'
  | serve i w =>
    obtain ⟨q, t, c, next, hi, rfl⟩ := step_serve.mp h
    rw [procs_setProc] at hp'
    split at hp'
    · rename_i hj
      subst hj
      exact .inr (.inr (.inr ⟨w, q, t, c, next, rfl, hi, (Option.some.inj hp').symm, rfl⟩))
    · exact .inl hp'
  | crash i =>
    obtain ⟨p, hi, rfl⟩ := step_crash.mp h
    rw [procs_setProc] at hp'
    split at hp'
    · rename_i hj
      subst hj
      exact .inr (.inr (.inl ⟨p, rfl, hi, (Option.some.inj hp').symm⟩))
    · exact .inl hp'
  | env e =>
    rw [step_env.mp h] at hp'
    exact .inl hp'

/-- Where the shared state comes from in one step: it is unchanged, the environment acted on
it, or one process was served. -/
theorem step_shared {m : Move Q ω ε ι} (h : P.step S m = some P') :
    P'.shared = P.shared ∨ (∃ e, m = .env e ∧ P'.shared = S.env e P.shared) ∨
      ∃ i w q t c next, m = .serve i w ∧ P.procs i = some ⟨q, t, .ask c next, false⟩ ∧
        P'.procs i = some ⟨q, t ++ [⟨c, (S.serve i c w P.shared).1⟩],
          next (S.serve i c w P.shared).1, false⟩ ∧
        P'.shared = (S.serve i c w P.shared).2 := by
  cases m with
  | start i q =>
    obtain ⟨-, rfl⟩ := step_start.mp h
    exact .inl rfl
  | serve i w =>
    obtain ⟨q, t, c, next, hi, rfl⟩ := step_serve.mp h
    exact .inr (.inr ⟨i, w, q, t, c, next, rfl, hi, procs_setProc_self _ _ _, rfl⟩)
  | crash i =>
    obtain ⟨p, -, rfl⟩ := step_crash.mp h
    exact .inl rfl
  | env e =>
    rw [step_env.mp h]
    exact .inr (.inl ⟨e, rfl, rfl⟩)

/-! ### What every step keeps -/

/-- `P'` continues `P`: each process keeps its request and its transcript, the transcript
as a prefix, and a process that has ended keeps its end. -/
def Extends (P P' : Pool R Q α σ ι) : Prop :=
  ∀ i p, P.procs i = some p → ∃ p', P'.procs i = some p' ∧ p'.request = p.request ∧
    p.transcript <+: p'.transcript ∧
      ((∀ c next, p.rest ≠ .ask c next) → p'.rest = p.rest ∧ p'.transcript = p.transcript)

omit [DecidableEq ι] in
theorem Extends.refl (P : Pool R Q α σ ι) : P.Extends P :=
  fun _ p hp => ⟨p, hp, rfl, List.prefix_rfl, fun _ => ⟨rfl, rfl⟩⟩

omit [DecidableEq ι] in
theorem Extends.trans {P'' : Pool R Q α σ ι} (h : P.Extends P') (h' : P'.Extends P'') :
    P.Extends P'' := by
  intro i p hp
  obtain ⟨p', hp', hq, ht, hend⟩ := h i p hp
  obtain ⟨p'', hp'', hq', ht', hend'⟩ := h' i p' hp'
  refine ⟨p'', hp'', hq'.trans hq, ht.trans ht', fun hrest => ?_⟩
  obtain ⟨hr, htr⟩ := hend hrest
  obtain ⟨hr', htr'⟩ := hend' (by rwa [hr])
  exact ⟨hr'.trans hr, htr'.trans htr⟩

/-- A process that is replaced by one that continues it. -/
theorem extends_setProc {P Q' : Pool R Q α σ ι} {i : ι} {p : Proc R Q α}
    (hprocs : Q'.procs = P.procs)
    (h : ∀ p₀, P.procs i = some p₀ → p.request = p₀.request ∧ p₀.transcript <+: p.transcript ∧
      ((∀ c next, p₀.rest ≠ .ask c next) → p.rest = p₀.rest ∧ p.transcript = p₀.transcript)) :
    P.Extends (Q'.setProc i p) := by
  intro j p₀ hp₀
  by_cases hj : j = i
  · subst hj
    obtain ⟨hq, ht, hend⟩ := h p₀ hp₀
    exact ⟨p, procs_setProc_self _ _ _, hq, ht, hend⟩
  · refine ⟨p₀, ?_, rfl, List.prefix_rfl, fun _ => ⟨rfl, rfl⟩⟩
    rw [procs_setProc_of_ne _ _ _ _ hj, hprocs, hp₀]

/-- One move continues every process. -/
theorem step_extends {m : Move Q ω ε ι} (h : P.step S m = some P') : P.Extends P' := by
  cases m with
  | start i q =>
    obtain ⟨hnone, rfl⟩ := step_start.mp h
    exact extends_setProc rfl fun p₀ hp₀ => by simp [hnone] at hp₀
  | serve i w =>
    obtain ⟨q, t, c, next, hp, rfl⟩ := step_serve.mp h
    -- A served process waited at a call, so it had no end to keep.
    refine extends_setProc rfl fun p₀ hp₀ => ?_
    rw [hp, Option.some.injEq] at hp₀
    subst hp₀
    exact ⟨rfl, List.prefix_append _ _, fun hrest => absurd rfl (hrest c next)⟩
  | crash i =>
    obtain ⟨p, hp, rfl⟩ := step_crash.mp h
    refine extends_setProc rfl fun p₀ hp₀ => ?_
    rw [hp, Option.some.injEq] at hp₀
    subst hp₀
    exact ⟨rfl, List.prefix_rfl, fun _ => ⟨rfl, rfl⟩⟩
  | env e =>
    rw [step_env.mp h]
    exact Extends.refl P

/-- A run continues every process. -/
theorem run_extends {ok : Pool R Q α σ ι → Move Q ω ε ι → Prop} {ms : List (Move Q ω ε ι)}
    (h : Run (step S) ok P ms P') : P.Extends P' := by
  induction h with
  | nil => exact Extends.refl P
  | snoc _ _ hs ih => exact ih.trans (step_extends hs)

/-- Each reply in a transcript was served at a moment of the run, and there the transcript
was what stands before the reply. -/
theorem run_served {ok : Pool R Q α σ ι → Move Q ω ε ι → Prop} {P₀ : Pool R Q α σ ι}
    {ms : List (Move Q ω ε ι)} (h : Run (step S) ok P₀ ms P)
    {i : ι} (hinit : ∀ p, P₀.procs i = some p → p.transcript = []) {p : Proc R Q α}
    {t₁ t₂ : Transcript R} {c : C} {r : R c} (hp : P.procs i = some p)
    (ht : p.transcript = t₁ ++ ⟨c, r⟩ :: t₂) :
    ∃ pre w post P₁ P₂ next, ms = pre ++ .serve i w :: post ∧ Run (step S) ok P₀ pre P₁ ∧
      ok P₁ (.serve i w) ∧ P₁.step S (.serve i w) = some P₂ ∧ Run (step S) ok P₂ post P ∧
      P₁.procs i = some ⟨p.request, t₁, .ask c next, false⟩ ∧
      r = (S.serve i c w P₁.shared).1 := by
  induction h generalizing p t₂ with
  | nil =>
    rw [hinit p hp] at ht
    simp at ht
  | @snoc ms P P' m hr hok hs ih =>
    -- A reply that was there before this step is the induction hypothesis.
    have hold : ∀ p₀ t₂', P.procs i = some p₀ → p₀.request = p.request →
        p₀.transcript = t₁ ++ ⟨c, r⟩ :: t₂' →
        ∃ pre w post P₁ P₂ next, ms ++ [m] = pre ++ .serve i w :: post ∧
          Run (step S) ok P₀ pre P₁ ∧ ok P₁ (.serve i w) ∧ P₁.step S (.serve i w) = some P₂ ∧
          Run (step S) ok P₂ post P' ∧ P₁.procs i = some ⟨p.request, t₁, .ask c next, false⟩ ∧
          r = (S.serve i c w P₁.shared).1 := by
      intro p₀ t₂' hp₀ hq ht₀
      obtain ⟨pre, w, post, P₁, P₂, next, rfl, hpre, hok₁, hs₁, hpost, hi, hr₁⟩ := ih hp₀ ht₀
      rw [hq] at hi
      exact ⟨pre, w, post ++ [m], P₁, P₂, next, by simp, hpre, hok₁, hs₁, .snoc hpost hok hs,
        hi, hr₁⟩
    obtain hp₀ | ⟨q, -, -, rfl⟩ | ⟨p₀, -, hp₀, rfl⟩ | ⟨w, q, t, c', next, rfl, hi, rfl, -⟩ :=
      step_procs hs hp
    · exact hold p t₂ hp₀ rfl ht
    · simp at ht
    · exact hold p₀ t₂ hp₀ rfl ht
    · cases t₂ using List.reverseRecOn with
      | nil =>
        -- The reply is the last of the transcript, so this step served it.
        obtain ⟨rfl, hlast⟩ := List.append_inj' ht rfl
        cases hlast
        exact ⟨ms, w, [], P, P', next, rfl, hr, hok, hs, .nil, hi, rfl⟩
      | append_singleton t₂ x =>
        -- A later reply came in this step, and the one in question was there before.
        have ht' : t ++ [⟨c', (S.serve i c' w P.shared).1⟩] = (t₁ ++ ⟨c, r⟩ :: t₂) ++ [x] := by
          simpa using ht
        obtain ⟨rfl, -⟩ := List.append_inj' ht' rfl
        exact hold _ t₂ hi rfl rfl

/-- Each process stands where its transcript says. -/
def Traced (S : Service R Q α σ ω ε ι) (P : Pool R Q α σ ι) : Prop :=
  ∀ i p, P.procs i = some p → Trace (S.prog p.request) p.transcript p.rest

theorem step_traced {m : Move Q ω ε ι} (hP : P.Traced S) (h : P.step S m = some P') :
    P'.Traced S := by
  intro j p' hp'
  obtain hp | ⟨q, -, -, rfl⟩ | ⟨p, -, hp, rfl⟩ | ⟨w, q, t, c, next, -, hp, rfl, -⟩ :=
    step_procs h hp'
  · show Interaction.Trace (S.prog p'.request) p'.transcript p'.rest
    exact hP j p' hp
  · show Interaction.Trace (S.prog q) [] (S.prog q)
    exact .nil _
  · show Interaction.Trace (S.prog p.request) p.transcript p.rest
    exact hP j p hp
  · show Interaction.Trace (S.prog q) (t ++ [⟨c, _⟩]) (next _)
    exact (hP j _ hp).snoc _

/-- Every process of a run stands where its transcript says. -/
theorem run_traced {ok : Pool R Q α σ ι → Move Q ω ε ι → Prop} {ms : List (Move Q ω ε ι)}
    (hP : P.Traced S) (h : Run (step S) ok P ms P') : P'.Traced S :=
  h.invariant (Traced S) hP fun _ _ _ _ _ hs _ hstep => step_traced hs hstep

/-- The process `i` makes no call any more: it has crashed, or it has ended. -/
def Stopped (P : Pool R Q α σ ι) (i : ι) : Prop :=
  ∃ p, P.procs i = some p ∧ (p.crashed = true ∨ ∀ c next, p.rest ≠ .ask c next)

/-- A stopped process is not served. -/
theorem Stopped.not_serve {i : ι} {w : ω} (h : P.Stopped i) : P.step S (.serve i w) ≠ some P' := by
  intro hs
  obtain ⟨q, t, c, next, hserved, -⟩ := step_serve.mp hs
  obtain ⟨p, hp, hcrashed | hend⟩ := h
  · rw [hserved, Option.some.injEq] at hp
    rw [← hp] at hcrashed
    cases hcrashed
  · rw [hserved, Option.some.injEq] at hp
    rw [← hp] at hend
    exact hend c next rfl

/-- A stopped process stays stopped. -/
theorem Stopped.step {m : Move Q ω ε ι} {i : ι} (h : P.Stopped i) (hs : P.step S m = some P') :
    P'.Stopped i := by
  obtain ⟨p, hp, hstopped⟩ := h
  cases m with
  | start j q =>
    obtain ⟨hnone, rfl⟩ := step_start.mp hs
    have hj : i ≠ j := by
      rintro rfl
      rw [hp] at hnone
      cases hnone
    exact ⟨p, by rw [procs_setProc_of_ne _ _ _ _ hj, hp], hstopped⟩
  | serve j w =>
    have hj : i ≠ j := by
      rintro rfl
      exact Stopped.not_serve ⟨p, hp, hstopped⟩ hs
    obtain ⟨q, t, c, next, -, rfl⟩ := step_serve.mp hs
    exact ⟨p, by rw [procs_setProc_of_ne _ _ _ _ hj, procs_setShared, hp], hstopped⟩
  | crash j =>
    obtain ⟨p', hp', rfl⟩ := step_crash.mp hs
    by_cases hj : i = j
    · subst hj
      exact ⟨_, procs_setProc_self _ _ _, .inl rfl⟩
    · exact ⟨p, by rw [procs_setProc_of_ne _ _ _ _ hj, hp], hstopped⟩
  | env e =>
    rw [step_env.mp hs]
    exact ⟨p, hp, hstopped⟩

/-- A stopped process stays stopped along a run. -/
theorem Stopped.run {ok : Pool R Q α σ ι → Move Q ω ε ι → Prop} {ms : List (Move Q ω ε ι)} {i : ι}
    (h : P.Stopped i) (hrun : Run (Pool.step S) ok P ms P') : P'.Stopped i :=
  hrun.invariant (fun P => P.Stopped i) h fun _ _ _ _ _ hP _ hs => hP.step hs

/-! ### A program alone in the pool -/

section
variable {ok : Pool R Q α σ ι → Move Q ω ε ι → Prop} {i : ι} (I : List ω → σ → Prop) {q : Q}

/-- Serving a process as long as there are answers, as `exec` serves it. The invariant `I`
relates the answers that are left to the shared state, and it admits each call. There is one move
for each answer at most. -/
theorem run_serve (hok : ∀ P w ws, I (w :: ws) P.shared → ok P (.serve i w))
    (hkeep : ∀ c w ws s, I (w :: ws) s → I ws (S.serve i c w s).2) {p : Interaction R α}
    {t : Transcript R} {ws : List ω} (hI : I ws P.shared)
    (hi : P.procs i = some ⟨q, t, p, false⟩) :
    ∃ ms P' rest, Run (step S) ok P ms P' ∧
      P'.procs i = some
        ⟨q, t ++ (Interaction.exec (S.serve i) p ws P.shared).transcript, rest, false⟩ ∧
      Trace p (Interaction.exec (S.serve i) p ws P.shared).transcript rest ∧
      P'.shared = (Interaction.exec (S.serve i) p ws P.shared).state ∧
      (∀ j, j ≠ i → P'.procs j = P.procs j) ∧ ms.length ≤ ws.length := by
  induction p generalizing P t ws with
  | done b =>
    rw [Interaction.exec_done]
    exact ⟨[], P, .done b, .nil, by simpa using hi, .nil _, rfl, fun _ _ => rfl,
      Nat.zero_le _⟩
  | panic msg =>
    rw [Interaction.exec_panic]
    exact ⟨[], P, .panic msg, .nil, by simpa using hi, .nil _, rfl, fun _ _ => rfl,
      Nat.zero_le _⟩
  | ask c next ih =>
    cases ws with
    | nil =>
      rw [Interaction.exec_ask_nil]
      exact ⟨[], P, .ask c next, .nil, by simpa using hi, .nil _, rfl, fun _ _ => rfl,
        Nat.zero_le _⟩
    | cons w ws =>
      -- One call, and then the rest of the program.
      rw [Interaction.exec_ask_cons]
      have hstep : P.step S (.serve i w) = some ((P.setShared (S.serve i c w P.shared).2).setProc i
          ⟨q, t ++ [⟨c, (S.serve i c w P.shared).1⟩], next (S.serve i c w P.shared).1, false⟩) :=
        step_serve.mpr ⟨q, t, c, next, hi, rfl⟩
      obtain ⟨ms, P', rest, hrun, hproc, htrace, hshared, hothers, hlen⟩ :=
        ih (S.serve i c w P.shared).1 (hkeep c w ws P.shared hI)
          (procs_setProc_self (P.setShared (S.serve i c w P.shared).2)
            i ⟨q, t ++ [⟨c, (S.serve i c w P.shared).1⟩], next (S.serve i c w P.shared).1, false⟩)
      refine ⟨.serve i w :: ms, P', rest, .cons (hok P w ws hI) hstep hrun, ?_, .cons htrace,
        hshared, ?_, Nat.succ_le_succ hlen⟩
      · rw [hproc]
        simp
      · intro j hj
        rw [hothers j hj, procs_setProc_of_ne _ _ _ _ hj, procs_setShared]

/-- A request that starts, and is served as long as there are answers. -/
theorem run_start_serve (hok : ∀ P w ws, I (w :: ws) P.shared → ok P (.serve i w))
    (hkeep : ∀ c w ws s, I (w :: ws) s → I ws (S.serve i c w s).2)
    (hstart : ok P (.start i q)) (hi : P.procs i = none) {ws : List ω} (hI : I ws P.shared) :
    ∃ ms P' rest, Run (step S) ok P ms P' ∧
      P'.procs i = some
        ⟨q, (Interaction.exec (S.serve i) (S.prog q) ws P.shared).transcript, rest, false⟩ ∧
      Trace (S.prog q) (Interaction.exec (S.serve i) (S.prog q) ws P.shared).transcript rest ∧
      P'.shared = (Interaction.exec (S.serve i) (S.prog q) ws P.shared).state ∧
      (∀ j, j ≠ i → P'.procs j = P.procs j) ∧ ms.length ≤ ws.length + 1 := by
  have hstep : P.step S (.start i q) = some (P.setProc i ⟨q, [], S.prog q, false⟩) :=
    step_start.mpr ⟨hi, rfl⟩
  have hstarted : (P.setProc i ⟨q, [], S.prog q, false⟩).procs i
      = some ⟨q, [], S.prog q, false⟩ := procs_setProc_self P i _
  have hI : I ws (P.setProc i ⟨q, [], S.prog q, false⟩).shared := hI
  obtain ⟨ms, P', rest, hrun, hproc, htrace, hshared, hothers, hlen⟩ :=
    run_serve I hok hkeep hI hstarted
  refine ⟨.start i q :: ms, P', rest, .cons hstart hstep hrun, by simpa using hproc, htrace,
    hshared, ?_, Nat.succ_le_succ hlen⟩
  intro j hj
  rw [hothers j hj, procs_setProc_of_ne _ _ _ _ hj]

/-- A request that runs alone in the pool returns what `exec` returns. -/
theorem run_alone (hok : ∀ P w ws, I (w :: ws) P.shared → ok P (.serve i w))
    (hkeep : ∀ c w ws s, I (w :: ws) s → I ws (S.serve i c w s).2)
    (hstart : ok P (.start i q)) (hi : P.procs i = none) {ws : List ω} {a : α}
    (hI : I ws P.shared)
    (hend : (Interaction.exec (S.serve i) (S.prog q) ws P.shared).ending = .returned a) :
    ∃ ms P', Run (step S) ok P ms P' ∧
      P'.procs i = some
        ⟨q, (Interaction.exec (S.serve i) (S.prog q) ws P.shared).transcript, .done a, false⟩ ∧
      P'.shared = (Interaction.exec (S.serve i) (S.prog q) ws P.shared).state ∧
      (∀ j, j ≠ i → P'.procs j = P.procs j) ∧ ms.length ≤ ws.length + 1 := by
  obtain ⟨ms, P', rest, hrun, hproc, htrace, hshared, hothers⟩ :=
    run_start_serve I hok hkeep hstart hi hI
  -- The transcript determines what is left, and it leads to the result.
  have hdone : rest = .done a := htrace.unique (Interaction.exec_trace (S.serve i) hend)
  rw [hdone] at hproc
  exact ⟨ms, P', hrun, hproc, hshared, hothers⟩

end

end Pool

end SwarmRuntime.Lib
