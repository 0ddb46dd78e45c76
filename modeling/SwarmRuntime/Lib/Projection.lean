import SwarmRuntime.Lib.Pool

/-!
# `SwarmRuntime.Lib.Projection`: what some of the processes see of a pool

The processes of a pool are split by their requests in own and foreign ones. A `view` keeps the part
of the shared state that the own ones use. When the own calls are served from the view alone, and
the foreign calls leave the view (`Projects`), then the own processes run as if the foreign ones did
not exist: every run projects to a run of the own processes on the view (`Pool.run_project`), with
the moves of the foreign processes left out (`kept`).

The machine is deterministic, so two runs that project to one list of moves, from one view, end in
one view.
-/

set_option autoImplicit false

namespace SwarmRuntime.Lib

open Interaction (Trace)

/-! ### The moves that are kept -/

section
open Classical

variable {σ μ : Type}

/-- The moves of `ms` that have the property `p` in the state that takes them. -/
noncomputable def kept (step : σ → μ → Option σ) (p : σ → μ → Prop) : σ → List μ → List μ
  | _, [] => []
  | s, m :: ms =>
      (if p s m then [m] else []) ++
        match step s m with
        | some s' => kept step p s' ms
        | none => []

variable {step : σ → μ → Option σ} {ok : σ → μ → Prop} {init s s' : σ} {ms : List μ}
  (p : σ → μ → Prop)

theorem kept_cons_of_step {m : μ} (hs : step s m = some s') :
    kept step p s (m :: ms) = (if p s m then [m] else []) ++ kept step p s' ms := by
  rw [kept, hs]

/-- After a run the moves that are kept go on from its end. -/
theorem kept_append (h : Run step ok init ms s) (post : List μ) :
    kept step p init (ms ++ post) = kept step p init ms ++ kept step p s post := by
  induction h generalizing post with
  | nil => rw [List.nil_append, kept, List.nil_append]
  | @snoc ms s s' m _ _ hs ih =>
    -- The last move of the run is the first one that `s` takes.
    calc kept step p init (ms ++ [m] ++ post)
        = kept step p init (ms ++ m :: post) := by rw [List.append_assoc]; rfl
      _ = kept step p init ms ++ ((if p s m then [m] else []) ++ kept step p s' post) := by
        rw [ih, kept_cons_of_step p hs]
      _ = kept step p init ms ++ kept step p s [m] ++ kept step p s' post := by
        rw [kept_cons_of_step p hs, kept, List.append_nil, List.append_assoc]
      _ = kept step p init (ms ++ [m]) ++ kept step p s' post := by rw [← ih [m]]

/-- One more move is kept or left out. -/
theorem kept_snoc (h : Run step ok init ms s) {m : μ} (hs : step s m = some s') :
    kept step p init (ms ++ [m]) = kept step p init ms ++ if p s m then [m] else [] := by
  rw [kept_append p h, kept_cons_of_step p hs, kept, List.append_nil]

end

/-! ### The projection -/

section
variable {C : Type} {R : C → Type} {Q α σ τ ω ε ι : Type}

/-- The program of the request `q` can come to the call `c`. -/
def Service.Calls (S : Service R Q α σ ω ε ι) (q : Q) (c : C) : Prop :=
  ∃ t next, Trace (S.prog q) t (.ask c next)

/-- `S'` serves the requests `own` from a view of the state of `S`. -/
structure Projects (S : Service R Q α σ ω ε ι) (S' : Service R Q α τ ω ε ι) (own : Q → Prop)
    (view : σ → τ) : Prop where
  prog : S'.prog = S.prog
  serve_own : ∀ i q c w s, own q → S.Calls q c →
    S'.serve i c w (view s) = ((S.serve i c w s).1, view (S.serve i c w s).2)
  serve_foreign : ∀ i q c w s, ¬ own q → S.Calls q c → view (S.serve i c w s).2 = view s
  env : ∀ e s, S'.env e (view s) = view (S.env e s)

namespace Pool

open Classical

/-- The own processes, on the view. -/
noncomputable def project (own : Q → Prop) (view : σ → τ) (P : Pool R Q α σ ι) :
    Pool R Q α τ ι :=
  ⟨view P.shared, fun i => (P.procs i).filter fun p => own p.request⟩

/-- The move is of an own process, or of the environment. -/
def Owns (own : Q → Prop) (P : Pool R Q α σ ι) : Move Q ω ε ι → Prop
  | .start _ q => own q
  | .serve i _ => ∃ p, P.procs i = some p ∧ own p.request
  | .crash i => ∃ p, P.procs i = some p ∧ own p.request
  | .env _ => True

variable {S : Service R Q α σ ω ε ι} {S' : Service R Q α τ ω ε ι} {own : Q → Prop} {view : σ → τ}
  {P P' : Pool R Q α σ ι} {i : ι} {p : Proc R Q α}

/-- An own process is in the projection as it is. -/
theorem procs_project_of_own (hp : P.procs i = some p) (hown : own p.request) :
    (P.project own view).procs i = some p := by
  show (P.procs i).filter _ = some p
  rw [hp, Option.filter_some_pos]
  exact decide_eq_true hown

/-- A foreign process is not in the projection. -/
theorem procs_project_of_foreign (hp : P.procs i = some p) (hown : ¬ own p.request) :
    (P.project own view).procs i = none := by
  show (P.procs i).filter _ = none
  rw [hp, Option.filter_some_neg]
  exact decide_eq_false hown

theorem procs_project_of_none (hp : P.procs i = none) : (P.project own view).procs i = none := by
  show (P.procs i).filter _ = none
  rw [hp, Option.filter_none]

/-- What is in the projection is an own process. -/
theorem of_procs_project (hp : (P.project own view).procs i = some p) :
    P.procs i = some p ∧ own p.request := by
  have hfilter : (P.procs i).filter (fun p => own p.request) = some p := hp
  obtain ⟨hp, hown⟩ := Option.filter_eq_some_iff.mp hfilter
  exact ⟨hp, of_decide_eq_true hown⟩

/-- Pools are equal with equal shared states and equal processes. -/
theorem eq_of_procs {P P' : Pool R Q α σ ι} (hshared : P.shared = P'.shared)
    (hprocs : ∀ j, P.procs j = P'.procs j) : P = P' := by
  cases P
  cases P'
  rw [Pool.mk.injEq]
  exact ⟨hshared, funext hprocs⟩

variable [DecidableEq ι] {s : σ}

/-- Replacing an own process replaces it in the projection. -/
theorem project_setProc_of_own (hown : own p.request) :
    ((P.setShared s).setProc i p).project own view
      = ((P.project own view).setShared (view s)).setProc i p := by
  have hset : ((P.setShared s).setProc i p).procs i = some p := procs_setProc_self _ _ _
  refine eq_of_procs rfl fun j => ?_
  by_cases hj : j = i
  · subst hj
    rw [procs_project_of_own hset hown, procs_setProc_self]
  · rw [procs_setProc_of_ne _ _ _ _ hj, procs_setShared]
    show (((P.setShared s).setProc i p).procs j).filter _ = (P.procs j).filter _
    rw [procs_setProc_of_ne _ _ _ _ hj, procs_setShared]

/-- Replacing a foreign process leaves the projection as it is. -/
theorem project_setProc_of_foreign (hown : ¬ own p.request)
    (hold : (P.project own view).procs i = none) (hs : view s = view P.shared) :
    ((P.setShared s).setProc i p).project own view = P.project own view := by
  have hset : ((P.setShared s).setProc i p).procs i = some p := procs_setProc_self _ _ _
  refine eq_of_procs hs fun j => ?_
  by_cases hj : j = i
  · subst hj
    rw [procs_project_of_foreign hset hown, hold]
  · show (((P.setShared s).setProc i p).procs j).filter _ = (P.procs j).filter _
    rw [procs_setProc_of_ne _ _ _ _ hj, procs_setShared]

/-! ### One move -/

omit [DecidableEq ι] in
/-- A call that a process waits for is a call of its program. -/
theorem Traced.calls (hP : P.Traced S) {q : Q} {tr : Transcript R} {c : C}
    {next : R c → Interaction R α} {crashed : Bool}
    (hp : P.procs i = some ⟨q, tr, .ask c next, crashed⟩) : S.Calls q c :=
  ⟨tr, next, hP i _ hp⟩

/-- A move of an own process is a move of the projection. -/
theorem step_project_own (h : Projects S S' own view) (hP : P.Traced S) {m : Move Q ω ε ι}
    (hm : P.Owns own m) (hs : P.step S m = some P') :
    (P.project own view).step S' m = some (P'.project own view) := by
  cases m with
  | start i q =>
    obtain ⟨hnone, rfl⟩ := step_start.mp hs
    have hown : own q := hm
    have hset : (P.setProc i ⟨q, [], S.prog q, false⟩).project own view
        = (P.project own view).setProc i ⟨q, [], S.prog q, false⟩ :=
      project_setProc_of_own (s := P.shared) hown
    rw [step_start, hset, h.prog]
    exact ⟨procs_project_of_none hnone, rfl⟩
  | serve i w =>
    obtain ⟨q, tr, c, next, hp, rfl⟩ := step_serve.mp hs
    obtain ⟨p, hp', hown⟩ := hm
    rw [hp, Option.some.injEq] at hp'
    subst hp'
    have hown : own q := hown
    have hserve : S'.serve i c w (P.project own view).shared
        = ((S.serve i c w P.shared).1, view (S.serve i c w P.shared).2) :=
      h.serve_own i q c w P.shared hown (hP.calls hp)
    -- The reply is the same, and the view of the next state is the next view.
    rw [step_serve, project_setProc_of_own hown]
    refine ⟨q, tr, c, next, procs_project_of_own hp hown, ?_⟩
    rw [hserve]
  | crash i =>
    obtain ⟨p, hp, rfl⟩ := step_crash.mp hs
    obtain ⟨p', hp', hown⟩ := hm
    rw [hp, Option.some.injEq] at hp'
    subst hp'
    have hset : (P.setProc i { p with crashed := true }).project own view
        = (P.project own view).setProc i { p with crashed := true } :=
      project_setProc_of_own (s := P.shared) hown
    rw [step_crash, hset]
    exact ⟨p, procs_project_of_own hp hown, rfl⟩
  | env e =>
    rw [step_env.mp hs, step_env]
    show (P.setShared (S.env e P.shared)).project own view
      = (P.project own view).setShared (S'.env e (view P.shared))
    rw [h.env]
    rfl

/-- A move of a foreign process leaves the projection as it is. -/
theorem step_project_foreign (h : Projects S S' own view) (hP : P.Traced S) {m : Move Q ω ε ι}
    (hm : ¬ P.Owns own m) (hs : P.step S m = some P') :
    P'.project own view = P.project own view := by
  cases m with
  | start i q =>
    obtain ⟨hnone, rfl⟩ := step_start.mp hs
    have hown : ¬ own q := hm
    exact project_setProc_of_foreign (s := P.shared) hown (procs_project_of_none hnone) rfl
  | serve i w =>
    obtain ⟨q, tr, c, next, hp, rfl⟩ := step_serve.mp hs
    have hown : ¬ own q := fun hown => hm ⟨_, hp, hown⟩
    exact project_setProc_of_foreign hown (procs_project_of_foreign hp hown)
      (h.serve_foreign i q c w P.shared hown (hP.calls hp))
  | crash i =>
    obtain ⟨p, hp, rfl⟩ := step_crash.mp hs
    have hown : ¬ own p.request := fun hown => hm ⟨p, hp, hown⟩
    exact project_setProc_of_foreign (s := P.shared) hown (procs_project_of_foreign hp hown) rfl
  | env e => exact absurd trivial hm

/-! ### Runs -/

variable {ok : Pool R Q α σ ι → Move Q ω ε ι → Prop} {ok' : Pool R Q α τ ι → Move Q ω ε ι → Prop}
  {ms : List (Move Q ω ε ι)}

/-- A run, seen by the own processes, is a run of these processes alone. -/
theorem run_project (h : Projects S S' own view) (hP : P.Traced S)
    (hok : ∀ P m, ok P m → P.Owns own m → ok' (P.project own view) m)
    (hr : Run (step S) ok P ms P') :
    Run (step S') ok' (P.project own view) (kept (step S) (Owns own) P ms)
      (P'.project own view) := by
  induction hr with
  | nil => exact .nil
  | @snoc ms P₁ P₂ m hr hm hs ih =>
    have hP₁ : P₁.Traced S := run_traced hP hr
    rw [kept_snoc (Owns own) hr hs]
    by_cases hown : P₁.Owns own m
    · rw [if_pos hown]
      exact .snoc ih (hok P₁ m hm hown) (step_project_own h hP₁ hown hs)
    · -- The projection does not move, and neither does the list.
      rw [if_neg hown, List.append_nil, step_project_foreign h hP₁ hown hs]
      exact ih

end Pool

end

end SwarmRuntime.Lib
