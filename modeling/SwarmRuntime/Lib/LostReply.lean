import SwarmRuntime.Lib.Pool

/-!
# `SwarmRuntime.Lib.LostReply`: a call is served, and its reply is lost

A call that reports an error may have been served nevertheless: the reply is lost, and the process
gets an error in its place. `Loses` relates such a service to the service without losses. When a
process ends at a lost reply, the process is to the others what one is that crashes after the call.
So each run with losses is, on the shared state, a run without (`Pool.run_loses`), in which the
processes with a lost reply are crashed (`Matches`). What is known of the runs without losses then
holds of the runs with losses, crashes being part of both.

`Pool.run_loses` also keeps the moments: each moment of the run has one in the other run.

The other way round, where no reply has to be lost (`Spares`), what the crashed processes leave to
the others can be done in both pools (`Pool.run_spares`).
-/

set_option autoImplicit false

namespace SwarmRuntime.Lib

open Interaction (Trace)

variable {C : Type} {R : C → Type} {Q α σ ω ω' ε ι : Type}

/-- `S'` serves the calls as `S` does, but it can lose a reply: `Lost c r r'` says that a process
gets `r'` where the reply to `c` was `r`. A process ends there. `plain` is what the answers of `S'`
say of the call itself. -/
structure Loses (S : Service R Q α σ ω ε ι) (S' : Service R Q α σ ω' ε ι)
    (Lost : (c : C) → R c → R c → Prop) (plain : ω' → ω) : Prop where
  prog : S'.prog = S.prog
  env : S'.env = S.env
  state : ∀ i c w s, (S'.serve i c w s).2 = (S.serve i c (plain w) s).2
  reply : ∀ i c w s, (S'.serve i c w s).1 = (S.serve i c (plain w) s).1 ∨
    Lost c (S.serve i c (plain w) s).1 (S'.serve i c w s).1
  ends : ∀ q t c next r r', Trace (S.prog q) t (.ask c next) → Lost c r r' →
    ∀ c' next', next r' ≠ .ask c' next'

/-- Each answer of `S` is one of `S'`, with which no reply is lost. -/
def Spares (S : Service R Q α σ ω ε ι) (S' : Service R Q α σ ω' ε ι) (plain : ω' → ω) : Prop :=
  ∀ i w, ∃ w', plain w' = w ∧ ∀ c s, S'.serve i c w' s = S.serve i c w s

/-- The move of the service without losses. -/
def Move.plain (plain : ω' → ω) : Move Q ω' ε ι → Move Q ω ε ι
  | .start i q => .start i q
  | .serve i w => .serve i (plain w)
  | .crash i => .crash i
  | .env e => .env e

/-- `p'` has ended at a lost reply, and `p` has crashed there. -/
inductive CutOff (S : Service R Q α σ ω ε ι) (Lost : (c : C) → R c → R c → Prop) :
    Proc R Q α → Proc R Q α → Prop
  | intro {q : Q} {t : Transcript R} {c : C} {next : R c → Interaction R α} {r r' : R c}
      (b : Bool) (htrace : Trace (S.prog q) t (.ask c next)) (hlost : Lost c r r') :
      CutOff S Lost ⟨q, t ++ [⟨c, r⟩], next r, true⟩ ⟨q, t ++ [⟨c, r'⟩], next r', b⟩

theorem CutOff.crashed {S : Service R Q α σ ω ε ι} {Lost : (c : C) → R c → R c → Prop}
    {p p' : Proc R Q α} (h : CutOff S Lost p p') : p.crashed = true := by
  cases h
  rfl

/-- The pools have one shared state, and the same processes but for those with a lost reply. -/
structure Matches (S : Service R Q α σ ω ε ι) (Lost : (c : C) → R c → R c → Prop)
    (P P' : Pool R Q α σ ι) : Prop where
  shared : P.shared = P'.shared
  procs : ∀ i, P.procs i = P'.procs i ∨
    ∃ p p', P.procs i = some p ∧ P'.procs i = some p' ∧ CutOff S Lost p p'

section
variable {S : Service R Q α σ ω ε ι} {S' : Service R Q α σ ω' ε ι}
  {Lost : (c : C) → R c → R c → Prop} {plain : ω' → ω} {P P' P₁' : Pool R Q α σ ι} {i : ι}

theorem Matches.refl (P : Pool R Q α σ ι) : Matches S Lost P P := ⟨rfl, fun _ => .inl rfl⟩

/-- Both pools have started the same processes. -/
theorem Matches.none_iff (h : Matches S Lost P P') : P.procs i = none ↔ P'.procs i = none := by
  rcases h.procs i with heq | ⟨p, p', hp, hp', -⟩
  · rw [heq]
  · simp [hp, hp']

/-- A process that waits at a call has lost no reply. -/
theorem Matches.eq_of_ask (h : Matches S Lost P P') (hloses : Loses S S' Lost plain) {q : Q}
    {t : Transcript R} {c : C} {next : R c → Interaction R α} {b : Bool}
    (hp' : P'.procs i = some ⟨q, t, .ask c next, b⟩) :
    P.procs i = some ⟨q, t, .ask c next, b⟩ := by
  rcases h.procs i with heq | ⟨p, p', -, hp₁, hcut⟩
  · rw [heq, hp']
  · rw [hp', Option.some.injEq] at hp₁
    generalize hrest : Interaction.ask c next = rest at hp₁
    subst hp₁
    cases hcut with
    | intro _ htrace hlost => exact absurd hrest.symm (hloses.ends _ _ _ _ _ _ htrace hlost c next)

/-- A process that makes no call any more makes none in the other pool. -/
theorem Matches.stopped (h : Matches S Lost P P') (hstopped : P'.Stopped i) : P.Stopped i := by
  obtain ⟨p', hp', hno⟩ := hstopped
  rcases h.procs i with heq | ⟨p, p₁, hp, -, hcut⟩
  · exact ⟨p', heq.trans hp', hno⟩
  · cases hcut with
    | intro _ _ _ => exact ⟨_, hp, .inl rfl⟩

variable [DecidableEq ι]

/-- The same process replaces the process `i` of both pools. -/
theorem Matches.setProc (h : Matches S Lost P P') (p : Proc R Q α) (s : σ) :
    Matches S Lost ((P.setShared s).setProc i p) ((P'.setShared s).setProc i p) := by
  refine ⟨rfl, fun j => ?_⟩
  by_cases hj : j = i
  · subst hj
    exact .inl (by rw [Pool.procs_setProc_self, Pool.procs_setProc_self])
  · rw [Pool.procs_setProc_of_ne _ _ _ _ hj, Pool.procs_setProc_of_ne _ _ _ _ hj]
    exact h.procs j

/-- A crashed process replaces the process `i` of one pool, and one with a lost reply that of the
other. -/
theorem Matches.setProc_cutOff (h : Matches S Lost P P') {p p' : Proc R Q α}
    (hcut : CutOff S Lost p p') (s : σ) :
    Matches S Lost ((P.setShared s).setProc i p) ((P'.setShared s).setProc i p') := by
  refine ⟨rfl, fun j => ?_⟩
  by_cases hj : j = i
  · subst hj
    exact .inr ⟨p, p', Pool.procs_setProc_self _ _ _, Pool.procs_setProc_self _ _ _, hcut⟩
  · rw [Pool.procs_setProc_of_ne _ _ _ _ hj, Pool.procs_setProc_of_ne _ _ _ _ hj]
    exact h.procs j

end

namespace Pool

variable {S : Service R Q α σ ω ε ι} {S' : Service R Q α σ ω' ε ι}
  {Lost : (c : C) → R c → R c → Prop} {plain : ω' → ω} {P P' P₁' : Pool R Q α σ ι}
  [DecidableEq ι]

/-- Replacing a process twice replaces it once. -/
theorem setProc_setProc (P : Pool R Q α σ ι) (i : ι) (p p' : Proc R Q α) :
    (P.setProc i p).setProc i p' = P.setProc i p' := by
  simp [setProc]

/-- A process that was replaced and crashes. -/
theorem step_crash_setProc (P : Pool R Q α σ ι) (i : ι) (p : Proc R Q α) :
    (P.setProc i p).step S (.crash i) = some (P.setProc i { p with crashed := true }) := by
  rw [step_crash]
  exact ⟨p, procs_setProc_self P i p, (setProc_setProc P i p _).symm⟩

/-- One move with losses is one move without, and a crash where a reply is lost. -/
theorem step_loses {ok : Pool R Q α σ ι → Move Q ω ε ι → Prop} (h : Loses S S' Lost plain)
    (hP : Matches S Lost P P') (htraced : P'.Traced S) {m : Move Q ω' ε ι}
    (hok : ok P (m.plain plain)) (hcrash : ∀ P i, ok P (.crash i))
    (hs : P'.step S' m = some P₁') :
    ∃ ms P₁, ms.length ≤ 2 ∧ Run (step S) ok P ms P₁ ∧ Matches S Lost P₁ P₁' := by
  cases m with
  | start i q =>
    obtain ⟨hnone, rfl⟩ := step_start.mp hs
    have hstep : P.step S (.start i q) = some (P.setProc i ⟨q, [], S.prog q, false⟩) :=
      step_start.mpr ⟨hP.none_iff.mpr hnone, rfl⟩
    refine ⟨[.start i q], _, by simp, .snoc .nil hok hstep, ?_⟩
    have hset := hP.setProc (i := i) ⟨q, [], S.prog q, false⟩ P'.shared
    rw [← h.prog] at hset ⊢
    have hsame : P.setShared P'.shared = P := by rw [← hP.shared]; rfl
    rwa [hsame] at hset
  | serve i w =>
    obtain ⟨q, t, c, next, hp', rfl⟩ := step_serve.mp hs
    have hp : P.procs i = some ⟨q, t, .ask c next, false⟩ := hP.eq_of_ask h hp'
    have hstep : P.step S (.serve i (plain w))
        = some ((P.setShared (S.serve i c (plain w) P.shared).2).setProc i
          ⟨q, t ++ [⟨c, (S.serve i c (plain w) P.shared).1⟩],
            next (S.serve i c (plain w) P.shared).1, false⟩) :=
      step_serve.mpr ⟨q, t, c, next, hp, rfl⟩
    have hrun : Run (step S) ok P [.serve i (plain w)] _ := .snoc .nil hok hstep
    rw [h.state, ← hP.shared]
    rcases h.reply i c w P.shared with hsame | hlost
    · rw [hsame]
      exact ⟨[.serve i (plain w)], _, by simp, hrun, hP.setProc _ _⟩
    · -- The process crashes after the call.
      have hcut : CutOff S Lost _ _ := .intro false (htraced i _ hp') hlost
      refine ⟨[.serve i (plain w)] ++ [.crash i], _, by simp, ?_, hP.setProc_cutOff hcut _⟩
      exact .snoc hrun (hcrash _ i) (step_crash_setProc _ _ _)
  | crash i =>
    obtain ⟨p', hp', rfl⟩ := step_crash.mp hs
    have hset : ∀ p, P'.setProc i p = (P'.setShared P.shared).setProc i p := by
      intro p
      rw [hP.shared]
      rfl
    rcases hP.procs i with heq | ⟨p, p₁, hp, hp₁, hcut⟩
    · have hstep := step_crash (S := S) (P := P).mpr ⟨p', heq.trans hp', rfl⟩
      refine ⟨[.crash i], _, by simp, .snoc .nil hok hstep, ?_⟩
      rw [hset]
      exact hP.setProc _ P.shared
    · rw [hp', Option.some.injEq] at hp₁
      subst hp₁
      have hstep := step_crash (S := S) (P := P).mpr ⟨p, hp, rfl⟩
      refine ⟨[.crash i], _, by simp, .snoc .nil hok hstep, ?_⟩
      rw [hset]
      cases hcut with
      | intro _ htrace hlost => exact hP.setProc_cutOff (.intro true htrace hlost) P.shared
  | env e =>
    rw [step_env.mp hs, h.env]
    have hstep : P.step S (.env e) = some (P.setShared (S.env e P.shared)) := step_env.mpr rfl
    refine ⟨[.env e], _, by simp, .snoc .nil hok hstep, ?_, ?_⟩
    · rw [shared_setShared, shared_setShared, hP.shared]
    · exact hP.procs

/-- Each run with losses is matched by a run without, moment by moment. -/
theorem run_loses {ok : Pool R Q α σ ι → Move Q ω ε ι → Prop}
    {ok' : Pool R Q α σ ι → Move Q ω' ε ι → Prop} (h : Loses S S' Lost plain)
    (hcrash : ∀ P i, ok P (.crash i))
    (hok : ∀ P P' m, Matches S Lost P P' → ok' P' m → ok P (m.plain plain))
    {P₀ P₀' : Pool R Q α σ ι} (h₀ : Matches S Lost P₀ P₀') (htraced : P₀'.Traced S')
    {ms : List (Move Q ω' ε ι)} (hrun : Run (step S') ok' P₀' ms P') :
    ∃ ns P, ns.length ≤ 2 * ms.length ∧ Run (step S) ok P₀ ns P ∧ Matches S Lost P P' ∧
      ∀ pre P₁', pre <+: ms → Run (step S') ok' P₀' pre P₁' →
        ∃ npre P₁, npre <+: ns ∧ npre.length ≤ 2 * pre.length ∧ Run (step S) ok P₀ npre P₁ ∧
          Matches S Lost P₁ P₁' := by
  induction hrun with
  | nil =>
    refine ⟨[], P₀, Nat.le_refl _, .nil, h₀, ?_⟩
    intro pre P₁' hpre hpre'
    obtain rfl := List.prefix_nil.mp hpre
    have hnil : Run (step S') ok' P₀' [] P₀' := .nil
    rw [hpre'.unique hnil]
    exact ⟨[], P₀, List.prefix_rfl, Nat.le_refl _, .nil, h₀⟩
  | @snoc ms P' P₂' m hr hm hs ih =>
    obtain ⟨ns, P, hlen, hns, hP, hmoments⟩ := ih
    have htraced' : P'.Traced S := by
      intro i p hp
      rw [← h.prog]
      exact run_traced htraced hr i p hp
    obtain ⟨ns₁, P₂, hlen₁, hns₁, hP₂⟩ := step_loses h hP htraced' (hok P P' m hP hm) hcrash hs
    have hlen₂ : (ns ++ ns₁).length ≤ 2 * (ms ++ [m]).length := by
      rw [List.length_append, List.length_append, List.length_singleton]
      omega
    refine ⟨ns ++ ns₁, P₂, hlen₂, hns.append hns₁, hP₂, ?_⟩
    intro pre P₁' hpre hpre'
    rcases List.prefix_concat_iff.mp hpre with rfl | hpre
    · -- The last moment of the run.
      rw [hpre'.unique (hr.snoc hm hs)]
      exact ⟨ns ++ ns₁, P₂, List.prefix_rfl, hlen₂, hns.append hns₁, hP₂⟩
    · obtain ⟨npre, P₁, hnpre, hlen₁, hrun₁, hP₁⟩ := hmoments pre P₁' hpre hpre'
      exact ⟨npre, P₁, hnpre.trans (List.prefix_append ns ns₁), hlen₁, hrun₁, hP₁⟩

/-- One move without losses is a move in the pool with the lost replies. -/
theorem step_spares (h : Loses S S' Lost plain) (hspares : Spares S S' plain)
    (hP : Matches S Lost P P') {m : Move Q ω ε ι} {P₁ : Pool R Q α σ ι}
    (hs : P.step S m = some P₁) :
    ∃ m' P₁', m'.plain plain = m ∧ P'.step S' m' = some P₁' ∧ Matches S Lost P₁ P₁' := by
  cases m with
  | start i q =>
    obtain ⟨hnone, rfl⟩ := step_start.mp hs
    have hstep : P'.step S' (.start i q) = some (P'.setProc i ⟨q, [], S'.prog q, false⟩) :=
      step_start.mpr ⟨hP.none_iff.mp hnone, rfl⟩
    refine ⟨.start i q, _, rfl, hstep, ?_⟩
    rw [h.prog]
    have hset := hP.setProc (i := i) ⟨q, [], S.prog q, false⟩ P'.shared
    have hsame : P.setShared P'.shared = P := by rw [← hP.shared]; rfl
    rwa [hsame] at hset
  | serve i w =>
    obtain ⟨q, t, c, next, hp, rfl⟩ := step_serve.mp hs
    obtain ⟨w', hw', hserve⟩ := hspares i w
    have hp' : P'.procs i = some ⟨q, t, .ask c next, false⟩ := by
      rcases hP.procs i with heq | ⟨p, p', hp₁, -, hcut⟩
      · rw [← heq, hp]
      · -- A process that has lost a reply is crashed here, and is not served.
        rw [hp, Option.some.injEq] at hp₁
        subst hp₁
        exact absurd hcut.crashed Bool.false_ne_true
    have hstep := step_serve (S := S') (w := w').mpr ⟨q, t, c, next, hp', rfl⟩
    refine ⟨.serve i w', _, congrArg (Move.serve i) hw', hstep, ?_⟩
    rw [hserve, ← hP.shared]
    exact hP.setProc _ _
  | crash i =>
    obtain ⟨p, hp, rfl⟩ := step_crash.mp hs
    have hset : ∀ p', P'.setProc i p' = (P'.setShared P.shared).setProc i p' := by
      intro p'
      rw [hP.shared]
      rfl
    rcases hP.procs i with heq | ⟨p₁, p', hp₁, hp', hcut⟩
    · have hstep := step_crash (S := S') (P := P').mpr ⟨p, heq.symm.trans hp, rfl⟩
      refine ⟨.crash i, _, rfl, hstep, ?_⟩
      rw [hset]
      exact hP.setProc _ P.shared
    · rw [hp, Option.some.injEq] at hp₁
      subst hp₁
      have hstep := step_crash (S := S') (P := P').mpr ⟨p', hp', rfl⟩
      refine ⟨.crash i, _, rfl, hstep, ?_⟩
      rw [hset]
      cases hcut with
      | intro _ htrace hlost => exact hP.setProc_cutOff (.intro true htrace hlost) P.shared
  | env e =>
    rw [step_env.mp hs, ← h.env]
    have hstep : P'.step S' (.env e) = some (P'.setShared (S'.env e P'.shared)) :=
      step_env.mpr rfl
    refine ⟨.env e, _, rfl, hstep, ?_, hP.procs⟩
    rw [shared_setShared, shared_setShared, hP.shared]

/-- A run without losses goes on in the pool with the lost replies. -/
theorem run_spares {ok : Pool R Q α σ ι → Move Q ω ε ι → Prop}
    {ok' : Pool R Q α σ ι → Move Q ω' ε ι → Prop} (h : Loses S S' Lost plain)
    (hspares : Spares S S' plain)
    (hok : ∀ P P' m, Matches S Lost P P' → ok P (m.plain plain) → ok' P' m)
    (hP : Matches S Lost P P') {ns : List (Move Q ω ε ι)} {P₁ : Pool R Q α σ ι}
    (hrun : Run (step S) ok P ns P₁) :
    ∃ ms P₁', Run (step S') ok' P' ms P₁' ∧ Matches S Lost P₁ P₁' := by
  induction hrun with
  | nil => exact ⟨[], P', .nil, hP⟩
  | snoc _ hm hs ih =>
    obtain ⟨ms, P₁', hrun', hP₁⟩ := ih
    obtain ⟨m', P₂', rfl, hs', hP₂⟩ := step_spares h hspares hP₁ hs
    exact ⟨ms ++ [m'], P₂', .snoc hrun' (hok _ _ _ hP₁ hm) hs', hP₂⟩

end Pool

end SwarmRuntime.Lib
