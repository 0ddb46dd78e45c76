import Mathlib.Algebra.BigOperators.Group.Finset.Basic
import SwarmRuntime.Lib.Pool

/-!
# `SwarmRuntime.Lib.Accumulate`: what the calls of a pool add up to

Where each call adds its own weight to a measure of the shared state, in any commutative monoid,
the order of the calls does not matter: after every run the measure is the sum over the processes
of the weights of the calls that they have made (`Pool.run_accumulates`).

`Interaction.each` is a program without branches. Its transcript tells how far it is
(`Interaction.trace_each`), so its share of the measure is a prefix of its calls.
-/

set_option autoImplicit false

namespace SwarmRuntime.Lib

open Interaction (Trace)

namespace Interaction

variable {C : Type} {R : C → Type}

/-- Make the calls in their order. -/
def each : List C → Interaction R Unit
  | [] => done ()
  | c :: cs => ask c fun _ => each cs

/-- A program without branches has made the first of its calls, and the others are left. -/
theorem trace_each {cs : List C} {t : Transcript R} {p : Interaction R Unit}
    (h : Trace (each cs) t p) :
    t.map Sigma.fst = cs.take t.length ∧ p = each (cs.drop t.length) := by
  induction cs generalizing t with
  | nil =>
    obtain ⟨rfl, rfl⟩ := trace_done.mp h
    exact ⟨rfl, rfl⟩
  | cons c cs ih =>
    cases h with
    | nil => exact ⟨rfl, rfl⟩
    | cons h =>
      obtain ⟨hcalls, hrest⟩ := ih h
      refine ⟨?_, hrest⟩
      rw [List.map_cons, hcalls, List.length_cons, List.take_succ_cons]

end Interaction

namespace Pool

variable {C : Type} {R : C → Type} {Q α σ ω ε ι M : Type} [AddCommMonoid M]

/-- What a process has added. -/
def added (weight : C → M) (P : Pool R Q α σ ι) (i : ι) : M :=
  match P.procs i with
  | some p => (p.transcript.map fun call => weight call.1).sum
  | none => 0

/-- The set of the processes that were started. -/
def Started (P : Pool R Q α σ ι) (s : Finset ι) : Prop := ∀ i, i ∈ s ↔ (P.procs i).isSome

theorem Started.unique {P : Pool R Q α σ ι} {s s' : Finset ι} (h : P.Started s)
    (h' : P.Started s') : s = s' :=
  Finset.ext fun i => (h i).trans (h' i).symm

variable [DecidableEq ι] {S : Service R Q α σ ω ε ι} {P P' : Pool R Q α σ ι} {s : Finset ι}

theorem added_setProc (weight : C → M) (P : Pool R Q α σ ι) (i j : ι) (p : Proc R Q α) :
    (P.setProc i p).added weight j =
      if j = i then (p.transcript.map fun call => weight call.1).sum else P.added weight j := by
  unfold added
  rw [procs_setProc]
  by_cases h : j = i
  · rw [if_pos h, if_pos h]
  · rw [if_neg h, if_neg h]

theorem started_setProc {i : ι} {p : Proc R Q α} (h : P.Started s) :
    (P.setProc i p).Started (insert i s) := by
  intro j
  rw [procs_setProc, Finset.mem_insert, h j]
  by_cases hj : j = i
  · simp [hj]
  · simp [hj]

/-- A process that was started before is in the set already. -/
theorem started_setProc_of_some {i : ι} {p p' : Proc R Q α} (h : P.Started s)
    (hi : P.procs i = some p) : (P.setProc i p').Started s := by
  have hmem : i ∈ s := (h i).mpr (by rw [hi]; rfl)
  rw [← Finset.insert_eq_of_mem hmem]
  exact started_setProc h

/-- One process changes what it has added by `w`. -/
theorem sum_added_setProc {weight : C → M} {i : ι} {p : Proc R Q α} {w : M} (hi : i ∈ s)
    (h : (p.transcript.map fun call => weight call.1).sum = P.added weight i + w) :
    ∑ j ∈ s, (P.setProc i p).added weight j = (∑ j ∈ s, P.added weight j) + w := by
  have hothers : ∀ j ∈ s.erase i, (P.setProc i p).added weight j = P.added weight j := by
    intro j hj
    rw [added_setProc, if_neg (Finset.ne_of_mem_erase hj)]
  rw [← Finset.sum_erase_add s _ hi, ← Finset.sum_erase_add s (P.added weight) hi,
    Finset.sum_congr rfl hothers, added_setProc, if_pos rfl, h, add_assoc]

/-- What one move adds. -/
theorem step_accumulates {measure : σ → M} {weight : C → M}
    (hserve : ∀ i c w s, measure (S.serve i c w s).2 = measure s + weight c)
    (henv : ∀ e s, measure (S.env e s) = measure s) {m₀ : M} {m : Move Q ω ε ι}
    (hstarted : P.Started s) (hsum : measure P.shared = m₀ + ∑ i ∈ s, P.added weight i)
    (h : P.step S m = some P') :
    ∃ s', P'.Started s' ∧ measure P'.shared = m₀ + ∑ i ∈ s', P'.added weight i := by
  cases m with
  | start i q =>
    obtain ⟨hnone, rfl⟩ := step_start.mp h
    have hi : i ∉ s := by
      rw [hstarted i, hnone]
      exact Bool.false_ne_true
    refine ⟨insert i s, started_setProc hstarted, ?_⟩
    have hothers : ∀ j ∈ s, (P.setProc i ⟨q, [], S.prog q, false⟩).added weight j
        = P.added weight j := by
      intro j hj
      rw [added_setProc, if_neg (ne_of_mem_of_not_mem hj hi)]
    rw [shared_setProc, Finset.sum_insert hi, Finset.sum_congr rfl hothers, added_setProc,
      if_pos rfl, List.map_nil, List.sum_nil, zero_add]
    exact hsum
  | serve i w =>
    obtain ⟨q, t, c, next, hi, rfl⟩ := step_serve.mp h
    have hmem : i ∈ s := (hstarted i).mpr (by rw [hi]; rfl)
    refine ⟨s, started_setProc_of_some hstarted hi, ?_⟩
    have hadd : ((t ++ [⟨c, (S.serve i c w P.shared).1⟩] : Transcript R).map
        fun call => weight call.1).sum
        = (P.setShared (S.serve i c w P.shared).2).added weight i + weight c := by
      have hadded : (P.setShared (S.serve i c w P.shared).2).added weight i
          = (t.map fun call => weight call.1).sum := by
        unfold added
        rw [procs_setShared, hi]
      rw [hadded, List.map_append, List.sum_append]
      simp
    rw [sum_added_setProc hmem hadd, shared_setProc, shared_setShared, hserve, hsum, add_assoc]
    rfl
  | crash i =>
    obtain ⟨p, hi, rfl⟩ := step_crash.mp h
    have hmem : i ∈ s := (hstarted i).mpr (by rw [hi]; rfl)
    refine ⟨s, started_setProc_of_some hstarted hi, ?_⟩
    have hadd : (p.transcript.map fun call => weight call.1).sum = P.added weight i + 0 := by
      unfold added
      rw [hi, add_zero]
    have hkept := sum_added_setProc (p := { p with crashed := true }) hmem hadd
    rw [hkept, add_zero]
    exact hsum
  | env e =>
    rw [step_env.mp h]
    refine ⟨s, hstarted, ?_⟩
    rw [shared_setShared, henv]
    exact hsum

/-- After every run, the measure of the shared state is what the processes have added to it. -/
theorem run_accumulates {measure : σ → M} {weight : C → M}
    (hserve : ∀ i c w s, measure (S.serve i c w s).2 = measure s + weight c)
    (henv : ∀ e s, measure (S.env e s) = measure s)
    {ok : Pool R Q α σ ι → Move Q ω ε ι → Prop} {ms : List (Move Q ω ε ι)} {P₀ : Pool R Q α σ ι}
    (hinit : ∀ i, P₀.procs i = none) (h : Run (step S) ok P₀ ms P) :
    ∃ s, P.Started s ∧ measure P.shared = measure P₀.shared + ∑ i ∈ s, P.added weight i := by
  induction h with
  | nil =>
    refine ⟨∅, ?_, by simp⟩
    intro i
    rw [hinit i]
    simp
  | snoc _ _ hs ih =>
    obtain ⟨s, hstarted, hsum⟩ := ih
    exact step_accumulates hserve henv hstarted hsum hs

/-- A run starts finitely many processes. -/
theorem exists_started {ok : Pool R Q α σ ι → Move Q ω ε ι → Prop} {ms : List (Move Q ω ε ι)}
    {P₀ : Pool R Q α σ ι} (hinit : ∀ i, P₀.procs i = none) (h : Run (step S) ok P₀ ms P) :
    ∃ s, P.Started s := by
  -- The measure does not matter.
  let measure : σ → ℕ := fun _ => 0
  let weight : C → ℕ := fun _ => 0
  have hserve : ∀ i c w s, measure (S.serve i c w s).2 = measure s + weight c :=
    fun _ _ _ _ => rfl
  have henv : ∀ e s, measure (S.env e s) = measure s := fun _ _ => rfl
  obtain ⟨s, hs, -⟩ := run_accumulates hserve henv hinit h
  exact ⟨s, hs⟩

end Pool

end SwarmRuntime.Lib
