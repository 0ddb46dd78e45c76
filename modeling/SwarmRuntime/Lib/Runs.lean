import Mathlib.Data.List.Infix

/-!
# `SwarmRuntime.Lib.Runs`: runs of a step function

A machine is a partial step function `step : σ → μ → Option σ`. A run is a list of moves,
each of them taken by the machine and admitted by `ok`. The condition `ok` carries what a
group of results assumes of its runs: which calls the clients make, which faults strike.

* `Run.invariant`: a property of the start that every admitted step preserves holds at
  the end of each run.
* `Run.split` and `Run.append`: runs in a row.
* `tally`: how many moves of a run had a property. Over two runs in a row it adds up.
* `Once`: "there was a moment in the run". What was once true in a run was once true in each
  run that extends it (`Once.snoc`).
-/

set_option autoImplicit false

namespace SwarmRuntime.Lib

variable {σ μ : Type}

/-- `Run step ok init ms s`: the machine takes the moves `ms` from `init` and ends in `s`,
and `ok` admits each move in the state that takes it. The last move is the last of the
list. -/
inductive Run (step : σ → μ → Option σ) (ok : σ → μ → Prop) (init : σ) : List μ → σ → Prop
  | nil : Run step ok init [] init
  | snoc {ms : List μ} {s s' : σ} {m : μ} :
      Run step ok init ms s → ok s m → step s m = some s' → Run step ok init (ms ++ [m]) s'

namespace Run

variable {step : σ → μ → Option σ} {ok ok' : σ → μ → Prop} {init s : σ} {ms : List μ}

/-- The invariant rule. `h0` is the start, `hstep` is one admitted step. The step may use
that the state before it ends a run. -/
theorem invariant (I : σ → Prop) (h0 : I init)
    (hstep : ∀ ms s m s', Run step ok init ms s → I s → ok s m → step s m = some s' → I s')
    (h : Run step ok init ms s) : I s := by
  induction h with
  | nil => exact h0
  | snoc hr hok hs ih => exact hstep _ _ _ _ hr ih hok hs

/-- A weaker condition on the moves admits more runs. It has to be weaker only in the states
that a run reaches. -/
theorem mono (himp : ∀ ms s m, Run step ok init ms s → ok s m → ok' s m)
    (h : Run step ok init ms s) : Run step ok' init ms s := by
  induction h with
  | nil => exact .nil
  | snoc hr hok hs ih => exact .snoc ih (himp _ _ _ hr hok) hs

/-- A condition that holds of each move because of how the run goes on. -/
theorem mono_split
    (himp : ∀ pre s₁ m s₂ post, Run step ok init pre s₁ → ok s₁ m → step s₁ m = some s₂ →
      Run step ok s₂ post s → ok' s₁ m)
    (h : Run step ok init ms s) : Run step ok' init ms s := by
  induction h with
  | nil => exact .nil
  | @snoc ms s s' m hr hok hs ih =>
    refine .snoc (ih ?_) (himp ms s m s' [] hr hok hs .nil) hs
    intro pre s₁ m₁ s₂ post hpre hok₁ hs₁ hpost
    exact himp pre s₁ m₁ s₂ (post ++ [m]) hpre hok₁ hs₁ (.snoc hpost hok hs)

/-- The machine is deterministic: the moves of a run determine its end. -/
theorem unique {s' : σ} (h : Run step ok init ms s) (h' : Run step ok' init ms s') :
    s = s' := by
  induction h generalizing s' with
  | nil =>
    generalize hms : ([] : List μ) = ms at h'
    cases h' with
    | nil => rfl
    | snoc => simp at hms
  | @snoc ms s₀ s₁ m _ _ hs ih =>
    generalize hms : ms ++ [m] = l at h'
    cases h' with
    | nil => simp at hms
    | snoc hr' _ hs' =>
      -- Both runs take the moves `ms` and then `m`.
      obtain ⟨rfl, hm⟩ := List.append_inj' hms rfl
      simp only [List.cons.injEq, and_true] at hm
      subst hm
      rw [ih hr', hs'] at hs
      exact (Option.some.inj hs).symm

/-- A run splits at each of its prefixes. -/
theorem split {pre post : List μ} (h : Run step ok init (pre ++ post) s) :
    ∃ t, Run step ok init pre t ∧ Run step ok t post s := by
  induction post using List.reverseRecOn generalizing s with
  | nil => exact ⟨s, by simpa using h, .nil⟩
  | append_singleton post m ih =>
    generalize hms : pre ++ (post ++ [m]) = l at h
    cases h with
    | nil => simp at hms
    | snoc hr hok hs =>
      -- The last move of the run is the last move of `post`.
      rw [← List.append_assoc] at hms
      obtain ⟨rfl, hm⟩ := List.append_inj' hms rfl
      simp only [List.cons.injEq, and_true] at hm
      subst hm
      obtain ⟨t, hpre, hpost⟩ := ih hr
      exact ⟨t, hpre, .snoc hpost hok hs⟩

/-- Two runs in a row are one run. -/
theorem append {t : σ} {pre post : List μ} (hpre : Run step ok init pre t)
    (hpost : Run step ok t post s) : Run step ok init (pre ++ post) s := by
  induction hpost with
  | nil => simpa using hpre
  | snoc _ hok hs ih =>
    rw [← List.append_assoc]
    exact .snoc ih hok hs

/-- Of two runs in a row, each moment comes before the end of the first one or after it. -/
theorem moment {mid t : σ} {ms₁ ms₂ pre : List μ} (h₁ : Run step ok init ms₁ mid)
    (h₂ : Run step ok mid ms₂ s) (hpre : pre <+: ms₁ ++ ms₂) (h : Run step ok init pre t) :
    (∃ ms, Run step ok t ms mid) ∨
      (∃ ms, Run step ok mid ms t) ∧ ∃ ms, Run step ok t ms s := by
  obtain ⟨post, hpost⟩ := hpre
  have hall : Run step ok init (pre ++ post) s := hpost ▸ h₁.append h₂
  rcases List.prefix_or_prefix_of_prefix ⟨post, hpost⟩ (List.prefix_append ms₁ ms₂) with
    ⟨rest, rfl⟩ | ⟨rest, rfl⟩
  · left
    obtain ⟨t', hpre', hrest⟩ := h₁.split
    rw [h.unique hpre']
    exact ⟨rest, hrest⟩
  · right
    obtain ⟨mid', hmid, hrest⟩ := h.split
    obtain ⟨t', hpre', hpost'⟩ := hall.split
    rw [← h₁.unique hmid] at hrest
    rw [← h.unique hpre'] at hpost'
    exact ⟨⟨rest, hrest⟩, ⟨post, hpost'⟩⟩

/-- One step and then a run are one run. -/
theorem cons {t : σ} {m : μ} (hok : ok init m) (hs : step init m = some t)
    (h : Run step ok t ms s) : Run step ok init (m :: ms) s :=
  append (.snoc .nil hok hs) h

end Run

/-- How many of the moves `ms` have the property `p` in the state that takes them. -/
def tally (step : σ → μ → Option σ) (p : σ → μ → Bool) : σ → List μ → Nat
  | _, [] => 0
  | s, m :: ms =>
      (p s m).toNat +
        match step s m with
        | some s' => tally step p s' ms
        | none => 0

section
variable {step : σ → μ → Option σ} {ok : σ → μ → Prop} {init s s' : σ} {ms : List μ}
  (p : σ → μ → Bool)

theorem tally_cons_of_step {m : μ} (hs : step s m = some s') :
    tally step p s (m :: ms) = (p s m).toNat + tally step p s' ms := by
  rw [tally, hs]

/-- After a run the count goes on from its end. -/
theorem tally_append (h : Run step ok init ms s) (post : List μ) :
    tally step p init (ms ++ post) = tally step p init ms + tally step p s post := by
  induction h generalizing post with
  | nil => rw [List.nil_append, tally, Nat.zero_add]
  | @snoc ms s s' m _ _ hs ih =>
    -- The last move of the run is the first one that `s` takes.
    calc tally step p init (ms ++ [m] ++ post)
        = tally step p init (ms ++ m :: post) := by rw [List.append_assoc]; rfl
      _ = tally step p init ms + ((p s m).toNat + tally step p s' post) := by
        rw [ih, tally_cons_of_step p hs]
      _ = tally step p init ms + tally step p s [m] + tally step p s' post := by
        rw [tally_cons_of_step p hs, tally, Nat.add_zero, Nat.add_assoc]
      _ = tally step p init (ms ++ [m]) + tally step p s' post := by rw [← ih [m]]

/-- One more move counts once or not at all. -/
theorem tally_snoc (h : Run step ok init ms s) {m : μ} (hs : step s m = some s') :
    tally step p init (ms ++ [m]) = tally step p init ms + (p s m).toNat := by
  rw [tally_append p h, tally_cons_of_step p hs, tally, Nat.add_zero]

end

/-- `Once step ok init ms P`: at some moment of the run `ms` from `init` the state had `P`. -/
def Once (step : σ → μ → Option σ) (ok : σ → μ → Prop) (init : σ) (ms : List μ)
    (P : σ → Prop) : Prop :=
  ∃ pre s, pre <+: ms ∧ Run step ok init pre s ∧ P s

namespace Once

variable {step : σ → μ → Option σ} {ok : σ → μ → Prop} {init s : σ} {ms : List μ}
  {P Q : σ → Prop}

/-- The end of a run is a moment of it. -/
theorem now (h : Run step ok init ms s) (hP : P s) : Once step ok init ms P :=
  ⟨ms, s, List.prefix_rfl, h, hP⟩

/-- What was once true stays once true when the run goes on. -/
theorem snoc (h : Once step ok init ms P) (m : μ) : Once step ok init (ms ++ [m]) P := by
  obtain ⟨pre, s, hpre, hr, hP⟩ := h
  exact ⟨pre, s, hpre.trans (List.prefix_append _ _), hr, hP⟩

/-- `Once` is monotone in the property. -/
theorem imp (himp : ∀ s, P s → Q s) (h : Once step ok init ms P) : Once step ok init ms Q := by
  obtain ⟨pre, s, hpre, hr, hP⟩ := h
  exact ⟨pre, s, hpre, hr, himp s hP⟩

end Once

end SwarmRuntime.Lib
