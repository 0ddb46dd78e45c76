import Mathlib.Order.Basic

/-!
# `SwarmRuntime.Lib.Interaction`: programs that call an environment

An `Interaction R α` is a program in the free monad over the calls `C`. It returns a value
of `α`, it panics, or it makes a call `c` and continues with the reply, a value of `R c`.
An `async` function whose only effects are its awaited calls is such a program.

Two readings of a program:

* `Trace p t q`: after the calls and replies of the transcript `t`, the program `p` stands
  at `q`. The replies are free. This is the reading for interleavings, where other clients
  act between the calls of `p`.
* `exec serve p ws s`: the program runs alone on the shared state `s`. Each call takes one
  answer from the list `ws`. A list that ends early stops the program at its next call,
  so a crash between two calls is a short list.
-/

set_option autoImplicit false

namespace SwarmRuntime.Lib

/-- A program that makes calls in `C`, gets replies `R c`, and returns a value of `α`. -/
inductive Interaction {C : Type} (R : C → Type) (α : Type) : Type where
  | done (a : α)
  | ask (c : C) (next : R c → Interaction R α)
  | panic (msg : String)

/-- The calls a program has made, oldest first, each with its reply. -/
abbrev Transcript {C : Type} (R : C → Type) := List ((c : C) × R c)

namespace Interaction

variable {C : Type} {R : C → Type} {α β : Type}

/-- Run `p`, then `f` on its result. -/
def bind : Interaction R α → (α → Interaction R β) → Interaction R β
  | done a, f => f a
  | ask c next, f => ask c fun r => (next r).bind f
  | panic msg, _ => panic msg

/-- Make one call and return its reply. -/
def call (c : C) : Interaction R (R c) := ask c done

instance : Monad (Interaction R) where
  pure := done
  bind := bind

@[simp] theorem pure_eq (a : α) : (pure a : Interaction R α) = done a := rfl

@[simp] theorem done_bind (a : α) (f : α → Interaction R β) : (done a >>= f) = f a := rfl

@[simp] theorem ask_bind (c : C) (next : R c → Interaction R α) (f : α → Interaction R β) :
    (ask c next >>= f) = ask c fun r => next r >>= f := rfl

@[simp] theorem panic_bind (msg : String) (f : α → Interaction R β) :
    ((panic msg : Interaction R α) >>= f) = panic msg := rfl

@[simp] theorem call_bind (c : C) (f : R c → Interaction R β) : (call c >>= f) = ask c f := rfl

/-- Binding the constructor `done` changes nothing. -/
theorem bind_done (p : Interaction R α) : p.bind done = p := by
  induction p with
  | done a => rfl
  | ask c next ih => simp only [bind, ih]
  | panic msg => rfl

/-- `bind` is associative. -/
theorem bind_assoc {γ : Type} (p : Interaction R α) (f : α → Interaction R β)
    (g : β → Interaction R γ) : (p.bind f).bind g = p.bind fun a => (f a).bind g := by
  induction p with
  | done a => rfl
  | ask c next ih => simp only [bind, ih]
  | panic msg => rfl

instance : LawfulMonad (Interaction R) :=
  LawfulMonad.mk' _ bind_done (fun _ _ => rfl) bind_assoc

@[simp] theorem map_done (f : α → β) (a : α) : f <$> (done a : Interaction R α) = done (f a) := rfl

@[simp] theorem map_ask (f : α → β) (c : C) (next : R c → Interaction R α) :
    f <$> ask c next = ask c fun r => f <$> next r := rfl

@[simp] theorem map_panic (f : α → β) (msg : String) :
    f <$> (panic msg : Interaction R α) = panic msg := rfl

/-! ### Transcripts -/

/-- `Trace p t q`: the program `p` stands at `q` after the transcript `t`. -/
inductive Trace : Interaction R α → Transcript R → Interaction R α → Prop
  | nil (p : Interaction R α) : Trace p [] p
  | cons {c : C} {next : R c → Interaction R α} {r : R c} {t : Transcript R}
      {q : Interaction R α} : Trace (next r) t q → Trace (ask c next) (⟨c, r⟩ :: t) q

/-- One more reply extends the transcript at its end. -/
theorem Trace.snoc {p : Interaction R α} {t : Transcript R} {c : C}
    {next : R c → Interaction R α} (h : Trace p t (ask c next)) (r : R c) :
    Trace p (t ++ [⟨c, r⟩]) (next r) := by
  -- The place `ask c next` is an index of the trace, so it is named before the induction.
  generalize hq : ask c next = q at h
  induction h with
  | nil p => subst hq; exact .cons (.nil _)
  | cons _ ih => exact .cons (ih hq)

/-- A program that has returned has made no further call. -/
@[simp] theorem trace_done {a : α} {t : Transcript R} {q : Interaction R α} :
    Trace (done a) t q ↔ t = [] ∧ q = done a := by
  constructor
  · intro h; cases h; exact ⟨rfl, rfl⟩
  · rintro ⟨rfl, rfl⟩; exact .nil _

/-- A program that has panicked has made no further call. -/
@[simp] theorem trace_panic {msg : String} {t : Transcript R} {q : Interaction R α} :
    Trace (panic msg) t q ↔ t = [] ∧ q = panic msg := by
  constructor
  · intro h; cases h; exact ⟨rfl, rfl⟩
  · rintro ⟨rfl, rfl⟩; exact .nil _

/-- A program at a call either waits there, or has its reply and stands further on. -/
@[simp] theorem trace_ask {c : C} {next : R c → Interaction R α} {t : Transcript R}
    {q : Interaction R α} :
    Trace (ask c next) t q ↔
      (t = [] ∧ q = ask c next) ∨ ∃ r t', t = ⟨c, r⟩ :: t' ∧ Trace (next r) t' q := by
  constructor
  · intro h
    cases h with
    | nil => exact .inl ⟨rfl, rfl⟩
    | cons h => exact .inr ⟨_, _, rfl, h⟩
  · rintro (⟨rfl, rfl⟩ | ⟨r, t', rfl, h⟩)
    · show Trace (ask c next) [] (ask c next)
      exact .nil _
    · show Trace (ask c next) (⟨c, r⟩ :: t') q
      exact .cons h

/-- A transcript determines where the program stands. -/
theorem Trace.unique {p q q' : Interaction R α} {t : Transcript R} (h : Trace p t q)
    (h' : Trace p t q') : q = q' := by
  induction h with
  | nil p =>
    cases h' with
    | nil => rfl
  | cons _ ih =>
    cases h' with
    | cons h' => exact ih h'

/-- Before each call of its transcript a program stands at that call. -/
theorem Trace.ask_of_append {p q : Interaction R α} {t₁ t₂ : Transcript R} {c : C} {r : R c}
    (h : Trace p (t₁ ++ ⟨c, r⟩ :: t₂) q) : ∃ next, Trace p t₁ (ask c next) := by
  induction t₁ generalizing p with
  | nil =>
    rw [List.nil_append] at h
    cases h with
    | cons _ => exact ⟨_, .nil _⟩
  | cons x t₁ ih =>
    rw [List.cons_append] at h
    cases h with
    | cons h =>
      obtain ⟨next, hnext⟩ := ih h
      exact ⟨next, .cons hnext⟩

/-- A mapped program returns where the program returns. -/
theorem map_eq_done {f : α → β} {p : Interaction R α} {b : β} :
    f <$> p = done b ↔ ∃ a, p = done a ∧ f a = b := by
  cases p with
  | done a => simp
  | ask c next => simp
  | panic msg => simp

/-- A mapped program calls where the program calls. -/
theorem map_eq_ask {f : α → β} {p : Interaction R α} {c : C} {next : R c → Interaction R β} :
    f <$> p = ask c next ↔ ∃ next', p = ask c next' ∧ (fun r => f <$> next' r) = next := by
  cases p with
  | done a => simp
  | panic msg => simp
  | ask c' next' =>
    rw [map_ask]
    constructor
    · intro h
      cases h
      exact ⟨next', rfl, rfl⟩
    · intro h
      obtain ⟨n, hn, rfl⟩ := h
      cases hn
      rfl

/-- The traces of a mapped program are the traces of the program. -/
theorem trace_map {f : α → β} {p : Interaction R α} {t : Transcript R} {q : Interaction R β} :
    Trace (f <$> p) t q ↔ ∃ q', Trace p t q' ∧ q = f <$> q' := by
  constructor
  · intro h
    -- The induction is on the trace, and each call of `f <$> p` is a call of `p`.
    generalize hx : f <$> p = x at h
    induction h generalizing p with
    | nil x => exact ⟨p, .nil p, hx.symm⟩
    | cons _ ih =>
      obtain ⟨next', rfl, rfl⟩ := map_eq_ask.mp hx
      obtain ⟨q', hq', rfl⟩ := ih rfl
      exact ⟨q', .cons hq', rfl⟩
  · intro h
    obtain ⟨q', hq', rfl⟩ := h
    induction hq' with
    | nil p => exact .nil _
    | cons _ ih => exact .cons ih

/-! ### A program alone on the shared state -/

/-- How a program ended: it returned, it panicked, or it was stopped at a call. -/
inductive Ending (α : Type) : Type where
  | returned (a : α)
  | panicked (msg : String)
  | stopped

/-- The ending of a mapped program. -/
def Ending.map {α β : Type} (f : α → β) : Ending α → Ending β
  | .returned a => .returned (f a)
  | .panicked msg => .panicked msg
  | .stopped => .stopped

/-- What is left after a program ran alone: its ending, its transcript, the shared state. -/
structure Outcome {C : Type} (R : C → Type) (α σ : Type) where
  ending : Ending α
  transcript : Transcript R
  state : σ

/-- The outcome with one more call at the front of its transcript. -/
def Outcome.after {σ : Type} (c : C) (r : R c) (o : Outcome R α σ) : Outcome R α σ :=
  { o with transcript := ⟨c, r⟩ :: o.transcript }

@[simp] theorem Outcome.after_ending {σ : Type} (c : C) (r : R c) (o : Outcome R α σ) :
    (o.after c r).ending = o.ending := rfl

@[simp] theorem Outcome.after_state {σ : Type} (c : C) (r : R c) (o : Outcome R α σ) :
    (o.after c r).state = o.state := rfl

@[simp] theorem Outcome.after_transcript {σ : Type} (c : C) (r : R c) (o : Outcome R α σ) :
    (o.after c r).transcript = ⟨c, r⟩ :: o.transcript := rfl

/-- Run `p` alone on the state `s`. `serve` computes the reply and the next state of one
call from one answer of the environment. -/
def exec {σ ω : Type} (serve : (c : C) → ω → σ → R c × σ) :
    Interaction R α → List ω → σ → Outcome R α σ
  | done a, _, s => ⟨.returned a, [], s⟩
  | panic msg, _, s => ⟨.panicked msg, [], s⟩
  -- No answer is left: the program is stopped at this call.
  | ask _ _, [], s => ⟨.stopped, [], s⟩
  | ask c next, w :: ws, s =>
      (exec serve (next (serve c w s).1) ws (serve c w s).2).after c (serve c w s).1

section
variable {σ ω : Type} (serve : (c : C) → ω → σ → R c × σ)

@[simp] theorem exec_done (a : α) (ws : List ω) (s : σ) :
    exec serve (done a : Interaction R α) ws s = ⟨.returned a, [], s⟩ := by
  cases ws <;> rfl

@[simp] theorem exec_panic (msg : String) (ws : List ω) (s : σ) :
    exec serve (panic msg : Interaction R α) ws s = ⟨.panicked msg, [], s⟩ := by
  cases ws <;> rfl

@[simp] theorem exec_ask_nil (c : C) (next : R c → Interaction R α) (s : σ) :
    exec serve (ask c next) [] s = ⟨.stopped, [], s⟩ := rfl

@[simp] theorem exec_ask_cons (c : C) (next : R c → Interaction R α) (w : ω) (ws : List ω)
    (s : σ) :
    exec serve (ask c next) (w :: ws) s
      = (exec serve (next (serve c w s).1) ws (serve c w s).2).after c (serve c w s).1 := rfl

/-- A mapped program runs as the program. -/
theorem exec_map (f : α → β) (p : Interaction R α) (ws : List ω) (s : σ) :
    exec serve (f <$> p) ws s =
      ⟨(exec serve p ws s).ending.map f, (exec serve p ws s).transcript,
        (exec serve p ws s).state⟩ := by
  induction p generalizing ws s with
  | done a => rw [map_done, exec_done, exec_done]; rfl
  | panic msg => rw [map_panic, exec_panic, exec_panic]; rfl
  | ask c next ih =>
    cases ws with
    | nil => rfl
    | cons w ws => rw [map_ask, exec_ask_cons, exec_ask_cons, ih]; rfl

/-- A mapped program has returned what the program has. -/
theorem exec_map_returned {f : α → β} {p : Interaction R α} {ws : List ω} {s : σ} {b : β}
    (h : (exec serve (f <$> p) ws s).ending = .returned b) :
    ∃ a, (exec serve p ws s).ending = .returned a ∧ f a = b := by
  rw [exec_map] at h
  show ∃ a, (exec serve p ws s).ending = .returned a ∧ f a = b
  cases hending : (exec serve p ws s).ending with
  | returned a =>
    rw [hending, Ending.map, Ending.returned.injEq] at h
    exact ⟨a, rfl, h⟩
  | panicked msg => simp [hending, Ending.map] at h
  | stopped => simp [hending, Ending.map] at h

/-- The transcript of a program that ran alone is a trace of the program. -/
theorem exec_traced (p : Interaction R α) (ws : List ω) (s : σ) :
    ∃ q, Trace p (exec serve p ws s).transcript q := by
  induction p generalizing ws s with
  | done a => exact ⟨_, by rw [exec_done]; exact .nil _⟩
  | panic msg => exact ⟨_, by rw [exec_panic]; exact .nil _⟩
  | ask c next ih =>
    cases ws with
    | nil => exact ⟨_, .nil _⟩
    | cons w ws =>
      obtain ⟨q, hq⟩ := ih (serve c w s).1 ws (serve c w s).2
      exact ⟨q, .cons hq⟩

/-- A property of the state that the calls of the transcript preserve holds at the end, and each
of these calls was served on a state that has it. -/
theorem exec_keeps (I : σ → Prop) {p : Interaction R α} {ws : List ω} {s : σ} (h : I s)
    (hkeep : ∀ x ∈ (exec serve p ws s).transcript, ∀ w s, I s → I (serve x.1 w s).2) :
    I (exec serve p ws s).state ∧
      ∀ x ∈ (exec serve p ws s).transcript, ∃ w s', I s' ∧ x.2 = (serve x.1 w s').1 := by
  induction p generalizing ws s with
  | done a => simpa using h
  | panic msg => simpa using h
  | ask c next ih =>
    cases ws with
    | nil => simpa using h
    | cons w ws =>
      rw [exec_ask_cons, Outcome.after_transcript] at hkeep ⊢
      -- The first call is served on `s`, and the others on the state after it.
      have hhead : I (serve c w s).2 := hkeep _ List.mem_cons_self w s h
      obtain ⟨hend, hserved⟩ := ih (serve c w s).1 hhead fun x hx =>
        hkeep x (List.mem_cons_of_mem _ hx)
      refine ⟨hend, fun x hx => ?_⟩
      rcases List.mem_cons.mp hx with rfl | hx
      · exact ⟨w, s, h, rfl⟩
      · exact hserved x hx

/-- The invariant rule for a program alone: `I` relates the transcript so far to the state. Each
call that the program can make, and each answer of the list, has to keep it. -/
theorem exec_invariant (I : Transcript R → σ → Prop) {p : Interaction R α} {ws : List ω} {s : σ}
    (h : I [] s)
    (hkeep : ∀ t s c next w, Trace p t (ask c next) → w ∈ ws → I t s →
      I (t ++ [⟨c, (serve c w s).1⟩]) (serve c w s).2) :
    I (exec serve p ws s).transcript (exec serve p ws s).state := by
  induction p generalizing I ws s with
  | done a => simpa using h
  | panic msg => simpa using h
  | ask c next ih =>
    cases ws with
    | nil => simpa using h
    | cons w ws =>
      rw [exec_ask_cons, Outcome.after_transcript, Outcome.after_state]
      -- After the first call the transcript has one entry in front.
      refine ih (serve c w s).1 (fun t s' => I (⟨c, (serve c w s).1⟩ :: t) s') ?_ ?_
      · exact hkeep [] s c next w (.nil _) List.mem_cons_self h
      · intro t s' c' next' w' htrace hw' hI
        exact hkeep _ s' c' next' w' (.cons htrace) (List.mem_cons_of_mem _ hw') hI

/-- The transcript of a program that panicked alone leads to its panic. -/
theorem exec_trace_panic {p : Interaction R α} {ws : List ω} {s : σ} {msg : String}
    (h : (exec serve p ws s).ending = .panicked msg) :
    Trace p (exec serve p ws s).transcript (panic msg) := by
  induction p generalizing ws s with
  | done a => simp at h
  | panic msg' =>
    simp only [exec_panic, Ending.panicked.injEq] at h ⊢
    subst h
    exact .nil _
  | ask c next ih =>
    cases ws with
    | nil => simp at h
    | cons w ws => exact .cons (ih _ h)

/-- The transcript of a program that returned alone leads to what it returned. -/
theorem exec_trace {p : Interaction R α} {ws : List ω} {s : σ} {a : α}
    (h : (exec serve p ws s).ending = .returned a) :
    Trace p (exec serve p ws s).transcript (done a) := by
  induction p generalizing ws s with
  | done b =>
    simp only [exec_done, Ending.returned.injEq] at h ⊢
    subst h
    exact .nil _
  | panic msg => simp at h
  | ask c next ih =>
    cases ws with
    | nil => simp at h
    | cons w ws => exact .cons (ih _ h)

end

end Interaction

end SwarmRuntime.Lib
