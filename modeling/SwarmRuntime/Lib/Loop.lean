import Mathlib.Computability.StateTransition
import Mathlib.Data.Fintype.EquivFin
import Mathlib.Order.WellFounded

/-!
# `SwarmRuntime.Lib.Loop`: when a loop comes to its end

A loop is a step function `f : σ → Option σ`: `f s = none` ends it. `Halts f s` says that the
loop started in `s` comes to an end.

* `halts_iff_acyclic`: over finitely many states a loop ends iff no state comes twice.
* `halts_iff_of_tracks`: a loop that follows another one along `key` ends iff the other one
  does, or it ends before it.
* `Tracks.lifts`: a loop that never ends before the other one comes wherever the other one does.
-/

set_option autoImplicit false

namespace SwarmRuntime.Lib.Loop

open Relation StateTransition

variable {σ κ : Type} {f : σ → Option σ} {g : κ → Option κ}

/-- The loop `f`, started in `s`, ends. -/
def Halts (f : σ → Option σ) (s : σ) : Prop :=
  ∃ t, Reaches f s t ∧ f t = none

/-- The loop `f`, started in `s`, comes to some state twice. -/
def Revisits (f : σ → Option σ) (s : σ) : Prop :=
  ∃ t, Reaches f s t ∧ Reaches₁ f t t

/-- A state that comes back is never left: every later state comes back too. -/
theorem reaches₁_self {s t : σ} (hcycle : Reaches₁ f s s) (h : Reaches f s t) :
    Reaches₁ f t t := by
  induction h with
  | refl => exact hcycle
  | tail _ hstep ih => exact TransGen.tail' (reaches₁_fwd ih hstep) hstep

/-- A state where the loop ends does not come back. -/
theorem not_reaches₁_of_none {s t : σ} (h : f s = none) : ¬ Reaches₁ f s t := by
  intro hloop
  obtain ⟨u, hstep, -⟩ := TransGen.head'_iff.mp hloop
  rw [h] at hstep
  cases hstep

/-- A loop has one end. -/
theorem end_unique {s t u : σ} (hst : Reaches f s t) (ht : f t = none) (hsu : Reaches f s u)
    (hu : f u = none) : t = u := by
  have hstop : ∀ {x y}, f x = none → Reaches f x y → y = x := by
    intro x y hx hxy
    rcases reflTransGen_iff_eq_or_transGen.mp hxy with heq | hlater
    · exact heq
    · exact absurd hlater (not_reaches₁_of_none hx)
  rcases reaches_total hst hsu with htu | hut
  · exact (hstop ht htu).symm
  · exact hstop hu hut

/-- A loop that ends comes to no state twice. -/
theorem not_revisits {s : σ} (h : Halts f s) : ¬ Revisits f s := by
  intro hrev
  obtain ⟨t, hst, hend⟩ := h
  obtain ⟨u, hsu, hcycle⟩ := hrev
  rcases reaches_total hst hsu with htu | hut
  · -- Nothing comes after the end, so `u` is the end.
    rcases reflTransGen_iff_eq_or_transGen.mp htu with heq | hlater
    · subst heq
      exact not_reaches₁_of_none hend hcycle
    · exact not_reaches₁_of_none hend hlater
  · exact not_reaches₁_of_none hend (reaches₁_self hcycle hut)

/-- Over finitely many states, a loop that comes to no state twice ends: later states are a
well-founded order. -/
theorem halts_of_not_revisits [Finite σ] {s : σ} (h : ¬ Revisits f s) : Halts f s := by
  let later : {t // Reaches f s t} → {t // Reaches f s t} → Prop :=
    fun u t => Reaches₁ f t.1 u.1
  have : IsTrans _ later := ⟨fun _ _ _ huv hvw => TransGen.trans hvw huv⟩
  have : Std.Irrefl later := ⟨fun t hcycle => h ⟨t.1, t.2, hcycle⟩⟩
  have hwf : WellFounded later := Finite.wellFounded_of_trans_of_irrefl later
  obtain ⟨⟨t, hst⟩, -, hlast⟩ := hwf.has_min Set.univ ⟨⟨s, ReflTransGen.refl⟩, trivial⟩
  refine ⟨t, hst, ?_⟩
  cases hnext : f t with
  | none => rfl
  | some u =>
    have hlater : Reaches₁ f t u := TransGen.single hnext
    exact absurd hlater (hlast ⟨u, hst.tail hnext⟩ trivial)

/-- Over finitely many states a loop ends iff it comes to no state twice. -/
theorem halts_iff_acyclic [Finite σ] {s : σ} : Halts f s ↔ ¬ Revisits f s :=
  ⟨not_revisits, halts_of_not_revisits⟩

/-- The loop `f` follows the loop `g` along `key`, as far as it goes. -/
def Tracks (f : σ → Option σ) (g : κ → Option κ) (key : σ → κ) : Prop :=
  ∀ s s', f s = some s' → g (key s) = some (key s')

/-- What `f` reaches, `g` reaches. -/
theorem Tracks.reaches {key : σ → κ} (h : Tracks f g key) {s t : σ} (hr : Reaches f s t) :
    Reaches g (key s) (key t) := by
  induction hr with
  | refl => exact ReflTransGen.refl
  | tail _ hstep ih => exact ih.tail (h _ _ hstep)

/-- And so for what is reached in at least one step. -/
theorem Tracks.reaches₁ {key : σ → κ} (h : Tracks f g key) {s t : σ} (hr : Reaches₁ f s t) :
    Reaches₁ g (key s) (key t) := by
  obtain ⟨u, hsu, hut⟩ := TransGen.tail'_iff.mp hr
  exact TransGen.tail' (h.reaches hsu) (h _ _ hut)

/-- Where `f` ends only if `g` does, `f` comes to a state for whatever `g` reaches. The path of
`g` is lifted one step at a time. -/
theorem Tracks.lifts {key : σ → κ} (h : Tracks f g key) {s : σ} {k : κ}
    (hgo : ∀ t, Reaches f s t → f t = none → g (key t) = none) (hr : Reaches g (key s) k) :
    ∃ t, Reaches f s t ∧ key t = k := by
  induction hr with
  | refl => exact ⟨s, ReflTransGen.refl, rfl⟩
  | @tail a b _ hstep ih =>
    obtain ⟨t, hst, hkey⟩ := ih
    rw [← hkey, Option.mem_def] at hstep
    cases hnext : f t with
    | none =>
      rw [hgo t hst hnext] at hstep
      cases hstep
    | some t' =>
      have hg : g (key t) = some (key t') := h t t' hnext
      rw [hstep] at hg
      exact ⟨t', hst.tail hnext, (Option.some.inj hg).symm⟩

/-- A loop that follows one that ends, ends itself. -/
theorem Tracks.halts {key : σ → κ} (h : Tracks f g key) {s : σ} (hg : Halts g (key s)) :
    Halts f s := by
  obtain ⟨b, hr, hend⟩ := hg
  generalize hk : key s = a at hr
  induction hr using ReflTransGen.head_induction_on generalizing s with
  | refl =>
    refine ⟨s, ReflTransGen.refl, ?_⟩
    cases hnext : f s with
    | none => rfl
    | some s' =>
      -- `g` has ended here.
      have hg := h s s' hnext
      rw [hk, hend] at hg
      cases hg
  | head hstep _ ih =>
    cases hnext : f s with
    | none => exact ⟨s, ReflTransGen.refl, hnext⟩
    | some s' =>
      have hg := h s s' hnext
      rw [hk, Option.mem_def.mp hstep] at hg
      obtain ⟨t, hr, ht⟩ := ih (Option.some.inj hg).symm
      exact ⟨t, hr.head hnext, ht⟩

/-- A loop that follows `g` ends iff `g` does, or it ends where `g` goes on. -/
theorem halts_iff_of_tracks {key : σ → κ} (h : Tracks f g key) {s : σ} :
    Halts f s ↔ Halts g (key s) ∨ ∃ t, Reaches f s t ∧ f t = none ∧ g (key t) ≠ none := by
  constructor
  · intro hf
    obtain ⟨t, hr, hend⟩ := hf
    by_cases hg : g (key t) = none
    · exact .inl ⟨key t, h.reaches hr, hg⟩
    · exact .inr ⟨t, hr, hend, hg⟩
  · intro hcause
    rcases hcause with hg | ⟨t, hr, hend, -⟩
    · exact h.halts hg
    · exact ⟨t, hr, hend⟩

end SwarmRuntime.Lib.Loop
