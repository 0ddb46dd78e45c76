import Mathlib.Algebra.BigOperators.Group.Finset.Basic
import Mathlib.Algebra.Order.BigOperators.Group.Finset
import Mathlib.Data.Fintype.BigOperators

/-!
# `SwarmRuntime.Lib.Split`: a total with a part for each client

An amount that several clients move is the sum of one part for each of them, and what a client is
doing bounds its own part (`Split`). A client that moves the total moves its own part by as much
(`Split.update`). The bounds of the parts add up to bounds of the total (`Split.le`, `Split.ge`).
-/

set_option autoImplicit false

namespace SwarmRuntime.Lib

/-- A sum with one summand changed. -/
theorem sum_eq_add_sub {K : Type} {S : Finset K} {f g : K → ℤ} {k : K} (hk : k ∈ S)
    (hother : ∀ k' ∈ S, k' ≠ k → g k' = f k') :
    ∑ k' ∈ S, g k' = ∑ k' ∈ S, f k' + (g k - f k) := by
  classical
  have hrest : ∑ k' ∈ S.erase k, g k' = ∑ k' ∈ S.erase k, f k' := by
    refine Finset.sum_congr rfl fun k' hk' => ?_
    rw [Finset.mem_erase] at hk'
    exact hother k' hk'.2 hk'.1
  have hleft := Finset.add_sum_erase S g hk
  have hright := Finset.add_sum_erase S f hk
  omega

variable {ι T : Type} [Fintype ι]

/-- The total has a part for each client, within the bound of the client's entry. -/
def Split (bound : T → ℤ → Prop) (f : ι → T) (total : ℤ) : Prop :=
  ∃ part : ι → ℤ, ∑ i, part i = total ∧ ∀ i, bound (f i) (part i)

namespace Split

variable {bound bound' : T → ℤ → Prop} {f : ι → T} {total : ℤ}

/-- Nothing is split into nothing. -/
theorem zero (h : ∀ i, bound (f i) 0) : Split bound f 0 :=
  ⟨fun _ => 0, Finset.sum_const_zero, h⟩

/-- The bounds may be widened. -/
theorem mono (h : Split bound f total) (hbound : ∀ i d, bound (f i) d → bound' (f i) d) :
    Split bound' f total := by
  obtain ⟨part, hsum, hpart⟩ := h
  exact ⟨part, hsum, fun i => hbound i _ (hpart i)⟩

/-- A client moves the total by `n`, and its entry to `v`. -/
theorem update [DecidableEq ι] (h : Split bound f total) {i : ι} {v : T} {n total' : ℤ}
    (htotal : total' = total + n) (hbound : ∀ d, bound (f i) d → bound v (d + n)) :
    Split bound (Function.update f i v) total' := by
  obtain ⟨part, hsum, hpart⟩ := h
  refine ⟨Function.update part i (part i + n), ?_, fun j => ?_⟩
  · have hother : ∀ j ∈ Finset.univ, j ≠ i → Function.update part i (part i + n) j = part j :=
      fun j _ hj => Function.update_of_ne hj _ _
    rw [sum_eq_add_sub (Finset.mem_univ i) hother, Function.update_self, htotal, ← hsum]
    omega
  · by_cases hj : j = i
    · subst hj
      rw [Function.update_self, Function.update_self]
      exact hbound _ (hpart j)
    · rw [Function.update_of_ne hj, Function.update_of_ne hj]
      exact hpart j

/-- The total is at most the sum of the upper bounds. -/
theorem le (h : Split bound f total) {c : ι → ℤ} (hc : ∀ i d, bound (f i) d → d ≤ c i) :
    total ≤ ∑ i, c i := by
  obtain ⟨part, hsum, hpart⟩ := h
  rw [← hsum]
  exact Finset.sum_le_sum fun i _ => hc i _ (hpart i)

/-- The total is at least the sum of the lower bounds. -/
theorem ge (h : Split bound f total) {c : ι → ℤ} (hc : ∀ i d, bound (f i) d → c i ≤ d) :
    ∑ i, c i ≤ total := by
  obtain ⟨part, hsum, hpart⟩ := h
  rw [← hsum]
  exact Finset.sum_le_sum fun i _ => hc i _ (hpart i)

end Split

end SwarmRuntime.Lib
