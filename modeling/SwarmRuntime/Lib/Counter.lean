import Mathlib.Data.List.Chain
import Mathlib.Data.Nat.ModEq

/-!
# `SwarmRuntime.Lib.Counter`: lists that count

A list counts modulo `n` when the number of each element is one above the number of the next
one, and the numbers wrap at `n`. A history whose newest entry comes first and whose entries
are numbered by a counter of fixed width is such a list. A counting list of at most `n`
elements uses no number twice (`Counts.pairwise_ne`). A longer one does.
-/

set_option autoImplicit false

namespace SwarmRuntime.Lib

variable {α : Type} {n : Nat} {f : α → Nat}

/-- The numbers that `f` gives to the elements of `xs` go down by one, modulo `n`. -/
def Counts (n : Nat) (f : α → Nat) (xs : List α) : Prop :=
  xs.IsChain fun x y => f x = (f y + 1) % n

/-- A new element on top counts on. -/
theorem Counts.cons {x y : α} {xs : List α} (h : Counts n f (y :: xs))
    (hxy : f x = (f y + 1) % n) : Counts n f (x :: y :: xs) :=
  List.isChain_cons_cons.mpr ⟨hxy, h⟩

/-- What lies below an element of a counting list has a smaller number by at most the
length. -/
theorem Counts.exists_distance {x : α} {xs : List α} (h : Counts n f (x :: xs)) {y : α}
    (hy : y ∈ xs) : ∃ d, 0 < d ∧ d ≤ xs.length ∧ f x % n = (f y + d) % n := by
  induction xs generalizing x with
  | nil => cases hy
  | cons z xs ih =>
    obtain ⟨hxz, htail⟩ := List.isChain_cons_cons.mp h
    have hstep : f x % n = (f z + 1) % n := by rw [hxz, Nat.mod_mod]
    rcases List.mem_cons.mp hy with rfl | hy
    · exact ⟨1, Nat.one_pos, by simp, hstep⟩
    · -- One step to `z`, and the distance of `z`.
      obtain ⟨d, hd, hle, hzy⟩ := ih htail hy
      refine ⟨d + 1, Nat.succ_pos d, by simpa using hle, ?_⟩
      calc f x % n = (f z + 1) % n := hstep
        _ = (f y + d + 1) % n := Nat.ModEq.add_right 1 hzy

/-- A counting list of at most `n` elements uses no number twice. -/
theorem Counts.pairwise_ne {xs : List α} (h : Counts n f xs) (hlen : xs.length ≤ n) :
    xs.Pairwise fun x y => f x ≠ f y := by
  induction xs with
  | nil => exact List.Pairwise.nil
  | cons x xs ih =>
    have hlen : xs.length + 1 ≤ n := hlen
    refine List.pairwise_cons.mpr ⟨?_, ih h.tail (by omega)⟩
    intro y hy hxy
    -- A distance below `n` is none modulo `n` only when it is zero.
    obtain ⟨d, hd, hle, hdist⟩ := h.exists_distance hy
    rw [hxy] at hdist
    have hsum : f y + 0 ≡ f y + d [MOD n] := hdist
    have hzero : 0 ≡ d [MOD n] := Nat.ModEq.add_left_cancel' (f y) hsum
    have heq : 0 = d := hzero.eq_of_lt_of_lt (by omega) (by omega)
    omega

end SwarmRuntime.Lib
