import Mathlib.Algebra.Group.Nat.Defs
import Mathlib.Data.Finset.Card
import Mathlib.Logic.Function.Basic

/-!
# `SwarmRuntime.Lib.FixedWindow`: a counter over fixed windows

A fixed-window counter adds up what is charged in the current window, in all and for each key,
and forgets it when a new window starts (`roll`). Its numbers are exact. `admits` compares them
with a limit on each of the two.

The main results are:

- `chargeAll_total` and `chargeAll_usage`: after a list of charges, the total has grown by all of
  them and the usage of a key by the charges for that key.
- `Balanced.charge` and `Balanced.roll`: no key ever has more than the total.
- `admits_eq_true_iff`: the answer as a proposition.
-/

set_option autoImplicit false

namespace SwarmRuntime.Lib

/-- The state of a fixed-window counter over the keys `K`. -/
structure FixedWindow (K : Type) where
  start : Nat
  total : Nat
  usage : K → Nat

namespace FixedWindow

variable {K : Type} {w : FixedWindow K}

/-- A window with nothing in it. -/
def opened (now : Nat) : FixedWindow K := ⟨now, 0, fun _ => 0⟩

/-- A new window, when the current one has expired. The new one starts at `now'`. -/
def roll (expired : Nat → Nat → Bool) (now now' : Nat) (w : FixedWindow K) : FixedWindow K :=
  if expired w.start now then opened now' else w

/-- Both the total and the usage of the key `k` are below their limits. -/
def admits (limit perKey : Nat) (k : K) (w : FixedWindow K) : Bool :=
  decide (w.total < limit) && decide (w.usage k < perKey)

/-- The answer as a proposition: both numbers are strictly below their limits, so a limit of
zero admits nobody. -/
theorem admits_eq_true_iff {limit perKey : Nat} {k : K} :
    w.admits limit perKey k = true ↔ w.total < limit ∧ w.usage k < perKey := by
  simp [admits]

/-- No key has more than the total. -/
def Balanced (w : FixedWindow K) : Prop := ∀ k, w.usage k ≤ w.total

/-- A new window is balanced: all its numbers are zero. -/
theorem balanced_opened (now : Nat) : Balanced (opened now : FixedWindow K) :=
  fun _ => Nat.le_refl 0

/-- Rolling keeps the balance: either nothing changes, or the window is a new one. -/
theorem Balanced.roll (h : Balanced w) (expired : Nat → Nat → Bool) (now now' : Nat) :
    Balanced (w.roll expired now now') := by
  unfold FixedWindow.roll
  split_ifs
  · exact balanced_opened now'
  · exact h

/-- The sum of a list of charges. -/
def sum : List (K × Nat) → Nat
  | [] => 0
  | c :: cs => c.2 + sum cs

/-- The sum of two lists in a row. What is charged in two runs, one after the other, is counted
once for each. -/
theorem sum_append (cs ds : List (K × Nat)) : sum (cs ++ ds) = sum cs + sum ds := by
  induction cs with
  | nil => exact (Nat.zero_add _).symm
  | cons c cs ih =>
    show c.2 + sum (cs ++ ds) = c.2 + sum cs + sum ds
    rw [ih, Nat.add_assoc]

/-! ### Charges -/

variable [DecidableEq K]

/-- A charge of `n` for the key `k`. -/
def charge (k : K) (n : Nat) (w : FixedWindow K) : FixedWindow K :=
  { w with total := w.total + n, usage := Function.update w.usage k (w.usage k + n) }

/-- A list of charges, one after the other. -/
def chargeAll (charges : List (K × Nat)) (w : FixedWindow K) : FixedWindow K :=
  charges.foldl (fun w c => w.charge c.1 c.2) w

/-- A charge does not move the start of the window. -/
@[simp] theorem charge_start (k : K) (n : Nat) : (w.charge k n).start = w.start := rfl

/-- The total takes every charge, whichever key it is for. -/
@[simp] theorem charge_total (k : K) (n : Nat) : (w.charge k n).total = w.total + n := rfl

/-- The usage of the key that is charged grows by the charge. -/
theorem charge_usage_self (k : K) (n : Nat) : (w.charge k n).usage k = w.usage k + n :=
  Function.update_self _ _ _

/-- The usage of any other key stays as it is. -/
theorem charge_usage_of_ne {k k' : K} (h : k' ≠ k) (n : Nat) :
    (w.charge k n).usage k' = w.usage k' :=
  Function.update_of_ne h _ _

/-- A charge keeps the balance: the total grows by as much as the usage of the one key does. -/
theorem Balanced.charge (h : Balanced w) (k : K) (n : Nat) : Balanced (w.charge k n) := by
  intro k'
  have hle := h k'
  by_cases hk : k' = k
  · subst hk
    rw [charge_usage_self, charge_total]
    omega
  · rw [charge_usage_of_ne hk, charge_total]
    omega

/-- The sum of the charges for one key. -/
def sumFor (k : K) (charges : List (K × Nat)) : Nat := sum (charges.filter fun c => c.1 = k)

/-- The sum for a key of two lists in a row, as `sum_append` has it for all keys. -/
theorem sumFor_append (k : K) (cs ds : List (K × Nat)) :
    sumFor k (cs ++ ds) = sumFor k cs + sumFor k ds := by
  rw [sumFor, List.filter_append, sum_append]
  rfl

/-- The total counts every charge once. By induction on the charges, from the first one on: what
is left is charged to the window that has it already. -/
theorem chargeAll_total (cs : List (K × Nat)) (w : FixedWindow K) :
    (w.chargeAll cs).total = w.total + sum cs := by
  induction cs generalizing w with
  | nil => rfl
  | cons c cs ih =>
    show ((w.charge c.1 c.2).chargeAll cs).total = w.total + (c.2 + sum cs)
    rw [ih, charge_total]
    omega

/-- The usage of a key counts the charges for that key, and only those: a charge for another key
is filtered out of `sumFor` and leaves the usage alone. -/
theorem chargeAll_usage (k : K) (cs : List (K × Nat)) (w : FixedWindow K) :
    (w.chargeAll cs).usage k = w.usage k + sumFor k cs := by
  induction cs generalizing w with
  | nil => rfl
  | cons c cs ih =>
    show ((w.charge c.1 c.2).chargeAll cs).usage k = _
    rw [ih, show c :: cs = [c] ++ cs from rfl, sumFor_append]
    by_cases hk : k = c.1
    · subst hk
      rw [charge_usage_self]
      simp [sumFor, sum]
      omega
    · rw [charge_usage_of_ne hk]
      simp [sumFor, sum, Ne.symm hk]

end FixedWindow

end SwarmRuntime.Lib
