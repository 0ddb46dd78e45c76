import Mathlib.Algebra.BigOperators.Group.Finset.Piecewise
import Mathlib.Data.Fintype.Card

/-!
# `SwarmRuntime.Lib.Admission`: charges that were admitted earlier

A counter admits a charge of at most `m` while it is below its limit, and the charge comes
later. `Within` bounds the counter and what the pending admissions can still add to it. It
holds when an admission is given (`Within.of_lt`), whatever was charged since, because the
counter was below its limit then; a charge takes as much from the pending part as it adds to
the counter (`Within.charge`).

`pendingWhere` counts the clients whose admission is pending. A client that changes its own
admission changes the count by its own part (`pendingWhere_update`).

A `Ledger` keeps what was ever added to a counter that is cleared from time to time. A counter that
stays at or below `cap` has been added at most `cap` for each clear, and once more
(`Ledger.Covers.added_le`).
-/

set_option autoImplicit false

namespace SwarmRuntime.Lib

/-! ### The bound -/

/-- What is used, with `m` for each of the `pending` admissions, stays below the limit with `m`
for each of `k` clients. -/
def Within (limit k m used pending : Nat) : Prop := used + pending * m < limit + k * m

namespace Within

variable {limit k m used pending : Nat}

/-- A counter below its limit leaves room for every client. -/
theorem of_lt (hused : used < limit) (hpending : pending ≤ k) : Within limit k m used pending := by
  have hle : pending * m ≤ k * m := Nat.mul_le_mul_right m hpending
  show used + pending * m < limit + k * m
  omega

/-- A charge uses up its admission. -/
theorem charge {n : Nat} (h : Within limit k m used (pending + 1)) (hn : n ≤ m) :
    Within limit k m (used + n) pending := by
  have hroom : used + (pending + 1) * m < limit + k * m := h
  rw [Nat.succ_mul] at hroom
  show used + n + pending * m < limit + k * m
  omega

/-- The counter may fall. -/
theorem mono_used {used' : Nat} (h : Within limit k m used pending) (hle : used' ≤ used) :
    Within limit k m used' pending :=
  Nat.lt_of_le_of_lt (Nat.add_le_add_right hle _) h

/-- An admission may be given up. -/
theorem mono_pending {pending' : Nat} (h : Within limit k m used pending)
    (hle : pending' ≤ pending) : Within limit k m used pending' :=
  Nat.lt_of_le_of_lt (Nat.add_le_add_left (Nat.mul_le_mul_right m hle) _) h

theorem used_lt (h : Within limit k m used pending) : used < limit + k * m :=
  Nat.lt_of_le_of_lt (Nat.le_add_right _ _) h

/-- A charge that was admitted does not wrap around. -/
theorem toNat_add {u n : UInt64} (h : Within limit k m u.toNat (pending + 1)) (hn : n.toNat ≤ m)
    (hfits : limit + k * m < 2 ^ 64) : (u + n).toNat = u.toNat + n.toNat := by
  rw [UInt64.toNat_add, Nat.mod_eq_of_lt (Nat.lt_trans (h.charge hn).used_lt hfits)]

end Within

/-! ### The pending admissions -/

section
variable {ι T : Type} [Fintype ι] (p : T → Prop) [DecidablePred p]

/-- The number of clients whose entry has the property `p`. -/
def pendingWhere (f : ι → T) : Nat := (Finset.univ.filter fun i => p (f i)).card

theorem pendingWhere_le (f : ι → T) : pendingWhere p f ≤ Fintype.card ι :=
  Finset.card_le_univ _

/-- Entries that lose the property lower the count. -/
theorem pendingWhere_mono {f g : ι → T} (h : ∀ i, p (g i) → p (f i)) :
    pendingWhere p g ≤ pendingWhere p f := by
  refine Finset.card_le_card fun i hi => ?_
  rw [Finset.mem_filter] at hi ⊢
  exact ⟨hi.1, h i hi.2⟩

theorem pendingWhere_pos {f : ι → T} {i : ι} (h : p (f i)) : 0 < pendingWhere p f :=
  Finset.card_pos.mpr ⟨i, Finset.mem_filter.mpr ⟨Finset.mem_univ i, h⟩⟩

/-- An update of one entry moves the count by that entry alone. -/
theorem pendingWhere_update [DecidableEq ι] (f : ι → T) (i : ι) (v : T) :
    pendingWhere p (Function.update f i v) + (if p (f i) then 1 else 0) =
      pendingWhere p f + (if p v then 1 else 0) := by
  have hsum : ∀ g : ι → T, pendingWhere p g =
      (if p (g i) then 1 else 0) + ∑ j ∈ {i}ᶜ, (if p (g j) then 1 else 0) := by
    intro g
    rw [pendingWhere, Finset.card_filter, Fintype.sum_eq_add_sum_compl i]
  have hrest : ∑ j ∈ ({i}ᶜ : Finset ι), (if p (Function.update f i v j) then 1 else 0) =
      ∑ j ∈ ({i}ᶜ : Finset ι), (if p (f j) then 1 else 0) := by
    apply Finset.sum_congr rfl
    intro j hj
    have hne : j ≠ i := by simpa using hj
    rw [Function.update_of_ne hne]
  rw [hsum, hsum, hrest, Function.update_self]
  omega

end

/-! ### A counter that is cleared from time to time -/

/-- What was added to a counter, and how often it was cleared. -/
structure Ledger where
  added : Nat
  clears : Nat

namespace Ledger

variable {l₀ l : Ledger} {cap used n : Nat}

/-- Nothing was added or cleared. -/
def empty : Ledger := ⟨0, 0⟩

/-- `n` is added. -/
def add (l : Ledger) (n : Nat) : Ledger := { l with added := l.added + n }

/-- The counter is cleared. -/
def clear (l : Ledger) : Ledger := { l with clears := l.clears + 1 }

/-- What was added after `l₀` is in the counter, or it was cleared, at most `cap` each time. -/
structure Covers (cap : Nat) (l₀ l : Ledger) (used : Nat) : Prop where
  clears : l₀.clears ≤ l.clears
  added : l.added ≤ l₀.added + (l.clears - l₀.clears) * cap + used

theorem covers_self (cap : Nat) (l : Ledger) (used : Nat) : Covers cap l l used :=
  ⟨Nat.le_refl _, by omega⟩

theorem Covers.add (h : Covers cap l₀ l used) (n : Nat) : Covers cap l₀ (l.add n) (used + n) := by
  have hadded := h.added
  refine ⟨h.clears, ?_⟩
  show l.added + n ≤ l₀.added + (l.clears - l₀.clears) * cap + (used + n)
  omega

/-- A clear takes what is in the counter, and that is at most `cap`. -/
theorem Covers.clear (h : Covers cap l₀ l used) (hused : used ≤ cap) :
    Covers cap l₀ l.clear 0 := by
  have hadded := h.added
  have hclears := h.clears
  refine ⟨Nat.le_succ_of_le hclears, ?_⟩
  show l.added ≤ l₀.added + (l.clears + 1 - l₀.clears) * cap + 0
  have hsucc : l.clears + 1 - l₀.clears = (l.clears - l₀.clears) + 1 := by omega
  rw [hsucc, Nat.succ_mul]
  omega

/-- With `n` clears after `l₀`, at most `n + 1` times the bound was added. -/
theorem Covers.added_le (h : Covers cap l₀ l used) (hused : used ≤ cap)
    (hn : l.clears - l₀.clears ≤ n) : l.added ≤ l₀.added + (n + 1) * cap := by
  have hadded := h.added
  have hmul : (l.clears - l₀.clears) * cap ≤ n * cap := Nat.mul_le_mul_right cap hn
  rw [Nat.succ_mul]
  omega

end Ledger

end SwarmRuntime.Lib
