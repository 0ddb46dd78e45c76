import SwarmRuntime.Lib.Rounding
import Mathlib.Algebra.BigOperators.Group.List.Basic
import Mathlib.Algebra.Order.BigOperators.Group.List
import Mathlib.Tactic.FieldSimp

/-!
# `SwarmRuntime.Lib.Ieee`: binary floating-point arithmetic

`Ieee F` are the values of a format `F`: NaN, the infinities and the finite values. A finite value
carries the proof that it is one. Each operation rounds its exact result to the nearest and
overflows to an infinity. Zero has no sign here.

A sum of two values never loses bits at the lower end, so its error is relative to the result
(`abs_roundFloat_add_sub_le`). That bounds the error of a sum of any number of values, taken in
order (`foldl_add_error`), and of their mean (`mean_error`). Both bounds hold whenever the result
is finite. `exists_foldl_add` says when it is.
-/

set_option autoImplicit false

namespace SwarmRuntime.Lib

/-! ### Rounding errors -/

section
variable {p : Nat} {emin : ℤ} {x y q : ℚ}

/-- A sum of two floats that is small is a float. -/
theorem add_mem_floats (hx : x ∈ floats p emin) (hy : y ∈ floats p emin)
    (hlt : |x + y| < 2 ^ (emin + p)) : x + y ∈ floats p emin := by
  obtain ⟨m, a, -, ha, rfl⟩ := hx
  obtain ⟨n, b, -, hb, rfl⟩ := hy
  obtain ⟨k, hk⟩ := exists_int_of_le (m := m) ha
  obtain ⟨l, hl⟩ := exists_int_of_le (m := n) hb
  have hpos : (0 : ℚ) < 2 ^ emin := zpow_pos two_pos emin
  have hsum : (m : ℚ) * 2 ^ a + n * 2 ^ b = ((k + l : ℤ) : ℚ) * 2 ^ emin := by
    rw [hk, hl, Int.cast_add]
    ring
  have hbits : |k + l| < 2 ^ p := by
    rw [hsum, abs_mul, abs_of_pos hpos, zpow_add₀ two_ne_zero, zpow_natCast, mul_comm] at hlt
    have hcast : |((k + l : ℤ) : ℚ)| < 2 ^ p := lt_of_mul_lt_mul_left hlt hpos.le
    rw [← Int.cast_abs] at hcast
    exact_mod_cast hcast
  rw [hsum]
  exact mem_floats hbits le_rfl

/-- The error of an addition is relative to the result. -/
theorem abs_roundFloat_add_sub_le (hp : 0 < p) (hx : x ∈ floats p emin) (hy : y ∈ floats p emin) :
    |roundFloat p emin (x + y) - (x + y)| ≤ |x + y| / 2 ^ p := by
  rcases le_or_gt ((2 : ℚ) ^ (emin + p - 1)) |x + y| with hle | hlt
  · exact abs_roundFloat_sub_le hle
  · have hlt' : |x + y| < 2 ^ (emin + p) :=
      lt_of_lt_of_le hlt (zpow_le_zpow_right₀ one_le_two (by omega))
    rw [(nearest_roundFloat hp).eq_of_mem (add_mem_floats hx hy hlt'), sub_self, abs_zero]
    exact div_nonneg (abs_nonneg _) (pow_pos two_pos p).le

theorem neg_mem_floats (hx : x ∈ floats p emin) : -x ∈ floats p emin := by
  obtain ⟨m, e, hm, he, rfl⟩ := hx
  have hmem := mem_floats (m := -m) (by rwa [abs_neg]) he
  rwa [Int.cast_neg, neg_mul] at hmem

theorem zero_mem_floats : (0 : ℚ) ∈ floats p emin := by
  have hmem : ((0 : ℤ) : ℚ) * 2 ^ emin ∈ floats p emin :=
    mem_floats (by rw [abs_zero]; exact pow_pos two_pos p) le_rfl
  rwa [Int.cast_zero, zero_mul] at hmem

/-- Any other error is relative to the result or at most half a unit at the lower end. -/
theorem abs_roundFloat_sub_le_add (hp : 0 < p) (q : ℚ) :
    |roundFloat p emin q - q| ≤ |q| / 2 ^ p + 2 ^ (emin - 1) := by
  have hunit : (0 : ℚ) < 2 ^ (emin - 1) := zpow_pos two_pos _
  have hrel : 0 ≤ |q| / 2 ^ p := div_nonneg (abs_nonneg q) (pow_pos two_pos p).le
  rcases eq_or_ne q 0 with rfl | hq
  · rw [(nearest_roundFloat hp).eq_of_mem zero_mem_floats, sub_self, abs_zero]
    linarith
  · rcases le_or_gt ((2 : ℚ) ^ (emin + p - 1)) |q| with hle | hlt
    · have herror : |roundFloat p emin q - q| ≤ |q| / 2 ^ p := abs_roundFloat_sub_le hle
      linarith
    · -- Here the last bit that is kept is the lowest one.
      have hlog : Int.log 2 |q| < emin + p - 1 :=
        (Int.lt_zpow_iff_log_lt one_lt_two (abs_pos.mpr hq)).mp hlt
      have hbit : lastBit p emin q = emin := by
        unfold lastBit
        omega
      have herror : |roundFloat p emin q - q| ≤ 1 / 2 * 2 ^ emin := by
        rw [roundFloat, hbit, abs_mul_sub]
        exact mul_le_mul_of_nonneg_right (abs_roundEven_sub_le_half _) (zpow_pos two_pos _).le
      have hhalf : (2 : ℚ) ^ (emin - 1) = 1 / 2 * 2 ^ emin := by
        rw [zpow_sub_one₀ two_ne_zero]
        ring
      linarith

end

/-! ### Values -/

/-- A binary format: values of `precision` bits, the last of them at `2 ^ emin` or above, that are
below `2 ^ emax`. -/
structure Format where
  precision : Nat
  emin : ℤ
  emax : ℤ
  precision_pos : 0 < precision

namespace Format

/-- What one rounding loses at most, relative to its result. -/
def unit (F : Format) : ℚ := 1 / 2 ^ F.precision

/-- Half of the least positive value. -/
def halfLeast (F : Format) : ℚ := 2 ^ (F.emin - 1)

/-- Rounding in the format, without its upper end. -/
def round (F : Format) : ℚ → ℚ := roundFloat F.precision F.emin

/-- The rationals that are values of the format. -/
def IsFinite (F : Format) (x : ℚ) : Prop := x ∈ floats F.precision F.emin ∧ |x| < 2 ^ F.emax

variable (F : Format) {x y : ℚ}

theorem unit_pos : 0 < F.unit := div_pos one_pos (pow_pos two_pos _)

theorem unit_le_half : F.unit ≤ 1 / 2 := by
  have hpow : (2 : ℚ) ^ 1 ≤ 2 ^ F.precision := pow_le_pow_right₀ one_le_two F.precision_pos
  rw [pow_one] at hpow
  exact one_div_le_one_div_of_le two_pos hpow

theorem nearest_round : Nearest (floats F.precision F.emin) F.round :=
  nearest_roundFloat F.precision_pos

/-- An addition in the format. -/
theorem abs_round_add_sub_le (hx : F.IsFinite x) (hy : F.IsFinite y) :
    |F.round (x + y) - (x + y)| ≤ F.unit * |x + y| := by
  have herror := abs_roundFloat_add_sub_le F.precision_pos hx.1 hy.1
  rwa [div_eq_mul_one_div, mul_comm] at herror

/-- Any operation in the format. -/
theorem abs_round_sub_le (q : ℚ) : |F.round q - q| ≤ F.unit * |q| + F.halfLeast := by
  have herror : |F.round q - q| ≤ |q| / 2 ^ F.precision + F.halfLeast :=
    abs_roundFloat_sub_le_add F.precision_pos q
  rwa [div_eq_mul_one_div, mul_comm] at herror

end Format

/-- A value of the format. A finite one carries the proof that it is one. Zero has no sign. -/
inductive Ieee (F : Format) where
  | nan
  | infinity (negative : Bool)
  | finite (x : ℚ) (mem : F.IsFinite x)
  deriving DecidableEq

namespace Ieee

variable {F : Format}

/-- The rational that a finite value is. -/
def toRat? : Ieee F → Option ℚ
  | .finite x _ => some x
  | _ => none

/-- The result of an operation whose exact result is `q`. -/
def ofRat (F : Format) (q : ℚ) : Ieee F :=
  if h : |F.round q| < 2 ^ F.emax then .finite (F.round q) ⟨(F.nearest_round q).1, h⟩
  else .infinity (decide (q < 0))

protected def add : Ieee F → Ieee F → Ieee F
  | .finite x _, .finite y _ => ofRat F (x + y)
  | .infinity s, .infinity t => if s = t then .infinity s else .nan
  | .infinity s, .finite _ _ => .infinity s
  | .finite _ _, .infinity t => .infinity t
  | .nan, _ => .nan
  | _, .nan => .nan

protected def mul : Ieee F → Ieee F → Ieee F
  | .finite x _, .finite y _ => ofRat F (x * y)
  | .infinity s, .infinity t => .infinity (s != t)
  | .infinity s, .finite y _ => if y = 0 then .nan else .infinity (s != decide (y < 0))
  | .finite x _, .infinity t => if x = 0 then .nan else .infinity (decide (x < 0) != t)
  | .nan, _ => .nan
  | _, .nan => .nan

/-- The quotient. A zero divisor is taken to be positive. -/
protected def div : Ieee F → Ieee F → Ieee F
  | .finite x _, .finite y _ =>
      if y ≠ 0 then ofRat F (x / y) else if x = 0 then .nan else .infinity (decide (x < 0))
  | .infinity s, .finite y _ => .infinity (s != decide (y < 0))
  | .finite _ _, .infinity _ => ofRat F 0
  | .infinity _, .infinity _ => .nan
  | .nan, _ => .nan
  | _, .nan => .nan

instance : Add (Ieee F) := ⟨Ieee.add⟩
instance : Mul (Ieee F) := ⟨Ieee.mul⟩
instance : Div (Ieee F) := ⟨Ieee.div⟩

/-! ### Finite values -/

variable {x y : Ieee F} {xs : List (Ieee F)} {a b q z : ℚ} {qs : List ℚ}

theorem toRat?_eq_some_iff : x.toRat? = some q ↔ ∃ h : F.IsFinite q, x = .finite q h := by
  cases x with
  | nan => simp [toRat?]
  | infinity s => simp [toRat?]
  | finite r mem =>
    constructor
    · intro h
      obtain rfl := Option.some.inj h
      exact ⟨mem, rfl⟩
    · rintro ⟨h, heq⟩
      rw [heq]
      rfl

theorem isFinite_of_toRat? (h : x.toRat? = some q) : F.IsFinite q :=
  (toRat?_eq_some_iff.mp h).1

theorem toRat?_ofRat_eq_some_iff :
    (ofRat F q).toRat? = some z ↔ F.round q = z ∧ |z| < 2 ^ F.emax := by
  unfold ofRat
  split
  · rename_i hlt
    constructor
    · intro h
      obtain rfl := Option.some.inj h
      exact ⟨rfl, hlt⟩
    · rintro ⟨rfl, -⟩
      rfl
  · rename_i hge
    constructor
    · intro h
      cases h
    · rintro ⟨rfl, hlt⟩
      exact absurd hlt hge

/-- A finite value is the result of an operation that has it as its exact result. -/
theorem ofRat_of_toRat? (h : x.toRat? = some q) : ofRat F q = x := by
  obtain ⟨hq, rfl⟩ := toRat?_eq_some_iff.mp h
  have hround : F.round q = q := F.nearest_round.eq_of_mem hq.1
  unfold ofRat
  rw [dif_pos (by rw [hround]; exact hq.2)]
  simp only [hround]

/-- A sum is finite when both terms are and it does not overflow. -/
theorem toRat?_add_eq_some_iff :
    (x + y).toRat? = some z ↔
      ∃ a b, x.toRat? = some a ∧ y.toRat? = some b ∧ F.round (a + b) = z ∧ |z| < 2 ^ F.emax := by
  have hadd : x + y = Ieee.add x y := rfl
  rw [hadd]
  constructor
  · intro h
    cases x with
    | nan => cases y <;> cases h
    | infinity s =>
      cases y with
      | nan => cases h
      | finite => cases h
      | infinity t =>
        cases s <;> cases t <;> cases h
    | finite a ha =>
      cases y with
      | nan => cases h
      | infinity t => cases h
      | finite b hb =>
        exact ⟨a, b, rfl, rfl, toRat?_ofRat_eq_some_iff.mp h⟩
  · rintro ⟨a, b, hx, hy, h⟩
    obtain ⟨ha, rfl⟩ := toRat?_eq_some_iff.mp hx
    obtain ⟨hb, rfl⟩ := toRat?_eq_some_iff.mp hy
    exact toRat?_ofRat_eq_some_iff.mpr h

/-- A quotient by a finite value other than zero. -/
theorem toRat?_div_eq_some_iff (hy : y.toRat? = some b) (hb : b ≠ 0) :
    (x / y).toRat? = some z ↔
      ∃ a, x.toRat? = some a ∧ F.round (a / b) = z ∧ |z| < 2 ^ F.emax := by
  have hdiv : x / y = Ieee.div x y := rfl
  obtain ⟨hmem, rfl⟩ := toRat?_eq_some_iff.mp hy
  rw [hdiv]
  cases x with
  | nan => simp [Ieee.div, toRat?]
  | infinity s => simp [Ieee.div, toRat?]
  | finite a ha =>
    simp only [Ieee.div, if_pos hb, toRat?_ofRat_eq_some_iff]
    simp [toRat?]

/-- A product of finite values. -/
theorem toRat?_mul (hx : x.toRat? = some a) (hy : y.toRat? = some b) :
    x * y = ofRat F (a * b) := by
  obtain ⟨ha, rfl⟩ := toRat?_eq_some_iff.mp hx
  obtain ⟨hb, rfl⟩ := toRat?_eq_some_iff.mp hy
  rfl

/-- The zero. -/
def zero (F : Format) : Ieee F := ofRat F 0

theorem toRat?_zero (F : Format) : (zero F).toRat? = some 0 := by
  have hround : F.round 0 = 0 := F.nearest_round.eq_of_mem zero_mem_floats
  exact toRat?_ofRat_eq_some_iff.mpr ⟨hround, by rw [abs_zero]; exact zpow_pos two_pos _⟩

theorem zero_add_eq (x : Ieee F) : zero F + x = x := by
  obtain ⟨hmem, heq⟩ := toRat?_eq_some_iff.mp (toRat?_zero F)
  rw [heq]
  cases x with
  | nan => rfl
  | infinity s => rfl
  | finite q hq =>
    have hadd : Ieee.add (.finite 0 hmem) (.finite q hq) = ofRat F (0 + q) := rfl
    show Ieee.add (.finite 0 hmem) (.finite q hq) = _
    rw [hadd, zero_add]
    exact ofRat_of_toRat? rfl

/-! ### Sums -/

/-- The values `xs` are finite, and they are `qs`. -/
abbrev Values (xs : List (Ieee F)) (qs : List ℚ) : Prop :=
  List.Forall₂ (fun x q => x.toRat? = some q) xs qs

/-- The sum of the magnitudes. -/
def magnitude (qs : List ℚ) : ℚ := (qs.map abs).sum

theorem magnitude_nonneg (qs : List ℚ) : 0 ≤ magnitude qs := by
  refine List.sum_nonneg ?_
  intro r hr
  obtain ⟨q, -, rfl⟩ := List.mem_map.mp hr
  exact abs_nonneg q

/-- What is summed up to a finite value is finite. -/
theorem exists_values_of_foldl_add {acc : Ieee F}
    (h : (xs.foldl (· + ·) acc).toRat? = some z) :
    ∃ a qs, acc.toRat? = some a ∧ Values xs qs := by
  induction xs generalizing acc with
  | nil => exact ⟨z, [], h, .nil⟩
  | cons x xs ih =>
    rw [List.foldl_cons] at h
    obtain ⟨s, qs, hs, hqs⟩ := ih h
    obtain ⟨a, q, ha, hq, -⟩ := toRat?_add_eq_some_iff.mp hs
    exact ⟨a, q :: qs, ha, .cons hq hqs⟩

/-- How an addition adds to the error of the sums before it. -/
theorem growth_step {u g s t w : ℚ} (hu : 0 ≤ u) (hg : 1 ≤ g) (ht : 0 ≤ t)
    (hs : s ≤ (1 + u) * w) : (g - 1) * (s + t) + u * w ≤ (g * (1 + u) - 1) * (w + t) := by
  have hfirst : (g - 1) * s ≤ (g - 1) * ((1 + u) * w) :=
    mul_le_mul_of_nonneg_left hs (by linarith)
  have hrest : 0 ≤ g * u * t := mul_nonneg (mul_nonneg (by linarith) hu) ht
  linarith

/-- The rounded sum of two values is not much greater than their magnitudes. -/
theorem abs_round_add_le (ha : F.IsFinite a) (hq : F.IsFinite q) :
    |F.round (a + q)| ≤ (1 + F.unit) * (|a| + |q|) := by
  have herror := F.abs_round_add_sub_le ha hq
  have htri : |F.round (a + q)| ≤ |F.round (a + q) - (a + q)| + |a + q| := by
    have habs := abs_add_le (F.round (a + q) - (a + q)) (a + q)
    rwa [sub_add_cancel] at habs
  calc |F.round (a + q)| ≤ (1 + F.unit) * |a + q| := by linarith
    _ ≤ (1 + F.unit) * (|a| + |q|) :=
      mul_le_mul_of_nonneg_left (abs_add_le a q) (by linarith [F.unit_pos])

theorem one_le_growth (F : Format) (k : Nat) : 1 ≤ (1 + F.unit) ^ k :=
  one_le_pow₀ (by linarith [F.unit_pos])

/-- The error of a sum, by how many values are added. -/
theorem foldl_add_error {acc : Ieee F} (hacc : acc.toRat? = some a) (hxs : Values xs qs)
    (hz : (xs.foldl (· + ·) acc).toRat? = some z) :
    |z - (a + qs.sum)| ≤ ((1 + F.unit) ^ qs.length - 1) * (|a| + magnitude qs) := by
  induction hxs generalizing acc a with
  | nil =>
    obtain rfl : a = z := Option.some.inj (hacc.symm.trans hz)
    rw [List.sum_nil, add_zero, sub_self, abs_zero, List.length_nil, pow_zero, sub_self, zero_mul]
  | @cons x q xs qs hx hxs ih =>
    rw [List.foldl_cons] at hz
    obtain ⟨s, -, hs, -⟩ := exists_values_of_foldl_add hz
    obtain ⟨a', q', ha', hq', hround, -⟩ := toRat?_add_eq_some_iff.mp hs
    obtain rfl : a = a' := Option.some.inj (hacc.symm.trans ha')
    obtain rfl : q = q' := Option.some.inj (hx.symm.trans hq')
    have ha := isFinite_of_toRat? hacc
    have hq := isFinite_of_toRat? hx
    -- The addition of `q` is off by one rounding, and the others start from its result.
    have hadd : |s - (a + q)| ≤ F.unit * (|a| + |q|) := by
      rw [← hround]
      exact le_trans (F.abs_round_add_sub_le ha hq)
        (mul_le_mul_of_nonneg_left (abs_add_le a q) F.unit_pos.le)
    have hs' : |s| ≤ (1 + F.unit) * (|a| + |q|) := by
      rw [← hround]
      exact abs_round_add_le ha hq
    have hstep := growth_step F.unit_pos.le (one_le_growth F qs.length) (magnitude_nonneg qs) hs'
    have hmag : magnitude (q :: qs) = |q| + magnitude qs := List.sum_cons
    have hsplit : z - (a + (q :: qs).sum) = (z - (s + qs.sum)) + (s - (a + q)) := by
      rw [List.sum_cons]
      ring
    rw [hsplit, hmag, List.length_cons, pow_succ, ← add_assoc]
    calc |(z - (s + qs.sum)) + (s - (a + q))|
        ≤ |z - (s + qs.sum)| + |s - (a + q)| := abs_add_le _ _
      _ ≤ ((1 + F.unit) ^ qs.length - 1) * (|s| + magnitude qs) + F.unit * (|a| + |q|) :=
        add_le_add (ih hs hz) hadd
      _ ≤ _ := hstep

/-- A sum whose magnitudes stay away from the upper end does not overflow. -/
theorem exists_foldl_add {acc : Ieee F} (hacc : acc.toRat? = some a) (hxs : Values xs qs)
    (hlt : (1 + F.unit) ^ qs.length * (|a| + magnitude qs) < 2 ^ F.emax) :
    ∃ z, (xs.foldl (· + ·) acc).toRat? = some z := by
  induction hxs generalizing acc a with
  | nil => exact ⟨a, hacc⟩
  | @cons x q xs qs hx hxs ih =>
    have hmag : magnitude (q :: qs) = |q| + magnitude qs := List.sum_cons
    rw [hmag, List.length_cons, pow_succ, ← add_assoc] at hlt
    have hround := abs_round_add_le (isFinite_of_toRat? hacc) (isFinite_of_toRat? hx)
    have hgrowth := one_le_growth F qs.length
    have hunit := F.unit_pos
    have hrest := magnitude_nonneg qs
    -- The first partial sum is in range, and the rest keeps its room.
    have hroom : (1 + F.unit) ^ qs.length * (|F.round (a + q)| + magnitude qs) < 2 ^ F.emax := by
      refine lt_of_le_of_lt ?_ hlt
      rw [mul_assoc]
      refine mul_le_mul_of_nonneg_left ?_ (by linarith)
      have hscale : 0 ≤ F.unit * magnitude qs := mul_nonneg hunit.le hrest
      linarith
    have hfirst : |F.round (a + q)| < 2 ^ F.emax := by
      refine lt_of_le_of_lt ?_ hroom
      have habs := abs_nonneg (F.round (a + q))
      calc |F.round (a + q)| ≤ |F.round (a + q)| + magnitude qs := by linarith
        _ ≤ (1 + F.unit) ^ qs.length * (|F.round (a + q)| + magnitude qs) :=
          le_mul_of_one_le_left (by linarith) hgrowth
    have hsum := toRat?_add_eq_some_iff.mpr ⟨a, q, hacc, hx, rfl, hfirst⟩
    exact ih hsum hroom

/-- The error of a sum from zero: the first addition is exact. -/
theorem sum_error (hxs : Values xs qs) (hz : (xs.foldl (· + ·) (zero F)).toRat? = some z) :
    |z - qs.sum| ≤ ((1 + F.unit) ^ (qs.length - 1) - 1) * magnitude qs := by
  cases hxs with
  | nil =>
    obtain rfl : 0 = z := Option.some.inj ((toRat?_zero F).symm.trans hz)
    simp [magnitude]
  | @cons x q xs qs hx hxs =>
    rw [List.foldl_cons, zero_add_eq] at hz
    have herror := foldl_add_error hx hxs hz
    have hmag : magnitude (q :: qs) = |q| + magnitude qs := List.sum_cons
    rwa [hmag, List.sum_cons, List.length_cons, Nat.add_sub_cancel]

/-- A sum from zero that does not overflow. -/
theorem exists_sum (hxs : Values xs qs)
    (hlt : (1 + F.unit) ^ (qs.length - 1) * magnitude qs < 2 ^ F.emax) :
    ∃ z, (xs.foldl (· + ·) (zero F)).toRat? = some z := by
  cases hxs with
  | nil => exact ⟨0, toRat?_zero F⟩
  | @cons x q xs qs hx hxs =>
    have hmag : magnitude (q :: qs) = |q| + magnitude qs := List.sum_cons
    rw [hmag, List.length_cons, Nat.add_sub_cancel] at hlt
    rw [List.foldl_cons, zero_add_eq]
    exact exists_foldl_add hx hxs hlt

/-! ### Means -/

/-- The sum is at most the sum of the magnitudes. -/
theorem abs_sum_le_magnitude (qs : List ℚ) : |qs.sum| ≤ magnitude qs := by
  induction qs with
  | nil => simp [magnitude]
  | cons q qs ih =>
    have hmag : magnitude (q :: qs) = |q| + magnitude qs := List.sum_cons
    rw [hmag, List.sum_cons]
    exact le_trans (abs_add_le q qs.sum) (by linarith)

/-- A count of one or more, rounded. -/
theorem abs_round_count_sub_le (hnorm : F.emin + F.precision ≤ 1) {n : Nat} (hn : 0 < n) :
    |F.round n - n| ≤ F.unit * n := by
  have hone : (1 : ℚ) ≤ n := by exact_mod_cast hn
  have hnormal : (2 : ℚ) ^ (F.emin + F.precision - 1) ≤ |(n : ℚ)| := by
    rw [Nat.abs_cast]
    refine le_trans ?_ hone
    rw [← zpow_zero (2 : ℚ)]
    exact zpow_le_zpow_right₀ one_le_two (by omega)
  have herror := abs_roundFloat_sub_le hnormal
  rwa [Nat.abs_cast, div_eq_mul_one_div, mul_comm] at herror

/-- One rounding down is made up for by two up. -/
theorem one_le_sq_mul {u : ℚ} (hu : 0 ≤ u) (hhalf : u ≤ 1 / 2) : 1 ≤ (1 + u) ^ 2 * (1 - u) := by
  have hsq : u ^ 2 ≤ 1 / 2 * u := by
    rw [sq]
    exact mul_le_mul_of_nonneg_right hhalf hu
  have hrest : 0 ≤ u * (1 - u - u ^ 2) := mul_nonneg hu (by linarith)
  linarith

/-- Dividing by a count that is a little too small. -/
theorem inv_le_of_near {u n m : ℚ} (hu : 0 ≤ u) (hhalf : u ≤ 1 / 2) (hn : 0 < n)
    (hm : |m - n| ≤ u * n) : 0 < m ∧ 1 / m ≤ (1 + u) ^ 2 / n := by
  have hlow : (1 - u) * n ≤ m := by linarith [(abs_le.mp hm).1]
  have hpos : 0 < m := lt_of_lt_of_le (mul_pos (by linarith) hn) hlow
  refine ⟨hpos, ?_⟩
  rw [div_le_div_iff₀ hpos hn, one_mul]
  calc n ≤ (1 + u) ^ 2 * (1 - u) * n := le_mul_of_one_le_left hn.le (one_le_sq_mul hu hhalf)
    _ = (1 + u) ^ 2 * ((1 - u) * n) := mul_assoc _ _ _
    _ ≤ (1 + u) ^ 2 * m := mul_le_mul_of_nonneg_left hlow (sq_nonneg _)

/-- The error of a quotient whose dividend and divisor are both off. -/
theorem quotient_error {u g t n m s r : ℚ} (hu : 0 ≤ u) (hhalf : u ≤ 1 / 2) (hg : 1 ≤ g)
    (hn : 0 < n) (hs : |s - r| ≤ (g - 1) * t) (hr : |r| ≤ t) (hm : |m - n| ≤ u * n) :
    |s / m| ≤ g * (1 + u) ^ 2 * (t / n) ∧
      |s / m - r / n| ≤ (g - 1 + u) * (1 + u) ^ 2 * (t / n) := by
  have ht : 0 ≤ t := le_trans (abs_nonneg r) hr
  obtain ⟨hpos, hinv⟩ := inv_le_of_near hu hhalf hn hm
  have hover : ∀ c : ℚ, 0 ≤ c → c * t / m ≤ c * (1 + u) ^ 2 * (t / n) := by
    intro c hc
    calc c * t / m = c * t * (1 / m) := div_eq_mul_one_div _ _
      _ ≤ c * t * ((1 + u) ^ 2 / n) := mul_le_mul_of_nonneg_left hinv (mul_nonneg hc ht)
      _ = c * (1 + u) ^ 2 * (t / n) := by ring
  constructor
  · have habs : |s| ≤ g * t := by
      have htri := abs_add_le (s - r) r
      rw [sub_add_cancel] at htri
      linarith
    rw [abs_div, abs_of_pos hpos]
    exact le_trans (div_le_div_of_nonneg_right habs hpos.le) (hover g (by linarith))
  · have hsplit : s / m - r / n = ((s - r) + r / n * (n - m)) / m := by
      field_simp
      ring
    have hcount : |r / n * (n - m)| ≤ u * t := by
      rw [abs_mul, abs_div, abs_of_pos hn, abs_sub_comm n m]
      calc |r| / n * |m - n| ≤ t / n * (u * n) :=
            mul_le_mul (div_le_div_of_nonneg_right hr hn.le) hm (abs_nonneg _)
              (div_nonneg ht hn.le)
        _ = u * t := by field_simp
    rw [hsplit, abs_div, abs_of_pos hpos]
    refine le_trans (div_le_div_of_nonneg_right ?_ hpos.le) (hover (g - 1 + u) (by linarith))
    exact le_trans (abs_add_le _ _) (by linarith)

/-- A mean: the sum from zero, over the count. -/
def mean (xs : List (Ieee F)) : Ieee F :=
  xs.foldl (· + ·) (zero F) / ofRat F xs.length

/-- The error of a mean of `n` values: `n - 1` additions, the count, and the quotient. -/
theorem mean_error (hnorm : F.emin + F.precision ≤ 1) {n : ℚ} (hxs : Values xs qs) (hne : qs ≠ [])
    (hn : (ofRat F (qs.length : ℚ)).toRat? = some n) (hz : (mean xs).toRat? = some z) :
    |z - qs.sum / qs.length| ≤
      ((1 + F.unit) ^ (qs.length + 2) - 1) * (magnitude qs / qs.length) + F.halfLeast := by
  have hlen : 0 < qs.length := List.length_pos_iff.mpr hne
  have hlenq : (0 : ℚ) < qs.length := by exact_mod_cast hlen
  have hcount := abs_round_count_sub_le hnorm hlen
  rw [(toRat?_ofRat_eq_some_iff.mp hn).1] at hcount
  have hpos := (inv_le_of_near F.unit_pos.le F.unit_le_half hlenq hcount).1
  unfold mean at hz
  rw [hxs.length_eq] at hz
  obtain ⟨s, hs, hround, -⟩ := (toRat?_div_eq_some_iff hn hpos.ne').mp hz
  have hgrowth := one_le_growth F (qs.length - 1)
  obtain ⟨hsize, hquot⟩ := quotient_error F.unit_pos.le F.unit_le_half hgrowth hlenq
    (sum_error hxs hs) (abs_sum_le_magnitude qs) hcount
  have hdiv : |z - s / n| ≤ F.unit * |s / n| + F.halfLeast := by
    rw [← hround]
    exact F.abs_round_sub_le (s / n)
  have hmean : 0 ≤ magnitude qs / qs.length := div_nonneg (magnitude_nonneg qs) hlenq.le
  have hexp : qs.length + 2 = (qs.length - 1) + 3 := by omega
  rw [hexp, pow_add]
  generalize (1 + F.unit) ^ (qs.length - 1) = g at *
  generalize magnitude qs / qs.length = d at *
  have hunit := F.unit_pos
  have hhalf := F.unit_le_half
  have htri : |z - qs.sum / qs.length| ≤ |z - s / n| + |s / n - qs.sum / qs.length| :=
    abs_sub_le z (s / n) _
  have hscaled : F.unit * |s / n| ≤ F.unit * (g * (1 + F.unit) ^ 2 * d) :=
    mul_le_mul_of_nonneg_left hsize hunit.le
  have hone : d ≤ (1 + F.unit) ^ 2 * (1 - F.unit) * d :=
    le_mul_of_one_le_left hmean (one_le_sq_mul hunit.le hhalf)
  linarith

/-! ### Finite means -/

/-- A value that is not beyond a float does not round beyond it. -/
theorem abs_round_le {x : ℚ} (hx : x ∈ floats F.precision F.emin) (h : |q| ≤ |x|) :
    |F.round q| ≤ |x| := by
  have habs : |x| ∈ floats F.precision F.emin := by
    rcases abs_choice x with heq | heq <;> rw [heq]
    · exact hx
    · exact neg_mem_floats hx
  have hbounds := abs_le.mp h
  rw [abs_le]
  constructor
  · exact F.nearest_round.le_of_mem (neg_mem_floats habs) hbounds.1
  · rw [← F.nearest_round.eq_of_mem habs]
    exact F.nearest_round.monotone hbounds.2

/-- A mean of finite values is finite when their sum does not overflow. -/
theorem exists_mean (hnorm : F.emin + F.precision ≤ 1) {n : ℚ} (hxs : Values xs qs) (hne : qs ≠ [])
    (hn : (ofRat F (qs.length : ℚ)).toRat? = some n)
    (hlt : (1 + F.unit) ^ (qs.length - 1) * magnitude qs < 2 ^ F.emax) :
    ∃ z, (mean xs).toRat? = some z := by
  obtain ⟨s, hs⟩ := exists_sum hxs hlt
  have hprec := F.precision_pos
  have hone : 1 ≤ n := by
    have hmem : ((1 : Nat) : ℚ) ∈ floats F.precision F.emin :=
      natCast_mem_floats (one_lt_pow₀ one_lt_two hprec.ne') (by omega)
    have hlen : ((1 : Nat) : ℚ) ≤ qs.length := by
      exact_mod_cast List.length_pos_iff.mpr hne
    have hle := F.nearest_round.le_of_mem hmem hlen
    rwa [(toRat?_ofRat_eq_some_iff.mp hn).1, Nat.cast_one] at hle
  have hpos : 0 < n := lt_of_lt_of_le one_pos hone
  have hsmall : |s / n| ≤ |s| := by
    rw [abs_div, abs_of_pos hpos]
    exact div_le_self (abs_nonneg s) hone
  have hfinite := isFinite_of_toRat? hs
  refine ⟨F.round (s / n), ?_⟩
  unfold mean
  rw [hxs.length_eq, toRat?_div_eq_some_iff hn hpos.ne']
  exact ⟨s, hs, rfl, lt_of_le_of_lt (abs_round_le hfinite.1 hsmall) hfinite.2⟩

/-- What has a finite mean is finite. -/
theorem exists_values_of_mean {n : ℚ} (hn : (ofRat F (xs.length : ℚ)).toRat? = some n)
    (hne : n ≠ 0) (hz : (mean xs).toRat? = some z) : ∃ qs, Values xs qs := by
  unfold mean at hz
  obtain ⟨s, hs, -⟩ := (toRat?_div_eq_some_iff hn hne).mp hz
  obtain ⟨-, qs, -, hqs⟩ := exists_values_of_foldl_add hs
  exact ⟨qs, hqs⟩

end Ieee

/-! ### `f32` and `f64` -/

/-- The format of `f32`. -/
def Format.binary32 : Format := ⟨24, -149, 128, by decide⟩

/-- The format of `f64`. -/
def Format.binary64 : Format := ⟨53, -1074, 1024, by decide⟩

/-- `x as u64`: truncation towards zero that saturates. NaN goes to zero. -/
def Ieee.asU64 {F : Format} : Ieee F → UInt64
  | .nan => 0
  | .infinity negative => if negative then 0 else .ofNat (2 ^ 64 - 1)
  | .finite x _ => .ofNat (min ⌊x⌋.toNat (2 ^ 64 - 1))

/-- `f32` -/
abbrev Binary32 := Ieee Format.binary32

/-- `f64` -/
abbrev Binary64 := Ieee Format.binary64

end SwarmRuntime.Lib
