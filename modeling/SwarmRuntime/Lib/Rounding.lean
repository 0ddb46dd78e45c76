import Mathlib.Algebra.Order.Field.Power
import Mathlib.Data.Int.Log
import Mathlib.Data.Rat.Floor
import Mathlib.Tactic.Linarith
import Mathlib.Tactic.Ring

/-!
# `SwarmRuntime.Lib.Rounding`: rounding to the nearest

`Nearest F round` says that `round` takes each rational to an element of the grid `F` which no
other element is nearer than. Whatever it does with ties, it keeps the grid (`Nearest.eq_of_mem`)
and the order (`Nearest.monotone`), and a value that is nearer to a smaller element of the grid
than to `y` stays below `y` (`Nearest.lt_of_near`).

`floats p emin` is the grid of binary floating point: `p` bits of precision, and the exponent of
the last bit is at least `emin`. Its elements keep a distance (`sub_le_of_mem_floats`). `roundFloat`
rounds to it, ties to even, and `nearest_roundFloat` says that it rounds to the nearest. Overflow
is left out.
-/

set_option autoImplicit false

namespace SwarmRuntime.Lib

/-! ### Nearest elements of a grid -/

/-- Each value goes to an element of the grid, and none is nearer. -/
def Nearest (F : Set ℚ) (round : ℚ → ℚ) : Prop :=
  ∀ q, round q ∈ F ∧ ∀ x ∈ F, |round q - q| ≤ |x - q|

namespace Nearest

variable {F : Set ℚ} {round : ℚ → ℚ} {p q x y : ℚ}

/-- Elements of the grid stay. -/
theorem eq_of_mem (h : Nearest F round) (hx : x ∈ F) : round x = x := by
  have hle := (h x).2 x hx
  rw [sub_self, abs_zero] at hle
  exact sub_eq_zero.mp (abs_eq_zero.mp (le_antisymm hle (abs_nonneg _)))

/-- Rounding keeps the order. -/
theorem monotone (h : Nearest F round) : Monotone round := by
  intro p q hpq
  by_contra hlt
  rw [not_le] at hlt
  -- Each of the two prefers its own element to the other's.
  have hp := sq_le_sq.mpr ((h p).2 _ (h q).1)
  have hq := sq_le_sq.mpr ((h q).2 _ (h p).1)
  have hsum : 0 ≤ (round p - round q) * (p - q) := by linarith
  have hneg : p - q ≤ 0 := by linarith
  have hzero : p - q = 0 := by
    by_contra hne
    have hstrict : (round p - round q) * (p - q) < 0 :=
      mul_neg_of_pos_of_neg (by linarith) (lt_of_le_of_ne hneg hne)
    linarith
  have heq : p = q := by linarith
  rw [heq] at hlt
  exact lt_irrefl _ hlt

/-- A value is not below the elements that are below it. -/
theorem le_of_mem (h : Nearest F round) (hx : x ∈ F) (hxq : x ≤ q) : x ≤ round q := by
  rw [← h.eq_of_mem hx]
  exact h.monotone hxq

/-- A value stays below what a smaller element of the grid is nearer than. -/
theorem lt_of_near (h : Nearest F round) (hx : x ∈ F) (hxy : x < y) (hnear : q - x < y - q) :
    round q < y := by
  rcases le_total q x with hqx | hxq
  · have hle := h.monotone hqx
    rw [h.eq_of_mem hx] at hle
    exact lt_of_le_of_lt hle hxy
  · have hle := (h q).2 x hx
    rw [abs_of_nonpos (by linarith : x - q ≤ 0)] at hle
    have habs := le_abs_self (round q - q)
    linarith

end Nearest

/-! ### Integers -/

/-- The integer nearest to a rational, and the even one of two. -/
def roundEven (q : ℚ) : ℤ :=
  if q - ⌊q⌋ < 1 / 2 then ⌊q⌋
  else if 1 / 2 < q - ⌊q⌋ then ⌊q⌋ + 1
  else if ⌊q⌋ % 2 = 0 then ⌊q⌋ else ⌊q⌋ + 1

/-- It is the floor or the next integer, whichever is nearer. -/
theorem roundEven_cases (q : ℚ) :
    (roundEven q = ⌊q⌋ ∧ q - ⌊q⌋ ≤ 1 / 2) ∨ (roundEven q = ⌊q⌋ + 1 ∧ 1 / 2 ≤ q - ⌊q⌋) := by
  unfold roundEven
  split
  · rename_i hlt
    exact .inl ⟨rfl, le_of_lt hlt⟩
  · rename_i hge
    rw [not_lt] at hge
    split
    · exact .inr ⟨rfl, hge⟩
    · rename_i hle
      rw [not_lt] at hle
      split
      · exact .inl ⟨rfl, hle⟩
      · exact .inr ⟨rfl, hge⟩

theorem abs_roundEven_sub_le (q : ℚ) (k : ℤ) : |(roundEven q : ℚ) - q| ≤ |(k : ℚ) - q| := by
  have hfloor := Int.floor_le q
  have hceil := Int.lt_floor_add_one q
  have hk : (k : ℚ) ≤ ⌊q⌋ ∨ (⌊q⌋ : ℚ) + 1 ≤ k := by
    rcases le_or_gt k ⌊q⌋ with hle | hgt
    · exact .inl (Int.cast_le.mpr hle)
    · right
      exact_mod_cast hgt
  rcases roundEven_cases q with ⟨heq, hhalf⟩ | ⟨heq, hhalf⟩
  · rw [heq, abs_of_nonpos (by linarith)]
    rcases hk with hk | hk
    · rw [abs_of_nonpos (by linarith)]
      linarith
    · rw [abs_of_nonneg (by linarith)]
      linarith
  · rw [heq, Int.cast_add, Int.cast_one, abs_of_nonneg (by linarith)]
    rcases hk with hk | hk
    · rw [abs_of_nonpos (by linarith)]
      linarith
    · rw [abs_of_nonneg (by linarith)]
      linarith

theorem abs_roundEven_sub_le_half (q : ℚ) : |(roundEven q : ℚ) - q| ≤ 1 / 2 := by
  have hfloor := Int.floor_le q
  have hceil := Int.lt_floor_add_one q
  rcases roundEven_cases q with ⟨heq, hhalf⟩ | ⟨heq, hhalf⟩
  · rw [heq, abs_of_nonpos (by linarith)]
    linarith
  · rw [heq, Int.cast_add, Int.cast_one, abs_of_nonneg (by linarith)]
    linarith

/-! ### Binary floating point -/

/-- The values with `p` bits, the last of them at `2 ^ emin` or above. -/
def floats (p : Nat) (emin : ℤ) : Set ℚ :=
  {x | ∃ m e : ℤ, |m| < 2 ^ p ∧ emin ≤ e ∧ x = m * 2 ^ e}

section
variable {p : Nat} {emin e : ℤ} {x y q : ℚ}

theorem mem_floats {m : ℤ} (hm : |m| < 2 ^ p) (he : emin ≤ e) :
    (m : ℚ) * 2 ^ e ∈ floats p emin := ⟨m, e, hm, he, rfl⟩

/-- The integers of `p` bits are floats. -/
theorem natCast_mem_floats {n : Nat} (hn : n < 2 ^ p) (hemin : emin ≤ 0) :
    (n : ℚ) ∈ floats p emin := by
  have hm : |(n : ℤ)| < 2 ^ p := by
    rw [abs_of_nonneg (Int.natCast_nonneg n)]
    exact_mod_cast hn
  have hmem := mem_floats hm hemin
  rwa [zpow_zero, mul_one, Int.cast_natCast] at hmem

/-- A float that is a multiple of a smaller power of two. -/
theorem exists_int_of_le {m e' : ℤ} (he : e ≤ e') : ∃ k : ℤ, (m : ℚ) * 2 ^ e' = k * 2 ^ e := by
  refine ⟨m * 2 ^ (e' - e).toNat, ?_⟩
  have hexp : e' = (e' - e).toNat + e := by omega
  rw [Int.cast_mul, Int.cast_pow, Int.cast_ofNat, mul_assoc, ← zpow_natCast,
    ← zpow_add₀ two_ne_zero, ← hexp]

/-- The exponent of the last bit that is kept of a value. -/
def lastBit (p : Nat) (emin : ℤ) (q : ℚ) : ℤ := max (Int.log 2 |q| - (p - 1)) emin

/-- The value rounded to the nearest float, ties to even. -/
def roundFloat (p : Nat) (emin : ℤ) (q : ℚ) : ℚ :=
  roundEven (q / 2 ^ lastBit p emin q) * 2 ^ lastBit p emin q

theorem abs_div_lt (q : ℚ) : |q / 2 ^ lastBit p emin q| < 2 ^ p := by
  have hpos : (0 : ℚ) < 2 ^ lastBit p emin q := zpow_pos two_pos _
  have hlog := Int.lt_zpow_succ_log_self (b := 2) one_lt_two |q|
  have hexp : Int.log 2 |q| + 1 ≤ p + lastBit p emin q := by
    unfold lastBit
    omega
  have hpow : (2 : ℚ) ^ (Int.log 2 |q| + 1) ≤ 2 ^ (p + lastBit p emin q) :=
    zpow_le_zpow_right₀ one_le_two hexp
  rw [abs_div, abs_of_pos hpos, div_lt_iff₀ hpos]
  calc |q| < 2 ^ (Int.log 2 |q| + 1) := hlog
    _ ≤ 2 ^ ((p : ℤ) + lastBit p emin q) := hpow
    _ = 2 ^ p * 2 ^ lastBit p emin q := by rw [zpow_add₀ two_ne_zero, zpow_natCast]

/-- A mantissa that rounds up to `2 ^ p` is that of a power of two. -/
theorem mul_mem_floats (hp : 0 < p) {n : ℤ} (hn : |n| ≤ 2 ^ p) (he : emin ≤ e) :
    (n : ℚ) * 2 ^ e ∈ floats p emin := by
  rcases lt_or_eq_of_le hn with hlt | heq
  · exact mem_floats hlt he
  · have hone : (1 : ℤ) < 2 ^ p := one_lt_pow₀ one_lt_two (Nat.pos_iff_ne_zero.mp hp)
    have hne : n ≠ 0 := by
      rintro rfl
      rw [abs_zero] at heq
      omega
    have hsign : |n.sign| < 2 ^ p := by
      rw [Int.abs_sign_of_ne_zero hne]
      exact hone
    have hexp : emin ≤ p + e := by omega
    have hmem := mem_floats hsign hexp
    have hn : (n : ℚ) = n.sign * 2 ^ p := by
      have hcast := congrArg (Int.cast : ℤ → ℚ) (Int.sign_mul_abs n)
      rw [heq] at hcast
      rw [← hcast]
      push_cast
      rfl
    rw [hn, mul_assoc, ← zpow_natCast, ← zpow_add₀ two_ne_zero]
    exact hmem

theorem abs_roundEven_le (h : |q| < 2 ^ p) : |roundEven q| ≤ 2 ^ p := by
  rw [abs_lt] at h
  have hlow : -(2 ^ p : ℤ) ≤ ⌊q⌋ := by
    rw [Int.le_floor]
    push_cast
    exact le_of_lt h.1
  have hhigh : ⌊q⌋ < (2 ^ p : ℤ) := by
    rw [Int.floor_lt]
    push_cast
    exact h.2
  rw [abs_le]
  rcases roundEven_cases q with ⟨heq, -⟩ | ⟨heq, -⟩ <;> rw [heq] <;> omega

theorem roundFloat_mem (hp : 0 < p) (q : ℚ) : roundFloat p emin q ∈ floats p emin :=
  mul_mem_floats hp (abs_roundEven_le (abs_div_lt q)) (le_max_right _ _)

/-- The distance of a value to a multiple of the last bit, in units of this bit. -/
theorem abs_mul_sub (n q : ℚ) (e : ℤ) : |n * 2 ^ e - q| = |n - q / 2 ^ e| * 2 ^ e := by
  have hpos : (0 : ℚ) < 2 ^ e := zpow_pos two_pos e
  rw [← abs_of_pos hpos, ← abs_mul, abs_of_pos hpos, sub_mul, div_mul_cancel₀ q hpos.ne']

/-- Of the multiples of the last bit that is kept, none is nearer. -/
theorem abs_roundFloat_sub_le_mul (q : ℚ) (k : ℤ) :
    |roundFloat p emin q - q| ≤ |k * 2 ^ lastBit p emin q - q| := by
  rw [roundFloat, abs_mul_sub, abs_mul_sub]
  exact mul_le_mul_of_nonneg_right (abs_roundEven_sub_le _ _) (zpow_pos two_pos _).le

/-- A value is nearer to one of two opposite numbers than to what is between them. -/
theorem abs_sub_le_or {b : ℚ} (hx : |x| ≤ b) (hb : b ≤ |q|) :
    |b - q| ≤ |x - q| ∨ |-b - q| ≤ |x - q| := by
  obtain ⟨hlow, hhigh⟩ := abs_le.mp hx
  rcases le_total 0 q with hq | hq
  · left
    rw [abs_of_nonneg hq] at hb
    rw [abs_of_nonpos (by linarith), abs_of_nonpos (by linarith)]
    linarith
  · right
    rw [abs_of_nonpos hq] at hb
    rw [abs_of_nonneg (by linarith), abs_of_nonneg (by linarith)]
    linarith

/-- `roundFloat` rounds to the nearest float. -/
theorem nearest_roundFloat (hp : 0 < p) : Nearest (floats p emin) (roundFloat p emin) := by
  intro q
  refine ⟨roundFloat_mem hp q, ?_⟩
  rintro x ⟨m, e, hm, he, rfl⟩
  rcases le_or_gt (lastBit p emin q) e with hle | hlt
  · obtain ⟨k, hk⟩ := exists_int_of_le (m := m) hle
    rw [hk]
    exact abs_roundFloat_sub_le_mul q k
  · -- A float with a finer last bit is below the power of two that `q` is not below.
    have hbit : lastBit p emin q = Int.log 2 |q| - (p - 1) := by
      unfold lastBit at hlt ⊢
      omega
    by_cases hq : q = 0
    · subst hq
      have hzero : roundFloat p emin 0 = 0 := by
        rw [roundFloat, zero_div]
        have heven : roundEven 0 = 0 := by norm_num [roundEven]
        rw [heven, Int.cast_zero, zero_mul]
      rw [hzero, sub_zero, abs_zero]
      exact abs_nonneg _
    · have hlog : (2 : ℚ) ^ Int.log 2 |q| ≤ |q| :=
        Int.zpow_log_le_self one_lt_two (abs_pos.mpr hq)
      have hx : |(m : ℚ) * 2 ^ e| ≤ 2 ^ Int.log 2 |q| := by
        have hm' : |(m : ℚ)| ≤ 2 ^ p := by
          rw [← Int.cast_abs]
          exact_mod_cast le_of_lt hm
        have hexp : (p : ℤ) + e ≤ Int.log 2 |q| := by omega
        rw [abs_mul, abs_of_pos (zpow_pos two_pos e : (0 : ℚ) < 2 ^ e)]
        calc |(m : ℚ)| * 2 ^ e ≤ 2 ^ p * 2 ^ e :=
              mul_le_mul_of_nonneg_right hm' (zpow_pos two_pos e).le
          _ = 2 ^ ((p : ℤ) + e) := by rw [zpow_add₀ two_ne_zero, zpow_natCast]
          _ ≤ 2 ^ Int.log 2 |q| := zpow_le_zpow_right₀ one_le_two hexp
      have hpow : (2 : ℚ) ^ (p - 1) * 2 ^ lastBit p emin q = 2 ^ Int.log 2 |q| := by
        have hexp : ((p - 1 : ℕ) : ℤ) + lastBit p emin q = Int.log 2 |q| := by omega
        rw [← zpow_natCast, ← zpow_add₀ two_ne_zero, hexp]
      rcases abs_sub_le_or hx hlog with hnear | hnear
      · refine le_trans (abs_roundFloat_sub_le_mul q (2 ^ (p - 1))) ?_
        rwa [Int.cast_pow, Int.cast_ofNat, hpow]
      · refine le_trans (abs_roundFloat_sub_le_mul q (-2 ^ (p - 1))) ?_
        rwa [Int.cast_neg, Int.cast_pow, Int.cast_ofNat, neg_mul, hpow]

/-- An integer with a smaller one below it, of which one has few bits. -/
theorem mul_le_pred_mul {n m b : ℤ} (hlt : n < m) (hbits : m ≤ b ∨ n < b) (hb : 0 < b) :
    b * n ≤ (b - 1) * m := by
  rcases le_or_gt m b with hle | hgt
  · have hn : b * n ≤ b * (m - 1) := mul_le_mul_of_nonneg_left (by omega) hb.le
    linarith
  · have hn : b * n ≤ b * (b - 1) := mul_le_mul_of_nonneg_left (by omega) hb.le
    have hm : (b - 1) * b ≤ (b - 1) * m := mul_le_mul_of_nonneg_left hgt.le (by omega)
    linarith

/-- Floats keep a distance from the float above them. -/
theorem sub_le_of_mem_floats (hx : x ∈ floats p emin) (hy : y ∈ floats p emin) (hlt : x < y) :
    y / 2 ^ p ≤ y - x := by
  obtain ⟨n, a, hn, -, rfl⟩ := hx
  obtain ⟨m, b, hm, -, rfl⟩ := hy
  have hpow : (0 : ℤ) < 2 ^ p := pow_pos two_pos p
  -- Both are multiples of the smaller power of two.
  have hcommon : ∃ k l c : ℤ, (n : ℚ) * 2 ^ a = k * 2 ^ c ∧ (m : ℚ) * 2 ^ b = l * 2 ^ c ∧
      (l ≤ 2 ^ p ∨ k < 2 ^ p) := by
    rcases le_total a b with hab | hab
    · obtain ⟨l, hl⟩ := exists_int_of_le (m := m) hab
      exact ⟨n, l, a, rfl, hl, .inr (abs_lt.mp hn).2⟩
    · obtain ⟨k, hk⟩ := exists_int_of_le (m := n) hab
      exact ⟨k, m, b, hk, rfl, .inl (abs_lt.mp hm).2.le⟩
  obtain ⟨k, l, c, hk, hl, hbits⟩ := hcommon
  rw [hk, hl] at hlt
  rw [hk, hl]
  have hc : (0 : ℚ) < 2 ^ c := zpow_pos two_pos c
  have hkl : k < l := Int.cast_lt.mp (lt_of_mul_lt_mul_right hlt hc.le)
  have hint : (2 ^ p : ℚ) * k ≤ (2 ^ p - 1) * l := by
    exact_mod_cast mul_le_pred_mul hkl hbits hpow
  rw [div_le_iff₀ (pow_pos two_pos p), mul_comm]
  have hscaled := mul_le_mul_of_nonneg_right hint hc.le
  linarith

/-- Where no bits are lost at the lower end, the error is relative to the value. -/
theorem abs_roundFloat_sub_le (h : (2 : ℚ) ^ (emin + p - 1) ≤ |q|) :
    |roundFloat p emin q - q| ≤ |q| / 2 ^ p := by
  have hq : 0 < |q| := lt_of_lt_of_le (zpow_pos two_pos _) h
  have hlog : emin + p - 1 ≤ Int.log 2 |q| := (Int.zpow_le_iff_le_log one_lt_two hq).mp h
  have hbit : lastBit p emin q + p = Int.log 2 |q| + 1 := by
    unfold lastBit
    omega
  have herror : |roundFloat p emin q - q| ≤ 1 / 2 * 2 ^ lastBit p emin q := by
    rw [roundFloat, abs_mul_sub]
    exact mul_le_mul_of_nonneg_right (abs_roundEven_sub_le_half _) (zpow_pos two_pos _).le
  refine le_trans herror ?_
  rw [le_div_iff₀ (pow_pos two_pos p), mul_assoc, ← zpow_natCast, ← zpow_add₀ two_ne_zero, hbit,
    zpow_add_one₀ two_ne_zero]
  have hle := Int.zpow_log_le_self (b := 2) one_lt_two hq
  rw [Nat.cast_ofNat] at hle
  linarith

end

/-! ### `f32` -/

/-- The grid of `f32`: 24 bits, the last of them at `2 ^ -149` or above. -/
abbrev binary32Floats : Set ℚ := floats 24 (-149)

/-- Rounding to `f32`. -/
def binary32 : ℚ → ℚ := roundFloat 24 (-149)

theorem nearest_binary32 : Nearest binary32Floats binary32 := nearest_roundFloat (by decide)

/-- Integers of 24 bits are exact. -/
theorem binary32_natCast {n : Nat} (hn : n < 2 ^ 24) : binary32 n = n :=
  nearest_binary32.eq_of_mem (natCast_mem_floats hn (by decide))

/-- Above `2 ^ -126` the relative error is at most `2 ^ -24`. -/
theorem abs_binary32_sub_le {q : ℚ} (h : (2 : ℚ) ^ (-126 : ℤ) ≤ |q|) :
    |binary32 q - q| ≤ |q| / 2 ^ 24 := abs_roundFloat_sub_le h

end SwarmRuntime.Lib
