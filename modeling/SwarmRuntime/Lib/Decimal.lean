import Mathlib.Data.List.Basic
import Mathlib.Data.Nat.Digits.Defs
import Mathlib.Tactic.IntervalCases

/-!
# `SwarmRuntime.Lib.Decimal`: zero-padded decimals sort as numbers

`zeroPadded w n` is the decimal of `n`, padded with zeros to `w` characters: Rust's
`{n:0w}`. Below `10 ^ w` the byte-wise order of these strings is the order of the numbers
(`utf8Bytes_zeroPadded_lt`).

The proof goes through `fixedDigits`, the list of the `w` decimal digits of `n`, most
significant first. Its recursion drops the last digit, as division by ten does.
-/

set_option autoImplicit false

namespace SwarmRuntime.Lib

/-- The `w` lowest decimal digits of `n`, most significant first. -/
def fixedDigits : Nat → Nat → List Nat
  | 0, _ => []
  | w + 1, n => fixedDigits w (n / 10) ++ [n % 10]

/-- The decimal of `n`, padded with zeros on the left to `w` characters. -/
def zeroPadded (w n : Nat) : String := String.ofList ((Nat.toDigits 10 n).leftpad w '0')

/-- The bytes of a string, in UTF-8. -/
def utf8Bytes (s : String) : List UInt8 := s.toByteArray.data.toList

@[simp] theorem utf8Bytes_append (s t : String) :
    utf8Bytes (s ++ t) = utf8Bytes s ++ utf8Bytes t := by
  simp [utf8Bytes]

/-! ### Lists that end in one element -/

section
variable {α : Type} [LT α]

/-- Behind a common prefix, lists compare as their ends do. -/
theorem append_lt_append_left_iff (hirr : ∀ a : α, ¬ a < a) (p : List α) {xs ys : List α} :
    p ++ xs < p ++ ys ↔ xs < ys := by
  induction p with
  | nil => rfl
  | cons a p ih =>
    rw [List.cons_append, List.cons_append, List.cons_lt_cons_iff]
    simp [hirr a, ih]

/-- Lists of one length compare by their front, and then by their last element. -/
theorem snoc_lt_snoc_iff {a b : α} :
    ∀ {xs ys : List α}, xs.length = ys.length →
      (xs ++ [a] < ys ++ [b] ↔ xs < ys ∨ xs = ys ∧ a < b)
  | [], [], _ => by simp [List.cons_lt_cons_iff]
  | x :: xs, y :: ys, h => by
      have ih := snoc_lt_snoc_iff (a := a) (b := b) (Nat.succ.inj h)
      simp only [List.cons_append, List.cons_lt_cons_iff, ih, List.cons.injEq]
      tauto

end

/-! ### The digits -/

@[simp] theorem length_fixedDigits (w n : Nat) : (fixedDigits w n).length = w := by
  induction w generalizing n with
  | zero => rfl
  | succ w ih => simp [fixedDigits, ih]

theorem lt_ten_of_mem_fixedDigits {w n d : Nat} (h : d ∈ fixedDigits w n) : d < 10 := by
  induction w generalizing n with
  | zero => simp [fixedDigits] at h
  | succ w ih =>
    rcases List.mem_append.mp h with h | h
    · exact ih h
    · rw [List.mem_singleton.mp h]; omega

/-- The digits of zero. -/
theorem fixedDigits_zero (w : Nat) : fixedDigits w 0 = List.replicate w 0 := by
  induction w with
  | zero => rfl
  | succ w ih => rw [fixedDigits, Nat.zero_div, ih, List.replicate_succ']

/-- Numbers below `10 ^ w` are known by their `w` digits. -/
theorem fixedDigits_inj {w m n : Nat} (hm : m < 10 ^ w) (hn : n < 10 ^ w)
    (h : fixedDigits w m = fixedDigits w n) : m = n := by
  induction w generalizing m n with
  | zero => simp at hm hn; omega
  | succ w ih =>
    rw [Nat.pow_succ] at hm hn
    obtain ⟨hq, hr⟩ := List.append_inj' h rfl
    have hdiv : m / 10 = n / 10 := ih (by omega) (by omega) hq
    simp only [List.cons.injEq, and_true] at hr
    omega

/-- The digits of numbers below `10 ^ w` compare as the numbers. Dividing by ten drops the
last digit on both sides. -/
theorem fixedDigits_lt {w m n : Nat} (hm : m < 10 ^ w) (hn : n < 10 ^ w) :
    fixedDigits w m < fixedDigits w n ↔ m < n := by
  induction w generalizing m n with
  | zero => simp at hm hn; simp [fixedDigits, hm, hn]
  | succ w ih =>
    rw [Nat.pow_succ] at hm hn
    have hm' : m / 10 < 10 ^ w := by omega
    have hn' : n / 10 < 10 ^ w := by omega
    -- Both lists end in the last digit, and `ih` compares what stands before it.
    rw [fixedDigits, fixedDigits, snoc_lt_snoc_iff (by simp), ih hm' hn']
    constructor
    · rintro (h | ⟨h, hr⟩)
      · omega
      -- With one front the numbers differ by their last digit.
      · have := fixedDigits_inj hm' hn' h
        omega
    · intro h
      by_cases hq : m / 10 = n / 10
      · exact .inr ⟨by rw [hq], by omega⟩
      · exact .inl (by omega)

/-- The padded decimal has the digits of `fixedDigits`. The induction is on the width; a
number of one digit is the base of `Nat.toDigits`. -/
theorem leftpad_toDigits {w n : Nat} (hw : 0 < w) (hn : n < 10 ^ w) :
    (Nat.toDigits 10 n).leftpad w '0' = (fixedDigits w n).map Nat.digitChar := by
  obtain ⟨w, rfl⟩ := Nat.exists_eq_add_of_lt hw
  simp only [Nat.zero_add] at hn ⊢
  induction w generalizing n with
  | zero =>
    have hlt : n < 10 := by simpa using hn
    rw [Nat.toDigits_of_lt_base hlt]
    simp [fixedDigits, List.leftpad, Nat.mod_eq_of_lt hlt]
  | succ w ih =>
    by_cases hlt : n < 10
    -- A single digit, with nothing but zeros in front of it.
    · rw [Nat.toDigits_of_lt_base hlt, fixedDigits, Nat.div_eq_of_lt hlt, fixedDigits_zero,
        Nat.mod_eq_of_lt hlt]
      simp [List.leftpad]
    -- One more digit on the right, and one place less to fill on the left.
    · have hq : n / 10 < 10 ^ (w + 1) := by rw [Nat.pow_succ] at hn; omega
      rw [Nat.toDigits_of_base_le (by omega) (by omega), fixedDigits, List.map_append,
        ← ih (by omega) hq]
      simp [List.leftpad]

/-! ### The strings -/

/-- A padded decimal is as long as its width. -/
theorem length_toList_zeroPadded {w n : Nat} (hw : 0 < w) (hn : n < 10 ^ w) :
    (zeroPadded w n).toList.length = w := by
  rw [zeroPadded, String.toList_ofList, leftpad_toDigits hw hn, List.length_map,
    length_fixedDigits]

/-- The byte of a decimal digit. -/
theorem utf8EncodeChar_digitChar {d : Nat} (h : d < 10) :
    String.utf8EncodeChar (Nat.digitChar d) = [UInt8.ofNat (48 + d)] := by
  interval_cases d <;> decide

theorem utf8Bytes_zeroPadded {w n : Nat} (hw : 0 < w) (hn : n < 10 ^ w) :
    utf8Bytes (zeroPadded w n) = (fixedDigits w n).map fun d => UInt8.ofNat (48 + d) := by
  rw [zeroPadded, leftpad_toDigits hw hn, utf8Bytes, String.toByteArray_ofList]
  simp only [List.utf8Encode]
  -- The bytes, digit by digit.
  have key : ∀ ds : List Nat, (∀ d ∈ ds, d < 10) →
      (ds.map Nat.digitChar).flatMap String.utf8EncodeChar
        = ds.map fun d => UInt8.ofNat (48 + d) := by
    intro ds hds
    induction ds with
    | nil => rfl
    | cons d ds ih =>
      rw [List.map_cons, List.flatMap_cons, utf8EncodeChar_digitChar (hds d (by simp)),
        ih fun x hx => hds x (by simp [hx])]
      rfl
  rw [key _ fun d hd => lt_ten_of_mem_fixedDigits hd]
  simp

/-- Padded decimals sort as numbers. -/
theorem utf8Bytes_zeroPadded_lt {w m n : Nat} (hw : 0 < w) (hm : m < 10 ^ w)
    (hn : n < 10 ^ w) :
    utf8Bytes (zeroPadded w m) < utf8Bytes (zeroPadded w n) ↔ m < n := by
  rw [utf8Bytes_zeroPadded hw hm, utf8Bytes_zeroPadded hw hn, ← fixedDigits_lt hm hn]
  -- The byte of a digit is `48` more than the digit, so the lists of bytes compare as the digits.
  have key : ∀ xs ys : List Nat, (∀ d ∈ xs, d < 10) → (∀ d ∈ ys, d < 10) →
      ((xs.map fun d => UInt8.ofNat (48 + d)) < ys.map (fun d => UInt8.ofNat (48 + d))
        ↔ xs < ys) := by
    intro xs
    induction xs with
    | nil => intro ys _ _; cases ys <;> simp
    | cons x xs ih =>
      intro ys hx hy
      cases ys with
      | nil => simp
      | cons y ys =>
        have hx' : x < 10 := hx x (by simp)
        have hy' : y < 10 := hy y (by simp)
        have hbyte : ∀ d, d < 10 → (UInt8.ofNat (48 + d)).toNat = 48 + d := by
          intro d hd
          simp only [UInt8.toNat_ofNat']
          omega
        simp only [List.map_cons, List.cons_lt_cons_iff,
          ih ys (fun d hd => hx d (by simp [hd])) (fun d hd => hy d (by simp [hd]))]
        rw [UInt8.lt_iff_toNat_lt, ← UInt8.toNat_inj, hbyte x hx', hbyte y hy']
        simp only [Nat.add_lt_add_iff_left, Nat.add_left_cancel_iff]
  exact key _ _ (fun d hd => lt_ten_of_mem_fixedDigits hd) fun d hd => lt_ten_of_mem_fixedDigits hd

/-- Padded decimals are distinct for distinct numbers. -/
theorem zeroPadded_inj {w m n : Nat} (hw : 0 < w) (hm : m < 10 ^ w) (hn : n < 10 ^ w) :
    zeroPadded w m = zeroPadded w n ↔ m = n := by
  constructor
  · intro h
    by_contra hne
    rcases Nat.lt_or_gt_of_ne hne with hlt | hlt
    · exact absurd ((utf8Bytes_zeroPadded_lt hw hm hn).mpr hlt) (by rw [h]; exact List.lt_irrefl _)
    · exact absurd ((utf8Bytes_zeroPadded_lt hw hn hm).mpr hlt) (by rw [h]; exact List.lt_irrefl _)
  · rintro rfl; rfl

end SwarmRuntime.Lib
