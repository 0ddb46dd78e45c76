import Mathlib.Data.List.Basic

/-!
# `SwarmRuntime.Lib.Hex`: lower-case hexadecimal

A byte is two digits, the high half first, so the text of a byte string is twice as long and
is read back byte by byte.
-/

set_option autoImplicit false

namespace SwarmRuntime.Lib

/-- The digit of a number below sixteen. -/
def hexDigit (n : Nat) : Char := Char.ofNat (if n < 10 then 48 + n else 87 + n)

/-- The two digits of a byte. -/
def hexByte (b : UInt8) : List Char := [hexDigit (b.toNat / 16), hexDigit (b.toNat % 16)]

/-- The digits of a byte string, two for each byte. -/
def hexEncode (bs : List UInt8) : String := String.ofList (bs.flatMap hexByte)

/-- Sixteen digits, no two the same. -/
theorem hexDigit_inj {m n : Nat} (hm : m < 16) (hn : n < 16) (h : hexDigit m = hexDigit n) :
    m = n := by
  have hall : ∀ i < 16, ∀ j < 16, hexDigit i = hexDigit j → i = j := by decide
  exact hall m hm n hn h

theorem hexByte_inj {b c : UInt8} (h : hexByte b = hexByte c) : b = c := by
  have hb := b.toNat_lt
  have hc := c.toNat_lt
  have hdigits := List.cons.inj h
  have hhigh := hexDigit_inj (by omega) (by omega) hdigits.1
  have hlow := hexDigit_inj (by omega) (by omega) (List.cons.inj hdigits.2).1
  have hnat : b.toNat = c.toNat := by omega
  exact UInt8.toNat_inj.mp hnat

theorem length_toList_hexEncode (bs : List UInt8) :
    (hexEncode bs).toList.length = 2 * bs.length := by
  show (String.ofList (bs.flatMap hexByte)).toList.length = 2 * bs.length
  rw [String.toList_ofList]
  induction bs with
  | nil => rfl
  | cons b bs ih =>
    rw [List.flatMap_cons, List.length_append, ih]
    show 2 + 2 * bs.length = 2 * (bs.length + 1)
    omega

/-- Byte strings with the same digits are equal. -/
theorem hexEncode_inj {bs cs : List UInt8} (h : hexEncode bs = hexEncode cs) : bs = cs := by
  have hchars : bs.flatMap hexByte = cs.flatMap hexByte := by
    simpa [hexEncode] using congrArg String.toList h
  clear h
  induction bs generalizing cs with
  | nil =>
    cases cs with
    | nil => rfl
    | cons c cs => exact absurd hchars (by simp [hexByte])
  | cons b bs ih =>
    cases cs with
    | nil => exact absurd hchars (by simp [hexByte])
    | cons c cs =>
      rw [List.flatMap_cons, List.flatMap_cons] at hchars
      -- Each byte takes two digits, so the first bytes end at one place.
      have hparts := List.append_inj hchars rfl
      rw [hexByte_inj hparts.1, ih hparts.2]

end SwarmRuntime.Lib
