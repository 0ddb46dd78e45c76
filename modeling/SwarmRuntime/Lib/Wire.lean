import Mathlib.Algebra.Group.Nat.Defs
import Mathlib.Data.List.Basic

/-!
# `SwarmRuntime.Lib.Wire`: the proto3 wire format

A message on the wire is a sequence of fields. A field is a varint key, which holds the field
number and the wire type, and a payload that tells its own length. Groups, which proto3 does not
have, are not read.

The main results are:

- `readVarint_varint`, `readLe_leBytes`: the two ways to write a number are read back, whatever
  bytes follow.
- `readField_encode`: so is a field with a number of the format.
- `decodeFields_encodeFields`: so is a sequence of them.
- `encodeFields_inj`: two sequences of fields do not share their bytes.
-/

set_option autoImplicit false

namespace SwarmRuntime.Lib.Wire

/-! ### Varints -/

/-- `n` in base 128, lowest digit first. The high bit of a byte says that one more follows. -/
def varint (n : Nat) : List UInt8 :=
  if n < 128 then [UInt8.ofNat n] else UInt8.ofNat (n % 128 + 128) :: varint (n / 128)

/-- The varint at the head of `bs`, and what follows it. -/
def readVarint : List UInt8 → Option (Nat × List UInt8)
  | [] => none
  | b :: bs =>
      if b.toNat < 128 then some (b.toNat, bs)
      else (readVarint bs).map fun (n, rest) => (b.toNat - 128 + 128 * n, rest)

/-- A varint has a byte. A field has one too then, and the length of a message bounds the number
of its fields. -/
theorem length_varint_pos (n : Nat) : 0 < (varint n).length := by
  unfold varint
  split <;> simp

/-- A varint has at most one byte for each seven bits, so a 64-bit value takes ten at most. By
induction on the number of bytes. -/
theorem length_varint_le {k n : Nat} (h : n < 128 ^ (k + 1)) : (varint n).length ≤ k + 1 := by
  induction k generalizing n with
  | zero =>
    unfold varint
    rw [if_pos (by simpa using h)]
    simp
  | succ k ih =>
    unfold varint
    split
    · simp
    -- Dividing by 128 takes off one byte and seven bits.
    · have hdiv : n / 128 < 128 ^ (k + 1) := by
        rw [Nat.div_lt_iff_lt_mul (by decide)]
        rwa [Nat.pow_succ] at h
      simp only [List.length_cons]
      have hlen := ih hdiv
      omega

/-- A varint is read back, and what follows it is left over: its own last byte says where it
ends. -/
@[simp] theorem readVarint_varint (n : Nat) (rest : List UInt8) :
    readVarint (varint n ++ rest) = some (n, rest) := by
  -- By strong induction: one byte is one division by 128.
  induction n using Nat.strongRecOn with
  | ind n ih =>
    unfold varint
    by_cases hn : n < 128
    · have hbyte : (UInt8.ofNat n).toNat = n := UInt8.toNat_ofNat_of_lt' (show n < 256 by omega)
      rw [if_pos hn]
      simp [readVarint, hbyte, hn]
    · have hbyte : (UInt8.ofNat (n % 128 + 128)).toNat = n % 128 + 128 :=
        UInt8.toNat_ofNat_of_lt' (show _ < 256 by omega)
      rw [if_neg hn, List.cons_append, readVarint, hbyte, if_neg (by omega), ih _ (by omega)]
      simp only [Option.map_some, Option.some.injEq, Prod.mk.injEq, and_true]
      omega

/-- A 64-bit varint: at most ten bytes, and a value that fits. -/
def readU64 (bs : List UInt8) : Option (UInt64 × List UInt8) :=
  match readVarint bs with
  | none => none
  | some (n, rest) =>
      -- An eleventh byte is refused, and so is a tenth that overflows.
      if n < 2 ^ 64 ∧ bs.length ≤ rest.length + 10 then some (UInt64.ofNat n, rest) else none

/-- The length of a payload. A length that fits 64 bits has at most ten bytes. One that does
not exceeds every buffer, and only a list of this model can be as long. -/
def readLength (bs : List UInt8) : Option (Nat × List UInt8) :=
  match readVarint bs with
  | none => none
  | some (n, rest) =>
      if 2 ^ 64 ≤ n ∨ bs.length ≤ rest.length + 10 then some (n, rest) else none

/-- A varint of a 64-bit value has at most ten bytes. This is the bound on the length that the
two readers below test, on what they have consumed. -/
theorem length_varint_append {n : Nat} (h : n < 2 ^ 64) (rest : List UInt8) :
    (varint n ++ rest).length ≤ rest.length + 10 := by
  have hle : (varint n).length ≤ 9 + 1 :=
    length_varint_le (Nat.lt_trans h (by decide))
  rw [List.length_append]
  omega

/-- A 64-bit value is read back: neither the bound on the bytes nor the one on the value turns
it away. -/
@[simp] theorem readU64_varint (v : UInt64) (rest : List UInt8) :
    readU64 (varint v.toNat ++ rest) = some (v, rest) := by
  unfold readU64
  rw [readVarint_varint]
  simp only
  rw [if_pos ⟨v.toNat_lt, length_varint_append v.toNat_lt rest⟩, UInt64.ofNat_toNat]

/-- A length is read back. One of 64 bits passes as `readU64_varint` says, and a longer one
passes by the other arm. -/
@[simp] theorem readLength_varint (n : Nat) (rest : List UInt8) :
    readLength (varint n ++ rest) = some (n, rest) := by
  unfold readLength
  rw [readVarint_varint]
  simp only
  rw [if_pos]
  by_cases hn : n < 2 ^ 64
  · exact .inr (length_varint_append hn rest)
  · exact .inl (Nat.le_of_not_lt hn)

/-! ### Fixed-width integers -/

/-- The `w` lowest bytes of `n`, lowest first. -/
def leBytes : Nat → Nat → List UInt8
  | 0, _ => []
  | w + 1, n => UInt8.ofNat (n % 256) :: leBytes w (n / 256)

/-- The `w` bytes at the head of `bs` as a number, lowest byte first. -/
def readLe : Nat → List UInt8 → Option (Nat × List UInt8)
  | 0, bs => some (0, bs)
  | _ + 1, [] => none
  | w + 1, b :: bs => (readLe w bs).map fun (n, rest) => (b.toNat + 256 * n, rest)

/-- A number that fits `w` bytes is read back from them. By induction on `w`: the lowest byte is
one division by 256. -/
@[simp] theorem readLe_leBytes {w n : Nat} (h : n < 256 ^ w) (rest : List UInt8) :
    readLe w (leBytes w n ++ rest) = some (n, rest) := by
  induction w generalizing n with
  | zero =>
    have hn : n = 0 := by simpa using h
    subst hn
    rfl
  | succ w ih =>
    have hdiv : n / 256 < 256 ^ w := by
      rw [Nat.div_lt_iff_lt_mul (by decide)]
      rwa [Nat.pow_succ] at h
    have hbyte : (UInt8.ofNat (n % 256)).toNat = n % 256 :=
      UInt8.toNat_ofNat_of_lt' (Nat.mod_lt _ (by decide))
    rw [leBytes, List.cons_append, readLe, ih hdiv, hbyte]
    simp only [Option.map_some, Option.some.injEq, Prod.mk.injEq, and_true]
    omega

/-! ### Fields -/

/-- What a field carries, by wire type. -/
inductive Payload where
  | varint (v : UInt64)
  | i64 (v : UInt64)
  | len (bytes : List UInt8)
  | i32 (v : UInt32)
  deriving DecidableEq, Repr

/-- The number of the wire type. -/
def Payload.wireType : Payload → Nat
  | .varint _ => 0
  | .i64 _ => 1
  | .len _ => 2
  | .i32 _ => 5

/-- The bytes of a payload. -/
def Payload.encode : Payload → List UInt8
  | .varint v => Wire.varint v.toNat
  | .i64 v => leBytes 8 v.toNat
  | .len bytes => Wire.varint bytes.length ++ bytes
  | .i32 v => leBytes 4 v.toNat

/-- A field: its number and what it carries. -/
structure Field where
  number : Nat
  payload : Payload
  deriving DecidableEq, Repr

/-- The field numbers of the format: a key fits 32 bits. -/
def Field.Valid (f : Field) : Prop := 0 < f.number ∧ f.number < 2 ^ 29

/-- The bytes of a field: key and payload. -/
def Field.encode (f : Field) : List UInt8 :=
  varint (8 * f.number + f.payload.wireType) ++ f.payload.encode

/-- The bytes of a sequence of fields. -/
def encodeFields (fs : List Field) : List UInt8 := fs.flatMap Field.encode

/-- The payload of the wire type `w` at the head of `bs`. -/
def readPayload (w : Nat) (bs : List UInt8) : Option (Payload × List UInt8) :=
  match w with
  | 0 => (readU64 bs).map fun (v, rest) => (.varint v, rest)
  | 1 => (readLe 8 bs).map fun (n, rest) => (.i64 (UInt64.ofNat n), rest)
  | 2 =>
      match readLength bs with
      | none => none
      | some (n, rest) =>
          -- A length beyond the end of the buffer is an underflow.
          if n ≤ rest.length then some (.len (rest.take n), rest.drop n) else none
  | 5 => (readLe 4 bs).map fun (n, rest) => (.i32 (UInt32.ofNat n), rest)
  -- The wire types of groups, and the two that do not exist.
  | _ => none

/-- The field at the head of `bs`. -/
def readField (bs : List UInt8) : Option (Field × List UInt8) :=
  match readU64 bs with
  | none => none
  | some (key, rest) =>
      -- A key of at most 32 bits, whose field number is not zero.
      if 8 ≤ key.toNat ∧ key.toNat < 2 ^ 32 then
        (readPayload (key.toNat % 8) rest).map fun (p, rest) => (⟨key.toNat / 8, p⟩, rest)
      else none

/-- The fields of `bs`, at most `fuel` of them. -/
def readFields : Nat → List UInt8 → Option (List Field)
  | _, [] => some []
  | 0, _ :: _ => none
  | fuel + 1, b :: bs =>
      match readField (b :: bs) with
      | none => none
      | some (f, rest) => (readFields fuel rest).map (f :: ·)

/-- The fields of a message. Each field has at least one byte, so the length bounds their
number. -/
def decodeFields (bs : List UInt8) : Option (List Field) := readFields bs.length bs

/-- A payload is read back under its wire type, and what follows it is left over. One case for
each wire type, by the round trip of the number or the length it starts with. -/
theorem readPayload_encode (p : Payload) (rest : List UInt8) :
    readPayload p.wireType (p.encode ++ rest) = some (p, rest) := by
  cases p with
  | varint v => simp [readPayload, Payload.wireType, Payload.encode]
  | i64 v =>
    have hread : readLe 8 (leBytes 8 v.toNat ++ rest) = some (v.toNat, rest) :=
      readLe_leBytes v.toNat_lt rest
    simp [readPayload, Payload.wireType, Payload.encode, hread]
  | i32 v =>
    have hread : readLe 4 (leBytes 4 v.toNat ++ rest) = some (v.toNat, rest) :=
      readLe_leBytes v.toNat_lt rest
    simp [readPayload, Payload.wireType, Payload.encode, hread]
  | len bytes =>
    simp [readPayload, Payload.wireType, Payload.encode]

/-- A wire type fits the three low bits of a key, so the key gives it and the field number
back. -/
theorem wireType_lt (p : Payload) : p.wireType < 8 := by
  cases p <;> simp [Payload.wireType]

/-- A field with a number of the format is read back: its key passes the bound of 32 bits, and
splits into the number and the wire type that it was made of. -/
theorem readField_encode {f : Field} (hf : f.Valid) (rest : List UInt8) :
    readField (f.encode ++ rest) = some (f, rest) := by
  obtain ⟨number, p⟩ := f
  obtain ⟨hpos, hlt⟩ : 0 < number ∧ number < 2 ^ 29 := hf
  have hw := wireType_lt p
  -- The key is a 64-bit varint.
  have hkey : (UInt64.ofNat (8 * number + p.wireType)).toNat = 8 * number + p.wireType :=
    UInt64.toNat_ofNat_of_lt' (show _ < 2 ^ 64 by omega)
  have hread := readU64_varint (UInt64.ofNat (8 * number + p.wireType)) (p.encode ++ rest)
  rw [hkey] at hread
  unfold readField
  rw [Field.encode, List.append_assoc, hread]
  simp only [hkey]
  rw [if_pos (by omega), Nat.mul_add_mod, Nat.mod_eq_of_lt hw, readPayload_encode]
  have hdiv : (8 * number + p.wireType) / 8 = number := by omega
  rw [Option.map_some, hdiv]

/-- A field has a byte: its key is a varint. -/
theorem length_encode_pos (f : Field) : 0 < f.encode.length := by
  have hkey := length_varint_pos (8 * f.number + f.payload.wireType)
  rw [Field.encode, List.length_append]
  omega

/-- A sequence of fields has at least as many bytes as fields. `decodeFields` takes the number of
bytes for its fuel, and this says that it is enough. -/
theorem length_le_length_encodeFields (fs : List Field) :
    fs.length ≤ (encodeFields fs).length := by
  induction fs with
  | nil => simp
  | cons f fs ih =>
    have hf := length_encode_pos f
    simp only [encodeFields, List.flatMap_cons, List.length_cons, List.length_append] at ih ⊢
    omega

/-- A sequence of fields is read back with any fuel that covers them. By induction on the fields:
each one takes one unit of fuel and leaves the bytes of the others. -/
theorem readFields_encodeFields {fs : List Field} (hfs : ∀ f ∈ fs, f.Valid) {fuel : Nat}
    (hfuel : fs.length ≤ fuel) : readFields fuel (encodeFields fs) = some fs := by
  induction fs generalizing fuel with
  | nil => cases fuel <;> rfl
  | cons f fs ih =>
    obtain ⟨fuel, rfl⟩ : ∃ n, fuel = n + 1 := ⟨fuel - 1, by simp at hfuel; omega⟩
    -- The first field is read, and the others with one unit of fuel less.
    have hrest : readFields fuel (encodeFields fs) = some fs :=
      ih (fun g hg => hfs g (List.mem_cons_of_mem _ hg)) (by simpa using hfuel)
    have hread : readField (encodeFields (f :: fs)) = some (f, encodeFields fs) :=
      readField_encode (hfs f List.mem_cons_self) _
    -- A field has bytes, so the decoder does not stop before it.
    obtain ⟨b, bs, hbs⟩ : ∃ b bs, encodeFields (f :: fs) = b :: bs := by
      apply List.exists_cons_of_length_pos
      have hlen := length_le_length_encodeFields (f :: fs)
      rw [List.length_cons] at hlen
      omega
    rw [hbs] at hread ⊢
    rw [readFields, hread]
    simp only
    rw [hrest, Option.map_some]

/-- `decodeFields` undoes `encodeFields` on fields with numbers of the format. -/
theorem decodeFields_encodeFields {fs : List Field} (hfs : ∀ f ∈ fs, f.Valid) :
    decodeFields (encodeFields fs) = some fs :=
  readFields_encodeFields hfs (length_le_length_encodeFields fs)

/-- Two sequences of fields in a row, as one: the bytes carry no mark between messages. -/
theorem encodeFields_append (fs gs : List Field) :
    encodeFields (fs ++ gs) = encodeFields fs ++ encodeFields gs :=
  List.flatMap_append

/-- Bytes determine the fields they were written from: a decoder that gives both sequences back
gives back one. -/
theorem encodeFields_inj {fs gs : List Field} (hfs : ∀ f ∈ fs, f.Valid) (hgs : ∀ f ∈ gs, f.Valid)
    (h : encodeFields fs = encodeFields gs) : fs = gs := by
  have hread := decodeFields_encodeFields hfs
  rw [h, decodeFields_encodeFields hgs] at hread
  exact (Option.some.inj hread).symm

end SwarmRuntime.Lib.Wire
