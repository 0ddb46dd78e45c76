import Mathlib.Logic.Equiv.Defs
import SwarmRuntime.Lib.Decimal
import SwarmRuntime.Lib.Delimited
import SwarmRuntime.Lib.Wire

/-!
# `SwarmRuntime.Lib.Layout`: message types in the proto3 wire format

A `FieldCodec T` says which payloads carry a value of `T`: none for the default of a singular
scalar, one for each element of a repeated field. A `Layout M k` is a message type as its fields
in the order of their numbers, from `k` on. `Layout.cons` adds a field in front, and
`Layout.map` names the fields.

A decoder reads the fields of its own numbers and drops the rest, the last payload of a singular
scalar wins, and the payloads of an embedded message merge: these are the rules of the format.

The main results are:

- `Layout.decode_encode`: the round trip. Each layout carries what it takes as fields of the
  structure: its fields read back, and fields of smaller numbers in front of them do not matter.
- `encodeFields_append_inj`: the bytes of two messages in a row fix both, when the greatest field
  of the first one is present and the second one stays below it.
- `Ordered.cons`: the layouts write their fields in canonical order, which that result asks for.
-/

set_option autoImplicit false

namespace SwarmRuntime.Lib.Wire

variable {T M N : Type}

/-! ### Scalars -/

/-- One value as one payload. -/
structure Scalar (T : Type) where
  write : T → Payload
  read : Payload → Option T
  read_write : ∀ v, read (write v) = some v

namespace Scalar

/-- `uint64`. -/
def uint64 : Scalar UInt64 where
  write := .varint
  read
    | .varint v => some v
    | _ => none
  read_write _ := rfl

/-- `uint32`: the low 32 bits of the varint. -/
def uint32 : Scalar UInt32 where
  write v := .varint v.toUInt64
  read
    | .varint v => some v.toUInt32
    | _ => none
  read_write v := by simp

/-- `int64`: two's complement in 64 bits. -/
def int64 : Scalar Int64 where
  write v := .varint v.toUInt64
  read
    | .varint v => some v.toInt64
    | _ => none
  read_write v := by simp

/-- `int32` and enumerations: extended to 64 bits by sign, and the low 32 bits back. -/
def int32 : Scalar Int32 where
  write v := .varint v.toInt64.toUInt64
  read
    | .varint v => some v.toInt64.toInt32
    | _ => none
  read_write v := by simp

/-- `bool`. -/
def bool : Scalar Bool where
  write v := .varint (if v then 1 else 0)
  read
    | .varint v => some (v != 0)
    | _ => none
  read_write v := by cases v <;> rfl

/-- `float`, as its bits. -/
def float : Scalar UInt32 where
  write := .i32
  read
    | .i32 v => some v
    | _ => none
  read_write _ := rfl

/-- `bytes`. -/
def bytes : Scalar (List UInt8) where
  write := .len
  read
    | .len bs => some bs
    | _ => none
  read_write _ := rfl

/-- `string`, in UTF-8. -/
def string : Scalar String where
  write s := .len (utf8Bytes s)
  read
    | .len bs => String.fromUTF8? ⟨bs.toArray⟩
    | _ => none
  read_write s := by
    have hbytes : (⟨(utf8Bytes s).toArray⟩ : ByteArray) = s.toByteArray := by
      simp [utf8Bytes]
    simp only [hbytes]
    exact dif_pos s.isValidUTF8

end Scalar

/-! ### The payloads of one field -/

/-- A value as the payloads of one field. -/
structure FieldCodec (T : Type) where
  write : T → List Payload
  read : List Payload → Option T
  read_write : ∀ v, read (write v) = some v

namespace FieldCodec

/-- A singular scalar: absent for its default, and the last payload wins. -/
def singular [DecidableEq T] (S : Scalar T) (default : T) : FieldCodec T where
  write v := if v = default then [] else [S.write v]
  read ps := ps.foldlM (fun _ p => S.read p) default
  read_write v := by
    by_cases hv : v = default
    -- The default is not written, and reading no payload gives it back.
    · rw [if_pos hv, hv]
      rfl
    · rw [if_neg hv]
      simp [S.read_write]

/-- A repeated field: one payload for each element. -/
def repeated (S : Scalar T) : FieldCodec (List T) where
  write vs := vs.map S.write
  read ps := ps.mapM S.read
  read_write vs := by
    induction vs with
    | nil => rfl
    | cons v vs ih => simp [S.read_write, ih]

end FieldCodec

/-! ### Messages -/

/-- The payloads of the fields with the number `n`, in order. -/
def payloadsOf (n : Nat) (fs : List Field) : List Payload :=
  (fs.filter fun f => f.number = n).map Field.payload

/-- The payloads of two sequences of fields in a row. A reader of one number may skip the fields
of the other ones part by part. -/
theorem payloadsOf_append (n : Nat) (fs gs : List Field) :
    payloadsOf n (fs ++ gs) = payloadsOf n fs ++ payloadsOf n gs := by
  simp [payloadsOf]

/-- Fields of other numbers have no payload to give. -/
theorem payloadsOf_of_ne {n : Nat} {fs : List Field} (h : ∀ f ∈ fs, f.number ≠ n) :
    payloadsOf n fs = [] := by
  simpa [payloadsOf] using h

/-- The payloads written under a number are the payloads of that number, all of them and in the
same order. -/
theorem payloadsOf_map (n : Nat) (ps : List Payload) :
    payloadsOf n (ps.map (Field.mk n)) = ps := by
  induction ps with
  | nil => rfl
  | cons p ps ih => simpa [payloadsOf] using ih

/-- A number without payloads is the number of no field: the converse of `payloadsOf_of_ne`. -/
theorem number_ne_of_payloadsOf_nil {n : Nat} {fs : List Field} (h : payloadsOf n fs = []) :
    ∀ f ∈ fs, f.number ≠ n := by
  simpa [payloadsOf] using h

/-! ### Canonical order -/

/-- Fields in the canonical order of a writer: by number, up to `last`. -/
structure Canonical (last : Nat) (fs : List Field) : Prop where
  valid : ∀ f ∈ fs, f.Valid
  ascending : fs.Pairwise fun f g => f.number ≤ g.number
  le_last : ∀ f ∈ fs, f.number ≤ last

/-- A message in canonical order that carries its greatest field once ends with it, and no field
before has that number. This is what marks the end of a message in a longer sequence. -/
theorem Canonical.exists_last {n : Nat} {fs : List Field} (h : Canonical n fs)
    (hone : (payloadsOf n fs).length = 1) :
    ∃ xs f, fs = xs ++ [f] ∧ f.number = n ∧ ∀ g ∈ xs, g.number ≠ n := by
  rcases List.eq_nil_or_concat fs with rfl | ⟨xs, f, rfl⟩
  · exact absurd hone (by simp [payloadsOf])
  · rw [List.concat_eq_append] at h hone ⊢
    have hle : ∀ g ∈ xs, g.number ≤ f.number := fun g hg =>
      (List.pairwise_append.mp h.ascending).2.2 g hg f List.mem_cons_self
    have hlast : f.number ≤ n := h.le_last f (by simp)
    rw [payloadsOf_append, List.length_append] at hone
    by_cases hf : f.number = n
    · have hself : (payloadsOf n [f]).length = 1 := by simp [payloadsOf, hf]
      have hnil : payloadsOf n xs = [] := List.length_eq_zero_iff.mp (by omega)
      exact ⟨xs, f, rfl, hf, number_ne_of_payloadsOf_nil hnil⟩
    · -- A smaller last number leaves none that is `n`.
      have hself : payloadsOf n [f] = [] := payloadsOf_of_ne (by simpa using hf)
      have hothers : payloadsOf n xs = [] := payloadsOf_of_ne fun g hg => by
        have hg' := hle g hg
        omega
      rw [hself, hothers] at hone
      cases hone

/-- Two messages in a row, the first one with its greatest field present and the second one with
smaller numbers only. No other such pair has the same bytes: the one field with the number `n`
is where the first message ends, in both readings of the sequence. -/
theorem encodeFields_append_inj {m n : Nat} {fs gs fs' gs' : List Field} (hmn : m < n)
    (hfs : Canonical n fs) (hgs : Canonical m gs) (hfs' : Canonical n fs')
    (hgs' : Canonical m gs') (hone : (payloadsOf n fs).length = 1)
    (hone' : (payloadsOf n fs').length ≤ 1)
    (h : encodeFields fs' ++ encodeFields gs' = encodeFields fs ++ encodeFields gs) :
    fs' = fs ∧ gs' = gs := by
  have hvalid : ∀ f ∈ fs ++ gs, f.Valid := fun f hf =>
    (List.mem_append.mp hf).elim (hfs.valid f) (hgs.valid f)
  have hvalid' : ∀ f ∈ fs' ++ gs', f.Valid := fun f hf =>
    (List.mem_append.mp hf).elim (hfs'.valid f) (hgs'.valid f)
  rw [← encodeFields_append, ← encodeFields_append] at h
  have hlist : fs' ++ gs' = fs ++ gs := encodeFields_inj hvalid' hvalid h
  obtain ⟨xs, f, rfl, hf, hxs⟩ := hfs.exists_last hone
  -- The field of the first message lies in the first part of the other pair too.
  have hmem : f ∈ fs' := by
    have hboth : f ∈ fs' ++ gs' := hlist ▸ by simp
    rcases List.mem_append.mp hboth with hleft | hright
    · exact hleft
    · have hsmall := hgs'.le_last f hright
      omega
  have hsome : (payloadsOf n fs').length ≠ 0 := by
    intro hzero
    exact number_ne_of_payloadsOf_nil (List.length_eq_zero_iff.mp hzero) f hmem hf
  obtain ⟨xs', f', rfl, hf', hxs'⟩ := hfs'.exists_last (by omega)
  rw [List.append_assoc, List.append_assoc] at hlist
  have hparts := append_cons_inj_of_kind (P := fun g => g.number = n) hxs' hxs hf' hf hlist
  have htail : gs' = gs := hparts.2.2
  rw [hparts.1, hparts.2.1, htail]
  exact ⟨rfl, rfl⟩

/-! ### Layouts -/

/-- A message type whose field numbers start at `k`. -/
structure Layout (M : Type) (k : Nat) where
  fields : M → List Field
  read : List Field → Option M
  le_number : ∀ m, ∀ f ∈ fields m, k ≤ f.number
  number_lt : ∀ m, ∀ f ∈ fields m, f.number < 2 ^ 29
  read_append : ∀ fs gs, (∀ f ∈ fs, f.number < k) → read (fs ++ gs) = read gs
  read_fields : ∀ m, read (fields m) = some m

namespace Layout

/-- No field. -/
def nil (k : Nat) : Layout Unit k where
  fields _ := []
  read _ := some ()
  le_number := by simp
  number_lt := by simp
  read_append _ _ _ := rfl
  read_fields _ := rfl

/-- The field `n` in front of the fields from `n + 1` on. -/
def cons (n : Nat) (hn : n < 2 ^ 29) (c : FieldCodec T) (L : Layout M (n + 1)) :
    Layout (T × M) n where
  fields m := (c.write m.1).map (Field.mk n) ++ L.fields m.2
  read fs :=
    match c.read (payloadsOf n fs), L.read fs with
    | some v, some m => some (v, m)
    | _, _ => none
  le_number m f hf := by
    rcases List.mem_append.mp hf with hf | hf
    · obtain ⟨p, -, rfl⟩ := List.mem_map.mp hf
      exact Nat.le_refl _
    · have hle : n + 1 ≤ f.number := L.le_number m.2 f hf
      exact Nat.le_of_succ_le hle
  number_lt m f hf := by
    rcases List.mem_append.mp hf with hf | hf
    · obtain ⟨p, -, rfl⟩ := List.mem_map.mp hf
      exact hn
    · exact L.number_lt m.2 f hf
  read_append fs gs h := by
    -- Fields below `n` are unknown to the field `n` and to `L`.
    have hnone : payloadsOf n fs = [] := payloadsOf_of_ne fun f hf => Nat.ne_of_lt (h f hf)
    have hrest : L.read (fs ++ gs) = L.read gs :=
      L.read_append fs gs fun f hf => Nat.lt_succ_of_lt (h f hf)
    rw [payloadsOf_append, hnone, hrest, List.nil_append]
  read_fields m := by
    -- The fields of `L` carry no payload of `n`, and `L` does not read the field `n`.
    have hothers : payloadsOf n (L.fields m.2) = [] :=
      payloadsOf_of_ne fun f hf => Nat.ne_of_gt (L.le_number m.2 f hf)
    have hrest : L.read ((c.write m.1).map (Field.mk n) ++ L.fields m.2) = some m.2 := by
      rw [L.read_append, L.read_fields]
      intro f hf
      obtain ⟨p, -, rfl⟩ := List.mem_map.mp hf
      exact Nat.lt_succ_self n
    rw [payloadsOf_append, payloadsOf_map, hothers, List.append_nil, c.read_write, hrest]

/-- The same fields under other names. -/
def map {k : Nat} (L : Layout M k) (e : M ≃ N) : Layout N k where
  fields n := L.fields (e.symm n)
  read fs := (L.read fs).map e
  le_number n := L.le_number (e.symm n)
  number_lt n := L.number_lt (e.symm n)
  read_append fs gs h := by rw [L.read_append fs gs h]
  read_fields n := by rw [L.read_fields, Option.map_some, e.apply_symm_apply]

/-! ### The order of the fields -/

/-- Every message of the layout is in canonical order. -/
def Ordered {k : Nat} (L : Layout M k) (last : Nat) : Prop := ∀ m, Canonical last (L.fields m)

/-- No field is in any order. -/
theorem ordered_nil (k last : Nat) : (nil k).Ordered last :=
  fun _ => ⟨by simp [nil], by simp [nil], by simp [nil]⟩

/-- A field in front of an ordered layout: its number is smaller than those of all others, and
all payloads of the field stand together. -/
theorem Ordered.cons {n last : Nat} {hn : n < 2 ^ 29} {c : FieldCodec T} {L : Layout M (n + 1)}
    (hpos : 0 < n) (hlast : n ≤ last) (h : L.Ordered last) :
    (Layout.cons n hn c L).Ordered last := by
  intro m
  have hrest := h m.2
  have hfront : ∀ f ∈ (c.write m.1).map (Field.mk n), f.number = n := by
    intro f hf
    obtain ⟨p, -, rfl⟩ := List.mem_map.mp hf
    rfl
  refine ⟨?_, ?_, ?_⟩
  · intro f hf
    exact ⟨Nat.lt_of_lt_of_le hpos ((Layout.cons n hn c L).le_number m f hf),
      (Layout.cons n hn c L).number_lt m f hf⟩
  · refine List.pairwise_append.mpr ⟨?_, hrest.ascending, ?_⟩
    · refine List.pairwise_map.mpr (List.pairwise_of_forall ?_)
      intro p q
      exact Nat.le_refl n
    · intro f hf g hg
      have hg' := L.le_number m.2 g hg
      rw [hfront f hf]
      omega
  · intro f hf
    rcases List.mem_append.mp hf with hf | hf
    · rw [hfront f hf]
      exact hlast
    · exact hrest.le_last f hf

/-- New names do not change the order: the fields are the same. -/
theorem Ordered.map {k last : Nat} {L : Layout M k} (h : L.Ordered last) (e : M ≃ N) :
    (L.map e).Ordered last :=
  fun n => h (e.symm n)

/-- The fields of a renamed layout, as those of the layout itself. -/
theorem fields_map {k : Nat} (L : Layout M k) (e : M ≃ N) (n : N) :
    (L.map e).fields n = L.fields (e.symm n) := rfl

/-- The first field of a layout gives no payload of another number, so the payloads of the number
`l` are those of the fields behind it. -/
theorem payloadsOf_fields_cons_of_ne {l n : Nat} {hn : n < 2 ^ 29} {c : FieldCodec T}
    {L : Layout M (n + 1)} (h : n ≠ l) (m : T × M) :
    payloadsOf l ((Layout.cons n hn c L).fields m) = payloadsOf l (L.fields m.2) := by
  show payloadsOf l ((c.write m.1).map (Field.mk n) ++ L.fields m.2) = _
  rw [payloadsOf_append, payloadsOf_of_ne, List.nil_append]
  intro f hf
  obtain ⟨p, -, rfl⟩ := List.mem_map.mp hf
  exact h

/-- The first field of a layout gives all the payloads of its own number: the fields behind it
have greater ones. -/
theorem payloadsOf_fields_cons_self {n : Nat} {hn : n < 2 ^ 29} {c : FieldCodec T}
    {L : Layout M (n + 1)} (m : T × M) :
    payloadsOf n ((Layout.cons n hn c L).fields m) = c.write m.1 := by
  have hothers : payloadsOf n (L.fields m.2) = [] :=
    payloadsOf_of_ne fun f hf => Nat.ne_of_gt (L.le_number m.2 f hf)
  show payloadsOf n ((c.write m.1).map (Field.mk n) ++ L.fields m.2) = _
  rw [payloadsOf_append, payloadsOf_map, hothers, List.append_nil]

/-! ### Messages as bytes -/

variable (L : Layout M 1)

/-- The bytes of a message. -/
def encode (m : M) : List UInt8 := encodeFields (L.fields m)

/-- The message of some bytes. -/
def decode (bs : List UInt8) : Option M := (decodeFields bs).bind L.read

/-- Every field of a message has a number of the format, from the two bounds that the layout
carries. -/
theorem valid_of_mem_fields {m : M} {f : Field} (hf : f ∈ L.fields m) : f.Valid :=
  ⟨L.le_number m f hf, L.number_lt m f hf⟩

/-- The round trip: the bytes of a message are decoded to that message. The wire format gives the
fields back, and the layout reads the message from them. -/
@[simp] theorem decode_encode (m : M) : L.decode (L.encode m) = some m := by
  rw [decode, encode, decodeFields_encodeFields fun f hf => L.valid_of_mem_fields hf]
  exact L.read_fields m

/-- A message as a scalar: its bytes. -/
def scalar : Scalar M where
  write m := .len (L.encode m)
  read
    | .len bs => L.decode bs
    | _ => none
  read_write m := L.decode_encode m

/-- An embedded message. Its payloads merge: together they are one message. -/
def embedded : FieldCodec (Option M) where
  write m := m.toList.map L.scalar.write
  read
    | [] => some none
    | ps => (ps.mapM Scalar.bytes.read).bind fun bs => (L.decode bs.flatten).map some
  read_write m := by
    cases m with
    | none => rfl
    | some m => simp [scalar, Scalar.bytes]

end Layout

end SwarmRuntime.Lib.Wire
