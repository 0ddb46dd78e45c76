import SwarmRuntime.State.Codec
import SwarmRuntime.State.Store

/-!
# `SwarmRuntime.State.Encryption`: encryption at rest (`encryption.rs`)

`encrypt` seals a plaintext with AES-256-GCM and puts the nonce, the ciphertext and the encoded
`AadBinding` in an envelope. `decrypt` reads all of them from the envelope, and the branch it
takes from the scheme of the envelope.

The `aes-gcm` crate is an ideal AEAD: a ciphertext opens exactly when it is the result of a
seal. The random nonce is an argument of `encrypt`.
-/

set_option autoImplicit false

namespace SwarmRuntime.State

open SwarmRuntime.Lib (Interaction)

/-! ### The types -/

/-- `EncryptionScheme` (`common.proto`). -/
inductive EncryptionScheme where
  | unspecified
  | plaintext
  | aes256Gcm
  | fheTfheRs
  deriving DecidableEq, Repr

namespace EncryptionScheme

/-- The wire value of a scheme, `as i32`. -/
def toI32 : EncryptionScheme → Int32
  | .unspecified => 0
  | .plaintext => 1
  | .aes256Gcm => 2
  | .fheTfheRs => 3

/-- `EncryptionScheme::try_from`. -/
def tryFrom (n : Int32) : Option EncryptionScheme :=
  if n = 0 then some .unspecified
  else if n = 1 then some .plaintext
  else if n = 2 then some .aes256Gcm
  else if n = 3 then some .fheTfheRs
  else none

/-- The generated conversions are inverse to each other. -/
theorem tryFrom_eq_some_iff {n : Int32} {s : EncryptionScheme} :
    tryFrom n = some s ↔ n = s.toI32 := by
  constructor
  · intro h
    unfold tryFrom at h
    split_ifs at h with h₀ h₁ h₂ h₃
    all_goals
      obtain rfl := Option.some.inj h
      assumption
  · rintro rfl
    cases s <;> rfl

end EncryptionScheme

/-- `EncryptionKey`. -/
inductive EncryptionKey where
  | aes256Gcm (rawKey : Vector UInt8 32)
  | fheTfheRs (fheKey : Bytes)
  deriving DecidableEq, Repr

/-! ### AES-256-GCM -/

/-- `aes_gcm::Aes256Gcm` as an ideal AEAD. Under one key, nonce and associated data, `decrypt`
opens the results of `encrypt` and nothing else. -/
structure Aes256Gcm where
  encrypt : Vector UInt8 32 → Vector UInt8 12 → (aad msg : Bytes) → Option Bytes
  decrypt : Vector UInt8 32 → Vector UInt8 12 → (aad msg : Bytes) → Option Bytes
  decrypt_eq_some_iff : ∀ key nonce aad c m,
    decrypt key nonce aad c = some m ↔ encrypt key nonce aad m = some c

/-- A slice as an array of `n` bytes, when it has that length. -/
def sliceToArray (n : Nat) (bs : Bytes) : Option (Vector UInt8 n) :=
  if h : bs.length = n then some ⟨bs.toArray, h⟩ else none

@[simp] theorem sliceToArray_toList {n : Nat} (v : Vector UInt8 n) :
    sliceToArray n v.toList = some v := by
  rw [sliceToArray, dif_pos v.length_toList]
  rfl

/-- `Nonce::from_slice`. -/
def nonceFromSlice (bs : Bytes) : AsyncResult (Vector UInt8 12) :=
  match sliceToArray 12 bs with
  | some nonce => return nonce
  | none => ExceptT.mk (Interaction.panic "assertion `left == right` failed")

/-- `Aes256Gcm::new_from_slice`, and its error as an error of the state layer. -/
def newFromSlice (bs : Bytes) : AsyncResult (Vector UInt8 32) :=
  match sliceToArray 32 bs with
  | some cipher => return cipher
  | none => throw .aesGcmError

/-! ### Encryption and decryption -/

/-- Encrypt `plaintext` bytes using the given `EncryptionKey`. `nonceBytes` is what the random
number generator of the operating system returns. -/
def encrypt (A : Aes256Gcm) (aadBindingMessage : Message AadBinding)
    (nonceBytes : Vector UInt8 12) (plaintext : Bytes) (key : EncryptionKey)
    (aadBinding : AadBinding) : AsyncResult EncryptionEnvelope :=
  match key with
  | .aes256Gcm rawKey => do
    let nonce ← nonceFromSlice nonceBytes.toList
    let cipher ← newFromSlice rawKey.toList
    let aadBytes := aadBindingMessage.encodeToVec aadBinding
    match A.encrypt cipher nonce aadBytes plaintext with
    | some ciphertext =>
      return { scheme := EncryptionScheme.aes256Gcm.toI32
               keyId := ""
               ivOrNonce := nonceBytes.toList
               ciphertext := ciphertext
               aad := aadBytes }
    | none => throw .aesGcmError
  | .fheTfheRs _ =>
    throw (.invalidInput "FHE encryption not yet implemented — tracked for Phase 6")

/-- Decrypt an `EncryptionEnvelope` and return the plaintext bytes. -/
def decrypt (A : Aes256Gcm) (envelope : EncryptionEnvelope) (key : EncryptionKey) :
    AsyncResult Bytes :=
  match EncryptionScheme.tryFrom envelope.scheme, key with
  | some .plaintext, _ =>
    -- The ciphertext is expected to be empty here, and is returned in any case.
    return envelope.ciphertext
  | some .aes256Gcm, .aes256Gcm rawKey => do
    let nonce ← nonceFromSlice envelope.ivOrNonce
    let cipher ← newFromSlice rawKey.toList
    match A.decrypt cipher nonce envelope.aad envelope.ciphertext with
    | some plaintext => return plaintext
    | none => throw .aesGcmError
  | some .fheTfheRs, .fheTfheRs _ =>
    throw (.invalidInput "FHE decryption not yet implemented — tracked for Phase 6")
  | _, _ => throw (.invalidInput "scheme/key type mismatch in encryption envelope")

end SwarmRuntime.State
