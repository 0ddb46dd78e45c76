import SwarmRuntime.State.Encryption

/-!
# `SwarmRuntime.Proofs.Encryption`: what `decrypt` accepts

The first part gives the result of `encrypt` and of each branch of `decrypt` under an AES key.
From them follow the results of this file.

* `decrypt_accepts_seals`: away from the plaintext scheme, `decrypt` accepts what `encrypt`
  made and nothing else.
* `rejectedIn_iff`: the associated data of an envelope are its own, so an envelope opens in any
  record it is put into.
* `decrypt_returns_iff`: under an AES key, `decrypt` of an AES envelope whose nonce is not twelve
  bytes long panics, and nothing else does.
-/

set_option autoImplicit false

namespace SwarmRuntime.State

open SwarmRuntime.Lib SwarmRuntime.Lib.Interaction

variable {A : Aes256Gcm} {aadMessage : Message AadBinding} {k : Vector UInt8 32}
  {nonce : Vector UInt8 12} {p m : Bytes} {b b' : AadBinding} {e : EncryptionEnvelope}

/-! ### The result of `encrypt` -/

@[simp] theorem nonceFromSlice_toList (v : Vector UInt8 12) : nonceFromSlice v.toList = pure v := by
  rw [nonceFromSlice, sliceToArray_toList]

@[simp] theorem newFromSlice_toList (v : Vector UInt8 32) : newFromSlice v.toList = pure v := by
  rw [newFromSlice, sliceToArray_toList]

/-- The envelope of a ciphertext. -/
def sealedEnvelope (aadMessage : Message AadBinding) (nonce : Vector UInt8 12) (b : AadBinding)
    (ciphertext : Bytes) : EncryptionEnvelope :=
  { scheme := EncryptionScheme.aes256Gcm.toI32
    keyId := ""
    ivOrNonce := nonce.toList
    ciphertext := ciphertext
    aad := aadMessage.encodeToVec b }

theorem run_encrypt :
    (encrypt A aadMessage nonce p (.aes256Gcm k) b).run =
      match A.encrypt k nonce (aadMessage.encodeToVec b) p with
      | some c => done (.ok (sealedEnvelope aadMessage nonce b c))
      | none => done (.error .aesGcmError) := by
  simp only [encrypt, nonceFromSlice_toList, newFromSlice_toList, pure_bind]
  cases A.encrypt k nonce (aadMessage.encodeToVec b) p with
  | none => rfl
  | some c => rfl

/-- An envelope that `encrypt` returned holds a seal. -/
theorem encrypt_eq_ok_iff :
    (encrypt A aadMessage nonce p (.aes256Gcm k) b).run = done (.ok e) ↔
      ∃ c, A.encrypt k nonce (aadMessage.encodeToVec b) p = some c ∧
        e = sealedEnvelope aadMessage nonce b c := by
  rw [run_encrypt]
  cases A.encrypt k nonce (aadMessage.encodeToVec b) p with
  | none => simp
  | some c => simp [eq_comm]

/-! ### The branches of `decrypt` -/

theorem decrypt_plaintext {key : EncryptionKey} (hs : e.scheme = EncryptionScheme.plaintext.toI32) :
    (decrypt A e key).run = done (.ok e.ciphertext) := by
  have htry := EncryptionScheme.tryFrom_eq_some_iff.mpr hs
  simp only [decrypt, htry]
  rfl

theorem decrypt_aes (hs : e.scheme = EncryptionScheme.aes256Gcm.toI32)
    (hn : e.ivOrNonce = nonce.toList) :
    (decrypt A e (.aes256Gcm k)).run =
      match A.decrypt k nonce e.aad e.ciphertext with
      | some m => done (.ok m)
      | none => done (.error .aesGcmError) := by
  have htry := EncryptionScheme.tryFrom_eq_some_iff.mpr hs
  simp only [decrypt, htry, hn, nonceFromSlice_toList, newFromSlice_toList, pure_bind]
  cases A.decrypt k nonce e.aad e.ciphertext with
  | none => rfl
  | some m => rfl

/-- Under an AES key every other scheme, known or not, is refused. -/
theorem decrypt_mismatch (hp : e.scheme ≠ EncryptionScheme.plaintext.toI32)
    (ha : e.scheme ≠ EncryptionScheme.aes256Gcm.toI32) :
    (decrypt A e (.aes256Gcm k)).run =
      done (.error (.invalidInput "scheme/key type mismatch in encryption envelope")) := by
  rcases htry : EncryptionScheme.tryFrom e.scheme with _ | s
  · simp only [decrypt, htry]
    rfl
  · have hs := EncryptionScheme.tryFrom_eq_some_iff.mp htry
    cases s with
    | plaintext => exact absurd hs hp
    | aes256Gcm => exact absurd hs ha
    | unspecified =>
      simp only [decrypt, htry]
      rfl
    | fheTfheRs =>
      simp only [decrypt, htry]
      rfl

/-! ### What is accepted -/

/-- The ciphertext of the envelope is the seal of `m` under `k`, with the nonce and the
associated data of the envelope. -/
def SealOf (A : Aes256Gcm) (k : Vector UInt8 32) (e : EncryptionEnvelope) (m : Bytes) : Prop :=
  ∃ nonce : Vector UInt8 12, e.ivOrNonce = nonce.toList ∧
    A.encrypt k nonce e.aad m = some e.ciphertext

/-- Under the AES scheme, `decrypt` opens seals. -/
theorem decrypt_aes_eq_ok_iff (hs : e.scheme = EncryptionScheme.aes256Gcm.toI32)
    (hlen : e.ivOrNonce.length = 12) :
    (decrypt A e (.aes256Gcm k)).run = done (.ok m) ↔ SealOf A k e m := by
  have hn : e.ivOrNonce = (⟨e.ivOrNonce.toArray, hlen⟩ : Vector UInt8 12).toList := rfl
  have hopen := A.decrypt_eq_some_iff k ⟨e.ivOrNonce.toArray, hlen⟩ e.aad e.ciphertext m
  rw [decrypt_aes hs hn]
  constructor
  · intro h
    refine ⟨_, hn, hopen.mp ?_⟩
    cases hd : A.decrypt k ⟨e.ivOrNonce.toArray, hlen⟩ e.aad e.ciphertext with
    | none => simp [hd] at h
    | some m' => simpa [hd] using h
  · rintro ⟨nonce, hnonce, hseal⟩
    obtain rfl := Vector.toList_inj.mp (hnonce.symm.trans hn)
    rw [hopen.mpr hseal]

/-- Away from the plaintext scheme, an envelope with a nonce of twelve bytes decrypts to `m`
exactly when it is an AES envelope with the seal of `m`. -/
theorem decrypt_eq_ok_iff (hp : e.scheme ≠ EncryptionScheme.plaintext.toI32)
    (hlen : e.ivOrNonce.length = 12) :
    (decrypt A e (.aes256Gcm k)).run = done (.ok m) ↔
      e.scheme = EncryptionScheme.aes256Gcm.toI32 ∧ SealOf A k e m := by
  by_cases ha : e.scheme = EncryptionScheme.aes256Gcm.toI32
  · rw [decrypt_aes_eq_ok_iff ha hlen]
    exact ⟨fun h => ⟨ha, h⟩, fun h => h.2⟩
  · rw [decrypt_mismatch hp ha]
    constructor
    · intro h
      simp at h
    · intro h
      exact absurd h.1 ha

/-- The envelope that `encrypt` returned opens, whatever key id is filled in. -/
theorem decrypt_encrypt {keyId : String}
    (h : (encrypt A aadMessage nonce p (.aes256Gcm k) b).run = done (.ok e)) :
    (decrypt A { e with keyId := keyId } (.aes256Gcm k)).run = done (.ok p) := by
  obtain ⟨c, hseal, rfl⟩ := encrypt_eq_ok_iff.mp h
  exact (decrypt_aes_eq_ok_iff rfl nonce.length_toList).mpr ⟨nonce, rfl, hseal⟩

/-! ### One envelope -/

/-- The bytes under those of a key stream, as far as the stream goes. -/
def mask : Bytes → Bytes → Bytes
  | k :: ks, b :: bs => (b ^^^ k) :: mask ks bs
  | _, bs => bs

/-- To mask twice is to unmask. -/
@[simp] theorem mask_mask (ks bs : Bytes) : mask ks (mask ks bs) = bs := by
  induction ks generalizing bs with
  | nil => rfl
  | cons k ks ih =>
    cases bs with
    | nil => rfl
    | cons b bs =>
      show (b ^^^ k ^^^ k) :: mask ks (mask ks bs) = b :: bs
      rw [ih, UInt8.xor_assoc, UInt8.xor_self, UInt8.xor_zero]

/-- The plaintext of the envelope below, `draft`. -/
def acmePlaintext : Bytes := [0x64, 0x72, 0x61, 0x66, 0x74]

/-- The key stream of AES-256-GCM under the key of `InMemoryKeyProvider` and the zero nonce: its
first block. -/
def acmeKeyStream : Bytes :=
  [0xf4, 0xb2, 0xff, 0xf9, 0x5c, 0x8c, 0x85, 0xe7, 0x99, 0x4f, 0x4b, 0x0f, 0x31, 0x8b, 0xb5, 0x51]

/-- The tag of AES-256-GCM on this plaintext, under that key and nonce, and the binding of the
state record of `("acme", "writer")`. -/
def acmeTag : Bytes :=
  [0x22, 0xc2, 0xb2, 0xca, 0xa5, 0x7f, 0x5c, 0x9f, 0x9a, 0x66, 0x56, 0x96, 0x59, 0xc1, 0x3a, 0xbf]

/-- An AEAD that is AES-256-GCM at that one point, and uses the same stream and tag everywhere. -/
def acmeAead : Aes256Gcm where
  encrypt _ _ _ msg := some (mask acmeKeyStream msg ++ acmeTag)
  decrypt _ _ _ msg :=
    if msg.drop (msg.length - 16) = acmeTag then
      some (mask acmeKeyStream (msg.take (msg.length - 16)))
    else none
  decrypt_eq_some_iff key nonce aad c m := by
    have htag : acmeTag.length = 16 := rfl
    constructor
    · intro h
      split_ifs at h with hdrop
      rw [← Option.some.inj h, mask_mask, ← hdrop, List.take_append_drop]
    · intro h
      have hlen : (mask acmeKeyStream m ++ acmeTag).length - 16
          = (mask acmeKeyStream m).length := by
        rw [List.length_append, htag, Nat.add_sub_cancel]
      rw [← Option.some.inj h, hlen, List.drop_left, if_pos rfl, List.take_left, mask_mask]

/-- The key of `InMemoryKeyProvider::new_test`. -/
def testKey : Vector UInt8 32 := Vector.replicate 32 0x42

/-- The binding of the state record of an agent. -/
def stateBinding (tenantId agentId : String) : AadBinding := ⟨tenantId, agentId, 1, "agent_state"⟩

/-- The envelope of the plaintext, for `("acme", "writer")`: five bytes of ciphertext and the
tag. -/
def acmeEnvelope : EncryptionEnvelope :=
  sealedEnvelope (messageOf AadBinding.layout) (Vector.replicate 12 0)
    (stateBinding "acme" "writer") ([0x90, 0xc0, 0x9e, 0x9f, 0x28] ++ acmeTag)

/-- `encrypt` returns that envelope. -/
theorem encrypt_acme :
    (encrypt acmeAead (messageOf AadBinding.layout) (Vector.replicate 12 0) acmePlaintext
      (.aes256Gcm testKey) (stateBinding "acme" "writer")).run = done (.ok acmeEnvelope) := by
  have hmask : mask acmeKeyStream acmePlaintext = [0x90, 0xc0, 0x9e, 0x9f, 0x28] := by decide
  refine encrypt_eq_ok_iff.mpr ⟨_, ?_, rfl⟩
  show some (mask acmeKeyStream acmePlaintext ++ acmeTag) = some _
  rw [hmask]

/-! ### The results -/

/-- What `decrypt` accepts under an AES key `k`. An envelope with a nonce of twelve bytes and a
scheme other than plaintext decrypts to `m` exactly when it is an AES envelope whose ciphertext
is the seal of `m`. An empty plaintext envelope decrypts to nothing. What `encrypt` returns
opens under any key id, and no longer opens under any third scheme. -/
theorem decrypt_accepts_seals (A : Aes256Gcm) (aadMessage : Message AadBinding)
    (k : Vector UInt8 32) :
    (∀ (e : EncryptionEnvelope) (m : Bytes), e.ivOrNonce.length = 12 →
      e.scheme ≠ EncryptionScheme.plaintext.toI32 →
      ((decrypt A e (.aes256Gcm k)).run = done (.ok m) ↔
        e.scheme = EncryptionScheme.aes256Gcm.toI32 ∧ SealOf A k e m)) ∧
    (∀ e : EncryptionEnvelope, e.scheme = EncryptionScheme.plaintext.toI32 → e.ciphertext = [] →
      (decrypt A e (.aes256Gcm k)).run = done (.ok [])) ∧
    ∀ (nonce : Vector UInt8 12) (p : Bytes) (b : AadBinding) (e : EncryptionEnvelope),
      (encrypt A aadMessage nonce p (.aes256Gcm k) b).run = done (.ok e) → ∀ keyId : String,
      (decrypt A { e with keyId := keyId } (.aes256Gcm k)).run = done (.ok p) ∧
      ∀ scheme : Int32, scheme ≠ EncryptionScheme.aes256Gcm.toI32 →
        scheme ≠ EncryptionScheme.plaintext.toI32 →
        (decrypt A { e with keyId := keyId, scheme := scheme } (.aes256Gcm k)).run =
          done (.error (.invalidInput "scheme/key type mismatch in encryption envelope")) := by
  refine ⟨?_, ?_, ?_⟩
  · intro e m hlen hp
    exact decrypt_eq_ok_iff hp hlen
  · intro e hp hempty
    rw [decrypt_plaintext hp, hempty]
  · intro nonce p b e henc keyId
    refine ⟨decrypt_encrypt henc, ?_⟩
    intro scheme ha hp
    exact decrypt_mismatch hp ha

/-- The envelope for `("acme", "writer")` opens to its plaintext, with the key id of
`InMemoryKeyProvider`; with none it opens to exactly what was sealed. -/
theorem decrypt_accepts_acme :
    (decrypt acmeAead { acmeEnvelope with keyId := "test-key-v1" } (.aes256Gcm testKey)).run =
        done (.ok acmePlaintext) ∧
      (∀ m, (decrypt acmeAead acmeEnvelope (.aes256Gcm testKey)).run = done (.ok m) ↔
        acmeEnvelope.scheme = EncryptionScheme.aes256Gcm.toI32 ∧
          SealOf acmeAead testKey acmeEnvelope m) := by
  have hall := decrypt_accepts_seals acmeAead (messageOf AadBinding.layout) testKey
  exact ⟨(hall.2.2 _ acmePlaintext _ _ encrypt_acme "test-key-v1").1,
    fun m => hall.1 acmeEnvelope m (by decide) (by decide)⟩

/-- A plaintext envelope is accepted under an AES key. -/
theorem decrypt_accepts_plaintext :
    let e : EncryptionEnvelope := ⟨1, "test-key-v1", List.replicate 12 0, [], []⟩
    e.ivOrNonce.length = 12 ∧ e.scheme ≠ EncryptionScheme.aes256Gcm.toI32 ∧
      (decrypt acmeAead e (.aes256Gcm testKey)).run = done (.ok []) := by
  intro e
  exact ⟨by decide, by decide, decrypt_plaintext rfl⟩

/-! ### A ciphertext and the record it lies in -/

/-- A record as decryption meets it: its identity, and its `encryption` field. -/
structure SealedRecord where
  identity : AadBinding
  encryption : EncryptionEnvelope
  deriving DecidableEq, Repr

/-- Decryption of a record in place. -/
def SealedRecord.decrypt (A : Aes256Gcm) (k : Vector UInt8 32) (r : SealedRecord) :
    AsyncResult Bytes :=
  State.decrypt A r.encryption (.aes256Gcm k)

/-- The state record of an agent, when it is encrypted. -/
def AgentStateRecord.sealedRecord (r : AgentStateRecord) : Option SealedRecord :=
  r.encryption.map (SealedRecord.mk ⟨r.tenantId, r.agentId, r.schemaVersion, "agent_state"⟩)

/-- What `encrypt` seals for `b` is rejected in every record identified by `b'`. -/
def RejectedIn (A : Aes256Gcm) (aadMessage : Message AadBinding) (k : Vector UInt8 32) (p : Bytes)
    (b b' : AadBinding) : Prop :=
  ∀ (nonce : Vector UInt8 12) (e : EncryptionEnvelope),
    (encrypt A aadMessage nonce p (.aes256Gcm k) b).run = done (.ok e) →
    ∀ r : SealedRecord, r.identity = b' → (∃ keyId, r.encryption = { e with keyId := keyId }) →
      ∀ m, (r.decrypt A k).run ≠ done (.ok m)

/-- The identity of the record has no part in its decryption: an envelope opens wherever it is
put. -/
theorem decrypt_moved {keyId : String}
    (h : (encrypt A aadMessage nonce p (.aes256Gcm k) b).run = done (.ok e)) (b' : AadBinding) :
    (SealedRecord.decrypt A k ⟨b', { e with keyId := keyId }⟩).run = done (.ok p) :=
  decrypt_encrypt h

/-- A ciphertext of `b` is rejected in `b'` only if there is none. -/
theorem rejectedIn_iff (A : Aes256Gcm) (aadMessage : Message AadBinding) (k : Vector UInt8 32)
    (p : Bytes) (b b' : AadBinding) :
    RejectedIn A aadMessage k p b b' ↔
      ∀ nonce, A.encrypt k nonce (aadMessage.encodeToVec b) p = none := by
  constructor
  · intro hrej nonce
    cases hc : A.encrypt k nonce (aadMessage.encodeToVec b) p with
    | none => rfl
    | some c =>
      have henc := encrypt_eq_ok_iff.mpr ⟨c, hc, rfl⟩
      exact absurd (decrypt_moved henc b') (hrej nonce _ henc _ rfl ⟨"", rfl⟩ p)
  · intro hnone nonce e henc
    obtain ⟨c, hc, -⟩ := encrypt_eq_ok_iff.mp henc
    rw [hnone nonce] at hc
    cases hc

/-- The envelope of `("acme", "writer")` opens in the state record of `("globex", "writer")`. -/
theorem acme_opens_for_globex :
    let r : AgentStateRecord :=
      { (default : AgentStateRecord) with
        tenantId := "globex", agentId := "writer", schemaVersion := 1,
        encryption := some acmeEnvelope }
    stateBinding "acme" "writer" ≠ stateBinding "globex" "writer" ∧
      r.sealedRecord = some ⟨stateBinding "globex" "writer", acmeEnvelope⟩ ∧
      (SealedRecord.decrypt acmeAead testKey ⟨stateBinding "globex" "writer", acmeEnvelope⟩).run =
        done (.ok acmePlaintext) ∧
      ¬ RejectedIn acmeAead (messageOf AadBinding.layout) testKey acmePlaintext
        (stateBinding "acme" "writer") (stateBinding "globex" "writer") := by
  intro r
  have hopens : (SealedRecord.decrypt acmeAead testKey
      ⟨stateBinding "globex" "writer", acmeEnvelope⟩).run = done (.ok acmePlaintext) :=
    decrypt_encrypt encrypt_acme
  refine ⟨by decide, rfl, hopens, ?_⟩
  intro hrej
  exact hrej _ _ encrypt_acme _ rfl ⟨"", rfl⟩ _ hopens

/-! ### Envelopes that abort -/

/-- `decrypt` returns, with `Ok` or with an error. -/
def DecryptReturns (A : Aes256Gcm) (e : EncryptionEnvelope) (key : EncryptionKey) : Prop :=
  ∃ result, (decrypt A e key).run = done result

/-- `Nonce::from_slice` does not look at the length before it copies. -/
theorem nonceFromSlice_of_length_ne {bs : Bytes} (h : bs.length ≠ 12) :
    nonceFromSlice bs = ExceptT.mk (Interaction.panic "assertion `left == right` failed") := by
  rw [nonceFromSlice, sliceToArray, dif_neg h]

/-- An AES envelope with a nonce of another length. -/
theorem decrypt_aes_panics (hs : e.scheme = EncryptionScheme.aes256Gcm.toI32)
    (hlen : e.ivOrNonce.length ≠ 12) :
    (decrypt A e (.aes256Gcm k)).run = Interaction.panic "assertion `left == right` failed" := by
  have htry := EncryptionScheme.tryFrom_eq_some_iff.mpr hs
  simp only [decrypt, htry, nonceFromSlice_of_length_ne hlen]
  rfl

/-- Under an AES key, each envelope that is not an AES envelope returns. -/
theorem decryptReturns_of_scheme (hs : e.scheme ≠ EncryptionScheme.aes256Gcm.toI32) :
    DecryptReturns A e (.aes256Gcm k) := by
  by_cases hp : e.scheme = EncryptionScheme.plaintext.toI32
  · exact ⟨_, decrypt_plaintext hp⟩
  · exact ⟨_, decrypt_mismatch hp hs⟩

/-- And so does each AES envelope whose nonce has twelve bytes. -/
theorem decryptReturns_of_length (hs : e.scheme = EncryptionScheme.aes256Gcm.toI32)
    (hlen : e.ivOrNonce.length = 12) : DecryptReturns A e (.aes256Gcm k) := by
  have hn : e.ivOrNonce = (⟨e.ivOrNonce.toArray, hlen⟩ : Vector UInt8 12).toList := rfl
  unfold DecryptReturns
  rw [decrypt_aes hs hn]
  cases A.decrypt k ⟨e.ivOrNonce.toArray, hlen⟩ e.aad e.ciphertext with
  | none => exact ⟨_, rfl⟩
  | some m => exact ⟨_, rfl⟩

/-- An FHE key decrypts nothing yet: each envelope returns. -/
theorem decryptReturns_fhe {fheKey : Bytes} : DecryptReturns A e (.fheTfheRs fheKey) := by
  unfold DecryptReturns
  rcases htry : EncryptionScheme.tryFrom e.scheme with _ | s
  · simp only [decrypt, htry]
    exact ⟨_, rfl⟩
  · -- One case for each scheme.
    cases s <;> simp only [decrypt, htry] <;> exact ⟨_, rfl⟩

/-- `decrypt` returns for every envelope and every key, but for an AES envelope under an AES key
whose nonce is not twelve bytes long. -/
theorem decrypt_returns_iff (A : Aes256Gcm) (e : EncryptionEnvelope) (key : EncryptionKey) :
    DecryptReturns A e key ↔
      ¬ (e.scheme = EncryptionScheme.aes256Gcm.toI32 ∧ (∃ rawKey, key = .aes256Gcm rawKey) ∧
        e.ivOrNonce.length ≠ 12) := by
  cases key with
  | fheTfheRs fheKey =>
    refine ⟨fun _ hcase => ?_, fun _ => decryptReturns_fhe⟩
    obtain ⟨-, ⟨rawKey, hkey⟩, -⟩ := hcase
    cases hkey
  | aes256Gcm rawKey =>
    constructor
    · intro hret hcase
      obtain ⟨result, hret⟩ := hret
      obtain ⟨hs, -, hlen⟩ := hcase
      rw [decrypt_aes_panics hs hlen] at hret
      cases hret
    · intro hcase
      by_cases hs : e.scheme = EncryptionScheme.aes256Gcm.toI32
      · have hlen : e.ivOrNonce.length = 12 := by
          by_contra hlen
          exact hcase ⟨hs, ⟨rawKey, rfl⟩, hlen⟩
        exact decryptReturns_of_length hs hlen
      · exact decryptReturns_of_scheme hs

/-- The envelope for `("acme", "writer")` without its nonce. -/
theorem not_decryptReturns_noNonce :
    ¬ DecryptReturns acmeAead { acmeEnvelope with ivOrNonce := [] } (.aes256Gcm testKey) := by
  intro hret
  obtain ⟨result, hret⟩ := hret
  rw [decrypt_aes_panics rfl (by decide)] at hret
  cases hret

end SwarmRuntime.State
