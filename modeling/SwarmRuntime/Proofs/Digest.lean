import SwarmRuntime.Proofs.Alone
import SwarmRuntime.State.Codec

/-!
# `SwarmRuntime.Proofs.Digest`: what the checkpoint digest fixes

The digest of a checkpoint hashes the bytes of the state record and the bytes of the working
memory, one after the other and with nothing between them. The records that `freeze` writes
carry their schema version. In a state record it is the field with the greatest number, 18, so
it ends the record, and no field of a working memory has that number. The bytes therefore have
one reading as a pair (`encodings_inj`).

What is used of the generated code is `WireForm`: the fields of a record come in the order of
their numbers, and the schema version is left out when it is zero. `stateWireForm` and
`memoryWireForm` show it for the codec of this development.

* `encodings_inj`: the concatenation of the two encodings has one reading as a pair.
* `freeze_checkpoint_write`: a freeze that writes its checkpoint has written, to the two primary
  keys, the very bytes that the digest was taken of.
* `digest_pins_pair`: the two together.
-/

set_option autoImplicit false

namespace SwarmRuntime.State

open SwarmRuntime.Lib SwarmRuntime.Lib.Interaction SwarmRuntime.Lib.Wire

/-- The generated code of a record type writes the fields of a record in canonical order, with
the schema version in the field `last`, unless it is zero. -/
structure WireForm {M : Type} (code : Message M) (fields : M → List Field) (last : Nat)
    (schemaVersion : M → UInt32) : Prop where
  encodeToVec : ∀ m, code.encodeToVec m = encodeFields (fields m)
  canonical : ∀ m, Canonical last (fields m)
  schemaVersion : ∀ m, payloadsOf last (fields m) =
    if schemaVersion m = 0 then [] else [.varint (schemaVersion m).toUInt64]

/-! ### The codec of this development -/

theorem ordered_stateLayout : AgentStateRecord.layout.Ordered 18 := by
  refine Layout.Ordered.map ?_ _
  iterate 18 refine Layout.Ordered.cons (by decide) (by decide) ?_
  exact Layout.ordered_nil _ _

theorem ordered_memoryLayout : WorkingMemoryRecord.layout.Ordered 10 := by
  refine Layout.Ordered.map ?_ _
  iterate 10 refine Layout.Ordered.cons (by decide) (by decide) ?_
  exact Layout.ordered_nil _ _

/-- The state codec writes canonical records. -/
theorem stateWireForm : WireForm (messageOf AgentStateRecord.layout)
    AgentStateRecord.layout.fields 18 AgentStateRecord.schemaVersion where
  encodeToVec _ := rfl
  canonical := ordered_stateLayout
  schemaVersion m := by
    rw [AgentStateRecord.layout, Layout.fields_map]
    simp (disch := decide) only [Layout.payloadsOf_fields_cons_of_ne]
    rw [Layout.payloadsOf_fields_cons_self]
    rfl

/-- The memory codec writes canonical records. -/
theorem memoryWireForm : WireForm (messageOf WorkingMemoryRecord.layout)
    WorkingMemoryRecord.layout.fields 10 WorkingMemoryRecord.schemaVersion where
  encodeToVec _ := rfl
  canonical := ordered_memoryLayout
  schemaVersion m := by
    rw [WorkingMemoryRecord.layout, Layout.fields_map]
    simp (disch := decide) only [Layout.payloadsOf_fields_cons_of_ne]
    rw [Layout.payloadsOf_fields_cons_self]
    rfl

/-! ### The digest -/

section
variable {B : Build} {stateFields : AgentStateRecord → List Field}
  {memoryFields : WorkingMemoryRecord → List Field}

theorem WireForm.length_le {M : Type} {code : Message M} {fields : M → List Field} {last : Nat}
    {schemaVersion : M → UInt32} (h : WireForm code fields last schemaVersion) (m : M) :
    (payloadsOf last (fields m)).length ≤ 1 := by
  rw [h.schemaVersion m]
  split
  · exact Nat.zero_le 1
  · exact Nat.le_refl 1

theorem WireForm.length_eq {M : Type} {code : Message M} {fields : M → List Field} {last : Nat}
    {schemaVersion : M → UInt32} (h : WireForm code fields last schemaVersion) {m : M}
    (hm : schemaVersion m ≠ 0) : (payloadsOf last (fields m)).length = 1 := by
  rw [h.schemaVersion m, if_neg hm]
  rfl

/-- The bytes of a state record with a schema version, followed by those of a working memory,
are those of no other pair. -/
theorem encodings_inj (hstate : WireForm B.state stateFields 18 AgentStateRecord.schemaVersion)
    (hmemory : WireForm B.memory memoryFields 10 WorkingMemoryRecord.schemaVersion)
    {s s' : AgentStateRecord} {m m' : WorkingMemoryRecord} (hs : s.schemaVersion ≠ 0)
    (h : B.state.encodeToVec s' ++ B.memory.encodeToVec m' =
      B.state.encodeToVec s ++ B.memory.encodeToVec m) :
    B.state.encodeToVec s' = B.state.encodeToVec s ∧
      B.memory.encodeToVec m' = B.memory.encodeToVec m := by
  rw [hstate.encodeToVec, hstate.encodeToVec, hmemory.encodeToVec, hmemory.encodeToVec] at h
  have hparts := encodeFields_append_inj (by omega) (hstate.canonical s) (hmemory.canonical m)
    (hstate.canonical s') (hmemory.canonical m') (hstate.length_eq hs) (hstate.length_le s') h
  rw [hstate.encodeToVec, hstate.encodeToVec, hmemory.encodeToVec, hmemory.encodeToVec,
    hparts.1, hparts.2]
  exact ⟨rfl, rfl⟩

/-- Bytes determine the record. -/
theorem Message.encodeToVec_inj {M : Type} (code : Message M) {m m' : M}
    (h : code.encodeToVec m = code.encodeToVec m') : m = m' := by
  have hdec := code.decode_encodeToVec m
  rw [h, code.decode_encodeToVec] at hdec
  exact (Except.ok.inj hdec).symm

/-- When a freeze is about to write its checkpoint, it has written its memory record and its state
record to the primary keys, and the checkpoint is the one of these two records. -/
theorem freeze_checkpoint_write {i : FreezeInput} {tr : Transcript Reply} {seq : UInt64}
    {value : Bytes} {etag : Option ETag} {ttl : TtlPolicy}
    {next : Reply (.set (checkpointKey i.tenantId i.agentId seq) value etag ttl) →
      Async (StateResult UInt64)}
    (h : Trace (freeze B i).run tr
      (ask (.set (checkpointKey i.tenantId i.agentId seq) value etag ttl) next)) :
    ∃ c₁ c₂ c₄ e₁ e₂, ⟨i.memoryWrite B c₁, .ok e₁⟩ ∈ tr ∧ ⟨i.stateWrite B c₁ c₂, .ok e₂⟩ ∈ tr ∧
      value = B.checkpoint.encodeToVec (i.frozenCheckpoint B c₁ c₂ seq c₄) := by
  obtain ⟨-, c₁, c₂, c₃, c₄, e₁, e₂, -, htr, hvalue, -, -⟩ := (freeze_write h).eq_checkpoint rfl
  refine ⟨c₁, c₂, c₄, e₁, e₂, ?_, ?_, hvalue⟩
  · simp [htr]
  · simp [htr]

/-- The digest of a frozen checkpoint fixes the written pair. A freeze that writes its checkpoint
has written the two records to the primary keys before. No other records have the bytes that the
digest was taken of, and records whose bytes do not collide with these under the hash verify
against it exactly when they are the pair that the freeze wrote. -/
theorem digest_pins_pair (B : Build) {stateFields : AgentStateRecord → List Field}
    {memoryFields : WorkingMemoryRecord → List Field}
    (hstate : WireForm B.state stateFields 18 AgentStateRecord.schemaVersion)
    (hmemory : WireForm B.memory memoryFields 10 WorkingMemoryRecord.schemaVersion)
    (hlatest : B.latestSchemaVersion ≠ 0) (i : FreezeInput) :
    (∀ tr seq value etag ttl next,
      Trace (freeze B i).run tr
        (ask (.set (checkpointKey i.tenantId i.agentId seq) value etag ttl) next) →
      ∃ c₁ c₂ c₄ e₁ e₂, ⟨i.memoryWrite B c₁, .ok e₁⟩ ∈ tr ∧ ⟨i.stateWrite B c₁ c₂, .ok e₂⟩ ∈ tr ∧
        value = B.checkpoint.encodeToVec (i.frozenCheckpoint B c₁ c₂ seq c₄)) ∧
    ∀ (c₁ c₂ c₄ : Option Duration) (seq : UInt64) (s' : AgentStateRecord)
      (m' : WorkingMemoryRecord),
      (B.state.encodeToVec s' ++ B.memory.encodeToVec m'
          = i.stateBytes B c₁ c₂ ++ i.memBytes B c₁ →
        B.state.encodeToVec s' = i.stateBytes B c₁ c₂ ∧
          B.memory.encodeToVec m' = i.memBytes B c₁) ∧
      ((B.sha256 (B.state.encodeToVec s' ++ B.memory.encodeToVec m') =
          B.sha256 (i.stateBytes B c₁ c₂ ++ i.memBytes B c₁) →
        B.state.encodeToVec s' ++ B.memory.encodeToVec m' =
          i.stateBytes B c₁ c₂ ++ i.memBytes B c₁) →
        (B.sha256 (B.state.encodeToVec s' ++ B.memory.encodeToVec m') =
            (i.frozenCheckpoint B c₁ c₂ seq c₄).sha256Digest ↔
          s' = i.frozenState B c₁ c₂ ∧ m' = i.frozenMemory B c₁)) := by
  refine ⟨fun tr seq value etag ttl next htrace => freeze_checkpoint_write htrace, ?_⟩
  intro c₁ c₂ c₄ seq s' m'
  have hversion : (i.frozenState B c₁ c₂).schemaVersion ≠ 0 := hlatest
  have hdigest : (i.frozenCheckpoint B c₁ c₂ seq c₄).sha256Digest =
      B.sha256 (i.stateBytes B c₁ c₂ ++ i.memBytes B c₁) := rfl
  refine ⟨encodings_inj hstate hmemory hversion, ?_⟩
  intro hcollide
  rw [hdigest]
  constructor
  · intro hsame
    have hparts := encodings_inj hstate hmemory hversion (hcollide hsame)
    exact ⟨B.state.encodeToVec_inj hparts.1, B.memory.encodeToVec_inj hparts.2⟩
  · rintro ⟨rfl, rfl⟩
    rfl

end

/-- In a release build, the checkpoint of a freeze of the filled records verifies against the
written pair, and not against a pair whose state record has one turn more. -/
theorem digest_pins_pair_filled :
    let i := filledInput "acme" "writer"
    let s' := { i.frozenState releaseBuild none none with totalTurns := 13 }
    let digest := (i.frozenCheckpoint releaseBuild none none 7 none).sha256Digest
    releaseBuild.sha256 (i.stateBytes releaseBuild none none ++ i.memBytes releaseBuild none)
        = digest ∧
      releaseBuild.sha256 (releaseBuild.state.encodeToVec s' ++ i.memBytes releaseBuild none)
        ≠ digest := by
  intro i s' digest
  have hpins := (digest_pins_pair releaseBuild stateWireForm memoryWireForm (by decide) i).2 none
    none none 7
  constructor
  · exact ((hpins (i.frozenState releaseBuild none none) (i.frozenMemory releaseBuild none)).2
      fun _ => rfl).mpr ⟨rfl, rfl⟩
  · -- The two digests differ, so these bytes do not collide.
    have hdiffer : releaseBuild.sha256 (releaseBuild.state.encodeToVec s' ++
        releaseBuild.memory.encodeToVec (i.frozenMemory releaseBuild none)) ≠
          releaseBuild.sha256 (i.stateBytes releaseBuild none none ++
            i.memBytes releaseBuild none) := by
      decide +kernel
    have hverifies := (hpins s' (i.frozenMemory releaseBuild none)).2 fun h => absurd h hdiffer
    intro hdigest
    have hstate : s' = i.frozenState releaseBuild none none := (hverifies.mp hdigest).1
    have hturns : (13 : UInt64) = 12 := congrArg AgentStateRecord.totalTurns hstate
    exact absurd hturns (by decide)

end SwarmRuntime.State
