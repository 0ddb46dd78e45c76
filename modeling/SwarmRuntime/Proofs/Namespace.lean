import SwarmRuntime.Inference.Namespace
import SwarmRuntime.Lib.Delimited
import SwarmRuntime.Lib.Sha256

/-!
# `SwarmRuntime.Proofs.Namespace`: which requests share a cache prefix

A prefix is `{tenant_id}:{sensitivity}:{agent_type}:{prefix_hash_hex}`. The digest has a fixed
width and the label of the sensitivity contains no colon, so a prefix can be read from its
right end up to the agent type. The tenant and the agent type are not checked, and a colon in
them moves the place of the label: `Swallows` says when the tenant of one request contains the
tenant and the label of another one.

`cachePrefix_eq_iff` is the whole account: two requests share a prefix when tenant,
sensitivity, agent type and digest agree, or when one of them swallows the other.
-/

set_option autoImplicit false

namespace SwarmRuntime.Proofs

open SwarmRuntime.Lib SwarmRuntime.Inference
open SwarmRuntime.State (Bytes)

/-- The arguments of `buildNamespaceKey`. -/
structure RequestContext where
  tenantId : String
  sensitivity : SensitivityLevel
  agentType : String
  systemPromptPrefix : String
  deriving DecidableEq, Repr

namespace RequestContext

/-- The namespace key of a request. -/
def namespaceKey (sha256 : Bytes → Vector UInt8 32) (c : RequestContext) : KvNamespaceKey :=
  buildNamespaceKey sha256 c.tenantId c.sensitivity c.agentType c.systemPromptPrefix

/-- The cache prefix of a request. -/
def cachePrefix (sha256 : Bytes → Vector UInt8 32) (c : RequestContext) : String :=
  namespaceKeyToPrefix (c.namespaceKey sha256)

/-- The label of the sensitivity of a request. -/
def label (c : RequestContext) : String := sensitivityLabel c.sensitivity

/-- Two requests of one tenant, sensitivity and agent type, with prompts of one digest. -/
structure SameNamespace (sha256 : Bytes → Vector UInt8 32) (c c' : RequestContext) : Prop where
  tenantId : c.tenantId = c'.tenantId
  sensitivity : c.sensitivity = c'.sensitivity
  agentType : c.agentType = c'.agentType
  prefixHash : (c.namespaceKey sha256).prefixHash = (c'.namespaceKey sha256).prefixHash

/-- The tenant of `c'` starts with the tenant and the label of `c`, and the agent type of `c`
ends with the label and the agent type of `c'`. What is between them, if anything, is the same
in both. -/
def Swallows (sha256 : Bytes → Vector UInt8 32) (c c' : RequestContext) : Prop :=
  (c.namespaceKey sha256).prefixHash = (c'.namespaceKey sha256).prefixHash ∧
    ((c'.tenantId = c.tenantId ++ ":" ++ c.label ∧
        c.agentType = c'.label ++ ":" ++ c'.agentType) ∨
      ∃ mid, c'.tenantId = c.tenantId ++ ":" ++ c.label ++ ":" ++ mid ∧
        c.agentType = mid ++ ":" ++ c'.label ++ ":" ++ c'.agentType)

/-! ### Reading a prefix -/

variable {sha256 : Bytes → Vector UInt8 32} {c c' : RequestContext}

/-- The characters of a prefix before the last colon. -/
def scope (c : RequestContext) : List Char :=
  c.tenantId.toList ++ ':' :: (c.label.toList ++ ':' :: c.agentType.toList)

theorem toList_cachePrefix :
    (c.cachePrefix sha256).toList =
      (c.scope ++ [':']) ++ (hexEncode (c.namespaceKey sha256).prefixHash).toList := by
  show (c.tenantId ++ ":" ++ sensitivityLabel ((SensitivityLevel.tryFrom c.sensitivity.toI32).getD
    .unspecified) ++ ":" ++ c.agentType ++ ":" ++ _).toList = _
  rw [SensitivityLevel.tryFrom_toI32]
  simp [scope, label, namespaceKey, String.toList_append]

theorem length_prefixHash : (c.namespaceKey sha256).prefixHash.length = 32 :=
  Vector.length_toList

/-- The digest has a fixed width: a prefix fixes it, and what is before it. -/
theorem cachePrefix_eq_iff_scope :
    c.cachePrefix sha256 = c'.cachePrefix sha256 ↔
      c.scope = c'.scope ∧
        (c.namespaceKey sha256).prefixHash = (c'.namespaceKey sha256).prefixHash := by
  rw [← String.toList_inj, toList_cachePrefix, toList_cachePrefix]
  constructor
  · intro h
    have hlen : (hexEncode (c.namespaceKey sha256).prefixHash).toList.length =
        (hexEncode (c'.namespaceKey sha256).prefixHash).toList.length := by
      rw [length_toList_hexEncode, length_toList_hexEncode, length_prefixHash, length_prefixHash]
    have hparts := List.append_inj' h hlen
    exact ⟨(List.append_inj' hparts.1 rfl).1, hexEncode_inj (String.toList_inj.mp hparts.2)⟩
  · rintro ⟨hscope, hhash⟩
    rw [hscope, hhash]

theorem colon_notMem_label : ':' ∉ c.label.toList := colon_notMem_sensitivityLabel c.sensitivity

/-- A label ends at the first colon. -/
theorem label_tail_inj {xs ys : List Char}
    (h : c.label.toList ++ ':' :: xs = c'.label.toList ++ ':' :: ys) :
    c.sensitivity = c'.sensitivity ∧ xs = ys := by
  have hparts := append_cons_inj_of_first colon_notMem_label colon_notMem_label h
  exact ⟨sensitivityLabel_inj (String.toList_inj.mp hparts.1), hparts.2⟩

/-- The tenant of `c` is shorter than that of `c'`, which goes on with `zs`. -/
theorem swallows_of_longer_tenant {zs : List Char}
    (hhash : (c.namespaceKey sha256).prefixHash = (c'.namespaceKey sha256).prefixHash)
    (htenant : c'.tenantId.toList = c.tenantId.toList ++ ':' :: zs)
    (hrest : c.label.toList ++ ':' :: c.agentType.toList =
      zs ++ ':' :: (c'.label.toList ++ ':' :: c'.agentType.toList)) :
    Swallows sha256 c c' := by
  refine ⟨hhash, ?_⟩
  rcases append_cons_cases_of_first colon_notMem_label hrest with
    ⟨rfl, hagent⟩ | ⟨mid, rfl, hagent⟩
  · left
    constructor
    · apply String.toList_inj.mp
      simpa [String.toList_append] using htenant
    · apply String.toList_inj.mp
      simpa [String.toList_append] using hagent
  · right
    refine ⟨String.ofList mid, ?_, ?_⟩
    · apply String.toList_inj.mp
      simpa [String.toList_append] using htenant
    · apply String.toList_inj.mp
      simpa [String.toList_append] using hagent

theorem Swallows.scope_eq (h : Swallows sha256 c c') : c.scope = c'.scope := by
  rcases h.2 with ⟨htenant, hagent⟩ | ⟨mid, htenant, hagent⟩
  · simp [scope, htenant, hagent, String.toList_append]
  · simp [scope, htenant, hagent, String.toList_append]

/-- A tenant that swallows another one is longer. -/
theorem Swallows.tenantId_ne (h : Swallows sha256 c c') : c.tenantId ≠ c'.tenantId := by
  intro heq
  have hlen := congrArg (fun s => s.toList.length) heq
  rcases h.2 with ⟨htenant, -⟩ | ⟨mid, htenant, -⟩
  · simp [htenant, String.toList_append] at hlen
  · simp [htenant, String.toList_append] at hlen

/-- Two requests share a prefix exactly when they are of one namespace or one of them swallows
the other. -/
theorem cachePrefix_eq_iff :
    c.cachePrefix sha256 = c'.cachePrefix sha256 ↔
      SameNamespace sha256 c c' ∨ Swallows sha256 c c' ∨ Swallows sha256 c' c := by
  rw [cachePrefix_eq_iff_scope]
  constructor
  · rintro ⟨hscope, hhash⟩
    rcases append_cons_eq_append_cons_iff.mp hscope with
      ⟨htenant, hrest⟩ | ⟨zs, htenant, hrest⟩ | ⟨zs, htenant, hrest⟩
    · have hparts := label_tail_inj hrest
      exact .inl ⟨String.toList_inj.mp htenant, hparts.1, String.toList_inj.mp hparts.2, hhash⟩
    · exact .inr (.inl (swallows_of_longer_tenant hhash htenant hrest))
    · exact .inr (.inr (swallows_of_longer_tenant hhash.symm htenant hrest))
  · rintro (hsame | hlong | hlong)
    · refine ⟨?_, hsame.prefixHash⟩
      simp [scope, label, hsame.tenantId, hsame.sensitivity, hsame.agentType]
    · exact ⟨hlong.scope_eq, hlong.1⟩
    · exact ⟨hlong.scope_eq.symm, hlong.1.symm⟩

/-! ### Isolation -/

/-- A tenant without a colon swallows nobody. -/
theorem not_swallows_of_tenant (h : ':' ∉ c'.tenantId.toList) : ¬ Swallows sha256 c c' := by
  intro hlong
  rcases hlong.2 with ⟨htenant, -⟩ | ⟨mid, htenant, -⟩
  · exact h (by simp [htenant, String.toList_append])
  · exact h (by simp [htenant, String.toList_append])

end RequestContext

open RequestContext

/-- Slugs as tenants are enough: without a colon in the tenants, a shared prefix is a shared
namespace, for any agent types. -/
theorem cachePrefix_isolates_slugs {sha256 : Bytes → Vector UInt8 32} {c c' : RequestContext}
    (hc : ':' ∉ c.tenantId.toList) (hc' : ':' ∉ c'.tenantId.toList)
    (h : c.cachePrefix sha256 = c'.cachePrefix sha256) : SameNamespace sha256 c c' := by
  rcases cachePrefix_eq_iff.mp h with hsame | hlong | hlong
  · exact hsame
  · exact absurd hlong (not_swallows_of_tenant hc')
  · exact absurd hlong (not_swallows_of_tenant hc)

/-- A shared prefix tells two requests' namespaces apart exactly when neither request swallows
the other. -/
theorem cachePrefix_isolates_iff (sha256 : Bytes → Vector UInt8 32) (c c' : RequestContext) :
    (c.cachePrefix sha256 = c'.cachePrefix sha256 → SameNamespace sha256 c c') ↔
      ¬ Swallows sha256 c c' ∧ ¬ Swallows sha256 c' c := by
  constructor
  · intro hiso
    constructor
    · intro hlong
      exact hlong.tenantId_ne (hiso (cachePrefix_eq_iff.mpr (.inr (.inl hlong)))).tenantId
    · intro hlong
      exact hlong.tenantId_ne (hiso (cachePrefix_eq_iff.mpr (.inr (.inr hlong)))).tenantId.symm
  · rintro ⟨hnot, hnot'⟩ heq
    rcases cachePrefix_eq_iff.mp heq with hsame | hlong | hlong
    · exact hsame
    · exact absurd hlong hnot
    · exact absurd hlong hnot'

/-- A public request of `acme` and a restricted one of `acme:PUBLIC`, with the same prompt,
share the prefix `acme:PUBLIC:RESTRICTED:bot:…`. -/
theorem cachePrefix_crosses_tenants :
    let c : RequestContext := ⟨"acme", .pub, "RESTRICTED:bot", "You are a bot."⟩
    let c' : RequestContext := ⟨"acme:PUBLIC", .restricted, "bot", "You are a bot."⟩
    c.cachePrefix sha256Digest = c'.cachePrefix sha256Digest ∧
      c.tenantId ≠ c'.tenantId ∧ c.sensitivity ≠ c'.sensitivity := by
  intro c c'
  have hlong : Swallows sha256Digest c c' := ⟨rfl, .inl ⟨by decide, by decide⟩⟩
  exact ⟨cachePrefix_eq_iff.mpr (.inr (.inl hlong)), by decide, by decide⟩

end SwarmRuntime.Proofs
