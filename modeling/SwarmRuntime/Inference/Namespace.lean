import SwarmRuntime.Lib.Decimal
import SwarmRuntime.Lib.Hex
import SwarmRuntime.State.Proto

/-!
# `SwarmRuntime.Inference.Namespace`: KV cache namespace keys (`namespace.rs`)

`buildNamespaceKey` puts the tenant, the sensitivity, the agent type and the SHA-256 of the
system prompt of a request in a record. `namespaceKeyToPrefix` renders the record as the
string that is put before every cache key. The hash function is a parameter.
-/

set_option autoImplicit false

namespace SwarmRuntime.Inference

open SwarmRuntime.Lib
open SwarmRuntime.State (Bytes)

/-- `SensitivityLevel` (`common.proto`). -/
inductive SensitivityLevel where
  | unspecified
  | pub
  | internal
  | sensitive
  | restricted
  deriving DecidableEq, Repr

namespace SensitivityLevel

/-- The wire value of a level, `as i32`. -/
def toI32 : SensitivityLevel → Int32
  | .unspecified => 0
  | .pub => 1
  | .internal => 2
  | .sensitive => 3
  | .restricted => 4

/-- `SensitivityLevel::try_from`. -/
def tryFrom (n : Int32) : Option SensitivityLevel :=
  if n = 0 then some .unspecified
  else if n = 1 then some .pub
  else if n = 2 then some .internal
  else if n = 3 then some .sensitive
  else if n = 4 then some .restricted
  else none

/-- The generated conversions are inverse to each other. -/
@[simp] theorem tryFrom_toI32 (s : SensitivityLevel) : tryFrom s.toI32 = some s := by
  cases s <;> rfl

end SensitivityLevel

/-- `KVNamespaceKey` (`common.proto`). -/
structure KvNamespaceKey where
  tenantId : String
  sensitivity : Int32
  agentType : String
  prefixHash : Bytes
  deriving DecidableEq, Repr

/-- Build a KV cache namespace key for a given request context. -/
def buildNamespaceKey (sha256 : Bytes → Vector UInt8 32) (tenantId : String)
    (sensitivity : SensitivityLevel) (agentType systemPromptPrefix : String) : KvNamespaceKey :=
  { tenantId := tenantId
    sensitivity := sensitivity.toI32
    agentType := agentType
    prefixHash := (sha256 (utf8Bytes systemPromptPrefix)).toList }

/-- The label of a sensitivity in a prefix. -/
def sensitivityLabel : SensitivityLevel → String
  | .pub => "PUBLIC"
  | .internal => "INTERNAL"
  | .sensitive => "SENSITIVE"
  | .restricted => "RESTRICTED"
  | .unspecified => "UNSPECIFIED"

/-- Render the namespace key as a string prefix for cache lookup. -/
def namespaceKeyToPrefix (key : KvNamespaceKey) : String :=
  let sensitivity := (SensitivityLevel.tryFrom key.sensitivity).getD .unspecified
  key.tenantId ++ ":" ++ sensitivityLabel sensitivity ++ ":" ++ key.agentType ++ ":" ++
    hexEncode key.prefixHash

/-! ### The labels -/

theorem sensitivityLabel_inj {s s' : SensitivityLevel}
    (h : sensitivityLabel s = sensitivityLabel s') : s = s' := by
  cases s <;> cases s' <;> first | rfl | exact absurd h (by decide)

/-- A label does not contain the delimiter. -/
theorem colon_notMem_sensitivityLabel (s : SensitivityLevel) :
    ':' ∉ (sensitivityLabel s).toList := by
  cases s <;> decide

end SwarmRuntime.Inference
