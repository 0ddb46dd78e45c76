import SwarmRuntime.Lib.Delimited
import SwarmRuntime.State.Store

/-!
# `SwarmRuntime.Proofs.Identifiers`: keys of accepted identifiers

`validate_id` accepts a non-empty identifier that does not contain the separator `||`. It
accepts one that starts or ends with half of it. `a|` joined with `b` and `a` joined with `|b`
are then the same string, and so are the keys of these two agents under every builder
(`Slides`). `key_inj_iff` says that nothing else goes wrong: two applications of the five
builders to accepted identifiers meet only where they are the same application, or one slides
into the other.

`checkpointKey_sorts` is about one agent, with any identifiers: its checkpoint keys sort as
their sequence numbers.
-/

set_option autoImplicit false

namespace SwarmRuntime.State

open SwarmRuntime.Lib

/-! ### What `validate_id` accepts -/

section
variable {debug : String → String} {value field : String}

theorem strContains_KEY_SEP :
    strContains value KEY_SEP = false ↔ PairFree '|' value.toList := by
  show decide (['|', '|'] <:+: value.toList) = false ↔ ¬ ['|', '|'] <:+: value.toList
  exact decide_eq_false_iff_not

/-- An accepted identifier is not empty and does not contain the separator. -/
theorem validateId_eq_ok_iff :
    DaprStateStore.validateId debug value field = .ok () ↔
      value ≠ "" ∧ PairFree '|' value.toList := by
  rw [← strContains_KEY_SEP]
  unfold DaprStateStore.validateId
  cases strContains value KEY_SEP with
  | true => simp [throw, throwThe, MonadExceptOf.throw, bind, Except.bind]
  | false =>
    by_cases hempty : value = ""
    · simp [hempty, throw, throwThe, MonadExceptOf.throw, bind, Except.bind]
    · simp [hempty, pure, Except.pure]

end

/-! ### Applications of the builders -/

/-- A key builder with its suffix argument. -/
inductive KeyBuilder where
  | agentState
  | workingMemory
  | checkpoint (seq : UInt64)
  | conversationTurn (turnId : String)
  | toolLog (logId : String)
  deriving DecidableEq, Repr

/-- A key builder applied to the identifiers of an agent. -/
structure KeyCall where
  builder : KeyBuilder
  tenantId : String
  agentId : String
  deriving DecidableEq, Repr

/-- The key that is built. -/
def KeyCall.key (k : KeyCall) : String :=
  match k.builder with
  | .agentState => agentStateKey k.tenantId k.agentId
  | .workingMemory => workingMemoryKey k.tenantId k.agentId
  | .checkpoint seq => checkpointKey k.tenantId k.agentId seq
  | .conversationTurn turnId => conversationTurnKey k.tenantId k.agentId turnId
  | .toolLog logId => toolLogKey k.tenantId k.agentId logId

/-- `validate_id` accepts the suffix argument, where that is an identifier. -/
def KeyBuilder.Accepted (debug : String → String) : KeyBuilder → Prop
  | .agentState => True
  | .workingMemory => True
  | .checkpoint _ => True
  | .conversationTurn turnId => DaprStateStore.validateId debug turnId "turn_id" = .ok ()
  | .toolLog logId => DaprStateStore.validateId debug logId "log_id" = .ok ()

/-- `validate_id` accepts every identifier of an application. -/
structure KeyCall.Accepted (debug : String → String) (k : KeyCall) : Prop where
  tenantId : DaprStateStore.validateId debug k.tenantId "tenant_id" = .ok ()
  agentId : DaprStateStore.validateId debug k.agentId "agent_id" = .ok ()
  suffix : k.builder.Accepted debug

/-- The builder and the suffix agree, and a half of the separator that ends the tenant of `k'`
starts the agent of `k`. -/
def KeyCall.Slides (k k' : KeyCall) : Prop :=
  k.builder = k'.builder ∧ k'.tenantId = k.tenantId ++ "|" ∧ k.agentId = "|" ++ k'.agentId

/-! ### The suffixes -/

/-- The characters of a key behind the second separator. -/
def KeyBuilder.suffix : KeyBuilder → List Char
  | .agentState => ['s', 't', 'a', 't', 'e']
  | .workingMemory => ['w', 'o', 'r', 'k', 'i', 'n', 'g', '_', 'm', 'e', 'm', 'o', 'r', 'y']
  | .checkpoint seq =>
      ['c', 'h', 'e', 'c', 'k', 'p', 'o', 'i', 'n', 't', '|', '|'] ++
        (zeroPadded 20 seq.toNat).toList
  | .conversationTurn turnId => ['c', 'o', 'n', 'v', '|', '|'] ++ turnId.toList
  | .toolLog logId => ['t', 'o', 'o', 'l', '_', 'l', 'o', 'g', '|', '|'] ++ logId.toList

/-- No suffix starts with a half of the separator. -/
theorem KeyBuilder.suffix_ne_cons (b : KeyBuilder) (xs : List Char) : b.suffix ≠ '|' :: xs := by
  cases b <;> simp [KeyBuilder.suffix]

/-- The suffix names the builder and its argument. -/
theorem KeyBuilder.suffix_inj {b b' : KeyBuilder} (h : b.suffix = b'.suffix) : b = b' := by
  cases b with
  | agentState => cases b' <;> simp [KeyBuilder.suffix] at h ⊢
  | workingMemory => cases b' <;> simp [KeyBuilder.suffix] at h ⊢
  | checkpoint seq =>
    cases b' with
    | checkpoint seq' =>
      have hdigits := String.toList_inj.mp (List.append_cancel_left h)
      have hseq := (zeroPadded_inj (by decide) (seq_lt seq) (seq_lt seq')).mp hdigits
      rw [UInt64.toNat_inj.mp hseq]
    | _ => simp [KeyBuilder.suffix] at h
  | conversationTurn turnId =>
    cases b' with
    | conversationTurn turnId' => rw [String.toList_inj.mp (List.append_cancel_left h)]
    | _ => simp [KeyBuilder.suffix] at h
  | toolLog logId =>
    cases b' with
    | toolLog logId' => rw [String.toList_inj.mp (List.append_cancel_left h)]
    | _ => simp [KeyBuilder.suffix] at h

namespace KeyCall

variable {debug : String → String} {k k' : KeyCall}

theorem toList_key (k : KeyCall) :
    k.key.toList = k.tenantId.toList ++ '|' :: '|' ::
      (k.agentId.toList ++ '|' :: '|' :: k.builder.suffix) := by
  obtain ⟨b, t, a⟩ := k
  cases b <;>
    simp [key, agentStateKey, workingMemoryKey, checkpointKey, conversationTurnKey, toolLogKey,
      KEY_SEP, KeyBuilder.suffix, String.toList_append]

theorem Accepted.tenantId_pairFree (h : k.Accepted debug) : PairFree '|' k.tenantId.toList :=
  (validateId_eq_ok_iff.mp h.tenantId).2

theorem Accepted.agentId_pairFree (h : k.Accepted debug) : PairFree '|' k.agentId.toList :=
  (validateId_eq_ok_iff.mp h.agentId).2

theorem Accepted.agentId_ne_nil (h : k.Accepted debug) : k.agentId.toList ≠ [] := by
  have hne := (validateId_eq_ok_iff.mp h.agentId).1
  intro hnil
  exact hne (String.toList_inj.mp hnil)

/-! ### Cutting a key -/

/-- Behind the first separator, the agent and the suffix are determined when both agents are
free of the separator. -/
theorem agent_suffix_inj {xs xs' : List Char} {b b' : KeyBuilder} (hxs : PairFree '|' xs)
    (hxs' : PairFree '|' xs')
    (h : xs ++ '|' :: '|' :: b.suffix = xs' ++ '|' :: '|' :: b'.suffix) : xs = xs' ∧ b = b' := by
  rcases (append_pair_eq_append_pair_iff hxs hxs').mp h with ⟨heq, hb⟩ | ⟨-, hb⟩ | ⟨-, hb⟩
  · exact ⟨heq, KeyBuilder.suffix_inj hb⟩
  · exact absurd hb (b.suffix_ne_cons _)
  · exact absurd hb (b'.suffix_ne_cons _)

/-- The tenant of `k'` is that of `k` and one character more. -/
theorem slides_of_longer_tenant (hk : k.Accepted debug) (hk' : k'.Accepted debug)
    (htenant : k'.tenantId.toList = k.tenantId.toList ++ ['|'])
    (hrest : k.agentId.toList ++ '|' :: '|' :: k.builder.suffix =
      '|' :: (k'.agentId.toList ++ '|' :: '|' :: k'.builder.suffix)) : k.Slides k' := by
  have hagent := hk.agentId_pairFree
  cases hxs : k.agentId.toList with
  | nil => exact absurd hxs hk.agentId_ne_nil
  | cons x xs =>
    rw [hxs] at hrest hagent
    obtain ⟨rfl, htail⟩ := List.cons.inj hrest
    have hparts := agent_suffix_inj hagent.of_cons hk'.agentId_pairFree htail
    refine ⟨hparts.2, ?_, ?_⟩
    · apply String.toList_inj.mp
      simpa [String.toList_append] using htenant
    · apply String.toList_inj.mp
      simp [String.toList_append, hxs, hparts.1]

theorem Slides.key_eq (h : k.Slides k') : k.key = k'.key := by
  apply String.toList_inj.mp
  rw [toList_key, toList_key, h.1, h.2.1, h.2.2]
  simp [String.toList_append]

/-- Two applications of one key are the same, or one slides into the other. -/
theorem key_eq_iff (hk : k.Accepted debug) (hk' : k'.Accepted debug) :
    k.key = k'.key ↔ k = k' ∨ k.Slides k' ∨ k'.Slides k := by
  constructor
  · intro h
    have hlist := congrArg String.toList h
    rw [toList_key, toList_key] at hlist
    rcases (append_pair_eq_append_pair_iff hk.tenantId_pairFree hk'.tenantId_pairFree).mp hlist with
      ⟨htenant, hrest⟩ | ⟨htenant, hrest⟩ | ⟨htenant, hrest⟩
    · have hparts := agent_suffix_inj hk.agentId_pairFree hk'.agentId_pairFree hrest
      left
      obtain ⟨b, t, a⟩ := k
      obtain ⟨b', t', a'⟩ := k'
      rw [KeyCall.mk.injEq]
      exact ⟨hparts.2, String.toList_inj.mp htenant, String.toList_inj.mp hparts.1⟩
    · exact .inr (.inl (slides_of_longer_tenant hk hk' htenant hrest))
    · exact .inr (.inr (slides_of_longer_tenant hk' hk htenant hrest))
  · rintro (rfl | hslide | hslide)
    · rfl
    · exact hslide.key_eq
    · exact hslide.key_eq.symm

/-- One of two applications that slide has the longer tenant. -/
theorem Slides.ne (h : k.Slides k') : k ≠ k' := by
  rintro rfl
  have hlen := congrArg (fun s => s.toList.length) h.2.1
  simp [String.toList_append] at hlen

/-- A key names its application exactly when neither application slides into the other. -/
theorem key_inj_iff (hk : k.Accepted debug) (hk' : k'.Accepted debug) :
    (k.key = k'.key → k = k') ↔ ¬ k.Slides k' ∧ ¬ k'.Slides k := by
  constructor
  · intro hinj
    constructor
    · intro hslide
      exact hslide.ne (hinj hslide.key_eq)
    · intro hslide
      exact hslide.ne (hinj hslide.key_eq.symm).symm
  · rintro ⟨hnot, hnot'⟩ heq
    rcases (key_eq_iff hk hk').mp heq with hsame | hslide | hslide
    · exact hsame
    · exact absurd hslide hnot
    · exact absurd hslide hnot'

/-- The equivalence for a state key and a checkpoint key of one agent. -/
theorem key_inj_iff_state_checkpoint :
    let k : KeyCall := ⟨.agentState, "tenant-a", "agent-b"⟩
    let k' : KeyCall := ⟨.checkpoint 7, "tenant-a", "agent-b"⟩
    (k.key = k'.key → k = k') ↔ ¬ k.Slides k' ∧ ¬ k'.Slides k :=
  @key_inj_iff (fun s => "\"" ++ s ++ "\"") _ _ ⟨by decide, by decide, trivial⟩
    ⟨by decide, by decide, trivial⟩

/-- `validate_id` accepts the identifiers of the agents `("a", "|b")` and `("a|", "b")`, which
share their state key. -/
theorem key_collision_of_accepted :
    let k : KeyCall := ⟨.agentState, "a", "|b"⟩
    let k' : KeyCall := ⟨.agentState, "a|", "b"⟩
    k.Accepted (fun s => "\"" ++ s ++ "\"") ∧ k'.Accepted (fun s => "\"" ++ s ++ "\"") ∧
      k.key = k'.key ∧ k ≠ k' := by
  intro k k'
  exact ⟨⟨by decide, by decide, trivial⟩, ⟨by decide, by decide, trivial⟩, by decide, by decide⟩

end KeyCall

/-! ### Checkpoint keys of one agent -/

/-- What the checkpoint keys of an agent have in common. -/
def checkpointPrefix (tenantId agentId : String) : String :=
  tenantId ++ KEY_SEP ++ agentId ++ KEY_SEP ++ "checkpoint" ++ KEY_SEP

theorem checkpointKey_eq_append (t a : String) (seq : UInt64) :
    checkpointKey t a seq = checkpointPrefix t a ++ zeroPadded 20 seq.toNat := rfl

/-- The number takes twenty bytes in each checkpoint key, also where it has twenty digits. -/
theorem length_checkpointKey (t a : String) (seq : UInt64) :
    (utf8Bytes (checkpointKey t a seq)).length
      = (utf8Bytes (checkpointPrefix t a)).length + 20 := by
  rw [checkpointKey_eq_append, utf8Bytes_append, List.length_append,
    utf8Bytes_zeroPadded (by decide) (seq_lt seq), List.length_map, length_fixedDigits]

theorem prefix_checkpointKey (t a : String) (seq : UInt64) :
    utf8Bytes (checkpointPrefix t a) <+: utf8Bytes (checkpointKey t a seq) := by
  rw [checkpointKey_eq_append, utf8Bytes_append]
  exact List.prefix_append _ _

/-- The checkpoint keys of an agent sort, as byte strings, by sequence number. They have one
length and one prefix, and among any of them the greatest key is the one with the greatest
number. -/
theorem checkpointKey_sorts (t a : String) (m n : UInt64) :
    (utf8Bytes (checkpointKey t a m) < utf8Bytes (checkpointKey t a n) ↔ m < n) ∧
      (utf8Bytes (checkpointKey t a m)).length = (utf8Bytes (checkpointKey t a n)).length ∧
      utf8Bytes (checkpointPrefix t a) <+: utf8Bytes (checkpointKey t a m) ∧
      utf8Bytes (checkpointPrefix t a) <+: utf8Bytes (checkpointKey t a n) ∧
      ∀ seqs : Set UInt64,
        (∀ k ∈ seqs, utf8Bytes (checkpointKey t a k) ≤ utf8Bytes (checkpointKey t a m)) ↔
          ∀ k ∈ seqs, k ≤ m := by
  refine ⟨checkpointKey_bytes_lt, ?_, prefix_checkpointKey t a m,
    prefix_checkpointKey t a n, ?_⟩
  · rw [length_checkpointKey, length_checkpointKey]
  · intro seqs
    have hle : ∀ k, utf8Bytes (checkpointKey t a k) ≤ utf8Bytes (checkpointKey t a m) ↔ k ≤ m := by
      intro k
      rw [← List.not_lt, checkpointKey_bytes_lt, UInt64.not_lt]
    constructor
    · intro hmax k hk
      exact (hle k).mp (hmax k hk)
    · intro hmax k hk
      exact (hle k).mpr (hmax k hk)

end SwarmRuntime.State
