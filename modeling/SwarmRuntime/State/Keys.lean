import SwarmRuntime.Lib.Decimal
import SwarmRuntime.Lib.Delimited

/-!
# `SwarmRuntime.State.Keys`: the key builders (`lib.rs`)

A key is the two identifiers and a suffix, joined with `KEY_SEP`. The three builders of the
hydrate and freeze paths never meet, whatever the identifiers: their suffixes end in
different characters. Within one builder, keys of two agents are equal exactly when the
agents have the same `keyRoot`, the identifiers joined with the separator. The builders do
not check the identifiers, and distinct agents can share a root: `("a||b", "c")` and
`("a", "b||c")` do, and so do `("a|", "b")` and `("a", "|b")`.

Checkpoint keys of one agent sort by sequence number (`checkpointKey_bytes_lt`).
-/

set_option autoImplicit false

namespace SwarmRuntime.State

open SwarmRuntime.Lib

/-- Dapr key separator. -/
def KEY_SEP : String := "||"

/-- The part of a key that names the agent. -/
def keyRoot (tenantId agentId : String) : String := tenantId ++ KEY_SEP ++ agentId

/-- Build a Dapr state key for agent primary state. -/
def agentStateKey (tenantId agentId : String) : String :=
  tenantId ++ KEY_SEP ++ agentId ++ KEY_SEP ++ "state"

/-- Build a Dapr state key for agent working memory. -/
def workingMemoryKey (tenantId agentId : String) : String :=
  tenantId ++ KEY_SEP ++ agentId ++ KEY_SEP ++ "working_memory"

/-- Build a Dapr state key for a checkpoint: `seq` is zero-padded to 20 digits. -/
def checkpointKey (tenantId agentId : String) (seq : UInt64) : String :=
  tenantId ++ KEY_SEP ++ agentId ++ KEY_SEP ++ "checkpoint" ++ KEY_SEP ++ zeroPadded 20 seq.toNat

/-- Build a Dapr state key for a conversation turn. -/
def conversationTurnKey (tenantId agentId turnId : String) : String :=
  tenantId ++ KEY_SEP ++ agentId ++ KEY_SEP ++ "conv" ++ KEY_SEP ++ turnId

/-- Build a Dapr state key for a tool call log entry. -/
def toolLogKey (tenantId agentId logId : String) : String :=
  tenantId ++ KEY_SEP ++ agentId ++ KEY_SEP ++ "tool_log" ++ KEY_SEP ++ logId

/-! ### The last byte of a key -/

/-- The last byte of a string. -/
def lastByte (s : String) : Option UInt8 := (utf8Bytes s).getLast?

theorem lastByte_append (s : String) {t : String} (h : utf8Bytes t ≠ []) :
    lastByte (s ++ t) = lastByte t := by
  simp only [lastByte, utf8Bytes_append]
  rw [List.getLast?_append_of_ne_nil _ h]

@[simp] theorem lastByte_agentStateKey (t a : String) :
    lastByte (agentStateKey t a) = some 101 := by
  rw [agentStateKey, lastByte_append _ (by decide)]
  decide

@[simp] theorem lastByte_workingMemoryKey (t a : String) :
    lastByte (workingMemoryKey t a) = some 121 := by
  rw [workingMemoryKey, lastByte_append _ (by decide)]
  decide

/-- A sequence number has at most twenty digits. -/
theorem seq_lt (seq : UInt64) : seq.toNat < 10 ^ 20 :=
  Nat.lt_trans seq.toNat_lt (by decide)

/-- A checkpoint key ends in a decimal digit. -/
theorem lastByte_checkpointKey (t a : String) (seq : UInt64) :
    ∃ d < 10, lastByte (checkpointKey t a seq) = some (UInt8.ofNat (48 + d)) := by
  have hb := utf8Bytes_zeroPadded (by decide : 0 < 20) (seq_lt seq)
  refine ⟨seq.toNat % 10, Nat.mod_lt _ (by decide), ?_⟩
  rw [checkpointKey, lastByte_append _ (by rw [hb]; simp [fixedDigits])]
  simp [lastByte, hb, fixedDigits]

/-! ### The builders do not meet -/

theorem agentStateKey_ne_workingMemoryKey (t a t' a' : String) :
    agentStateKey t a ≠ workingMemoryKey t' a' := by
  intro h
  have hb := congrArg lastByte h
  simp at hb

theorem checkpointKey_ne_agentStateKey (t a t' a' : String) (seq : UInt64) :
    checkpointKey t a seq ≠ agentStateKey t' a' := by
  intro h
  obtain ⟨d, hd, hb⟩ := lastByte_checkpointKey t a seq
  rw [h, lastByte_agentStateKey, Option.some.injEq] at hb
  -- No digit is the letter `e`.
  interval_cases d <;> exact absurd hb (by decide)

theorem checkpointKey_ne_workingMemoryKey (t a t' a' : String) (seq : UInt64) :
    checkpointKey t a seq ≠ workingMemoryKey t' a' := by
  intro h
  obtain ⟨d, hd, hb⟩ := lastByte_checkpointKey t a seq
  rw [h, lastByte_workingMemoryKey, Option.some.injEq] at hb
  -- No digit is the letter `y`.
  interval_cases d <;> exact absurd hb (by decide)

/-! ### Keys of two agents -/

theorem agentStateKey_eq_iff (t a t' a' : String) :
    agentStateKey t a = agentStateKey t' a' ↔ keyRoot t a = keyRoot t' a' := by
  simp only [agentStateKey, keyRoot, String.append_left_inj]

theorem workingMemoryKey_eq_iff (t a t' a' : String) :
    workingMemoryKey t a = workingMemoryKey t' a' ↔ keyRoot t a = keyRoot t' a' := by
  simp only [workingMemoryKey, keyRoot, String.append_left_inj]

/-- Tenants whose identifiers do not contain the character of the separator have different
roots, whatever the agents are called. -/
theorem keyRoot_inj {t a t' a' : String} (ht : '|' ∉ t.toList) (ht' : '|' ∉ t'.toList)
    (h : keyRoot t a = keyRoot t' a') : t = t' ∧ a = a' := by
  have hlist : t.toList ++ '|' :: '|' :: a.toList = t'.toList ++ '|' :: '|' :: a'.toList := by
    have htoList := congrArg String.toList h
    simpa [keyRoot, KEY_SEP, String.toList_append] using htoList
  -- The first `|` ends the tenant in both.
  obtain ⟨htenant, hagent⟩ := append_cons_inj_of_first ht ht' hlist
  exact ⟨String.toList_inj.mp htenant, String.toList_inj.mp (List.cons.inj hagent).2⟩

/-! ### Checkpoint keys -/

/-- Checkpoint keys are equal for one root and one sequence number only: the padded number has
twenty digits, so it starts at one place. -/
theorem checkpointKey_eq_iff {t a t' a' : String} {m n : UInt64} :
    checkpointKey t a m = checkpointKey t' a' n ↔ keyRoot t a = keyRoot t' a' ∧ m = n := by
  constructor
  · intro h
    have hlist := congrArg String.toList h
    simp only [checkpointKey, String.toList_append] at hlist
    obtain ⟨hfront, hdigits⟩ := List.append_inj' hlist (by
      rw [length_toList_zeroPadded (by decide) (seq_lt m),
        length_toList_zeroPadded (by decide) (seq_lt n)])
    constructor
    · show keyRoot t a = keyRoot t' a'
      -- The three constant parts in front of the number come off from the right.
      have hroot := List.append_cancel_right (List.append_cancel_right
        (List.append_cancel_right hfront))
      exact String.toList_inj.mp (by simpa [keyRoot, String.toList_append] using hroot)
    · show m = n
      have hseq := (zeroPadded_inj (by decide) (seq_lt m) (seq_lt n)).mp
        (String.toList_inj.mp hdigits)
      exact UInt64.toNat_inj.mp hseq
  · intro h
    obtain ⟨hroot, rfl⟩ := h
    have hroot : t ++ KEY_SEP ++ a = t' ++ KEY_SEP ++ a' := hroot
    rw [checkpointKey, checkpointKey, hroot]

theorem checkpointKey_inj {t a : String} {m n : UInt64} :
    checkpointKey t a m = checkpointKey t a n ↔ m = n := by
  rw [checkpointKey_eq_iff]
  exact and_iff_right rfl

/-- The checkpoint keys of one agent sort, as byte strings, by sequence number. -/
theorem checkpointKey_bytes_lt {t a : String} {m n : UInt64} :
    utf8Bytes (checkpointKey t a m) < utf8Bytes (checkpointKey t a n) ↔ m < n := by
  rw [checkpointKey, checkpointKey, utf8Bytes_append _ (zeroPadded 20 m.toNat),
    utf8Bytes_append _ (zeroPadded 20 n.toNat), append_lt_append_left_iff UInt8.lt_irrefl,
    utf8Bytes_zeroPadded_lt (by decide) (seq_lt m) (seq_lt n), UInt64.lt_iff_toNat_lt]

end SwarmRuntime.State
