import SwarmRuntime.Proofs.Alone
import SwarmRuntime.State.Codec

/-!
# `SwarmRuntime.Proofs.StaleActive`: the age that the stale-ACTIVE guard computes

The guard casts the seconds of `last_hydrated_at` to `u64` and subtracts them from the clock with
`saturating_sub`. For a second from the epoch to the present this is the age of the record. A
second before the epoch wraps to one far in the future, and the age saturates to `0`: the record
is never old enough. `busyIffYoung_iff` says for which seconds and thresholds the guard decides
by the true age all the same.
-/

set_option autoImplicit false

namespace SwarmRuntime.State

open SwarmRuntime.Lib SwarmRuntime.Lib.Interaction AgentHydrationManager

variable {A : Type} {M : AgentHydrationManager} {B : Build} {t a : String} {id : A}
  {s : Backing A} {state : AgentStateRecord} {cs : Cell Bytes ETag}

/-- The second of `last_hydrated_at` as it was written, `0` when absent. -/
def hydratedSecond (state : AgentStateRecord) : Int :=
  match state.lastHydratedAt with
  | some t => t.seconds.toInt
  | none => 0

/-- `saturating_sub` is the truncated subtraction. -/
theorem toNat_saturatingSub (x y : UInt64) :
    (saturatingSub x y).toNat = x.toNat - y.toNat := by
  unfold saturatingSub
  by_cases hlt : x < y
  · have hle : x.toNat ≤ y.toNat := Nat.le_of_lt (UInt64.lt_iff_toNat_lt.mp hlt)
    rw [if_pos hlt, Nat.sub_eq_zero_of_le hle]
    rfl
  · rw [if_neg hlt, UInt64.toNat_sub_of_le _ _ (UInt64.not_lt.mp hlt)]

/-- The cast of an `i64` to `u64` wraps. -/
theorem toNat_toUInt64 (x : Int64) : (x.toUInt64.toNat : Int) = x.toInt % 2 ^ 64 := by
  have hlt : x.toBitVec.toNat < 2 ^ 64 := x.toBitVec.isLt
  have hcond := x.toBitVec.toInt_eq_toNat_cond
  rw [Int64.toInt_toBitVec, Int64.toNat_toBitVec] at hcond
  rw [Int64.toNat_toBitVec] at hlt
  split at hcond
  · omega
  · omega

/-- The second that the guard works with: the written one, modulo `2 ^ 64`. -/
theorem toNat_lastHydratedSecs (state : AgentStateRecord) :
    ((lastHydratedSecs state).toNat : Int) = hydratedSecond state % 2 ^ 64 := by
  unfold lastHydratedSecs hydratedSecond
  cases state.lastHydratedAt with
  | none => rfl
  | some t => exact toNat_toUInt64 t.seconds

/-- The age that the guard computes. -/
theorem toNat_activeAge (state : AgentStateRecord) (c : Option Duration) :
    ((activeAge state c).toNat : Int)
      = max 0 ((secondsOf c).toNat - hydratedSecond state % 2 ^ 64) := by
  have hsecs := toNat_lastHydratedSecs state
  have hage : (activeAge state c).toNat
      = (secondsOf c).toNat - (lastHydratedSecs state).toNat := toNat_saturatingSub _ _
  omega

/-- What comes after the guard is never `AgentBusy`. -/
private theorem loadMemory_not_busy (ws : List Answer) (age : UInt64) :
    (exec (serve id) (loadMemory B t a state) ws s).ending
      ≠ .returned (.error (.agentBusy t a age)) := by
  unfold loadMemory
  intro hend
  cases ws with
  | nil => simp at hend
  | cons w ws =>
    rw [exec_ask_cons, Outcome.after_ending] at hend
    cases hf : w.fault with
    | some msg => simp [serve, hf, afterMemoryRead] at hend
    | none =>
      rw [serve_get hf] at hend
      cases hm : s.lookup (workingMemoryKey t a) with
      | none => simp [hm, afterMemoryRead] at hend
      | some cm =>
        simp only [hm, Option.map_some, afterMemoryRead] at hend
        cases hmem : B.memory.decode cm.value with
        | error e => simp [hmem] at hend
        | ok mem =>
          by_cases hver : mem.version = state.workingMemoryVersion
          · simp [hmem, hver] at hend
          · simp [hmem, hver] at hend

/-- A hydrate of an ACTIVE record is turned away iff the age that the guard computes is below the
threshold. The second answer is the clock reading. -/
theorem hydrate_busy_iff {w₁ w₂ : Answer} {ws : List Answer}
    (hs : s.lookup (agentStateKey t a) = some cs) (hdec : B.state.decode cs.value = .ok state)
    (hactive : state.status = AgentLifecycleStatus.active.toI32) (h₁ : w₁.fault = none) :
    (∃ age, (exec (serve id) (M.hydrate B t a).run (w₁ :: w₂ :: ws) s).ending
        = .returned (.error (.agentBusy t a age))) ↔
      activeAge state w₂.clock < M.staleActiveThresholdSecs := by
  have hnow : serve id .now w₂ s = (w₂.clock, s) := rfl
  rw [hydrate_run_eq, exec_get h₁]
  simp only [hs, Option.map_some, afterStateRead, hdec, if_pos hactive, Outcome.after_ending]
  rw [exec_ask_cons, Outcome.after_ending, hnow]
  by_cases hage : activeAge state w₂.clock < M.staleActiveThresholdSecs
  · simp [hage]
  · rw [if_neg hage]
    constructor
    · intro hbusy
      obtain ⟨age, hbusy⟩ := hbusy
      exact absurd hbusy (loadMemory_not_busy ws age)
    · intro hlt
      exact absurd hlt hage

/-- A hydrate with the answers `ws` is turned away iff the true age of the record is below the
threshold. -/
def BusyIffYoung (M : AgentHydrationManager) (B : Build) (t a : String) (s : Backing Unit)
    (ws : List Answer) (now : UInt64) (state : AgentStateRecord) : Prop :=
  (∃ age, (exec (serve ()) (M.hydrate B t a).run ws s).ending
      = .returned (.error (.agentBusy t a age))) ↔
    (now.toNat : Int) - hydratedSecond state < M.staleActiveThresholdSecs.toNat

/-- For which stored ACTIVE records the guard decides by the true age: those hydrated between the
epoch and now, those hydrated later when the threshold is positive, and those hydrated before
the epoch that are young, or old also by the age that the guard computes. -/
theorem busyIffYoung_iff {s : Backing Unit} {w₁ w₂ : Answer} {ws : List Answer}
    (hs : s.lookup (agentStateKey t a) = some cs) (hdec : B.state.decode cs.value = .ok state)
    (hactive : state.status = AgentLifecycleStatus.active.toI32) (h₁ : w₁.fault = none) :
    BusyIffYoung M B t a s (w₁ :: w₂ :: ws) (secondsOf w₂.clock) state ↔
      (0 ≤ hydratedSecond state ∧ (hydratedSecond state ≤ (secondsOf w₂.clock).toNat ∨
          0 < M.staleActiveThresholdSecs.toNat)) ∨
        (hydratedSecond state < 0 ∧
          (((secondsOf w₂.clock).toNat : Int) - hydratedSecond state
              < M.staleActiveThresholdSecs.toNat ∨
            (M.staleActiveThresholdSecs.toNat : Int)
              ≤ max 0 ((secondsOf w₂.clock).toNat - hydratedSecond state - 2 ^ 64))) := by
  unfold BusyIffYoung
  rw [hydrate_busy_iff hs hdec hactive h₁, UInt64.lt_iff_toNat_lt]
  have hage := toNat_activeAge state w₂.clock
  have hlow : -2 ^ 63 ≤ hydratedSecond state ∧ hydratedSecond state < 2 ^ 63 := by
    unfold hydratedSecond
    cases state.lastHydratedAt with
    | none => decide
    | some t => exact ⟨t.seconds.le_toInt, t.seconds.toInt_lt⟩
  generalize hydratedSecond state = second at *
  generalize (activeAge state w₂.clock).toNat = age at *
  have hclock := (secondsOf w₂.clock).toNat_lt
  -- The second wraps iff it lies before the epoch.
  have hwrap : second % 2 ^ 64 = if second < 0 then second + 2 ^ 64 else second := by
    split <;> omega
  rw [hwrap] at hage
  split at hage
  · omega
  · omega

/-- An ACTIVE record, last hydrated at the second `seconds`. -/
def activeState (seconds : Int64) (t a : String) : AgentStateRecord :=
  { blankState t a with
      status := AgentLifecycleStatus.active.toI32
      lastHydratedAt := some ⟨seconds, 0⟩ }

/-- The store with this record. -/
def activeStore (seconds : Int64) : Backing Unit :=
  pairStore () releaseBuild "acme" "writer" (activeState seconds "acme" "writer")
    (blankMemory "acme" "writer") ⟨"1"⟩ ⟨"1"⟩

/-- A record hydrated a thousand seconds ago is released. -/
theorem busyIffYoung_thousand :
    BusyIffYoung .new releaseBuild "acme" "writer" (activeStore 1699999000)
      [answerWith "2", answerWith "3", answerWith "4"] 1700000000
      (activeState 1699999000 "acme" "writer") := by
  have hpast : (0 : Int) ≤ hydratedSecond (activeState 1699999000 "acme" "writer") ∧
      hydratedSecond (activeState 1699999000 "acme" "writer")
        ≤ (secondsOf (answerWith "3").clock).toNat := by decide
  exact (busyIffYoung_iff lookup_state_pairStore (releaseBuild.state.decode_encodeToVec _)
    rfl rfl).mpr (.inl ⟨hpast.1, .inl hpast.2⟩)

/-- A record hydrated one second before the epoch is turned away, though it is far older than
the threshold of 300 seconds. -/
theorem not_busyIffYoung_preEpoch :
    ¬ BusyIffYoung .new releaseBuild "acme" "writer" (activeStore (-1))
      [answerWith "2", answerWith "3", answerWith "4"] 1700000000
      (activeState (-1) "acme" "writer") := by
  intro hexact
  have hdec : releaseBuild.state.decode (releaseBuild.state.encodeToVec
      (activeState (-1) "acme" "writer")) = .ok (activeState (-1) "acme" "writer") :=
    releaseBuild.state.decode_encodeToVec _
  have hage : activeAge (activeState (-1) "acme" "writer") (answerWith "3").clock
      < AgentHydrationManager.new.staleActiveThresholdSecs := by decide
  have hyoung := hexact.mp ((hydrate_busy_iff lookup_state_pairStore hdec rfl rfl).mpr hage)
  exact absurd hyoung (by decide)

end SwarmRuntime.State
