import SwarmRuntime.Runtime.Backpressure

/-!
# `SwarmRuntime.Proofs.Backpressure`: backpressure escalates

Pressure grows with the active agents and with the fill of the egress buffer, and it falls with
the limit. Both conditions follow it, and critical pressure is a throttle condition
(`backpressure_escalates`). Nothing is asked of the rounding but that it is monotone.

One definition with parameters stands behind both conditions, so `exceeds_mono` is the one
comparison that is needed: of two snapshots and of two bounds at once.
-/

set_option autoImplicit false

namespace SwarmRuntime.Runtime

variable {round : ℚ → ℚ} {p q r r' : ℚ} {x y z : F32}

/-- The cast to `usize` is monotone, from its saturation at zero to the one at the top. -/
theorem asUsize_mono (h : p ≤ q) : asUsize p ≤ asUsize q := by
  have hsize : 0 < USize.size := USize.size_pos
  have hfloor : ⌊p⌋.toNat ≤ ⌊q⌋.toNat := Int.toNat_le_toNat (Int.floor_le_floor h)
  have hp : min ⌊p⌋.toNat (USize.size - 1) < USize.size := by omega
  have hq : min ⌊q⌋.toNat (USize.size - 1) < USize.size := by omega
  rw [USize.le_iff_toNat_le, asUsize, asUsize, USize.toNat_ofNat_of_lt' hp,
    USize.toNat_ofNat_of_lt' hq]
  omega

/-- Every negative value saturates to zero. -/
theorem asUsize_of_neg (h : q < 0) : asUsize q = 0 := by
  have hfloor : ⌊q⌋.toNat = 0 := Int.toNat_of_nonpos (Int.floor_nonpos (le_of_lt h))
  rw [asUsize, hfloor, Nat.zero_min]
  rfl

/-- A greater value is above what the smaller one is above. -/
theorem F32.gt_of_le {a b : WithBot (WithTop ℚ)} (hab : a ≤ b) (h : F32.gt (some a) z = true) :
    F32.gt (some b) z = true := by
  cases z with
  | none => cases h
  | some c => exact decide_eq_true (lt_of_lt_of_le (of_decide_eq_true h) hab)

/-- What is above a bound is above a smaller one. -/
theorem F32.gt_ofRat_of_le (hpq : p ≤ q) (h : F32.gt x (.ofRat q) = true) :
    F32.gt x (.ofRat p) = true := by
  cases x with
  | none => cases h
  | some a =>
    have hle : ((p : WithTop ℚ) : WithBot (WithTop ℚ)) ≤ ((q : WithTop ℚ) : WithBot (WithTop ℚ)) :=
      WithBot.coe_le_coe.mpr (WithTop.coe_le_coe.mpr hpq)
    exact decide_eq_true (lt_of_le_of_lt hle (of_decide_eq_true h))

namespace BackpressureStatus

variable {s s' : BackpressureStatus}

/-- The snapshot `s'` is under at least the pressure of `s`. -/
structure Escalates (s s' : BackpressureStatus) : Prop where
  count : s.activeAgentCount ≤ s'.activeAgentCount
  limit : s'.activeAgentLimit ≤ s.activeAgentLimit
  fill : ∃ x x', s.l3EgressBufferFillPct = some x ∧ s'.l3EgressBufferFillPct = some x' ∧ x ≤ x'

/-- The threshold grows with the limit. -/
theorem agentThreshold_mono_limit (hround : Monotone round) (hr : 0 ≤ r)
    (h : s'.activeAgentLimit ≤ s.activeAgentLimit) :
    s'.agentThreshold round r ≤ s.agentThreshold round r := by
  have hlimit : (s'.activeAgentLimit.toNat : ℚ) ≤ s.activeAgentLimit.toNat :=
    Nat.cast_le.mpr (USize.le_iff_toNat_le.mp h)
  exact asUsize_mono (hround (mul_le_mul_of_nonneg_right (hround hlimit) hr))

/-- The threshold grows with the ratio. -/
theorem agentThreshold_mono_ratio (hround : Monotone round) (hr : 0 ≤ r) (h : r ≤ r') :
    s.agentThreshold round r ≤ s.agentThreshold round r' := by
  have hlimit : (0 : ℚ) ≤ s.activeAgentLimit.toNat := Nat.cast_nonneg _
  by_cases hneg : round s.activeAgentLimit.toNat < 0
  · -- A rounding that takes the limit below zero takes the product there too.
    have hprod : round s.activeAgentLimit.toNat * r ≤ s.activeAgentLimit.toNat :=
      le_trans (mul_nonpos_of_nonpos_of_nonneg (le_of_lt hneg) hr) hlimit
    have hsmall : round (round s.activeAgentLimit.toNat * r) < 0 :=
      lt_of_le_of_lt (hround hprod) hneg
    rw [agentThreshold, asUsize_of_neg hsmall]
    exact USize.zero_le
  · have hnonneg : 0 ≤ round s.activeAgentLimit.toNat := not_lt.mp hneg
    exact asUsize_mono (hround (mul_le_mul_of_nonneg_left h hnonneg))

theorem exceeds_eq_true_iff :
    s.exceeds round r q = true ↔ s.agentThreshold round r < s.activeAgentCount ∨
      s.l3EgressBufferFillPct.gt (.ofRat q) = true := by
  simp [exceeds]

/-- What exceeds its bounds still does so under more pressure. -/
theorem exceeds_of_escalates (hround : Monotone round) (hr : 0 ≤ r) (h : Escalates s s')
    (hs : s.exceeds round r q = true) : s'.exceeds round r q = true := by
  rw [exceeds_eq_true_iff] at hs ⊢
  rcases hs with hagents | hfill
  · left
    have hthreshold := agentThreshold_mono_limit hround hr h.limit
    exact USize.lt_of_lt_of_le (USize.lt_of_le_of_lt hthreshold hagents) h.count
  · right
    obtain ⟨x, x', hx, hx', hle⟩ := h.fill
    rw [hx] at hfill
    rw [hx']
    exact F32.gt_of_le hle hfill

/-- What exceeds its bounds exceeds smaller ones. -/
theorem exceeds_of_le (hround : Monotone round) (hr : 0 ≤ r) (hrr : r ≤ r') (hpq : p ≤ q)
    (hs : s.exceeds round r' q = true) : s.exceeds round r p = true := by
  rw [exceeds_eq_true_iff] at hs ⊢
  rcases hs with hagents | hfill
  · left
    exact USize.lt_of_le_of_lt (agentThreshold_mono_ratio hround hr hrr) hagents
  · right
    exact F32.gt_ofRat_of_le hpq hfill

/-- More pressure throttles what less pressure throttles, and it is critical where less pressure
is. Critical pressure throttles, whatever the fill is. -/
theorem backpressure_escalates (hround : Monotone round) :
    (∀ s s' : BackpressureStatus, Escalates s s' →
      (s.shouldThrottle round = true → s'.shouldThrottle round = true) ∧
        (s.isCritical round = true → s'.isCritical round = true)) ∧
      ∀ s : BackpressureStatus, s.isCritical round = true → s.shouldThrottle round = true := by
  have hthrottle : (0 : ℚ) ≤ THROTTLE_AGENT_RATIO := by
    unfold THROTTLE_AGENT_RATIO
    norm_num
  have hcritical : (0 : ℚ) ≤ CRITICAL_AGENT_RATIO := by
    unfold CRITICAL_AGENT_RATIO
    norm_num
  constructor
  · intro s s' h
    exact ⟨exceeds_of_escalates hround hthrottle h, exceeds_of_escalates hround hcritical h⟩
  · intro s hs
    have hratio : THROTTLE_AGENT_RATIO ≤ CRITICAL_AGENT_RATIO := by
      unfold THROTTLE_AGENT_RATIO CRITICAL_AGENT_RATIO
      norm_num
    have hfill : THROTTLE_L3_FILL ≤ CRITICAL_L3_FILL := by
      unfold THROTTLE_L3_FILL CRITICAL_L3_FILL
      norm_num
    exact exceeds_of_le hround hthrottle hratio hfill hs

/-- With rounding to integers, from below: a full buffer throttles, and still does so when no
agent is allowed. -/
theorem backpressure_escalates_floor :
    (⟨1, 100, .ofRat 1⟩ : BackpressureStatus).shouldThrottle (fun q => (⌊q⌋ : ℚ)) = true ∧
      (⟨1, 0, .ofRat 1⟩ : BackpressureStatus).shouldThrottle (fun q => (⌊q⌋ : ℚ)) = true := by
  have hround : Monotone fun q : ℚ => (⌊q⌋ : ℚ) := fun p q h =>
    Int.cast_le.mpr (Int.floor_le_floor h)
  have hfull : F32.gt (.ofRat 1) (.ofRat CRITICAL_L3_FILL) = true := by
    refine decide_eq_true (WithBot.coe_lt_coe.mpr (WithTop.coe_lt_coe.mpr ?_))
    norm_num [CRITICAL_L3_FILL]
  have hthrottle := (backpressure_escalates hround).2 ⟨1, 100, .ofRat 1⟩
    (exceeds_eq_true_iff.mpr (.inr hfull))
  have hmore : Escalates ⟨1, 100, .ofRat 1⟩ ⟨1, 0, .ofRat 1⟩ := {
    count := USize.le_refl 1
    limit := USize.zero_le
    fill := ⟨_, _, rfl, rfl, le_refl _⟩ }
  exact ⟨hthrottle, ((backpressure_escalates hround).1 _ _ hmore).1 hthrottle⟩

end BackpressureStatus

end SwarmRuntime.Runtime
