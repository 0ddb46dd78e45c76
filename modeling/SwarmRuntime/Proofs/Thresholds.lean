import SwarmRuntime.Lib.Rounding
import SwarmRuntime.Proofs.Backpressure

/-!
# `SwarmRuntime.Proofs.Thresholds`: the agent thresholds in `f32`

`0.80` and `0.95` are no values of type `f32`, and neither are their multiples. For limits up to
`5 * 2 ^ 20`, and up to `2207540`, the cast to `usize` undoes the errors: the thresholds are four
fifths of the limit and nineteen twentieths, rounded down (`agentThreshold_throttle`,
`agentThreshold_critical`). Both bounds are sharp. For every limit the thresholds are within one
part in `2 ^ 22` (`agentThreshold_close`).

The exact cases need to know that the product neither reaches the next integer nor falls below the
last one. Above, some element of the grid is nearer than the next integer. Below, the product of
`0.80` is never too small, and that of `0.95` is too small only where it should be an integer, which
then is the nearest element.
-/

set_option autoImplicit false

namespace SwarmRuntime.Runtime

open SwarmRuntime.Lib

/-- The constants are the literals of the source, rounded to `f32`. -/
theorem literals_binary32 :
    binary32 0.80 = THROTTLE_AGENT_RATIO ∧ binary32 0.85 = THROTTLE_L3_FILL ∧
      binary32 0.95 = CRITICAL_AGENT_RATIO ∧ binary32 0.95 = CRITICAL_L3_FILL := by
  decide +kernel

/-! ### The cast -/

/-- The cast of a value between two integers. -/
theorem toNat_asUsize {q : ℚ} {k : Nat} (hlow : (k : ℚ) ≤ q) (hhigh : q < k + 1)
    (hk : k < USize.size) : (asUsize q).toNat = k := by
  have hfloor : ⌊q⌋ = k := Int.floor_eq_iff.mpr ⟨by exact_mod_cast hlow, by exact_mod_cast hhigh⟩
  have hmin : min ⌊q⌋.toNat (USize.size - 1) = k := by
    rw [hfloor, Int.toNat_natCast]
    omega
  rw [asUsize, hmin, USize.toNat_ofNat_of_lt' hk]

theorem lt_size_of_lt {k : Nat} (h : k < 2 ^ 32) : k < USize.size :=
  Nat.lt_of_lt_of_le h USize.le_size

/-- A multiple of a power of two that needs few bits. -/
theorem mem_binary32 {m : Nat} {e : ℤ} (hm : m < 2 ^ 24) (he : -149 ≤ e) :
    (m : ℚ) * 2 ^ e ∈ binary32Floats := by
  have habs : |(m : ℤ)| < 2 ^ 24 := by
    rw [abs_of_nonneg (Int.natCast_nonneg m)]
    exact_mod_cast hm
  exact_mod_cast mem_floats habs he

namespace BackpressureStatus

variable {s : BackpressureStatus}

/-! ### Exact thresholds -/

/-- `0.80` is a little above four fifths. -/
theorem mul_throttle_ratio (n k f : Nat) (h : 4 * n = 5 * k + f) :
    (n : ℚ) * THROTTLE_AGENT_RATIO = k + f / 5 + n / (5 * 2 ^ 24) := by
  have hcast : (4 : ℚ) * n = 5 * k + f := by exact_mod_cast h
  unfold THROTTLE_AGENT_RATIO
  linarith

/-- `0.95` is a little below nineteen twentieths. -/
theorem mul_critical_ratio (n k f : Nat) (h : 19 * n = 20 * k + f) :
    (n : ℚ) * CRITICAL_AGENT_RATIO = k + f / 20 - n / (5 * 2 ^ 24) := by
  have hcast : (19 : ℚ) * n = 20 * k + f := by exact_mod_cast h
  unfold CRITICAL_AGENT_RATIO
  linarith

/-- A part of a power of two above an integer. -/
theorem add_div_mem_binary32 {k j b : Nat} (hb : b ≤ 149) (h : 2 ^ b * k + j < 2 ^ 24) :
    (k : ℚ) + j / 2 ^ b ∈ binary32Floats := by
  have hmem := mem_binary32 (e := -b) h (by omega)
  have hpow : (2 : ℚ) ^ b ≠ 0 := pow_ne_zero b two_ne_zero
  rw [zpow_neg, zpow_natCast, ← div_eq_mul_inv, Nat.cast_add, Nat.cast_mul, Nat.cast_pow,
    Nat.cast_ofNat, add_div, mul_div_cancel_left₀ _ hpow] at hmem
  exact hmem

/-- Up to `5 * 2 ^ 20` the throttle threshold is four fifths of the limit, rounded down. -/
theorem agentThreshold_throttle (h : s.activeAgentLimit.toNat ≤ 5242880) :
    (s.agentThreshold binary32 THROTTLE_AGENT_RATIO).toNat = 4 * s.activeAgentLimit.toNat / 5 := by
  generalize hn : s.activeAgentLimit.toNat = n at h
  obtain ⟨k, f, hk, hf, hdiv⟩ : ∃ k f, 4 * n / 5 = k ∧ f < 5 ∧ 4 * n = 5 * k + f :=
    ⟨_, 4 * n % 5, rfl, by omega, by omega⟩
  have hq := mul_throttle_ratio n k f hdiv
  have hn' : (n : ℚ) ≤ 5242880 := by exact_mod_cast h
  have hn0 : (0 : ℚ) ≤ n := Nat.cast_nonneg n
  have hf' : (f : ℚ) ≤ 4 := by exact_mod_cast Nat.le_of_lt_succ hf
  have hf0 : (0 : ℚ) ≤ f := Nat.cast_nonneg f
  have hmem : (k : ℚ) ∈ binary32Floats := natCast_mem_floats (by omega) (by decide)
  have hlow : (k : ℚ) ≤ binary32 (n * THROTTLE_AGENT_RATIO) :=
    nearest_binary32.le_of_mem hmem (by rw [hq]; linarith)
  have hhigh : binary32 (n * THROTTLE_AGENT_RATIO) < k + 1 := by
    by_cases hzero : f = 0
    · refine nearest_binary32.lt_of_near hmem (by linarith) ?_
      rw [hq, hzero, Nat.cast_zero]
      linarith
    · -- Three quarters are on the grid, and nearer than one.
      have hgrid : (k : ℚ) + 3 / 4 ∈ binary32Floats := by
        have hmem := add_div_mem_binary32 (k := k) (j := 3) (b := 2) (by decide) (by omega)
        norm_num at hmem
        exact hmem
      refine nearest_binary32.lt_of_near hgrid (by linarith) ?_
      rw [hq]
      linarith
  rw [hk, agentThreshold, hn, binary32_natCast (by omega)]
  exact toNat_asUsize hlow hhigh (lt_size_of_lt (by omega))

/-- A product of `0.95` that should be an integer is rounded to it. -/
theorem le_binary32_of_exact {n k : Nat} (h : 19 * n = 20 * k) (hk : k < 2 ^ 24) :
    (k : ℚ) ≤ binary32 (n * CRITICAL_AGENT_RATIO) := by
  have hq := mul_critical_ratio n k 0 (by omega)
  have hmem : (k : ℚ) ∈ binary32Floats := natCast_mem_floats hk (by decide)
  have hcast : (19 : ℚ) * n = 20 * k := by exact_mod_cast h
  rw [Nat.cast_zero, zero_div, add_zero] at hq
  by_contra hlt
  rw [not_le] at hlt
  -- The float that it is rounded to instead is nearer, and keeps its distance from the integer.
  have hgap := sub_le_of_mem_floats (nearest_binary32 _).1 hmem hlt
  have hnear := (nearest_binary32 (n * CRITICAL_AGENT_RATIO)).2 _ hmem
  have hn0 : (0 : ℚ) ≤ n := Nat.cast_nonneg n
  rw [hq, abs_of_nonneg (by linarith : (0 : ℚ) ≤ k - (k - n / (5 * 2 ^ 24)))] at hnear
  rw [hq] at hgap hlt
  have hdist := (abs_le.mp hnear).1
  have hk0 : (k : ℚ) = 0 := by
    have hk1 : (0 : ℚ) ≤ k := Nat.cast_nonneg k
    linarith
  have hzero : (0 : ℚ) - n / (5 * 2 ^ 24) = 0 := by
    have hn : (n : ℚ) = 0 := by linarith
    rw [hn]
    norm_num
  rw [hk0, hzero] at hlt
  have hfix := nearest_binary32.eq_of_mem (x := 0) (by rw [← hk0]; exact hmem)
  rw [hfix] at hlt
  exact lt_irrefl _ hlt

/-- Up to `2207540` the critical threshold is nineteen twentieths of the limit, rounded down. -/
theorem agentThreshold_critical (h : s.activeAgentLimit.toNat ≤ 2207540) :
    (s.agentThreshold binary32 CRITICAL_AGENT_RATIO).toNat
      = 19 * s.activeAgentLimit.toNat / 20 := by
  generalize hn : s.activeAgentLimit.toNat = n at h
  obtain ⟨k, f, hk, hf, hdiv⟩ : ∃ k f, 19 * n / 20 = k ∧ f < 20 ∧ 19 * n = 20 * k + f :=
    ⟨_, 19 * n % 20, rfl, by omega, by omega⟩
  have hq := mul_critical_ratio n k f hdiv
  have hcast : (19 : ℚ) * n = 20 * k + f := by exact_mod_cast hdiv
  have hn' : (n : ℚ) ≤ 2207540 := by exact_mod_cast h
  have hn0 : (0 : ℚ) ≤ n := Nat.cast_nonneg n
  have hf' : (f : ℚ) ≤ 19 := by exact_mod_cast Nat.le_of_lt_succ hf
  have hmem : (k : ℚ) ∈ binary32Floats := natCast_mem_floats (by omega) (by decide)
  have hlow : (k : ℚ) ≤ binary32 (n * CRITICAL_AGENT_RATIO) := by
    by_cases hzero : f = 0
    · exact le_binary32_of_exact (by omega) (by omega)
    · have hf1 : (1 : ℚ) ≤ f := by exact_mod_cast Nat.pos_of_ne_zero hzero
      exact nearest_binary32.le_of_mem hmem (by rw [hq]; linarith)
  have hhigh : binary32 (n * CRITICAL_AGENT_RATIO) < k + 1 := by
    -- The greater the threshold, the coarser the grid, and the further the product from an integer.
    rcases Nat.lt_or_ge k (2 ^ 20) with hsmall | hbig
    · have hgrid : (k : ℚ) + 15 / 16 ∈ binary32Floats := by
        have hmem := add_div_mem_binary32 (k := k) (j := 15) (b := 4) (by decide) (by omega)
        norm_num at hmem
        exact hmem
      refine nearest_binary32.lt_of_near hgrid (by linarith) ?_
      rw [hq]
      linarith
    · have hbig' : (2 : ℚ) ^ 20 ≤ k := by exact_mod_cast hbig
      rcases Nat.lt_or_ge k (2 ^ 21) with hmiddle | hlarge
      · have hgrid : (k : ℚ) + 7 / 8 ∈ binary32Floats := by
          have hmem := add_div_mem_binary32 (k := k) (j := 7) (b := 3) (by decide) (by omega)
          norm_num at hmem
          exact hmem
        refine nearest_binary32.lt_of_near hgrid (by linarith) ?_
        rw [hq]
        linarith
      · have hlarge' : (2 : ℚ) ^ 21 ≤ k := by exact_mod_cast hlarge
        have hf18 : (f : ℚ) ≤ 18 := by
          have hle : f ≤ 18 := by omega
          exact_mod_cast hle
        have hgrid : (k : ℚ) + 3 / 4 ∈ binary32Floats := by
          have hmem := add_div_mem_binary32 (k := k) (j := 3) (b := 2) (by decide) (by omega)
          norm_num at hmem
          exact hmem
        refine nearest_binary32.lt_of_near hgrid (by linarith) ?_
        rw [hq]
        linarith
  rw [hk, agentThreshold, hn, binary32_natCast (by omega)]
  exact toNat_asUsize hlow hhigh (lt_size_of_lt (by omega))

/-! ### Every limit -/

/-- A product of rounded factors, rounded, is within three roundings of the exact product. -/
theorem binary32_mul_close {n : Nat} {c r : ℚ} (hn : 0 < n) (hc : 1 / 2 ≤ c)
    (hr : |r - c| ≤ c / 2 ^ 24) :
    c * n * (1 - 1 / 2 ^ 22) ≤ binary32 (binary32 n * r) ∧
      binary32 (binary32 n * r) ≤ c * n * (1 + 1 / 2 ^ 22) := by
  have hn1 : (1 : ℚ) ≤ n := by exact_mod_cast hn
  have htiny : (2 : ℚ) ^ (-126 : ℤ) ≤ 1 / 8 := by norm_num
  have hlimit := abs_binary32_sub_le (q := (n : ℚ)) <| by
    rw [abs_of_pos (by linarith)]
    exact le_trans htiny (by linarith)
  rw [abs_of_pos (by linarith : (0 : ℚ) < n)] at hlimit
  obtain ⟨hxlow, hxhigh⟩ := abs_le.mp hlimit
  obtain ⟨hrlow, hrhigh⟩ := abs_le.mp hr
  have hx : n * (1 - 1 / 2 ^ 24) ≤ binary32 n := by linarith
  have hx' : binary32 n ≤ n * (1 + 1 / 2 ^ 24) := by linarith
  have hr0 : c * (1 - 1 / 2 ^ 24) ≤ r := by linarith
  have hr' : r ≤ c * (1 + 1 / 2 ^ 24) := by linarith
  generalize binary32 n = x at hx hx'
  have hx0 : 1 / 2 ≤ x := by linarith
  have hrpos : 1 / 4 ≤ r := by linarith
  have hprod : 1 / 8 ≤ x * r := by
    have hmul := mul_le_mul hx0 hrpos (by norm_num) (by linarith)
    linarith
  have hround := abs_binary32_sub_le (q := x * r) <| by
    rw [abs_of_pos (by linarith)]
    exact le_trans htiny hprod
  rw [abs_of_pos (by linarith : (0 : ℚ) < x * r)] at hround
  obtain ⟨hlow, hhigh⟩ := abs_le.mp hround
  have hcn : 0 < c * n := mul_pos (by linarith) (by linarith)
  have hbelow : n * (1 - 1 / 2 ^ 24) * (c * (1 - 1 / 2 ^ 24)) ≤ x * r :=
    mul_le_mul hx hr0 (by linarith) (by linarith)
  have habove : x * r ≤ n * (1 + 1 / 2 ^ 24) * (c * (1 + 1 / 2 ^ 24)) :=
    mul_le_mul hx' hr' (by linarith) (by linarith)
  constructor
  · calc c * n * (1 - 1 / 2 ^ 22)
        ≤ n * (1 - 1 / 2 ^ 24) * (c * (1 - 1 / 2 ^ 24)) * (1 - 1 / 2 ^ 24) := by linarith
      _ ≤ x * r * (1 - 1 / 2 ^ 24) := mul_le_mul_of_nonneg_right hbelow (by norm_num)
      _ ≤ binary32 (x * r) := by linarith
  · calc binary32 (x * r) ≤ x * r * (1 + 1 / 2 ^ 24) := by linarith
      _ ≤ n * (1 + 1 / 2 ^ 24) * (c * (1 + 1 / 2 ^ 24)) * (1 + 1 / 2 ^ 24) :=
        mul_le_mul_of_nonneg_right habove (by norm_num)
      _ ≤ c * n * (1 + 1 / 2 ^ 22) := by linarith

/-- The threshold is the part `c` of the limit `n`, rounded down, up to one part in `2 ^ 22`. -/
def Close (threshold : USize) (c : ℚ) (n : Nat) : Prop :=
  (threshold.toNat : ℚ) ≤ c * n * (1 + 1 / 2 ^ 22) ∧
    c * n * (1 - 1 / 2 ^ 22) < (threshold.toNat : ℚ) + 1

theorem agentThreshold_close (s : BackpressureStatus) {c r : ℚ} (hc : 1 / 2 ≤ c)
    (hc' : c ≤ 19 / 20) (hr : |r - c| ≤ c / 2 ^ 24) :
    Close (s.agentThreshold binary32 r) c s.activeAgentLimit.toNat := by
  have hsize : s.activeAgentLimit.toNat < USize.size := s.activeAgentLimit.toNat_lt_size
  unfold Close agentThreshold
  generalize s.activeAgentLimit.toNat = n at hsize
  rcases Nat.eq_zero_or_pos n with rfl | hn
  · have hzero : binary32 (binary32 (0 : ℕ) * r) = 0 := by
      rw [binary32_natCast (by decide), Nat.cast_zero, zero_mul]
      exact_mod_cast binary32_natCast (n := 0) (by decide)
    have hcast : (asUsize 0).toNat = 0 :=
      toNat_asUsize (by norm_num) (by norm_num) USize.size_pos
    rw [hzero, hcast]
    norm_num
  · obtain ⟨hlow, hhigh⟩ := binary32_mul_close hn hc hr
    generalize binary32 (binary32 n * r) = q at hlow hhigh
    have hn1 : (1 : ℚ) ≤ n := by exact_mod_cast hn
    have hcn : 0 < c * n := mul_pos (by linarith) (by linarith)
    have hq0 : 0 ≤ q := by linarith
    have hle : c * n ≤ 19 / 20 * n := mul_le_mul_of_nonneg_right hc' (by linarith)
    have hqsize : q < USize.size := by
      have hsize' : (n : ℚ) < USize.size := by exact_mod_cast hsize
      linarith
    have hfloor : (⌊q⌋₊ : ℚ) ≤ q := Nat.floor_le hq0
    have hnext : q < ⌊q⌋₊ + 1 := Nat.lt_floor_add_one q
    have hk : ⌊q⌋₊ < USize.size := by exact_mod_cast lt_of_le_of_lt hfloor hqsize
    rw [toNat_asUsize hfloor hnext hk]
    exact ⟨le_trans hfloor hhigh, lt_of_le_of_lt hlow hnext⟩

/-- The backpressure conditions, with `f32` arithmetic. Up to the two bounds on the limit they
compare as exact fractions do. For every limit the thresholds are close to the exact ones. -/
theorem thresholds_binary32 (s : BackpressureStatus) :
    (s.activeAgentLimit.toNat ≤ 5242880 → (s.shouldThrottle binary32 = true ↔
        4 * s.activeAgentLimit.toNat < 5 * s.activeAgentCount.toNat ∨
          s.l3EgressBufferFillPct.gt (.ofRat THROTTLE_L3_FILL) = true)) ∧
      (s.activeAgentLimit.toNat ≤ 2207540 → (s.isCritical binary32 = true ↔
        19 * s.activeAgentLimit.toNat < 20 * s.activeAgentCount.toNat ∨
          s.l3EgressBufferFillPct.gt (.ofRat CRITICAL_L3_FILL) = true)) ∧
      Close (s.agentThreshold binary32 THROTTLE_AGENT_RATIO) (4 / 5) s.activeAgentLimit.toNat ∧
      Close (s.agentThreshold binary32 CRITICAL_AGENT_RATIO) (19 / 20)
        s.activeAgentLimit.toNat := by
  refine ⟨fun h => ?_, fun h => ?_, ?_, ?_⟩
  · have hcount : 4 * s.activeAgentLimit.toNat / 5 < s.activeAgentCount.toNat ↔
        4 * s.activeAgentLimit.toNat < 5 * s.activeAgentCount.toNat := by omega
    rw [shouldThrottle, exceeds_eq_true_iff, USize.lt_iff_toNat_lt, agentThreshold_throttle h,
      hcount]
  · have hcount : 19 * s.activeAgentLimit.toNat / 20 < s.activeAgentCount.toNat ↔
        19 * s.activeAgentLimit.toNat < 20 * s.activeAgentCount.toNat := by omega
    rw [isCritical, exceeds_eq_true_iff, USize.lt_iff_toNat_lt, agentThreshold_critical h,
      hcount]
  · refine agentThreshold_close s (by norm_num) (by norm_num) ?_
    unfold THROTTLE_AGENT_RATIO
    norm_num [abs_le]
  · refine agentThreshold_close s (by norm_num) (by norm_num) ?_
    unfold CRITICAL_AGENT_RATIO
    norm_num [abs_le]

/-- The next limits have a threshold that is one too high. -/
example : binary32 (binary32 5242881 * THROTTLE_AGENT_RATIO) = 4194305 ∧
    4 * 5242881 / 5 = 4194304 := by decide +kernel

example : binary32 (binary32 2207541 * CRITICAL_AGENT_RATIO) = 2097164 ∧
    19 * 2207541 / 20 = 2097163 := by decide +kernel

end BackpressureStatus

end SwarmRuntime.Runtime
