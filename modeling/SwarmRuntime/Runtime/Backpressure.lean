import Mathlib.Algebra.Order.Floor.Semiring
import Mathlib.Algebra.Order.Ring.Rat
import Mathlib.Data.Rat.Floor
import Mathlib.Order.WithBot

/-!
# `SwarmRuntime.Runtime.Backpressure`: the backpressure snapshot (`agent.rs`)

`should_throttle` and `is_critical` compare the active agents with a fraction of their limit, and
the fill of the L3 egress buffer with a bound.

The product of the limit and the ratio is taken in `f32`. Here it is exact, and `round` is what
the conversion of the limit and the product do to their exact results.
-/

set_option autoImplicit false

namespace SwarmRuntime.Runtime

/-- A value of type `f32`: a rational or an infinity, and `none` for NaN. -/
abbrev F32 := Option (WithBot (WithTop ℚ))

/-- A finite `f32`. -/
def F32.ofRat (q : ℚ) : F32 := some ((q : WithTop ℚ) : WithBot (WithTop ℚ))

/-- `x > y`: a comparison with NaN fails. -/
def F32.gt : F32 → F32 → Bool
  | some x, some y => decide (y < x)
  | _, _ => false

/-- `x as usize`: truncation towards zero that saturates. -/
def asUsize (q : ℚ) : USize := USize.ofNat (min ⌊q⌋.toNat (USize.size - 1))

/-- `0.80`, as the nearest `f32`. -/
def THROTTLE_AGENT_RATIO : ℚ := 13421773 / 2 ^ 24

/-- `0.85` -/
def THROTTLE_L3_FILL : ℚ := 14260634 / 2 ^ 24

/-- `0.95` -/
def CRITICAL_AGENT_RATIO : ℚ := 15938355 / 2 ^ 24

/-- `0.95` -/
def CRITICAL_L3_FILL : ℚ := 15938355 / 2 ^ 24

/-- Backpressure snapshot published by `SwarmSupervisor`. -/
structure BackpressureStatus where
  activeAgentCount : USize
  activeAgentLimit : USize
  l3EgressBufferFillPct : F32

namespace BackpressureStatus

/-- `(self.active_agent_limit as f32 * ratio) as usize` -/
def agentThreshold (round : ℚ → ℚ) (s : BackpressureStatus) (ratio : ℚ) : USize :=
  asUsize (round (round s.activeAgentLimit.toNat * ratio))

/-- What both conditions compare. -/
def exceeds (round : ℚ → ℚ) (s : BackpressureStatus) (agentRatio l3Fill : ℚ) : Bool :=
  s.agentThreshold round agentRatio < s.activeAgentCount ||
    s.l3EgressBufferFillPct.gt (.ofRat l3Fill)

/-- `true` if the runtime should pause new task dispatches. -/
def shouldThrottle (round : ℚ → ℚ) (s : BackpressureStatus) : Bool :=
  s.exceeds round THROTTLE_AGENT_RATIO THROTTLE_L3_FILL

/-- `true` if the runtime has reached critical pressure. -/
def isCritical (round : ℚ → ℚ) (s : BackpressureStatus) : Bool :=
  s.exceeds round CRITICAL_AGENT_RATIO CRITICAL_L3_FILL

end BackpressureStatus

end SwarmRuntime.Runtime
