import Mathlib.Algebra.Order.Group.Multiset
import SwarmRuntime.Lib.Ieee
import SwarmRuntime.Lib.Pool

/-!
# `SwarmRuntime.Inference.Metrics`: cost attribution (`metrics.rs`)

`ClusterMetrics::record` takes `&self`, and threads share the metrics. It adds to four counters and
two histograms, one after the other. Each addition is atomic, and the additions of different calls
interleave.

The `prometheus` crate is a parameter. `Prometheus` has what `record` uses of it: the counters of
each vector, by label values, the observations of each histogram, and what an addition does to
them. The gauges of `ClusterMetrics` are left out, since no function here writes them.
-/

set_option autoImplicit false

namespace SwarmRuntime.Inference

open SwarmRuntime.Lib (Binary64 Ieee Interaction Pool Move Service)

/-! ### The metrics -/

/-- The counters of `ClusterMetrics` (`IntCounterVec`). -/
inductive IntCounterVec where
  | requestsTotal
  | tokensInTotal
  | tokensOutTotal
  | costUsdMicrosTotal
  deriving DecidableEq, Repr

/-- The histograms of `ClusterMetrics` (`HistogramVec`). -/
inductive HistogramVec where
  | latencySeconds
  | queueWaitSeconds
  deriving DecidableEq, Repr

/-- The label names that `ClusterMetrics::new` gives a counter. -/
def IntCounterVec.labelNames : IntCounterVec → List String
  | .requestsTotal => ["agent_type", "tenant_id", "model", "task_type", "sensitivity", "status"]
  | .tokensInTotal => ["agent_type", "tenant_id", "model"]
  | .tokensOutTotal => ["agent_type", "tenant_id", "model"]
  | .costUsdMicrosTotal => ["agent_type", "tenant_id", "model"]

/-- The label names that `ClusterMetrics::new` gives a histogram. -/
def HistogramVec.labelNames : HistogramVec → List String
  | .latencySeconds => ["agent_type", "model", "task_type"]
  | .queueWaitSeconds => ["model"]

/-- The registered metrics. A counter is a `u64` for each combination of label values, and wraps
around. A histogram keeps its observations here, in no order. -/
structure Prometheus (σ : Type) where
  empty : σ
  incBy : IntCounterVec → List String → UInt64 → σ → σ
  observe : HistogramVec → List String → Binary64 → σ → σ
  counter : IntCounterVec → List String → σ → UInt64
  observations : HistogramVec → List String → σ → Multiset Binary64
  counter_empty : ∀ v l, counter v l empty = 0
  observations_empty : ∀ v l, observations v l empty = 0
  counter_incBy : ∀ v l v' l' n s, counter v l (incBy v' l' n s) =
    counter v l s + if v' = v ∧ l' = l then n else 0
  counter_observe : ∀ v l v' l' x s, counter v l (observe v' l' x s) = counter v l s
  observations_incBy : ∀ v l v' l' n s, observations v l (incBy v' l' n s) = observations v l s
  observations_observe : ∀ v l v' l' x s, observations v l (observe v' l' x s) =
    observations v l s + if v' = v ∧ l' = l then ({x} : Multiset Binary64) else 0

/-! ### `record` -/

/-- An atomic operation on the metrics. -/
inductive MetricOp where
  | incBy (v : IntCounterVec) (labels : List String) (n : UInt64)
  | observe (v : HistogramVec) (labels : List String) (x : Binary64)

/-- A program on the metrics. -/
abbrev MetricProg := Interaction (fun _ : MetricOp => Unit) Unit

/-- `vec.with_label_values(labels)`: the number of labels has to be that of the names. -/
def withLabelValues (names labels : List String) (op : MetricOp) : MetricProg :=
  if labels.length = names.length then Interaction.call op
  else Interaction.panic "called `Result::unwrap()` on an `Err` value: InconsistentCardinality"

/-- `.with_label_values(labels).inc_by(n)` -/
def IntCounterVec.incBy (v : IntCounterVec) (labels : List String) (n : UInt64) : MetricProg :=
  withLabelValues v.labelNames labels (.incBy v labels n)

/-- `.with_label_values(labels).observe(x)` -/
def HistogramVec.observe (v : HistogramVec) (labels : List String) (x : Binary64) : MetricProg :=
  withLabelValues v.labelNames labels (.observe v labels x)

/-- The arguments of `record`. -/
structure CompletedRequest where
  agentType : String
  tenantId : String
  model : String
  taskType : String
  sensitivity : String
  status : String
  tokensIn : UInt64
  tokensOut : UInt64
  costUsd : Binary64
  latencyS : Binary64
  queueWaitS : Binary64

/-- `(cost_usd * 1_000_000.0) as u64` -/
def costUsdMicros (costUsd : Binary64) : UInt64 := (costUsd * .ofRat _ 1000000).asU64

/-- Record a completed inference request. -/
def record (q : CompletedRequest) : MetricProg := do
  IntCounterVec.requestsTotal.incBy
    [q.agentType, q.tenantId, q.model, q.taskType, q.sensitivity, q.status] 1
  IntCounterVec.tokensInTotal.incBy [q.agentType, q.tenantId, q.model] q.tokensIn
  IntCounterVec.tokensOutTotal.incBy [q.agentType, q.tenantId, q.model] q.tokensOut
  IntCounterVec.costUsdMicrosTotal.incBy [q.agentType, q.tenantId, q.model]
    (costUsdMicros q.costUsd)
  HistogramVec.latencySeconds.observe [q.agentType, q.model, q.taskType] q.latencyS
  HistogramVec.queueWaitSeconds.observe [q.model] q.queueWaitS

/-! ### Calls on shared metrics -/

variable {σ ι : Type}

/-- One operation on the metrics. -/
def MetricOp.apply (M : Prometheus σ) : MetricOp → σ → σ
  | .incBy v labels n => M.incBy v labels n
  | .observe v labels x => M.observe v labels x

/-- The metrics with the calls of `record`. -/
abbrev Recorders (σ ι : Type) := Pool (fun _ : MetricOp => Unit) CompletedRequest Unit σ ι

/-- A call starts, makes its next operation, or is lost with its thread. -/
abbrev RecordersMove (ι : Type) := Move CompletedRequest Unit Empty ι

/-- How the calls run. -/
def recorders (M : Prometheus σ) :
    Service (fun _ : MetricOp => Unit) CompletedRequest Unit σ Unit Empty ι where
  prog := record
  serve _ op _ s := ((), op.apply M s)
  env e _ := nomatch e

namespace Recorders

/-- `ClusterMetrics::new`, and no call. -/
def start (M : Prometheus σ) : Recorders σ ι := ⟨M.empty, fun _ => none⟩

/-- One move. -/
abbrev step [DecidableEq ι] (M : Prometheus σ) :
    Recorders σ ι → RecordersMove ι → Option (Recorders σ ι) :=
  Pool.step (recorders M)

end Recorders

end SwarmRuntime.Inference
