import Mathlib.Algebra.BigOperators.Ring.Finset
import Mathlib.Algebra.Order.BigOperators.Group.Finset
import Mathlib.Data.UInt
import SwarmRuntime.Inference.Metrics
import SwarmRuntime.Lib.Accumulate

/-!
# `SwarmRuntime.Proofs.Metrics`: what the counters account for

Whatever the interleaving of the calls of `record`, each counter is the sum of what the calls that
have reached it have added, modulo `2 ^ 64` (`accounts_of_run`).

The cost counter adds the cost of each call in whole micro-dollars, rounded down. So it is below
the true cost by up to one micro-dollar a call, and a call that costs less than one is not counted
at all. `record_accounts` puts both together.
-/

set_option autoImplicit false

namespace SwarmRuntime.Inference

open SwarmRuntime.Lib

/-! ### The operations of a call -/

/-- The label values of the request counter. -/
def CompletedRequest.requestLabels (q : CompletedRequest) : List String :=
  [q.agentType, q.tenantId, q.model, q.taskType, q.sensitivity, q.status]

/-- The label values of the token counters and of the cost counter. -/
def CompletedRequest.costLabels (q : CompletedRequest) : List String :=
  [q.agentType, q.tenantId, q.model]

/-- The operations of `record`. -/
def recordOps (q : CompletedRequest) : List MetricOp :=
  [.incBy .requestsTotal q.requestLabels 1,
    .incBy .tokensInTotal q.costLabels q.tokensIn,
    .incBy .tokensOutTotal q.costLabels q.tokensOut,
    .incBy .costUsdMicrosTotal q.costLabels (costUsdMicros q.costUsd),
    .observe .latencySeconds [q.agentType, q.model, q.taskType] q.latencyS,
    .observe .queueWaitSeconds [q.model] q.queueWaitS]

/-- `record` makes its six operations, and each has the right number of labels. -/
theorem record_eq (q : CompletedRequest) : record q = Interaction.each (recordOps q) := rfl

/-- What an operation adds to a counter. -/
def MetricOp.toCounter (v : IntCounterVec) (l : List String) : MetricOp → UInt64
  | .incBy v' l' n => if v' = v ∧ l' = l then n else 0
  | .observe _ _ _ => 0

/-- What an operation adds to a histogram. -/
def MetricOp.toHistogram (v : HistogramVec) (l : List String) : MetricOp → Multiset Binary64
  | .incBy _ _ _ => 0
  | .observe v' l' x => if v' = v ∧ l' = l then ({x} : Multiset Binary64) else 0

section
variable {σ ι : Type} {M : Prometheus σ}

theorem counter_apply (op : MetricOp) (v : IntCounterVec) (l : List String) (s : σ) :
    M.counter v l (op.apply M s) = M.counter v l s + op.toCounter v l := by
  cases op with
  | incBy v' l' n => exact M.counter_incBy v l v' l' n s
  | observe v' l' x =>
    rw [MetricOp.toCounter, add_zero]
    exact M.counter_observe v l v' l' x s

theorem observations_apply (op : MetricOp) (v : HistogramVec) (l : List String) (s : σ) :
    M.observations v l (op.apply M s) = M.observations v l s + op.toHistogram v l := by
  cases op with
  | incBy v' l' n =>
    rw [MetricOp.toHistogram, add_zero]
    exact M.observations_incBy v l v' l' n s
  | observe v' l' x => exact M.observations_observe v l v' l' x s

/-- What `f` gives for the call `i`, once the call has made more than `k` of its operations. -/
def Recorders.counted {N : Type} [Zero N] (P : Recorders σ ι) (k : Nat) (f : CompletedRequest → N)
    (i : ι) : N :=
  match P.procs i with
  | some p => if k < p.transcript.length then f p.request else 0
  | none => 0

/-- A part of a list with one entry. -/
theorem sum_take_single {N : Type} [AddCommMonoid N] (k m n : Nat) (x : N) :
    ((List.replicate k 0 ++ x :: List.replicate m 0).take n).sum = if k < n then x else 0 := by
  rcases Nat.lt_or_ge k n with hlt | hge
  · obtain ⟨d, rfl⟩ := Nat.exists_eq_add_of_lt hlt
    have htail : k + d + 1 - k = d + 1 := by omega
    rw [if_pos hlt, List.take_append, List.length_replicate, htail, List.take_succ_cons]
    simp
  · rw [if_neg (Nat.not_lt.mpr hge), List.take_append_of_le_length (by simpa using hge)]
    simp

/-- A call of `record` has made a first part of its operations, and the others are ahead. -/
theorem trace_recordOps {P : Recorders σ ι} {i : ι}
    {p : Proc (fun _ : MetricOp => Unit) CompletedRequest Unit}
    (htraced : P.Traced (recorders M)) (hi : P.procs i = some p) :
    Interaction.Trace (Interaction.each (recordOps p.request)) p.transcript p.rest := by
  rw [← record_eq]
  exact htraced i p hi

/-- A call that adds to a measure only with its operation `k`. -/
theorem added_eq_counted {N : Type} [AddCommMonoid N] {P : Recorders σ ι} {weight : MetricOp → N}
    {k : Nat} {f : CompletedRequest → N}
    (hweight : ∀ q, (recordOps q).map weight
      = List.replicate k 0 ++ f q :: List.replicate (5 - k) 0)
    (htraced : P.Traced (recorders M)) (i : ι) : P.added weight i = P.counted k f i := by
  unfold Pool.added Recorders.counted
  cases hi : P.procs i with
  | none => rfl
  | some p =>
    have htrace := trace_recordOps htraced hi
    have hcalls : (p.transcript.map fun call => weight call.1)
        = (((recordOps p.request).map weight).take p.transcript.length) := by
      rw [← List.map_take, ← (Interaction.trace_each htrace).1, List.map_map]
      rfl
    show (p.transcript.map fun call => weight call.1).sum = _
    rw [hcalls, hweight, sum_take_single]

/-! ### Any interleaving -/

/-- The metrics, as sums over the calls in `s`. The order of the sums is that of the operations in
`record`, so a call that is under way is in the first of them. -/
structure Accounts (M : Prometheus σ) (P : Recorders σ ι) (s : Finset ι) : Prop where
  requests : ∀ l, M.counter .requestsTotal l P.shared
    = ∑ i ∈ s, P.counted 0 (fun q => if q.requestLabels = l then 1 else 0) i
  tokensIn : ∀ l, M.counter .tokensInTotal l P.shared
    = ∑ i ∈ s, P.counted 1 (fun q => if q.costLabels = l then q.tokensIn else 0) i
  tokensOut : ∀ l, M.counter .tokensOutTotal l P.shared
    = ∑ i ∈ s, P.counted 2 (fun q => if q.costLabels = l then q.tokensOut else 0) i
  cost : ∀ l, M.counter .costUsdMicrosTotal l P.shared
    = ∑ i ∈ s, P.counted 3 (fun q => if q.costLabels = l then costUsdMicros q.costUsd else 0) i
  latency : ∀ l, M.observations .latencySeconds l P.shared
    = ∑ i ∈ s, P.counted 4 (fun q =>
        if [q.agentType, q.model, q.taskType] = l then ({q.latencyS} : Multiset Binary64) else 0) i
  queueWait : ∀ l, M.observations .queueWaitSeconds l P.shared
    = ∑ i ∈ s, P.counted 5 (fun q =>
        if [q.model] = l then ({q.queueWaitS} : Multiset Binary64) else 0) i

variable [DecidableEq ι] {ms : List (RecordersMove ι)} {P : Recorders σ ι} {s : Finset ι}

/-- A run of calls on new metrics. -/
abbrev Recorders.Runs (M : Prometheus σ) (ms : List (RecordersMove ι)) (P : Recorders σ ι) : Prop :=
  Run (Recorders.step M) (fun _ _ => True) (Recorders.start M) ms P

theorem traced_of_runs (h : Recorders.Runs M ms P) : P.Traced (recorders M) := by
  refine Pool.run_traced ?_ h
  intro i p hp
  cases hp

/-- A measure that starts at zero, and to which a call adds only with its operation `k`. -/
theorem measure_of_runs {N : Type} [AddCommMonoid N] {measure : σ → N} {weight : MetricOp → N}
    {k : Nat} {f : CompletedRequest → N} (hempty : measure M.empty = 0)
    (happly : ∀ op s, measure (MetricOp.apply M op s) = measure s + weight op)
    (hweight : ∀ q, (recordOps q).map weight
      = List.replicate k 0 ++ f q :: List.replicate (5 - k) 0)
    (h : Recorders.Runs M ms P) (hs : P.Started s) :
    measure P.shared = ∑ i ∈ s, P.counted k f i := by
  have hserve : ∀ (i : ι) op (w : Unit) s, measure ((recorders M).serve i op w s).2
      = measure s + weight op := fun i op w s => happly op s
  obtain ⟨s', hs', hsum⟩ := Pool.run_accumulates hserve (fun e _ => nomatch e) (fun i => rfl) h
  obtain rfl := hs.unique hs'
  have hinit : measure (Recorders.start M : Recorders σ ι).shared = 0 := hempty
  rw [hsum, hinit, zero_add]
  exact Finset.sum_congr rfl fun i _ => added_eq_counted hweight (traced_of_runs h) i

/-- The accounts hold after every run. -/
theorem accounts_of_runs (h : Recorders.Runs M ms P) (hs : P.Started s) : Accounts M P s where
  requests l := measure_of_runs (M.counter_empty _ l) (fun op => counter_apply op _ l)
    (fun q => by simp [recordOps, MetricOp.toCounter]) h hs
  tokensIn l := measure_of_runs (M.counter_empty _ l) (fun op => counter_apply op _ l)
    (fun q => by simp [recordOps, MetricOp.toCounter]) h hs
  tokensOut l := measure_of_runs (M.counter_empty _ l) (fun op => counter_apply op _ l)
    (fun q => by simp [recordOps, MetricOp.toCounter]) h hs
  cost l := measure_of_runs (M.counter_empty _ l) (fun op => counter_apply op _ l)
    (fun q => by simp [recordOps, MetricOp.toCounter]) h hs
  latency l := measure_of_runs (M.observations_empty _ l) (fun op => observations_apply op _ l)
    (fun q => by simp [recordOps, MetricOp.toHistogram]) h hs
  queueWait l := measure_of_runs (M.observations_empty _ l) (fun op => observations_apply op _ l)
    (fun q => by simp [recordOps, MetricOp.toHistogram]) h hs

end

/-! ### Micro-dollars -/

section
variable {c : Binary64} {q x : ℚ}

/-- The cast of a value that is not negative and not too great. -/
theorem toNat_asU64 (hx : c.toRat? = some x) (hlow : 0 ≤ x) (hhigh : x < 2 ^ 64) :
    (c.asU64.toNat : ℚ) ≤ x ∧ x < c.asU64.toNat + 1 := by
  obtain ⟨hmem, rfl⟩ := Ieee.toRat?_eq_some_iff.mp hx
  have hfloor : (0 : ℤ) ≤ ⌊x⌋ := Int.floor_nonneg.mpr hlow
  have hbound : ⌊x⌋ < 2 ^ 64 := by
    rw [Int.floor_lt]
    exact_mod_cast hhigh
  have hmin : min ⌊x⌋.toNat (2 ^ 64 - 1) = ⌊x⌋.toNat := by omega
  have htoNat : (Ieee.asU64 (.finite x hmem)).toNat = ⌊x⌋.toNat := by
    show (UInt64.ofNat (min ⌊x⌋.toNat (2 ^ 64 - 1))).toNat = _
    rw [hmin]
    exact UInt64.toNat_ofNat_of_lt' (by rw [UInt64.size]; omega)
  have hcast : ((⌊x⌋.toNat : ℕ) : ℚ) = (⌊x⌋ : ℚ) := by
    exact_mod_cast congrArg (Int.cast (R := ℚ)) (Int.toNat_of_nonneg hfloor)
  rw [htoNat, hcast]
  exact ⟨Int.floor_le x, Int.lt_floor_add_one x⟩

/-- `1_000_000.0` is exact. -/
theorem toRat?_million : (Ieee.ofRat Format.binary64 1000000).toRat? = some 1000000 := by
  have hmem : ((1000000 : Nat) : ℚ) ∈ floats Format.binary64.precision Format.binary64.emin :=
    natCast_mem_floats (by decide) (by decide)
  have hround : Format.binary64.round 1000000 = 1000000 := by
    exact_mod_cast Format.binary64.nearest_round.eq_of_mem hmem
  refine Ieee.toRat?_ofRat_eq_some_iff.mpr ⟨hround, ?_⟩
  calc |(1000000 : ℚ)| < 2 ^ (20 : ℤ) := by norm_num
    _ ≤ 2 ^ Format.binary64.emax := zpow_le_zpow_right₀ one_le_two (by decide)

/-- The product, before the cast. `b` is a float that it is not above. -/
theorem costUsdMicros_le {b : ℚ} (hc : c.toRat? = some q) (hlow : 0 ≤ q)
    (hb : b ∈ floats 53 (-1074)) (hqb : q * 1000000 ≤ b) (hsmall : b < 2 ^ 64) :
    ((costUsdMicros c).toNat : ℚ) ≤ Format.binary64.round (q * 1000000) ∧
      Format.binary64.round (q * 1000000) < (costUsdMicros c).toNat + 1 ∧
      Format.binary64.round (q * 1000000) ≤ b := by
  have hnearest := Format.binary64.nearest_round
  have hzero : (0 : ℚ) ∈ floats 53 (-1074) := zero_mem_floats
  have hnonneg : 0 ≤ Format.binary64.round (q * 1000000) :=
    hnearest.le_of_mem hzero (mul_nonneg hlow (by norm_num))
  have hle : Format.binary64.round (q * 1000000) ≤ b := by
    rw [← hnearest.eq_of_mem hb]
    exact hnearest.monotone hqb
  have hfinite : |Format.binary64.round (q * 1000000)| < 2 ^ Format.binary64.emax := by
    rw [abs_of_nonneg hnonneg]
    calc Format.binary64.round (q * 1000000) < 2 ^ (64 : ℤ) := by
          exact_mod_cast lt_of_le_of_lt hle hsmall
      _ ≤ 2 ^ Format.binary64.emax := zpow_le_zpow_right₀ one_le_two (by decide)
  have hproduct : (c * Ieee.ofRat _ 1000000).toRat?
      = some (Format.binary64.round (q * 1000000)) := by
    rw [Ieee.toRat?_mul hc toRat?_million]
    exact Ieee.toRat?_ofRat_eq_some_iff.mpr ⟨rfl, hfinite⟩
  obtain ⟨hcast, hcast'⟩ := toNat_asU64 hproduct hnonneg (lt_of_le_of_lt hle hsmall)
  exact ⟨hcast, hcast', hle⟩

/-- A cost that is less than a micro-dollar counts nothing. -/
theorem costUsdMicros_eq_zero (hc : c.toRat? = some q) (hlow : 0 ≤ q)
    (hq : q * 1000000 ≤ 1 - 1 / 2 ^ 53) : costUsdMicros c = 0 := by
  have hfloat : (1 - 1 / 2 ^ 53 : ℚ) ∈ floats 53 (-1074) := by
    have hmem : ((2 ^ 53 - 1 : ℤ) : ℚ) * 2 ^ (-53 : ℤ) ∈ floats 53 (-1074) :=
      mem_floats (by decide) (by decide)
    have heq : ((2 ^ 53 - 1 : ℤ) : ℚ) * 2 ^ (-53 : ℤ) = 1 - 1 / 2 ^ 53 := by norm_num
    rwa [heq] at hmem
  obtain ⟨hcast, -, hle⟩ := costUsdMicros_le hc hlow hfloat hq (by norm_num)
  have hlt : ((costUsdMicros c).toNat : ℚ) < ((1 : ℕ) : ℚ) := by
    refine lt_of_le_of_lt (hcast.trans hle) ?_
    norm_num
  have hzero : (costUsdMicros c).toNat < 1 := Nat.cast_lt.mp hlt
  exact UInt64.toNat_inj.mp (by rw [UInt64.toNat_zero]; omega)

/-- The micro-dollars of a cost: one rounding of the product, and then the fraction is cut off. -/
theorem costUsdMicros_bounds (hc : c.toRat? = some q) (hlow : 0 ≤ q) (hhigh : q ≤ 2 ^ 40) :
    (1 - 1 / 2 ^ 53) * (q * 1000000) - 1 ≤ (costUsdMicros c).toNat ∧
      ((costUsdMicros c).toNat : ℚ) ≤ (1 + 1 / 2 ^ 53) * (q * 1000000) := by
  have hx : 0 ≤ q * 1000000 := mul_nonneg hlow (by norm_num)
  rcases le_or_gt ((2 : ℚ) ^ (-1022 : ℤ)) (q * 1000000) with hnormal | htiny
  · have hfloat : ((1 : ℤ) : ℚ) * 2 ^ (60 : ℤ) ∈ floats 53 (-1074) :=
      mem_floats (by decide) (by decide)
    have hq : q * 1000000 ≤ ((1 : ℤ) : ℚ) * 2 ^ (60 : ℤ) := by
      norm_num at hhigh ⊢
      linarith
    obtain ⟨hcast, hcast', -⟩ := costUsdMicros_le hc hlow hfloat hq (by norm_num)
    have herror : |Format.binary64.round (q * 1000000) - q * 1000000|
        ≤ |q * 1000000| / 2 ^ 53 := abs_roundFloat_sub_le (by rwa [abs_of_nonneg hx])
    rw [abs_of_nonneg hx] at herror
    obtain ⟨herror', herror''⟩ := abs_le.mp herror
    constructor <;> linarith
  · -- Next to nothing, and so is what is rounded.
    have htiny' : q * 1000000 ≤ 1 - 1 / 2 ^ 53 := by
      refine htiny.le.trans ?_
      calc (2 : ℚ) ^ (-1022 : ℤ) ≤ 2 ^ (-1 : ℤ) := zpow_le_zpow_right₀ one_le_two (by decide)
        _ ≤ 1 - 1 / 2 ^ 53 := by norm_num
    rw [costUsdMicros_eq_zero hc hlow htiny', UInt64.toNat_zero, Nat.cast_zero]
    constructor <;> linarith

end

/-! ### The cost of the calls -/

section
variable {σ ι : Type} {M : Prometheus σ} {P : Recorders σ ι} {s : Finset ι} {l : List String}

/-- The true cost of a request, in micro-dollars. -/
def CompletedRequest.micros (q : CompletedRequest) : ℚ := q.costUsd.toRat?.getD 0 * 1000000

/-- The true cost of the calls that have reached the cost counter. -/
def Recorders.trueCost (P : Recorders σ ι) (s : Finset ι) (l : List String) : ℚ :=
  ∑ i ∈ s, P.counted 3 (fun q => if q.costLabels = l then q.micros else 0) i

/-- How many calls have reached the cost counter. -/
def Recorders.costed (P : Recorders σ ι) (s : Finset ι) (l : List String) : ℚ :=
  ∑ i ∈ s, P.counted 3 (fun q => if q.costLabels = l then (1 : ℚ) else 0) i

/-- The cost of each call with the labels `l` is a number of dollars from zero to `b`. -/
def Recorders.CostsWithin (P : Recorders σ ι) (l : List String) (b : ℚ) : Prop :=
  ∀ i p, P.procs i = some p → p.request.costLabels = l →
    ∃ q, p.request.costUsd.toRat? = some q ∧ 0 ≤ q ∧ q ≤ b

theorem toNat_sum (f : ι → UInt64) (s : Finset ι) :
    (∑ i ∈ s, f i).toNat = (∑ i ∈ s, (f i).toNat) % 2 ^ 64 := by
  classical
  induction s using Finset.induction_on with
  | empty => rfl
  | insert i s hi ih =>
    rw [Finset.sum_insert hi, Finset.sum_insert hi, UInt64.toNat_add, ih, Nat.add_mod_mod]

/-- What one call adds to the cost counter, against its true cost. -/
theorem counted_bounds (hcosts : P.CostsWithin l (2 ^ 40)) (i : ι) :
    (1 - 1 / 2 ^ 53) * P.counted 3 (fun q => if q.costLabels = l then q.micros else 0) i
        - P.counted 3 (fun q => if q.costLabels = l then (1 : ℚ) else 0) i
        ≤ (P.counted 3 (fun q =>
            if q.costLabels = l then costUsdMicros q.costUsd else 0) i).toNat ∧
      ((P.counted 3 (fun q =>
          if q.costLabels = l then costUsdMicros q.costUsd else 0) i).toNat : ℚ)
        ≤ (1 + 1 / 2 ^ 53)
          * P.counted 3 (fun q => if q.costLabels = l then q.micros else 0) i := by
  unfold Recorders.counted
  cases hi : P.procs i with
  | none => norm_num
  | some p =>
    by_cases hpast : 3 < p.transcript.length ∧ p.request.costLabels = l
    · obtain ⟨q, hq, hlow, hhigh⟩ := hcosts i p hi hpast.2
      have hmicros : p.request.micros = q * 1000000 := by
        rw [CompletedRequest.micros, hq, Option.getD_some]
      simp only [if_pos hpast.1, if_pos hpast.2, hmicros]
      exact costUsdMicros_bounds hq hlow hhigh
    · -- A call that is not that far, or has other labels.
      by_cases hlen : 3 < p.transcript.length
      · have hlabels : p.request.costLabels ≠ l := fun hl => hpast ⟨hlen, hl⟩
        simp only [if_pos hlen, if_neg hlabels]
        norm_num
      · simp only [if_neg hlen]
        norm_num

/-- The cost counter against the true cost. -/
theorem cost_bounds (hacc : Accounts M P s) (hcosts : P.CostsWithin l (2 ^ 40))
    (hroom : (1 + 1 / 2 ^ 53) * P.trueCost s l < 2 ^ 64) :
    (1 - 1 / 2 ^ 53) * P.trueCost s l - P.costed s l
        ≤ (M.counter .costUsdMicrosTotal l P.shared).toNat ∧
      ((M.counter .costUsdMicrosTotal l P.shared).toNat : ℚ)
        ≤ (1 + 1 / 2 ^ 53) * P.trueCost s l := by
  rw [hacc.cost l, toNat_sum]
  have hhigh := Finset.sum_le_sum fun i (_ : i ∈ s) => (counted_bounds hcosts i).2
  have hlow := Finset.sum_le_sum fun i (_ : i ∈ s) => (counted_bounds hcosts i).1
  rw [← Finset.mul_sum, ← Nat.cast_sum] at hhigh
  rw [Finset.sum_sub_distrib, ← Finset.mul_sum, ← Nat.cast_sum] at hlow
  have hmod : (∑ i ∈ s, (P.counted 3 (fun q =>
      if q.costLabels = l then costUsdMicros q.costUsd else 0) i).toNat) < 2 ^ 64 := by
    have hlt := lt_of_le_of_lt hhigh hroom
    exact_mod_cast hlt
  rw [Nat.mod_eq_of_lt hmod]
  exact ⟨hlow, hhigh⟩

/-- Calls that cost less than a micro-dollar each leave the counter at zero. -/
theorem cost_dropped (hacc : Accounts M P s)
    (hcosts : P.CostsWithin l ((1 - 1 / 2 ^ 53) / 1000000)) :
    M.counter .costUsdMicrosTotal l P.shared = 0 := by
  rw [hacc.cost l]
  refine Finset.sum_eq_zero ?_
  intro i _
  unfold Recorders.counted
  cases hi : P.procs i with
  | none => rfl
  | some p =>
    by_cases hlabels : p.request.costLabels = l
    · obtain ⟨q, hq, hlow, hhigh⟩ := hcosts i p hi hlabels
      have hscaled : q * 1000000 ≤ 1 - 1 / 2 ^ 53 := by linarith
      simp only [if_pos hlabels, costUsdMicros_eq_zero hq hlow hscaled, ite_self]
    · simp only [if_neg hlabels, ite_self]

variable [DecidableEq ι] {ms : List (RecordersMove ι)}

/-- No call has the wrong number of labels. -/
theorem not_panic_of_runs (h : Recorders.Runs M ms P) (i : ι)
    (p : Proc (fun _ : MetricOp => Unit) CompletedRequest Unit) (msg : String)
    (hp : P.procs i = some p) : p.rest ≠ .panic msg := by
  have htrace := trace_recordOps (traced_of_runs h) hp
  rw [(Interaction.trace_each htrace).2]
  cases (recordOps p.request).drop p.transcript.length <;> intro hpanic <;> cases hpanic

/-- What the metrics account for after any run of concurrent calls, some of them under way or lost
with their thread. Each metric is the sum over the calls that have reached it, and no call panics.
For any labels, the cost counter is at most the true cost in micro-dollars, up to one rounding, and
it may be short of it by one micro-dollar for each call. Calls that cost less are not counted. -/
theorem record_accounts (h : Recorders.Runs M ms P) :
    ∃ s, P.Started s ∧ Accounts M P s ∧ (∀ i p msg, P.procs i = some p → p.rest ≠ .panic msg) ∧
      ∀ l,
        (P.CostsWithin l (2 ^ 40) → (1 + 1 / 2 ^ 53) * P.trueCost s l < 2 ^ 64 →
          (1 - 1 / 2 ^ 53) * P.trueCost s l - P.costed s l
              ≤ (M.counter .costUsdMicrosTotal l P.shared).toNat ∧
            ((M.counter .costUsdMicrosTotal l P.shared).toNat : ℚ)
              ≤ (1 + 1 / 2 ^ 53) * P.trueCost s l) ∧
        (P.CostsWithin l ((1 - 1 / 2 ^ 53) / 1000000) →
          M.counter .costUsdMicrosTotal l P.shared = 0) := by
  obtain ⟨s, hs⟩ := Pool.exists_started (fun i => rfl) h
  have hacc := accounts_of_runs h hs
  refine ⟨s, hs, hacc, not_panic_of_runs h, ?_⟩
  intro l
  exact ⟨cost_bounds hacc, cost_dropped hacc⟩

end

/-! ### Two calls at once -/

/-- Metrics in memory. -/
abbrev InMemory :=
  (IntCounterVec → List String → UInt64) × (HistogramVec → List String → Multiset Binary64)

/-- A `Prometheus` in memory. -/
def inMemory : Prometheus InMemory where
  empty := (fun _ _ => 0, fun _ _ => 0)
  incBy v' l' n s := (fun v l => s.1 v l + if v' = v ∧ l' = l then n else 0, s.2)
  observe v' l' x s := (s.1, fun v l => s.2 v l + if v' = v ∧ l' = l then {x} else 0)
  counter v l s := s.1 v l
  observations v l s := s.2 v l
  counter_empty _ _ := rfl
  observations_empty _ _ := rfl
  counter_incBy _ _ _ _ _ _ := rfl
  counter_observe _ _ _ _ _ _ := rfl
  observations_incBy _ _ _ _ _ _ := rfl
  observations_observe _ _ _ _ _ _ := rfl

/-- A request that costs less than half a micro-dollar. -/
def cheapRequest : CompletedRequest where
  agentType := "writer"
  tenantId := "acme"
  model := "claude"
  taskType := "standard"
  sensitivity := "public"
  status := "ok"
  tokensIn := 12
  tokensOut := 34
  costUsd := .ofRat _ (1 / 2 ^ 21)
  latencyS := .ofRat _ 1
  queueWaitS := .ofRat _ 0

/-- Of two calls one is lost after its first operation. The other one has reached the cost
counter. -/
theorem exists_run_two :
    ∃ P, Recorders.Runs inMemory [.start false cheapRequest, .start true cheapRequest,
        .serve true (), .serve false (), .serve false (), .crash true, .serve false (),
        .serve false ()] P ∧
      ∀ i p, P.procs i = some p → p.request = cheapRequest := by
  refine ⟨_, .snoc (.snoc (.snoc (.snoc (.snoc (.snoc (.snoc (.snoc .nil trivial rfl) trivial rfl)
    trivial rfl) trivial rfl) trivial rfl) trivial rfl) trivial rfl) trivial rfl, ?_⟩
  intro i p hp
  cases i <;> cases hp <;> rfl

/-- The lost call and the other one are accounted for, and no cost is. -/
theorem record_accounts_two :
    ∃ (P : Recorders InMemory Bool) (s : Finset Bool), P.Started s ∧ Accounts inMemory P s ∧
      inMemory.counter .costUsdMicrosTotal ["writer", "acme", "claude"] P.shared = 0 := by
  obtain ⟨P, hP, hrequests⟩ := exists_run_two
  obtain ⟨s, hs, hacc, -, hcost⟩ := record_accounts hP
  have hcheap : P.CostsWithin ["writer", "acme", "claude"] ((1 - 1 / 2 ^ 53) / 1000000) := by
    intro i p hp _
    refine ⟨1 / 2 ^ 21, ?_, by norm_num, by norm_num⟩
    rw [hrequests i p hp]
    decide +kernel
  exact ⟨P, s, hs, hacc, (hcost _).2 hcheap⟩

end SwarmRuntime.Inference
