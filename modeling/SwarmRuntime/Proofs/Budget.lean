import SwarmRuntime.Inference.Budget
import SwarmRuntime.Lib.FixedWindow
import SwarmRuntime.Lib.Runs

/-!
# `SwarmRuntime.Proofs.Budget`: the budget gate against a fixed-window counter

The gate runs beside the reference, `FixedWindow`: exact counters, and a fresh window at any
call that finds the current one over. `Mirrors` says that the two hold the same numbers. A call
keeps it as long as no tokens are recorded in a window that is over and the exact total fits the
64 bits of the counters (`Mirrors.step`).

* `answers_agree`: on such runs the gate answers as the reference does.
* `late_usage_dropped`: tokens recorded in a window that is over are gone at the next check.
* `capacity_exact`: within one window the answers are those of the exact sums, for tenants
  with an entry or a limit that is not zero.
-/

set_option autoImplicit false

namespace SwarmRuntime.Proofs

open SwarmRuntime.Lib SwarmRuntime.Inference

/-- A call of the gate. -/
inductive BudgetCall where
  | hasCapacity (tenantId : String)
  | recordUsage (tenantId : String) (tokens : UInt64)
  deriving DecidableEq, Repr

/-- A call with the two clock readings it may take, in order. -/
structure TimedCall where
  call : BudgetCall
  now : Instant
  now' : Instant
  deriving DecidableEq, Repr

/-- The gate beside the reference counter. -/
structure Metered where
  gate : ClaudeBudgetGate
  window : FixedWindow String

namespace Metered

/-- A new gate and an empty window. -/
def start (globalLimit perTenantLimit : UInt64) (now : Instant) : Metered :=
  ⟨.new globalLimit perTenantLimit now, .opened now⟩

/-- The reference starts a fresh window when the current one is over. -/
def rolled (s : Metered) (now now' : Instant) : FixedWindow String :=
  s.window.roll (expired s.gate.windowDurationSecs) now now'

/-- One call of both. -/
def step (s : Metered) (c : TimedCall) : Option Metered :=
  match c.call with
  | .hasCapacity t => some ⟨(s.gate.hasCapacity t c.now c.now').2, s.rolled c.now c.now'⟩
  | .recordUsage t n => some ⟨s.gate.recordUsage t n, (s.rolled c.now c.now').charge t n.toNat⟩

/-- What the gate answers for a tenant. -/
def gateAnswer (s : Metered) (t : String) (now now' : Instant) : Bool :=
  (s.gate.hasCapacity t now now').1

/-- What the reference answers for a tenant. -/
def referenceAnswer (s : Metered) (t : String) (now now' : Instant) : Bool :=
  (s.rolled now now').admits s.gate.globalLimit.toNat s.gate.perTenantLimit.toNat t

/-- The window of the gate is over. -/
def Over (s : Metered) (now : Instant) : Prop :=
  expired s.gate.windowDurationSecs s.gate.windowStart now = true

instance (s : Metered) (now : Instant) : Decidable (s.Over now) :=
  inferInstanceAs (Decidable (_ = true))

/-! ### The numbers of the two -/

/-- The gate and the reference hold the same numbers. -/
structure Mirrors (s : Metered) : Prop where
  start : s.gate.windowStart = s.window.start
  total : s.gate.globalUsed.toNat = s.window.total
  usage : ∀ t, (s.gate.usedBy t).toNat = s.window.usage t
  balanced : s.window.Balanced

/-- Usage is recorded before the window of the gate is over, and the exact total stays below
`2 ^ 64`. -/
structure RecordsInWindow (s : Metered) (c : TimedCall) : Prop where
  inWindow : ∀ t n, c.call = .recordUsage t n → ¬ s.Over c.now
  total : ∀ t n, c.call = .recordUsage t n → (s.rolled c.now c.now').total + n.toNat < 2 ^ 64

variable {s s' : Metered} {c : TimedCall} {g p : UInt64} {t₀ now now' : Instant} {t : String}
  {ms : List TimedCall}

theorem mirrors_start : Mirrors (start g p t₀) where
  start := rfl
  total := rfl
  usage _ := rfl
  balanced := FixedWindow.balanced_opened t₀

theorem rolled_of_not_over (h : Mirrors s) (hnot : ¬ s.Over now) :
    s.rolled now now' = s.window := by
  unfold rolled FixedWindow.roll
  rw [← h.start]
  exact if_neg hnot

/-- Both start a fresh window, or neither does. -/
theorem Mirrors.reset (h : Mirrors s) (now now' : Instant) :
    Mirrors ⟨s.gate.maybeResetWindow now now', s.rolled now now'⟩ := by
  by_cases hover : s.Over now
  · have hreset := ClaudeBudgetGate.maybeResetWindow_of_expired now' hover
    have hrolled : s.rolled now now' = FixedWindow.opened now' := by
      unfold rolled FixedWindow.roll
      rw [← h.start]
      exact if_pos hover
    rw [hrolled]
    refine ⟨hreset.2.2, ?_, ?_, FixedWindow.balanced_opened now'⟩
    · show (s.gate.maybeResetWindow now now').globalUsed.toNat = 0
      rw [hreset.1]
      rfl
    · intro t
      show ((s.gate.maybeResetWindow now now').usedBy t).toNat = 0
      rw [hreset.2.1 t]
      rfl
  · have hstay := ClaudeBudgetGate.maybeResetWindow_of_not_expired now'
      (Bool.eq_false_iff.mpr hover)
    rw [rolled_of_not_over h hover, hstay]
    exact h

/-- Both count the same tokens, below `2 ^ 64`. -/
theorem Mirrors.charge (h : Mirrors s) {n : UInt64} (hn : s.window.total + n.toNat < 2 ^ 64) :
    Mirrors ⟨s.gate.recordUsage t n, s.window.charge t n.toNat⟩ := by
  have hle := h.balanced t
  refine ⟨h.start, ?_, ?_, h.balanced.charge t n.toNat⟩
  · show (s.gate.globalUsed + n).toNat = s.window.total + n.toNat
    rw [UInt64.toNat_add, h.total, Nat.mod_eq_of_lt hn]
  · intro t'
    show ((s.gate.recordUsage t n).usedBy t').toNat = (s.window.charge t n.toNat).usage t'
    by_cases ht : t' = t
    · subst ht
      rw [ClaudeBudgetGate.recordUsage_usedBy_self, FixedWindow.charge_usage_self,
        UInt64.toNat_add, h.usage, Nat.mod_eq_of_lt (by omega)]
    · rw [ClaudeBudgetGate.recordUsage_usedBy_of_ne ht, FixedWindow.charge_usage_of_ne ht, h.usage]

/-- One call keeps the numbers the same. -/
theorem Mirrors.step (h : Mirrors s) (hok : RecordsInWindow s c) (hs : step s c = some s') :
    Mirrors s' := by
  unfold Metered.step at hs
  cases hc : c.call with
  | hasCapacity t =>
    rw [hc] at hs
    obtain rfl := Option.some.inj hs
    exact h.reset c.now c.now'
  | recordUsage t n =>
    rw [hc] at hs
    obtain rfl := Option.some.inj hs
    have htotal := hok.total t n hc
    rw [rolled_of_not_over h (hok.inWindow t n hc)] at htotal ⊢
    exact h.charge htotal

/-- A call does not change the limits. -/
theorem step_limits (hs : step s c = some s') :
    s'.gate.globalLimit = s.gate.globalLimit ∧
      s'.gate.perTenantLimit = s.gate.perTenantLimit := by
  unfold Metered.step at hs
  cases hc : c.call with
  | hasCapacity t =>
    rw [hc] at hs
    obtain rfl := Option.some.inj hs
    exact ⟨ClaudeBudgetGate.maybeResetWindow_globalLimit,
      ClaudeBudgetGate.maybeResetWindow_perTenantLimit⟩
  | recordUsage t n =>
    rw [hc] at hs
    obtain rfl := Option.some.inj hs
    exact ⟨rfl, rfl⟩

theorem run_limits {ok : Metered → TimedCall → Prop} {s₀ : Metered} (h : Run step ok s₀ ms s) :
    s.gate.globalLimit = s₀.gate.globalLimit ∧
      s.gate.perTenantLimit = s₀.gate.perTenantLimit := by
  refine h.invariant (fun s => s.gate.globalLimit = s₀.gate.globalLimit ∧
    s.gate.perTenantLimit = s₀.gate.perTenantLimit) ⟨rfl, rfl⟩ ?_
  intro ms s c s' _ ih _ hs
  have hsame := step_limits hs
  exact ⟨hsame.1.trans ih.1, hsame.2.trans ih.2⟩

/-- The numbers agree at the end of each run that records in its windows. -/
theorem run_mirrors (h : Run step RecordsInWindow (start g p t₀) ms s) : Mirrors s := by
  refine h.invariant Mirrors mirrors_start ?_
  intro ms s c s' _ ih hok hs
  exact ih.step hok hs

/-! ### The answers -/

/-- With the same numbers, a tenant that has an entry, or a limit above zero, gets the same
answer of both. -/
theorem Mirrors.answer_eq (h : Mirrors s)
    (hentry : 0 < s.gate.perTenantLimit ∨ s.gate.tenantUsed t ≠ none ∨
      s.gate.globalLimit.toNat ≤ s.window.total) :
    (s.gate.checkGlobal && s.gate.checkTenant t) =
      s.window.admits s.gate.globalLimit.toNat s.gate.perTenantLimit.toNat t := by
  have husage := h.usage t
  rw [Bool.eq_iff_iff, Bool.and_eq_true, FixedWindow.admits_eq_true_iff,
    ClaudeBudgetGate.checkGlobal_eq_true_iff, ClaudeBudgetGate.checkTenant_eq_true_iff,
    UInt64.lt_iff_toNat_lt, UInt64.lt_iff_toNat_lt, h.total, husage]
  constructor
  · rintro ⟨hglobal, hnone | htenant⟩
    · refine ⟨hglobal, ?_⟩
      -- A tenant with no entry has used nothing.
      have hzero : s.window.usage t = 0 := by
        rw [← husage, ClaudeBudgetGate.usedBy, hnone]
        rfl
      rcases hentry with hpos | hsome | hfull
      · rw [hzero]
        exact UInt64.lt_iff_toNat_lt.mp hpos
      · exact absurd hnone hsome
      · omega
    · exact ⟨hglobal, htenant⟩
  · rintro ⟨hglobal, htenant⟩
    exact ⟨hglobal, .inr htenant⟩

/-- In every run that records its usage before the window of the gate is over, the gate answers
as the reference does. -/
theorem answers_agree (g p : UInt64) (hp : 1 ≤ p) (t₀ : Instant) (ms : List TimedCall)
    (s : Metered) (h : Run step RecordsInWindow (start g p t₀) ms s) (t : String)
    (now now' : Instant) : s.gateAnswer t now now' = s.referenceAnswer t now now' := by
  have hreset := (run_mirrors h).reset now now'
  have hlimits := run_limits h
  have hanswer := hreset.answer_eq (t := t) (.inl (by
    show 0 < (s.gate.maybeResetWindow now now').perTenantLimit
    rw [ClaudeBudgetGate.maybeResetWindow_perTenantLimit, hlimits.2]
    exact UInt64.lt_iff_toNat_lt.mpr (UInt64.le_iff_toNat_le.mp hp)))
  rw [ClaudeBudgetGate.maybeResetWindow_globalLimit,
    ClaudeBudgetGate.maybeResetWindow_perTenantLimit] at hanswer
  exact hanswer

/-- One hour, in nanoseconds. -/
def hour : Instant := 3600 * 10 ^ 9

/-- A record within the first hour, and a check at the moment the hour is over: both windows are
empty again there. -/
theorem answers_agree_first_hour :
    let c : TimedCall := ⟨.recordUsage "acme" 7, 5, 5⟩
    ∃ s, Run step RecordsInWindow (start 10 10 0) [c] s ∧
      s.gateAnswer "acme" hour hour = s.referenceAnswer "acme" hour hour := by
  intro c
  have hrun : Run step RecordsInWindow (start 10 10 0) ([] ++ [c]) _ :=
    .snoc .nil ⟨fun _ _ _ => by decide, fun t n hc => by cases hc; decide⟩ rfl
  exact ⟨_, hrun, answers_agree 10 10 (by decide) 0 _ _ hrun "acme" hour hour⟩

/-- What is recorded in a window that is over is gone at the next check: it admits everyone,
whatever the amount. -/
theorem late_usage_dropped {n : UInt64} {now'' : Instant} (hg : 0 < s.gate.globalLimit)
    (hp : 0 < s.gate.perTenantLimit) (hover : s.Over now) (hlater : now ≤ now')
    (hs : step s ⟨.recordUsage t n, now, now'⟩ = some s') (t' : String) :
    s'.gateAnswer t' now' now'' = true := by
  obtain rfl := Option.some.inj hs
  have hstill : expired s.gate.windowDurationSecs s.gate.windowStart now' = true := by
    have hsecs : s.gate.windowDurationSecs.toNat ≤ elapsedSecs s.gate.windowStart now :=
      of_decide_eq_true hover
    have hmono : elapsedSecs s.gate.windowStart now ≤ elapsedSecs s.gate.windowStart now' :=
      Nat.div_le_div_right (Nat.sub_le_sub_right hlater _)
    exact decide_eq_true (hsecs.trans hmono)
  have hreset :=
    @ClaudeBudgetGate.maybeResetWindow_of_expired (s.gate.recordUsage t n) now' now'' hstill
  show (((s.gate.recordUsage t n).maybeResetWindow now' now'').checkGlobal &&
    ((s.gate.recordUsage t n).maybeResetWindow now' now'').checkTenant t') = true
  rw [Bool.and_eq_true, ClaudeBudgetGate.checkGlobal_eq_true_iff,
    ClaudeBudgetGate.checkTenant_eq_true_iff, hreset.1, hreset.2.1 t',
    ClaudeBudgetGate.maybeResetWindow_globalLimit,
    ClaudeBudgetGate.maybeResetWindow_perTenantLimit]
  exact ⟨hg, .inr hp⟩

/-- The whole budget of an hour, recorded at its end, admits the tenant again at once. The
reference refuses. -/
theorem late_usage_admits_again :
    ∃ s, step (start 10 10 0) ⟨.recordUsage "acme" 10, hour, hour⟩ = some s ∧
      s.gateAnswer "acme" hour hour = true ∧ s.referenceAnswer "acme" hour hour = false :=
  ⟨_, rfl, by decide, by decide⟩

/-! ### Within one window -/

/-- The charges of a list of calls. -/
def charges (ms : List TimedCall) : List (String × Nat) :=
  ms.filterMap fun c =>
    match c.call with
    | .hasCapacity _ => none
    | .recordUsage t n => some (t, n.toNat)

/-- The exact sum of the tokens recorded. -/
def recorded (ms : List TimedCall) : Nat := FixedWindow.sum (charges ms)

/-- The exact sum of the tokens recorded for a tenant. -/
def recordedFor (t : String) (ms : List TimedCall) : Nat := FixedWindow.sumFor t (charges ms)

/-- The window is not over, the exact total stays below `2 ^ 64`, and a tenant without an entry
is asked for only under a limit above zero, or when the global budget is spent. -/
structure InOneWindow (s : Metered) (c : TimedCall) : Prop where
  inWindow : ¬ s.Over c.now
  total : ∀ t n, c.call = .recordUsage t n → s.window.total + n.toNat < 2 ^ 64
  entry : ∀ t, c.call = .hasCapacity t → 0 < s.gate.perTenantLimit ∨
    s.gate.tenantUsed t ≠ none ∨ s.gate.globalLimit.toNat ≤ s.window.total

theorem InOneWindow.recordsInWindow (h : InOneWindow s c) (hm : Mirrors s) :
    RecordsInWindow s c where
  inWindow _ _ _ := h.inWindow
  total t n hc := by
    rw [rolled_of_not_over hm h.inWindow]
    exact h.total t n hc

/-- Within one window the reference adds up the charges. -/
theorem step_window (hm : Mirrors s) (hok : InOneWindow s c) (hs : step s c = some s') :
    s'.window = s.window.chargeAll (charges [c]) := by
  unfold Metered.step at hs
  rw [rolled_of_not_over hm hok.inWindow] at hs
  cases hc : c.call with
  | hasCapacity t =>
    rw [hc] at hs
    obtain rfl := Option.some.inj hs
    simp [charges, hc, FixedWindow.chargeAll]
  | recordUsage t n =>
    rw [hc] at hs
    obtain rfl := Option.some.inj hs
    simp [charges, hc, FixedWindow.chargeAll]

theorem run_inOneWindow {s₀ : Metered} (hm : Mirrors s₀) (h : Run step InOneWindow s₀ ms s) :
    Mirrors s ∧ s.window.total = s₀.window.total + recorded ms ∧
      ∀ t, s.window.usage t = s₀.window.usage t + recordedFor t ms := by
  induction h with
  | nil => exact ⟨hm, rfl, fun _ => rfl⟩
  | @snoc ms s s' c hr hok hs ih =>
    have hcharges : charges (ms ++ [c]) = charges ms ++ charges [c] := by
      simp [charges]
    have hwindow := step_window ih.1 hok hs
    refine ⟨ih.1.step (hok.recordsInWindow ih.1) hs, ?_, ?_⟩
    · rw [hwindow, FixedWindow.chargeAll_total, ih.2.1, recorded, recorded, hcharges,
        FixedWindow.sum_append]
      omega
    · intro t
      rw [hwindow, FixedWindow.chargeAll_usage, ih.2.2 t, recordedFor, recordedFor, hcharges,
        FixedWindow.sumFor_append]
      omega

/-- Within the window, the answer is that of the numbers of the reference. -/
theorem gateAnswer_eq_true_iff (hm : Mirrors s) (hok : InOneWindow s ⟨.hasCapacity t, now, now'⟩) :
    s.gateAnswer t now now' = true ↔ s.window.total < s.gate.globalLimit.toNat ∧
      s.window.usage t < s.gate.perTenantLimit.toNat := by
  have hstay := ClaudeBudgetGate.maybeResetWindow_of_not_expired now'
    (Bool.eq_false_iff.mpr hok.inWindow)
  show ((s.gate.maybeResetWindow now now').checkGlobal &&
    (s.gate.maybeResetWindow now now').checkTenant t) = true ↔ _
  rw [hstay, hm.answer_eq (hok.entry t rfl), FixedWindow.admits_eq_true_iff]

/-- Within one window a refusal is final. -/
theorem refusal_final {s₀ : Metered} {now₀ now₀' : Instant} (hm : Mirrors s₀)
    (hask : InOneWindow s₀ ⟨.hasCapacity t, now₀, now₀'⟩)
    (hno : s₀.gateAnswer t now₀ now₀' = false) (h : Run step InOneWindow s₀ ms s)
    (hok : InOneWindow s ⟨.hasCapacity t, now, now'⟩) : s.gateAnswer t now now' = false := by
  have hrun := run_inOneWindow hm h
  have hlimits := run_limits h
  rw [Bool.eq_false_iff] at hno ⊢
  intro hyes
  have hbelow := (gateAnswer_eq_true_iff hrun.1 hok).mp hyes
  rw [hlimits.1, hlimits.2, hrun.2.1, hrun.2.2 t] at hbelow
  exact hno ((gateAnswer_eq_true_iff hm hask).mpr ⟨by omega, by omega⟩)

/-- In every run within one window that keeps to its conditions, the gate answers true exactly
when the exact sums are below the limits, and once it has refused a tenant it refuses it. -/
theorem capacity_exact (g p : UInt64) (t₀ : Instant) (ms : List TimedCall) (s : Metered)
    (h : Run step InOneWindow (start g p t₀) ms s) (t : String) (now now' : Instant)
    (hask : InOneWindow s ⟨.hasCapacity t, now, now'⟩) :
    (s.gateAnswer t now now' = true ↔
        recorded ms < g.toNat ∧ recordedFor t ms < p.toNat) ∧
      (s.gateAnswer t now now' = false → ∀ ms' s' now₁ now₁',
        Run step InOneWindow s ms' s' → InOneWindow s' ⟨.hasCapacity t, now₁, now₁'⟩ →
          s'.gateAnswer t now₁ now₁' = false) := by
  have hrun := run_inOneWindow mirrors_start h
  have hlimits := run_limits h
  constructor
  · rw [gateAnswer_eq_true_iff hrun.1 hask, hlimits.1, hlimits.2, hrun.2.1, hrun.2.2 t]
    show 0 + recorded ms < g.toNat ∧ 0 + recordedFor t ms < p.toNat ↔ _
    rw [Nat.zero_add, Nat.zero_add]
  · intro hno ms' s' now₁ now₁' hpost hok
    exact refusal_final hrun.1 hask hno hpost hok

/-- Seven of ten tokens recorded, and a check. -/
theorem capacity_exact_seven :
    let c : TimedCall := ⟨.recordUsage "acme" 7, 5, 5⟩
    ∃ s, Run step InOneWindow (start 10 10 0) [c] s ∧
      (s.gateAnswer "acme" 6 6 = true ↔ recorded [c] < 10 ∧ recordedFor "acme" [c] < 10) := by
  intro c
  have hrun : Run step InOneWindow (start 10 10 0) ([] ++ [c]) _ :=
    .snoc .nil ⟨by decide, fun t n hc => by cases hc; decide, fun t hc => by cases hc⟩ rfl
  exact ⟨_, hrun, (capacity_exact 10 10 0 _ _ hrun "acme" 6 6
    ⟨by decide, fun _ _ hc => (by cases hc), fun _ _ => .inl (by decide)⟩).1⟩

/-- A limit of zero admits a tenant once. And a counter that has wrapped admits again: the sum
of the two records is `2 ^ 64`, and the gate refused after the first. -/
theorem capacity_not_exact :
    (start 10 0 0).gateAnswer "acme" 1 1 = true ∧ ¬ recordedFor "acme" [] < (0 : UInt64).toNat ∧
      let c₁ : TimedCall := ⟨.recordUsage "acme" 18446744073709551615, 1, 1⟩
      let c₂ : TimedCall := ⟨.recordUsage "acme" 1, 2, 2⟩
      ∃ s₁ s₂, step (start 10 10 0) c₁ = some s₁ ∧ step s₁ c₂ = some s₂ ∧
        s₁.gateAnswer "acme" 1 1 = false ∧ s₂.gateAnswer "acme" 2 2 = true ∧
        ¬ recorded [c₁, c₂] < (10 : UInt64).toNat :=
  ⟨by decide, by decide, _, _, rfl, rfl, by decide, by decide, by decide⟩

end Metered

end SwarmRuntime.Proofs
