import SwarmRuntime.Inference.Budget
import SwarmRuntime.Lib.Admission
import SwarmRuntime.Lib.Runs

/-!
# `SwarmRuntime.Proofs.Overspend`: the budget gate shared by clients

The check and the charge of a request are two calls, and other clients act between them. Each
client holds at most one admission, so at most `k` charges are pending. `Bounded` says for the
global counter, and for the counter of each tenant, that what is used together with what is
pending stays within the limit and one charge for each client (`Within`). `run_bounded` carries
it through every interleaving.
-/

set_option autoImplicit false

namespace SwarmRuntime.Proofs

open SwarmRuntime.Lib SwarmRuntime.Inference

/-- A gate and `k` clients. A client that was admitted holds the tenant until it records. -/
structure SharedGate (k : Nat) where
  gate : ClaudeBudgetGate
  admitted : Fin k → Option String

/-- A call of a client. -/
inductive ClientCall (k : Nat) where
  | check (i : Fin k) (tenantId : String) (now now' : Instant)
  | record (i : Fin k) (tokens : UInt64)
  deriving DecidableEq, Repr

namespace SharedGate

variable {k : Nat}

/-- A new gate, and no client admitted. -/
def start (k : Nat) (globalLimit perTenantLimit : UInt64) (now : Instant) : SharedGate k :=
  ⟨.new globalLimit perTenantLimit now, fun _ => none⟩

/-- One call. A client asks when it holds no admission, and records what it was admitted for. -/
def step (s : SharedGate k) : ClientCall k → Option (SharedGate k)
  | .check i t now now' =>
      match s.admitted i with
      | some _ => none
      | none =>
        let (capacity, gate) := s.gate.hasCapacity t now now'
        some ⟨gate, if capacity then Function.update s.admitted i (some t) else s.admitted⟩
  | .record i n =>
      match s.admitted i with
      | some t => some ⟨s.gate.recordUsage t n, Function.update s.admitted i none⟩
      | none => none

/-- No client records more than `m` tokens at once. -/
def AtMost (m : Nat) (_ : SharedGate k) (c : ClientCall k) : Prop :=
  ∀ i n, c = .record i n → n.toNat ≤ m

/-- The admissions that are pending. -/
def pending (s : SharedGate k) : Nat := pendingWhere (fun a => a ≠ none) s.admitted

/-- The admissions that are pending for a tenant. -/
def pendingFor (s : SharedGate k) (t : String) : Nat :=
  pendingWhere (fun a => a = some t) s.admitted

/-- Each counter, with the charges pending for it, is within its limit and one charge for each
client. -/
structure Bounded (g p : UInt64) (m : Nat) (s : SharedGate k) : Prop where
  globalLimit : s.gate.globalLimit = g
  perTenantLimit : s.gate.perTenantLimit = p
  global : Within g.toNat k m s.gate.globalUsed.toNat s.pending
  tenant : ∀ t, Within p.toNat k m (s.gate.usedBy t).toNat (s.pendingFor t)

variable {s s' : SharedGate k} {g p : UInt64} {m : Nat} {i : Fin k} {t : String} {n : UInt64}
  {now now' : Instant}

theorem pending_le (s : SharedGate k) : s.pending ≤ k :=
  Nat.le_trans (pendingWhere_le _ _) (Nat.le_of_eq (Fintype.card_fin k))

theorem pendingFor_le (s : SharedGate k) (t : String) : s.pendingFor t ≤ k :=
  Nat.le_trans (pendingWhere_le _ _) (Nat.le_of_eq (Fintype.card_fin k))

/-! ### What a call does -/

/-- A call is an answer or a record. -/
theorem step_cases {c : ClientCall k} (hs : step s c = some s') :
    (∃ i t now now', c = .check i t now now' ∧ s.admitted i = none ∧
        s'.gate = s.gate.maybeResetWindow now now' ∧
        ((s'.gate.checkGlobal = true ∧ s'.gate.checkTenant t = true ∧
            s'.admitted = Function.update s.admitted i (some t)) ∨
          s'.admitted = s.admitted)) ∨
      ∃ i t n, c = .record i n ∧ s.admitted i = some t ∧
        s' = ⟨s.gate.recordUsage t n, Function.update s.admitted i none⟩ := by
  cases c with
  | check i t now now' =>
    left
    cases ha : s.admitted i with
    | some t' => simp [step, ha] at hs
    | none =>
      simp only [step, ha, ClaudeBudgetGate.hasCapacity] at hs
      obtain rfl := Option.some.inj hs
      refine ⟨i, t, now, now', rfl, ha, rfl, ?_⟩
      by_cases hcap : ((s.gate.maybeResetWindow now now').checkGlobal &&
          (s.gate.maybeResetWindow now now').checkTenant t) = true
      · have hboth := Bool.and_eq_true_iff.mp hcap
        exact .inl ⟨hboth.1, hboth.2, if_pos hcap⟩
      · exact .inr (if_neg hcap)
  | record i n =>
    right
    cases ha : s.admitted i with
    | none => simp [step, ha] at hs
    | some t =>
      simp only [step, ha] at hs
      exact ⟨i, t, n, rfl, ha, (Option.some.inj hs).symm⟩

/-- A reset lowers every counter. -/
theorem maybeResetWindow_le (gate : ClaudeBudgetGate) (now now' : Instant) :
    (gate.maybeResetWindow now now').globalUsed.toNat ≤ gate.globalUsed.toNat ∧
      ∀ t, ((gate.maybeResetWindow now now').usedBy t).toNat ≤ (gate.usedBy t).toNat := by
  cases hover : expired gate.windowDurationSecs gate.windowStart now with
  | false =>
    rw [ClaudeBudgetGate.maybeResetWindow_of_not_expired now' hover]
    exact ⟨Nat.le_refl _, fun _ => Nat.le_refl _⟩
  | true =>
    have hreset := ClaudeBudgetGate.maybeResetWindow_of_expired now' hover
    rw [hreset.1]
    refine ⟨Nat.zero_le _, ?_⟩
    intro t
    rw [hreset.2.1 t]
    exact Nat.zero_le _

/-! ### The invariant -/

theorem bounded_start (hg : 1 ≤ g) (hp : 1 ≤ p) (now : Instant) :
    Bounded g p m (start k g p now) where
  globalLimit := rfl
  perTenantLimit := rfl
  global := .of_lt (UInt64.le_iff_toNat_le.mp hg) (pending_le _)
  tenant t := .of_lt (UInt64.le_iff_toNat_le.mp hp) (pendingFor_le _ t)

/-- A check: a refusal leaves the admissions, and an admission is given below the limits. -/
theorem Bounded.check (h : Bounded g p m s) (hp : 1 ≤ p) (hfree : s.admitted i = none)
    (hgate : s'.gate = s.gate.maybeResetWindow now now')
    (hadm : (s'.gate.checkGlobal = true ∧ s'.gate.checkTenant t = true ∧
      s'.admitted = Function.update s.admitted i (some t)) ∨ s'.admitted = s.admitted) :
    Bounded g p m s' := by
  have hlow := maybeResetWindow_le s.gate now now'
  have hglobalLimit : s'.gate.globalLimit = g := by
    rw [hgate, ClaudeBudgetGate.maybeResetWindow_globalLimit, h.globalLimit]
  have hperTenantLimit : s'.gate.perTenantLimit = p := by
    rw [hgate, ClaudeBudgetGate.maybeResetWindow_perTenantLimit, h.perTenantLimit]
  rw [← hgate] at hlow
  refine ⟨hglobalLimit, hperTenantLimit, ?_, ?_⟩
  · rcases hadm with ⟨hglobal, -, -⟩ | hsame
    · rw [ClaudeBudgetGate.checkGlobal_eq_true_iff, hglobalLimit] at hglobal
      exact .of_lt (UInt64.lt_iff_toNat_lt.mp hglobal) (pending_le _)
    · have hpending : s'.pending = s.pending := by rw [pending, pending, hsame]
      rw [hpending]
      exact h.global.mono_used hlow.1
  · intro t'
    have hbefore := (h.tenant t').mono_used (hlow.2 t')
    rcases hadm with ⟨-, htenant, hadmitted⟩ | hsame
    · by_cases ht : t' = t
      · subst ht
        refine .of_lt ?_ (pendingFor_le _ _)
        rcases ClaudeBudgetGate.checkTenant_eq_true_iff.mp htenant with hnone | hlt
        · -- A tenant with no entry has used nothing.
          rw [ClaudeBudgetGate.usedBy, hnone]
          exact UInt64.le_iff_toNat_le.mp hp
        · rw [hperTenantLimit] at hlt
          exact UInt64.lt_iff_toNat_lt.mp hlt
      · have hcount := pendingWhere_update (fun a => a = some t') s.admitted i (some t)
        have hother : ¬ (some t = some t') := fun heq => ht (Option.some.inj heq).symm
        rw [hfree, ← hadmitted, if_neg (by simp), if_neg hother] at hcount
        have hpending : s'.pendingFor t' = s.pendingFor t' := hcount
        rw [hpending]
        exact hbefore
    · have hpending : s'.pendingFor t' = s.pendingFor t' := by rw [pendingFor, pendingFor, hsame]
      rw [hpending]
      exact hbefore

/-- A record: the charge was pending, and it does not wrap. -/
theorem Bounded.record (h : Bounded g p m s) (hheld : s.admitted i = some t) (hn : n.toNat ≤ m)
    (hg : g.toNat + k * m < 2 ^ 64) (hp : p.toNat + k * m < 2 ^ 64) :
    Bounded g p m (⟨s.gate.recordUsage t n, Function.update s.admitted i none⟩ : SharedGate k) := by
  refine ⟨h.globalLimit, h.perTenantLimit, ?_, ?_⟩
  · have hcount := pendingWhere_update (fun a => a ≠ none) s.admitted i none
    rw [hheld, if_pos (by simp), if_neg (by simp)] at hcount
    have hwithin := h.global
    rw [pending, ← Nat.add_zero (pendingWhere _ _), ← hcount] at hwithin
    have hcharged := hwithin.charge hn
    show Within g.toNat k m (s.gate.globalUsed + n).toNat _
    rw [UInt64.toNat_add, Nat.mod_eq_of_lt (Nat.lt_trans hcharged.used_lt hg)]
    exact hcharged
  · intro t'
    have hcount := pendingWhere_update (fun a => a = some t') s.admitted i none
    by_cases ht : t' = t
    · subst ht
      rw [hheld, if_pos rfl, if_neg (by simp)] at hcount
      have hwithin := h.tenant t'
      rw [pendingFor, ← Nat.add_zero (pendingWhere _ _), ← hcount] at hwithin
      have hcharged := hwithin.charge hn
      show Within p.toNat k m ((s.gate.recordUsage t' n).usedBy t').toNat _
      rw [ClaudeBudgetGate.recordUsage_usedBy_self, UInt64.toNat_add,
        Nat.mod_eq_of_lt (Nat.lt_trans hcharged.used_lt hp)]
      exact hcharged
    · have hother : ¬ (some t = some t') := fun heq => ht (Option.some.inj heq).symm
      rw [hheld, if_neg hother, if_neg (by simp)] at hcount
      have hwithin := h.tenant t'
      rw [pendingFor, ← Nat.add_zero (pendingWhere _ _), ← hcount] at hwithin
      show Within p.toNat k m ((s.gate.recordUsage t n).usedBy t').toNat _
      rw [ClaudeBudgetGate.recordUsage_usedBy_of_ne ht]
      exact hwithin

/-- The invariant holds in every interleaving. -/
theorem run_bounded {ms : List (ClientCall k)} {t₀ : Instant} (hg : 1 ≤ g) (hp : 1 ≤ p)
    (hgm : g.toNat + k * m < 2 ^ 64) (hpm : p.toNat + k * m < 2 ^ 64)
    (h : Run step (AtMost m) (start k g p t₀) ms s) : Bounded g p m s := by
  refine h.invariant (Bounded g p m) (bounded_start hg hp t₀) ?_
  intro ms s c s' _ ih hok hs
  rcases step_cases hs with
    ⟨i, t, now, now', rfl, hfree, hgate, hadm⟩ | ⟨i, t, n, rfl, hheld, rfl⟩
  · exact ih.check hp hfree hgate hadm
  · exact ih.record hheld (hok i n rfl) hgm hpm

/-- With `k` clients that record at most `m` tokens for each admission, no counter reaches its
limit and `k * m`, in any interleaving and at any times. -/
theorem overspend_bounded (k m : Nat) (g p : UInt64) (hg : 1 ≤ g) (hp : 1 ≤ p)
    (hgm : g.toNat + k * m < 2 ^ 64) (hpm : p.toNat + k * m < 2 ^ 64) (t₀ : Instant)
    (ms : List (ClientCall k)) (s : SharedGate k)
    (h : Run step (AtMost m) (start k g p t₀) ms s) :
    s.gate.globalUsed.toNat < g.toNat + k * m ∧
      ∀ t, (s.gate.usedBy t).toNat < p.toNat + k * m := by
  have hbounded := run_bounded hg hp hgm hpm h
  exact ⟨hbounded.global.used_lt, fun t => (hbounded.tenant t).used_lt⟩

/-- Two clients are admitted under a limit of ten, and each records eight tokens. -/
theorem overspend_bounded_two :
    let ms : List (ClientCall 2) :=
      [.check 0 "acme" 1 1, .check 1 "acme" 1 1, .record 0 8, .record 1 8]
    ∃ s, Run step (AtMost 8) (start 2 10 10 0) ms s ∧ s.gate.globalUsed = 16 ∧
      s.gate.globalUsed.toNat < (10 : UInt64).toNat + 2 * 8 := by
  intro ms
  have hcheck : ∀ s i t now now', AtMost 8 (s : SharedGate 2) (.check i t now now') := by
    intro s i t now now' j n hc
    cases hc
  have hrecord : ∀ s i, AtMost 8 (s : SharedGate 2) (.record i 8) := by
    intro s i j n hc
    cases hc
    decide
  have hrun : Run step (AtMost 8) (start 2 10 10 0)
      ([] ++ [.check 0 "acme" 1 1] ++ [.check 1 "acme" 1 1] ++ [.record 0 8] ++ [.record 1 8]) _ :=
    .snoc (.snoc (.snoc (.snoc .nil (hcheck _ _ _ _ _) rfl) (hcheck _ _ _ _ _) rfl)
      (hrecord _ _) rfl) (hrecord _ _) rfl
  refine ⟨_, hrun, rfl, ?_⟩
  exact (overspend_bounded 2 8 10 10 (by decide) (by decide) (by decide) (by decide) 0 _ _ hrun).1

end SharedGate

end SwarmRuntime.Proofs
