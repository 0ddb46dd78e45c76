import Mathlib.Algebra.BigOperators.Group.Finset.Basic
import Mathlib.Data.Int.ModEq
import SwarmRuntime.Proofs.Budget

/-!
# `SwarmRuntime.Proofs.Conservation`: the global counter and the counters of the tenants

`record_usage` adds to two structures, and a window reset clears both. `Conserved` says that they
stay in step: the global counter is the sum of the counters in the map, modulo `2 ^ 64` as the
counters themselves. Each call keeps it, and no call takes a tenant out of the map, so it holds
after every sequence of calls (`budget_conserved`).
-/

set_option autoImplicit false

namespace SwarmRuntime.Proofs

open SwarmRuntime.Lib SwarmRuntime.Inference

/-! ### A sum with one summand raised -/

section
variable {K : Type} [DecidableEq K] {f f' : K → Nat} {S : Finset K} {k : K} {n N : Nat}

/-- A sum over keys, modulo `N`, after `n` is added for the key `k`, which may be new. -/
theorem sum_insert_modEq (hself : f' k ≡ f k + n [MOD N]) (hother : ∀ k', k' ≠ k → f' k' = f k')
    (hnew : k ∉ S → f k = 0) :
    ∑ k' ∈ insert k S, f' k' ≡ (∑ k' ∈ S, f k') + n [MOD N] := by
  have hrest : ∑ k' ∈ S.erase k, f' k' = ∑ k' ∈ S.erase k, f k' := by
    refine Finset.sum_congr rfl fun k' hk' => ?_
    exact hother k' (Finset.ne_of_mem_erase hk')
  -- The key is taken out of both sums.
  have hleft : ∑ k' ∈ insert k S, f' k' = f' k + ∑ k' ∈ S.erase k, f' k' := by
    rw [← Finset.add_sum_erase _ f' (Finset.mem_insert_self k S), Finset.erase_insert_eq_erase]
  have hright : ∑ k' ∈ S, f k' = f k + ∑ k' ∈ S.erase k, f k' := by
    by_cases hk : k ∈ S
    · exact (Finset.add_sum_erase _ f hk).symm
    · rw [Finset.erase_eq_of_notMem hk, hnew hk, Nat.zero_add]
  calc ∑ k' ∈ insert k S, f' k'
      = f' k + ∑ k' ∈ S.erase k, f k' := by rw [hleft, hrest]
    _ ≡ f k + n + ∑ k' ∈ S.erase k, f k' [MOD N] := hself.add_right _
    _ = (∑ k' ∈ S, f k') + n := by rw [hright]; omega

end

namespace Metered

variable {s s' : Metered} {c : TimedCall} {ms : List TimedCall} {g p : UInt64} {t₀ : Instant}
  {t : String} {n : UInt64}

/-- The tenants of the map are `present`, and their counters add up to the global one. -/
structure ConservedOver (gate : ClaudeBudgetGate) (present : Finset String) : Prop where
  mem : ∀ t, t ∈ present ↔ gate.tenantUsed t ≠ none
  total : gate.globalUsed.toNat ≡ ∑ t ∈ present, (gate.usedBy t).toNat [MOD 2 ^ 64]

/-- The global counter equals the sum of the counters of all tenants in the map, modulo
`2 ^ 64`. -/
def Conserved (gate : ClaudeBudgetGate) : Prop := ∃ present, ConservedOver gate present

theorem conserved_new (g p : UInt64) (now : Instant) : Conserved (.new g p now) :=
  ⟨∅, fun t => by simp [ClaudeBudgetGate.new], by simp [ClaudeBudgetGate.new, Nat.ModEq.refl]⟩

/-- A charge goes to both counters, and puts its tenant into the map. -/
theorem Conserved.recordUsage {gate : ClaudeBudgetGate} (h : Conserved gate) (t : String)
    (n : UInt64) : Conserved (gate.recordUsage t n) := by
  obtain ⟨present, hmem, htotal⟩ := h
  refine ⟨insert t present, ?_, ?_⟩
  · intro t'
    show t' ∈ insert t present ↔ Function.update gate.tenantUsed t _ t' ≠ none
    by_cases ht : t' = t
    · subst ht
      simp
    · rw [Function.update_of_ne ht, Finset.mem_insert, ← hmem t']
      simp [ht]
  · have hself : ((gate.recordUsage t n).usedBy t).toNat
        ≡ (gate.usedBy t).toNat + n.toNat [MOD 2 ^ 64] := by
      rw [ClaudeBudgetGate.recordUsage_usedBy_self, UInt64.toNat_add]
      exact Nat.mod_modEq _ _
    have hother : ∀ t', t' ≠ t →
        ((gate.recordUsage t n).usedBy t').toNat = (gate.usedBy t').toNat := by
      intro t' ht
      rw [ClaudeBudgetGate.recordUsage_usedBy_of_ne ht]
    have hnew : t ∉ present → (gate.usedBy t).toNat = 0 := by
      intro hnot
      have hnone : gate.tenantUsed t = none := not_not.mp fun hsome => hnot ((hmem t).mpr hsome)
      rw [ClaudeBudgetGate.usedBy, hnone]
      rfl
    calc (gate.globalUsed + n).toNat
        ≡ gate.globalUsed.toNat + n.toNat [MOD 2 ^ 64] := by
          rw [UInt64.toNat_add]
          exact Nat.mod_modEq _ _
      _ ≡ (∑ t ∈ present, (gate.usedBy t).toNat) + n.toNat [MOD 2 ^ 64] := htotal.add_right _
      _ ≡ ∑ t' ∈ insert t present, ((gate.recordUsage t n).usedBy t').toNat [MOD 2 ^ 64] :=
          (sum_insert_modEq hself hother hnew).symm

/-- A window reset keeps the map and clears every counter. -/
theorem Conserved.maybeResetWindow {gate : ClaudeBudgetGate} (h : Conserved gate)
    (now now' : Instant) : Conserved (gate.maybeResetWindow now now') := by
  cases hexp : expired gate.windowDurationSecs gate.windowStart now with
  | false =>
    rw [ClaudeBudgetGate.maybeResetWindow_of_not_expired now' hexp]
    exact h
  | true =>
    obtain ⟨present, hmem, -⟩ := h
    have hreset := ClaudeBudgetGate.maybeResetWindow_of_expired now' hexp
    refine ⟨present, ?_, ?_⟩
    · intro t
      rw [hmem t, ClaudeBudgetGate.maybeResetWindow, if_pos hexp]
      simp
    · rw [hreset.1, Finset.sum_eq_zero fun t _ => by rw [hreset.2.1 t]; rfl]
      rfl

/-- One call keeps the counters in step. -/
theorem step_conserved (h : Conserved s.gate) (hs : step s c = some s') : Conserved s'.gate := by
  unfold step at hs
  cases hc : c.call with
  | hasCapacity t =>
    rw [hc] at hs
    obtain rfl := Option.some.inj hs
    exact h.maybeResetWindow c.now c.now'
  | recordUsage t n =>
    rw [hc] at hs
    obtain rfl := Option.some.inj hs
    exact h.recordUsage t n

/-- A tenant in the map stays there. -/
theorem step_present (h : s.gate.tenantUsed t ≠ none) (hs : step s c = some s') :
    s'.gate.tenantUsed t ≠ none := by
  unfold step at hs
  cases hc : c.call with
  | hasCapacity t' =>
    rw [hc] at hs
    obtain rfl := Option.some.inj hs
    show (s.gate.maybeResetWindow c.now c.now').tenantUsed t ≠ none
    unfold ClaudeBudgetGate.maybeResetWindow
    split_ifs
    · simpa using h
    · exact h
  | recordUsage t' n =>
    rw [hc] at hs
    obtain rfl := Option.some.inj hs
    show Function.update s.gate.tenantUsed t' _ t ≠ none
    by_cases ht : t = t'
    · subst ht
      simp
    · rw [Function.update_of_ne ht]
      exact h

/-- A charge puts its tenant into the map. -/
theorem step_charged (hc : c.call = .recordUsage t n) (hs : step s c = some s') :
    s'.gate.tenantUsed t ≠ none := by
  unfold step at hs
  rw [hc] at hs
  obtain rfl := Option.some.inj hs
  show Function.update s.gate.tenantUsed t _ t ≠ none
  simp

/-- After every sequence of calls, at whatever times, the global counter is the sum of the
counters of the tenants in the map, modulo `2 ^ 64`, and each tenant ever charged is in the
map. -/
theorem budget_conserved (g p : UInt64) (t₀ : Instant) (ms : List TimedCall) (s : Metered)
    (h : Run step (fun _ _ => True) (start g p t₀) ms s) :
    Conserved s.gate ∧
      ∀ t n, (∃ c ∈ ms, c.call = .recordUsage t n) → s.gate.tenantUsed t ≠ none := by
  induction h with
  | nil => exact ⟨conserved_new g p t₀, fun t n hc => by simp at hc⟩
  | @snoc ms s s' c _ _ hs ih =>
    refine ⟨step_conserved ih.1 hs, ?_⟩
    intro t n hcharged
    obtain ⟨c', hmem, hc'⟩ := hcharged
    rcases List.mem_append.mp hmem with hbefore | hlast
    · exact step_present (ih.2 t n ⟨c', hbefore, hc'⟩) hs
    · obtain rfl := List.mem_singleton.mp hlast
      exact step_charged hc' hs

/-- Two charges and a window reset. -/
theorem budget_conserved_reset :
    let c₁ : TimedCall := ⟨.recordUsage "acme" 7, 5, 5⟩
    let c₂ : TimedCall := ⟨.recordUsage "globex" 18446744073709551615, 6, 6⟩
    let c₃ : TimedCall := ⟨.hasCapacity "acme", hour, hour⟩
    ∃ s, Run step (fun _ _ => True) (start 10 10 0) [c₁, c₂, c₃] s ∧ Conserved s.gate ∧
      s.gate.tenantUsed "globex" ≠ none := by
  intro c₁ c₂ c₃
  have hrun : Run step (fun _ _ => True) (start 10 10 0) ([] ++ [c₁] ++ [c₂] ++ [c₃]) _ :=
    .snoc (.snoc (.snoc .nil trivial rfl) trivial rfl) trivial rfl
  have hall := budget_conserved 10 10 0 _ _ hrun
  exact ⟨_, hrun, hall.1, hall.2 "globex" 18446744073709551615 ⟨c₂, by simp, rfl⟩⟩

end Metered

end SwarmRuntime.Proofs
