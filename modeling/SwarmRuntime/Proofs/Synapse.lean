import SwarmRuntime.State.LanceSchema

/-!
# `SwarmRuntime.Proofs.Synapse`: the seeds of a SYNAPSE query

The seeds are a set, so their order should not matter, but the first one sets the dimension of
the result. A seed that is shorter than the first one is indexed out of range, and a longer one
is cut off. So a list of seeds and a permutation of it have one query vector iff both start with
a seed of the least length (`orderFree_iff`).
-/

set_option autoImplicit false

namespace SwarmRuntime.State

open List (Perm)

variable {seeds seeds' : List (List ℚ)} {first : List ℚ} {i : Nat}

/-- No seed is shorter than the first one. -/
def FirstIsShortest (seeds : List (List ℚ)) : Prop :=
  ∀ first ∈ seeds.head?, ∀ v ∈ seeds, first.length ≤ v.length

/-- The sum of the components `i`. -/
def componentSum (seeds : List (List ℚ)) (i : Nat) : ℚ :=
  seeds.foldl (fun acc v => acc + v.getD i 0) 0

/-- The centroid in the first `dims` components. -/
def centroid (dims : Nat) (seeds : List (List ℚ)) : List ℚ :=
  (List.range dims).map fun i => componentSum seeds i / (seeds.length : ℚ)

theorem indexVec_of_lt {v : List ℚ} (h : i < v.length) : indexVec v i = .ok (v.getD i 0) := by
  simp [indexVec, List.getElem?_eq_getElem h]

theorem indexVec_of_le {v : List ℚ} (h : v.length ≤ i) : indexVec v i = .error ⟨v.length, i⟩ := by
  simp [indexVec, List.getElem?_eq_none h]

/-- Indices that are in range everywhere, with the sum so far at `acc`. -/
theorem foldlM_of_lt (h : ∀ v ∈ seeds, i < v.length) (acc : ℚ) :
    seeds.foldlM (fun acc v => do return acc + (← indexVec v i)) acc
      = (.ok (seeds.foldl (fun acc v => acc + v.getD i 0) acc) : Except IndexOutOfBounds ℚ) := by
  induction seeds generalizing acc with
  | nil => rfl
  | cons v seeds ih =>
    rw [List.foldlM_cons, indexVec_of_lt (h v List.mem_cons_self)]
    exact ih (fun w hw => h w (List.mem_cons_of_mem v hw)) (acc + v.getD i 0)

/-- One seed that is too short. -/
theorem foldlM_of_le {v : List ℚ} (hv : v ∈ seeds) (h : v.length ≤ i) (acc : ℚ) :
    ∃ e : IndexOutOfBounds,
      seeds.foldlM (fun acc v => do return acc + (← indexVec v i)) acc = .error e := by
  induction seeds generalizing acc with
  | nil => cases hv
  | cons w seeds ih =>
    rw [List.foldlM_cons]
    by_cases hw : i < w.length
    · rw [indexVec_of_lt hw]
      have hmem : v ∈ seeds := by
        rcases List.mem_cons.mp hv with rfl | hmem
        · exact absurd hw (Nat.not_lt.mpr h)
        · exact hmem
      exact ih hmem (acc + w.getD i 0)
    · rw [indexVec_of_le (Nat.not_lt.mp hw)]
      exact ⟨_, rfl⟩

/-- A component that fails makes the whole query fail. -/
theorem mapM_error {f : Nat → Except IndexOutOfBounds ℚ} {is : List Nat} (hi : i ∈ is)
    (h : ∃ e, f i = .error e) : ∃ e, is.mapM f = .error e := by
  induction is with
  | nil => cases hi
  | cons j is ih =>
    rw [List.mapM_cons]
    cases hj : f j with
    | error e => exact ⟨e, rfl⟩
    | ok x =>
      have hmem : i ∈ is := by
        rcases List.mem_cons.mp hi with rfl | hmem
        · obtain ⟨e, he⟩ := h
          rw [hj] at he
          cases he
        · exact hmem
      obtain ⟨e, he⟩ := ih hmem
      exact ⟨e, by rw [he]; rfl⟩

/-- When no component fails. -/
theorem mapM_ok {f : Nat → Except IndexOutOfBounds ℚ} {g : Nat → ℚ} {is : List Nat}
    (h : ∀ i ∈ is, f i = .ok (g i)) : is.mapM f = .ok (is.map g) := by
  induction is with
  | nil => rfl
  | cons j is ih =>
    rw [List.mapM_cons, h j List.mem_cons_self, ih fun i hi => h i (List.mem_cons_of_mem j hi)]
    rfl

/-- The query vector of seeds that the first one does not exceed is their centroid, in the
dimension of the first one. -/
theorem query_of_firstIsShortest (h : FirstIsShortest (first :: seeds)) :
    computeSynapseQueryVector (first :: seeds)
      = .ok (some (centroid first.length (first :: seeds))) := by
  have hat : ∀ i ∈ List.range first.length, centroidAt (first :: seeds) i
      = .ok (componentSum (first :: seeds) i / ((first :: seeds).length : ℚ)) := by
    intro i hi
    have hlt : ∀ v ∈ first :: seeds, i < v.length := fun v hv =>
      Nat.lt_of_lt_of_le (List.mem_range.mp hi) (h first rfl v hv)
    rw [centroidAt, sumAt, foldlM_of_lt hlt]
    rfl
  simp only [computeSynapseQueryVector, mapM_ok hat]
  rfl

/-- A seed shorter than the first one is indexed out of range. -/
theorem query_of_not_firstIsShortest (h : ¬ FirstIsShortest seeds) :
    ∃ e, computeSynapseQueryVector seeds = .error e := by
  cases seeds with
  | nil => exact absurd (fun first hfirst => by simp at hfirst) h
  | cons first seeds =>
    unfold FirstIsShortest at h
    push Not at h
    obtain ⟨first', hfirst, v, hv, hlt⟩ := h
    obtain rfl : first = first' := Option.some.inj hfirst
    -- The index is the first one beyond the short seed.
    have hfail : ∃ e, centroidAt (first :: seeds) v.length = .error e := by
      obtain ⟨e, he⟩ := foldlM_of_le hv (Nat.le_refl v.length) 0
      exact ⟨e, by rw [centroidAt, sumAt, he]; rfl⟩
    obtain ⟨e, he⟩ := mapM_error (List.mem_range.mpr hlt) hfail
    refine ⟨e, ?_⟩
    simp only [computeSynapseQueryVector, he]
    rfl

/-- The order of the seeds has no part in their centroid. -/
theorem centroid_perm (dims : Nat) (h : Perm seeds seeds') :
    centroid dims seeds = centroid dims seeds' := by
  have hsum : ∀ i, componentSum seeds i = componentSum seeds' i := fun i =>
    h.foldl_eq' (fun v _ w _ acc => add_right_comm acc (v.getD i 0) (w.getD i 0)) 0
  simp only [centroid, hsum, h.length_eq]

/-- `seeds` and its permutation `seeds'` have one query vector, and none of their indices is out
of range. -/
def OrderFree (seeds seeds' : List (List ℚ)) : Prop :=
  ∃ query, computeSynapseQueryVector seeds = .ok (some query) ∧
    computeSynapseQueryVector seeds' = .ok (some query)

/-- A query without an index out of range has a shortest first seed. -/
theorem firstIsShortest_of_query {query : Option (List ℚ)}
    (h : computeSynapseQueryVector seeds = .ok query) : FirstIsShortest seeds := by
  by_contra hnot
  obtain ⟨e, he⟩ := query_of_not_firstIsShortest hnot
  rw [he] at h
  cases h

/-- For which orders of the seeds the query vector is the same: those that start with a seed of
the least length. -/
theorem orderFree_iff (hne : seeds ≠ []) (hperm : Perm seeds seeds') :
    OrderFree seeds seeds' ↔ FirstIsShortest seeds ∧ FirstIsShortest seeds' := by
  constructor
  · intro hfree
    obtain ⟨query, hquery, hquery'⟩ := hfree
    exact ⟨firstIsShortest_of_query hquery, firstIsShortest_of_query hquery'⟩
  · intro hshort
    obtain ⟨hshort, hshort'⟩ := hshort
    cases seeds with
    | nil => exact absurd rfl hne
    | cons first rest =>
      cases seeds' with
      | nil => exact absurd hperm.eq_nil hne
      | cons first' rest' =>
        -- Each first seed is a seed of the other list, so they have one length.
        have hle : first.length ≤ first'.length :=
          hshort first rfl first' (hperm.mem_iff.mpr List.mem_cons_self)
        have hge : first'.length ≤ first.length :=
          hshort' first' rfl first (hperm.mem_iff.mp List.mem_cons_self)
        refine ⟨centroid first.length (first :: rest), query_of_firstIsShortest hshort, ?_⟩
        rw [query_of_firstIsShortest hshort', Nat.le_antisymm hle hge, centroid_perm _ hperm]

/-- Two seeds of one length. -/
theorem orderFree_pair : OrderFree [[1, 2], [3, 4]] [[3, 4], [1, 2]] := by
  have hswap : Perm [[1, 2], [3, 4]] [[3, 4], ([1, 2] : List ℚ)] := .swap _ _ _
  refine (orderFree_iff (by simp) hswap).mpr ⟨?_, ?_⟩
  · simp [FirstIsShortest]
  · simp [FirstIsShortest]

/-- Two seeds of different lengths have a query vector in one order, cut off to one component,
and panic in the other one. -/
theorem not_orderFree_ragged :
    Perm [[1], [1, 2]] [[1, 2], ([1] : List ℚ)] ∧ ¬ OrderFree [[1], [1, 2]] [[1, 2], [1]] := by
  refine ⟨.swap _ _ _, ?_⟩
  intro hfree
  obtain ⟨query, -, hquery⟩ := hfree
  have hshort := firstIsShortest_of_query hquery
  simp [FirstIsShortest] at hshort

end SwarmRuntime.State
