import SwarmRuntime.Lib.Ieee
import Mathlib.Algebra.Order.Ring.Rat

/-!
# `SwarmRuntime.State.LanceSchema`: the SYNAPSE query vector (`lance_schema.rs`)

`compute_synapse_query_vector` takes its dimension from the first seed vector and indexes every
seed up to it. An index out of range panics. The `f32` arithmetic is exact here, over the
rationals. The definitions in `F32` are the same ones in the arithmetic of `f32`, which rounds and
overflows.
-/

set_option autoImplicit false

namespace SwarmRuntime.State

/-- The panic of `v[i]` on an index out of range. -/
structure IndexOutOfBounds where
  len : Nat
  index : Nat
  deriving DecidableEq, Repr

/-- `v[i]` -/
def indexVec (v : List ℚ) (i : Nat) : Except IndexOutOfBounds ℚ :=
  match v[i]? with
  | some x => .ok x
  | none => .error ⟨v.length, i⟩

/-- `seed_vectors.iter().map(|v| v[i]).sum()` -/
def sumAt (seedVectors : List (List ℚ)) (i : Nat) : Except IndexOutOfBounds ℚ :=
  seedVectors.foldlM (fun acc v => do return acc + (← indexVec v i)) 0

/-- The component `i` of the centroid. -/
def centroidAt (seedVectors : List (List ℚ)) (i : Nat) : Except IndexOutOfBounds ℚ := do
  let n : ℚ := seedVectors.length
  return (← sumAt seedVectors i) / n

/-- Build the LanceDB query for SYNAPSE spreading activation lookup: the centroid of the seed
vectors. -/
def computeSynapseQueryVector (seedVectors : List (List ℚ)) :
    Except IndexOutOfBounds (Option (List ℚ)) :=
  match seedVectors with
  | [] => .ok none
  | first :: rest => do
      let dims := first.length
      let centroid ← (List.range dims).mapM (centroidAt (first :: rest))
      return some centroid

/-! ### In `f32` -/

namespace F32

open SwarmRuntime.Lib (Binary32 Ieee)

/-- `v[i]` -/
def indexVec (v : List Binary32) (i : Nat) : Except IndexOutOfBounds Binary32 :=
  match v[i]? with
  | some x => .ok x
  | none => .error ⟨v.length, i⟩

/-- `seed_vectors.iter().map(|v| v[i]).sum::<f32>()` -/
def sumAt (seedVectors : List (List Binary32)) (i : Nat) : Except IndexOutOfBounds Binary32 :=
  seedVectors.foldlM (fun acc v => do return acc + (← indexVec v i)) (.zero _)

/-- The component `i` of the centroid. -/
def centroidAt (seedVectors : List (List Binary32)) (i : Nat) :
    Except IndexOutOfBounds Binary32 := do
  let n : Binary32 := .ofRat _ seedVectors.length
  return (← sumAt seedVectors i) / n

/-- Build the LanceDB query for SYNAPSE spreading activation lookup. -/
def computeSynapseQueryVector (seedVectors : List (List Binary32)) :
    Except IndexOutOfBounds (Option (List Binary32)) :=
  match seedVectors with
  | [] => .ok none
  | first :: rest => do
      let dims := first.length
      let centroid ← (List.range dims).mapM (centroidAt (first :: rest))
      return some centroid

end F32

end SwarmRuntime.State
