import SwarmRuntime.Proofs.Synapse

/-!
# `SwarmRuntime.Proofs.SynapseRounding`: the SYNAPSE query vector in `f32`

Both query vectors, in `f32` and exact, are made of the columns of the seeds: the components `i`
of all of them. The columns decide on the panics, so both panic alike, and what is left is the mean
of each column.

The main results are:

- `query_eq` and `F32.query_eq`: a query vector has the mean of each column, exact or in `f32`.
- `query_rounds`: what the additions in `f32` lose. A component that is finite is near the exact
  one, and it is finite unless its sum may overflow.
- `query_order_error`: the exact vector does not depend on the order of the seeds. In `f32` it
  does, within twice that bound.

The error of one mean comes from `Ieee.mean_error`. What is done here is to bring the loops of the
source to the columns, which hold for any type of components.
-/

set_option autoImplicit false

namespace SwarmRuntime.State

open List (Perm)
open SwarmRuntime.Lib

variable {α β : Type} {seeds seeds' : List (List α)} {v : List α} {xs : List α} {i : Nat}

/-! ### Columns -/

/-- `v[i]`, whatever the components are. -/
def entry (v : List α) (i : Nat) : Except IndexOutOfBounds α :=
  match v[i]? with
  | some x => .ok x
  | none => .error ⟨v.length, i⟩

/-- The components `i` of the seeds. -/
def column (seeds : List (List α)) (i : Nat) : Except IndexOutOfBounds (List α) :=
  seeds.mapM (entry · i)

/-- The columns of a query. -/
def columns (seeds : List (List α)) : Except IndexOutOfBounds (List (List α)) :=
  (List.range (seeds.headD []).length).mapM (column seeds)

/-- A map on the components of a seed maps the component that is read, and an index that is out
of bounds stays so. -/
theorem entry_map (g : α → β) (v : List α) (i : Nat) :
    entry (v.map g) i = (entry v i).map g := by
  unfold entry
  rw [List.getElem?_map, List.length_map]
  cases v[i]? <;> rfl

/-- What is done to each result of a traversal can be done in the end, to all of them. The
traversal fails at the same element either way. -/
theorem mapM_map_result {γ ε : Type} (f : α → Except ε β) (g : β → γ) (xs : List α) :
    xs.mapM (fun x => (f x).map g) = (xs.mapM f).map (List.map g) := by
  induction xs with
  | nil => rfl
  | cons x xs ih =>
    rw [List.mapM_cons, List.mapM_cons, ih]
    cases f x with
    | error e => rfl
    | ok y => cases xs.mapM f <;> rfl

/-- A map on the components of all seeds maps a column. -/
theorem column_map (g : α → β) (seeds : List (List α)) (i : Nat) :
    column (seeds.map (List.map g)) i = (column seeds i).map (List.map g) := by
  unfold column
  rw [List.mapM_map]
  have hentry : (fun v : List α => entry (v.map g) i) = fun v => (entry v i).map g :=
    funext fun v => entry_map g v i
  rw [← mapM_map_result, ← hentry]
  rfl

/-- A map on the components of all seeds maps the columns: there are as many of them, because the
first seed keeps its length. -/
theorem columns_map (g : α → β) (seeds : List (List α)) :
    columns (seeds.map (List.map g)) = (columns seeds).map (List.map (List.map g)) := by
  have hhead : ((seeds.map (List.map g)).headD []).length = (seeds.headD []).length := by
    cases seeds <;> simp
  unfold columns
  rw [hhead, ← mapM_map_result]
  congr 1
  exact funext fun i => column_map g seeds i

/-- A traversal succeeds exactly when each of its steps does, and its results are theirs, in the
same order. -/
theorem mapM_eq_ok_iff {ε : Type} {f : α → Except ε β} {xs : List α} {ys : List β} :
    xs.mapM f = .ok ys ↔ List.Forall₂ (fun x y => f x = .ok y) xs ys := by
  induction xs generalizing ys with
  | nil =>
    rw [List.forall₂_nil_left_iff]
    exact ⟨fun h => (Except.ok.inj h).symm, fun h => congrArg Except.ok h.symm⟩
  | cons x xs ih =>
    rw [List.mapM_cons, List.forall₂_cons_left_iff]
    constructor
    · intro h
      cases hx : f x with
      | error e =>
        rw [hx] at h
        cases h
      | ok y =>
        cases hxs : xs.mapM f with
        | error e =>
          rw [hx, hxs] at h
          cases h
        | ok ys' =>
          rw [hx, hxs] at h
          exact ⟨y, ys', rfl, ih.mp hxs, (Except.ok.inj h).symm⟩
    · rintro ⟨y, ys', hx, hxs, rfl⟩
      rw [hx, ih.mpr hxs]
      rfl

/-- A component is read exactly when the index is in bounds. -/
theorem entry_eq_ok_iff {x : α} : entry v i = .ok x ↔ v[i]? = some x := by
  unfold entry
  cases v[i]? with
  | none =>
    constructor <;> intro h <;> cases h
  | some y =>
    constructor
    · intro h
      rw [Except.ok.inj h]
    · intro h
      rw [Option.some.inj h]

/-- A column has one component of each seed, in the order of the seeds. It exists exactly when
every seed is long enough. -/
theorem column_eq_ok_iff :
    column seeds i = .ok xs ↔ List.Forall₂ (fun v x => v[i]? = some x) seeds xs := by
  unfold column
  rw [mapM_eq_ok_iff]
  simp only [entry_eq_ok_iff]

/-- A column as a list without the panics: once it exists, no seed is left out. -/
theorem eq_filterMap_of_column (h : column seeds i = .ok xs) :
    xs = seeds.filterMap fun v => v[i]? := by
  have hcolumn := column_eq_ok_iff.mp h
  clear h
  induction hcolumn with
  | nil => rfl
  | cons hv hxs ih => rw [List.filterMap_cons, hv, ← ih]

/-- Permuted seeds have permuted columns, whatever the components are. -/
theorem column_perm {xs' : List α} (hperm : Perm seeds seeds') (h : column seeds i = .ok xs)
    (h' : column seeds' i = .ok xs') : Perm xs xs' := by
  rw [eq_filterMap_of_column h, eq_filterMap_of_column h']
  exact hperm.filterMap _

/-- A sum over the components `i` is the sum of their column, in the same order, and it panics
where the column does. The loop of the source is the left side, for both kinds of numbers. -/
theorem foldlM_entry (f : α → α → α) (seeds : List (List α)) (i : Nat) (acc : α) :
    seeds.foldlM (fun acc v => do return f acc (← entry v i)) acc
      = (column seeds i).map (List.foldl f acc) := by
  unfold column
  induction seeds generalizing acc with
  | nil => rfl
  | cons v seeds ih =>
    rw [List.foldlM_cons, List.mapM_cons]
    cases entry v i with
    | error e => rfl
    | ok x =>
      show seeds.foldlM _ (f acc x) = _
      rw [ih]
      cases seeds.mapM (entry · i) <;> rfl

/-! ### The means of the columns -/

/-- The exact mean. -/
def exactMean (qs : List ℚ) : ℚ := qs.sum / qs.length

/-- The rational that a component is. What is not finite is zero. -/
def exactValue (x : Binary32) : ℚ := x.toRat?.getD 0

/-- The seeds without the arithmetic of `f32`. -/
def exactSeeds (seeds : List (List Binary32)) : List (List ℚ) := seeds.map (List.map exactValue)

/-- The magnitudes of the components. -/
def magnitudes (seeds : List (List Binary32)) : List (List ℚ) :=
  seeds.map (List.map fun x => |exactValue x|)

/-- A column is as long as there are seeds: the sum is divided by this number. -/
theorem length_of_column (h : column seeds i = .ok xs) : xs.length = seeds.length :=
  (column_eq_ok_iff.mp h).length_eq.symm

/-- The index operation of the exact model reads an entry. -/
theorem indexVec_eq (v : List ℚ) (i : Nat) : indexVec v i = entry v i := by
  unfold indexVec entry
  cases v[i]? <;> rfl

/-- The one of the model in `f32` reads it too. -/
theorem F32.indexVec_eq (v : List Binary32) (i : Nat) : F32.indexVec v i = entry v i := by
  unfold F32.indexVec entry
  cases v[i]? <;> rfl

/-- A component of the exact query vector is the mean of its column, and it panics where the
column does. -/
theorem centroidAt_eq (seeds : List (List ℚ)) (i : Nat) :
    centroidAt seeds i = (column seeds i).map exactMean := by
  have hsum : sumAt seeds i = (column seeds i).map (List.foldl (· + ·) 0) := by
    simp only [sumAt, indexVec_eq]
    exact foldlM_entry (· + ·) seeds i 0
  unfold centroidAt
  rw [hsum]
  cases hcol : column seeds i with
  | error e => rfl
  | ok qs =>
    show Except.ok (qs.foldl (· + ·) 0 / (seeds.length : ℚ)) = .ok (exactMean qs)
    rw [exactMean, length_of_column hcol, List.sum_eq_foldl]

/-- A component in `f32` is the mean in `f32` of the same column: the sum starts at zero, goes
through the seeds in their order and is divided by their count, rounded. -/
theorem F32.centroidAt_eq (seeds : List (List Binary32)) (i : Nat) :
    F32.centroidAt seeds i = (column seeds i).map Ieee.mean := by
  have hsum : F32.sumAt seeds i = (column seeds i).map (List.foldl (· + ·) (.zero _)) := by
    simp only [F32.sumAt, F32.indexVec_eq]
    exact foldlM_entry (· + ·) seeds i (.zero _)
  unfold F32.centroidAt
  rw [hsum]
  cases hcol : column seeds i with
  | error e => rfl
  | ok xs =>
    show Except.ok (xs.foldl (· + ·) (.zero _) / Ieee.ofRat _ (seeds.length : ℚ))
      = .ok (Ieee.mean xs)
    rw [Ieee.mean, length_of_column hcol]

/-- The exact query vector of some seeds has the mean of each column. The first seed says how
many columns there are. -/
theorem query_eq (seeds : List (List ℚ)) (hne : seeds ≠ []) :
    computeSynapseQueryVector seeds
      = (columns seeds).map fun cols => some (cols.map exactMean) := by
  cases seeds with
  | nil => exact absurd rfl hne
  | cons first rest =>
    have hcentroid : centroidAt (first :: rest)
        = fun i => (column (first :: rest) i).map exactMean :=
      funext fun i => centroidAt_eq _ i
    have hcols : (List.range first.length).mapM (column (first :: rest))
        = columns (first :: rest) := rfl
    simp only [computeSynapseQueryVector, hcentroid, mapM_map_result, hcols]
    cases columns (first :: rest) <;> rfl

/-- And the query vector in `f32` has the mean in `f32` of each column, so both panic on the same
seeds with the same index. -/
theorem F32.query_eq (seeds : List (List Binary32)) (hne : seeds ≠ []) :
    F32.computeSynapseQueryVector seeds
      = (columns seeds).map fun cols => some (cols.map Ieee.mean) := by
  cases seeds with
  | nil => exact absurd rfl hne
  | cons first rest =>
    have hcentroid : F32.centroidAt (first :: rest)
        = fun i => (column (first :: rest) i).map Ieee.mean :=
      funext fun i => F32.centroidAt_eq _ i
    have hcols : (List.range first.length).mapM (column (first :: rest))
        = columns (first :: rest) := rfl
    simp only [F32.computeSynapseQueryVector, hcentroid, mapM_map_result, hcols]
    cases columns (first :: rest) <;> rfl

/-! ### What `f32` loses -/

/-- What a mean of `n` values loses in `f32`, relative to the mean of their magnitudes. -/
def meanLoss (n : Nat) : ℚ := (1 + 1 / 2 ^ 24) ^ (n + 2) - 1

/-- Each seed has a finite component `i`. -/
def FiniteAt (seeds : List (List Binary32)) (i : Nat) : Prop :=
  ∀ v ∈ seeds, ∃ x q, v[i]? = some x ∧ x.toRat? = some q

/-- The component `x` of the query vector, where the exact one is `a` and the mean of the
magnitudes is `d`. It is near `a` if it is finite, and finite if the sum of the magnitudes stays
away from the upper end of `f32`. -/
structure Rounds (seeds : List (List Binary32)) (i : Nat) (x : Binary32) (a d : ℚ) : Prop where
  near : ∀ c, x.toRat? = some c →
    FiniteAt seeds i ∧ |c - a| ≤ meanLoss seeds.length * d + 1 / 2 ^ 150
  finite : FiniteAt seeds i →
    (1 + 1 / 2 ^ 24) ^ (seeds.length - 1) * (seeds.length * d) < 2 ^ 128 → ∃ c, x.toRat? = some c

/-- The count of the seeds in `f32`. It is finite and not zero: rounding keeps it between 1 and
`2 ^ 64`, which are both numbers of the format. -/
theorem exists_count {n : Nat} (hpos : 0 < n) (hlt : n < 2 ^ 64) :
    ∃ m, (Ieee.ofRat Format.binary32 n).toRat? = some m ∧ m ≠ 0 := by
  have hnearest := Format.binary32.nearest_round
  have hone : ((1 : Nat) : ℚ) ∈ binary32Floats := natCast_mem_floats (by decide) (by decide)
  have htop : ((1 : ℤ) : ℚ) * 2 ^ (64 : ℤ) ∈ binary32Floats := mem_floats (by decide) (by decide)
  have hlow : ((1 : Nat) : ℚ) ≤ Format.binary32.round n :=
    hnearest.le_of_mem hone (by exact_mod_cast hpos)
  have hhigh : Format.binary32.round n ≤ ((1 : ℤ) : ℚ) * 2 ^ (64 : ℤ) := by
    rw [← hnearest.eq_of_mem htop]
    refine hnearest.monotone ?_
    rw [Int.cast_one, one_mul]
    exact_mod_cast hlt.le
  rw [Nat.cast_one] at hlow
  have hpos' : 0 < Format.binary32.round n := lt_of_lt_of_le one_pos hlow
  refine ⟨_, Ieee.toRat?_ofRat_eq_some_iff.mpr ⟨rfl, ?_⟩, hpos'.ne'⟩
  rw [abs_of_pos hpos']
  refine lt_of_le_of_lt hhigh ?_
  rw [Int.cast_one, one_mul]
  exact zpow_lt_zpow_right₀ one_lt_two (by decide)

section
variable {seeds seeds' : List (List Binary32)} {xs : List Binary32} {qs : List ℚ}

/-- The exact values of finite components. -/
theorem map_exactValue_of_values (h : Ieee.Values xs qs) : xs.map exactValue = qs := by
  induction h with
  | nil => rfl
  | cons hx hxs ih => rw [List.map_cons, exactValue, hx, ih, Option.getD_some]

/-- The mean of the magnitudes of a finite column is what the error bound of a mean is relative
to. -/
theorem exactMean_magnitudes (h : Ieee.Values xs qs) :
    exactMean (xs.map fun x => |exactValue x|) = Ieee.magnitude qs / qs.length := by
  have hmap : (xs.map fun x => |exactValue x|) = qs.map abs := by
    rw [← map_exactValue_of_values h, List.map_map]
    rfl
  rw [hmap, exactMean, List.length_map, Ieee.magnitude]

/-- A column is finite exactly when each seed has a finite component there. By induction on the
seeds, along the column. -/
theorem finiteAt_iff (hcol : column seeds i = .ok xs) :
    FiniteAt seeds i ↔ ∃ qs, Ieee.Values xs qs := by
  have hpairs := column_eq_ok_iff.mp hcol
  clear hcol
  induction hpairs with
  | nil => exact ⟨fun _ => ⟨[], .nil⟩, fun _ v hv => nomatch hv⟩
  | @cons v x seeds xs hv hpairs ih =>
    constructor
    · intro hfinite
      obtain ⟨y, q, hy, hq⟩ := hfinite v List.mem_cons_self
      obtain rfl : x = y := Option.some.inj (hv.symm.trans hy)
      obtain ⟨qs, hqs⟩ := ih.mp fun w hw => hfinite w (List.mem_cons_of_mem v hw)
      exact ⟨q :: qs, .cons hq hqs⟩
    · rintro ⟨qs, hqs⟩
      cases hqs with
      | @cons _ q _ qs hq hqs =>
        intro w hw
        rcases List.mem_cons.mp hw with rfl | hw
        · exact ⟨x, q, hv, hq⟩
        · exact ih.mpr ⟨qs, hqs⟩ w hw

/-- The mean in `f32` of a column rounds its exact mean. Both halves of `Rounds` are results on
one mean, for the format of `f32` and a count that it has. -/
theorem column_rounds (hne : seeds ≠ []) (hlen : seeds.length < 2 ^ 64)
    (hcol : column seeds i = .ok xs) :
    Rounds seeds i (Ieee.mean xs) (exactMean (xs.map exactValue))
      (exactMean (xs.map fun x => |exactValue x|)) := by
  have hxs := length_of_column hcol
  have hpos : 0 < xs.length := hxs ▸ List.length_pos_iff.mpr hne
  obtain ⟨n, hn, hn0⟩ := exists_count hpos (hxs ▸ hlen)
  have hnorm : Format.binary32.emin + Format.binary32.precision ≤ 1 := by decide
  have hleast : Format.binary32.halfLeast = 1 / 2 ^ 150 := by
    norm_num [Format.halfLeast, Format.binary32]
  constructor
  · intro c hc
    obtain ⟨qs, hqs⟩ := Ieee.exists_values_of_mean hn hn0 hc
    have hqlen := hqs.length_eq
    have hqne : qs ≠ [] := List.length_pos_iff.mp (hqlen ▸ hpos)
    have herror := Ieee.mean_error hnorm hqs hqne (hqlen ▸ hn) hc
    refine ⟨(finiteAt_iff hcol).mpr ⟨qs, hqs⟩, ?_⟩
    rw [exactMean_magnitudes hqs, map_exactValue_of_values hqs, exactMean, meanLoss, ← hleast,
      ← hxs, hqlen]
    exact herror
  · intro hfinite hroom
    obtain ⟨qs, hqs⟩ := (finiteAt_iff hcol).mp hfinite
    have hqlen := hqs.length_eq
    have hqne : qs ≠ [] := List.length_pos_iff.mp (hqlen ▸ hpos)
    have hcount : (qs.length : ℚ) ≠ 0 := by
      rw [← hqlen]
      exact_mod_cast hpos.ne'
    rw [exactMean_magnitudes hqs, ← hxs, hqlen, mul_div_cancel₀ _ hcount] at hroom
    exact Ieee.exists_mean hnorm hqs hqne (hqlen ▸ hn) (by exact_mod_cast hroom)

/-- The columns of a query are the columns of its indices. -/
theorem column_of_columns {cols : List (List α)} {seeds : List (List α)} {xs : List α}
    (h : columns seeds = .ok cols) (hxs : cols[i]? = some xs) : column seeds i = .ok xs := by
  obtain ⟨hlen, hget⟩ := List.forall₂_iff_get.mp (mapM_eq_ok_iff.mp h)
  obtain ⟨hi, rfl⟩ := List.getElem?_eq_some_iff.mp hxs
  have hcol := hget i (hlen ▸ hi) hi
  rwa [List.get_eq_getElem, List.get_eq_getElem, List.getElem_range] at hcol

/-- A query that gives a vector has seeds and all its columns, and the vector is made of their
means. -/
theorem columns_of_query {v : List Binary32}
    (hv : F32.computeSynapseQueryVector seeds = .ok (some v)) :
    seeds ≠ [] ∧ ∃ cols, columns seeds = .ok cols ∧ v = cols.map Ieee.mean := by
  have hne : seeds ≠ [] := by
    rintro rfl
    cases hv
  refine ⟨hne, ?_⟩
  rw [F32.query_eq seeds hne] at hv
  cases hcols : columns seeds with
  | error e =>
    rw [hcols] at hv
    cases hv
  | ok cols =>
    rw [hcols] at hv
    exact ⟨cols, rfl, (Option.some.inj (Except.ok.inj hv)).symm⟩

/-- The exact query for what `g` makes of the components: their values, or their magnitudes. It
is made of the same columns as the query in `f32`. -/
theorem query_map (g : Binary32 → ℚ) (hne : seeds ≠ []) :
    computeSynapseQueryVector (seeds.map (List.map g))
      = (columns seeds).map fun cols => some (cols.map fun xs => exactMean (xs.map g)) := by
  have hmap : seeds.map (List.map g) ≠ [] := by
    rwa [Ne, List.map_eq_nil_iff]
  rw [query_eq _ hmap, columns_map]
  cases columns seeds with
  | error e => rfl
  | ok cols =>
    show Except.ok (some ((cols.map (List.map g)).map exactMean)) = _
    rw [List.map_map]
    rfl

/-- The query vector in `f32` for the exact one. Both panic alike. Otherwise both have the same
dimension, and each component rounds the exact one: what it loses is relative to the mean of the
magnitudes, and grows with the number of seeds. -/
theorem query_rounds (seeds : List (List Binary32)) (hlen : seeds.length < 2 ^ 64) :
    (∀ e, F32.computeSynapseQueryVector seeds = .error e ↔
      computeSynapseQueryVector (exactSeeds seeds) = .error e) ∧
    ∀ v, F32.computeSynapseQueryVector seeds = .ok (some v) →
      ∃ w m, computeSynapseQueryVector (exactSeeds seeds) = .ok (some w) ∧
        computeSynapseQueryVector (magnitudes seeds) = .ok (some m) ∧
        v.length = w.length ∧ v.length = m.length ∧
        ∀ (i : Nat) (x : Binary32) (a d : ℚ), v[i]? = some x → w[i]? = some a → m[i]? = some d →
          Rounds seeds i x a d := by
  constructor
  · intro e
    rcases eq_or_ne seeds [] with rfl | hne
    · constructor <;> intro h <;> cases h
    · rw [F32.query_eq seeds hne, exactSeeds, query_map _ hne]
      cases columns seeds <;> constructor <;> intro h <;> cases h <;> rfl
  · intro v hv
    obtain ⟨hne, cols, hcols, rfl⟩ := columns_of_query hv
    rw [exactSeeds, magnitudes, query_map _ hne, query_map _ hne, hcols]
    refine ⟨_, _, rfl, rfl, by simp, by simp, ?_⟩
    intro i x a d hx ha hd
    obtain ⟨xs, hxs, rfl⟩ := Option.map_eq_some_iff.mp (List.getElem?_map ▸ hx)
    rw [List.getElem?_map, hxs] at ha hd
    obtain rfl := Option.some.inj ha
    obtain rfl := Option.some.inj hd
    exact column_rounds hne hlen (column_of_columns hcols hxs)

/-- Three seeds of two components. The mean of the first components is `4 / 3`, which `f32` does
not have: the component is the float next to it, and it rounds the exact one. -/
theorem query_rounds_thirds :
    let seeds : List (List Binary32) :=
      [[.ofRat _ 1, .ofRat _ 2], [.ofRat _ 1, .ofRat _ 3], [.ofRat _ 2, .ofRat _ 4]]
    seeds.length < 2 ^ 64 ∧
      F32.computeSynapseQueryVector seeds = .ok (some [.ofRat _ (4 / 3), .ofRat _ 3]) ∧
      computeSynapseQueryVector (exactSeeds seeds) = .ok (some [4 / 3, 3]) ∧
      (Ieee.ofRat Format.binary32 (4 / 3)).toRat? ≠ some (4 / 3) ∧
      Rounds seeds 0 (.ofRat _ (4 / 3)) (4 / 3) (4 / 3) := by
  intro seeds
  have hlen : seeds.length < 2 ^ 64 := by decide
  have hv : F32.computeSynapseQueryVector seeds = .ok (some [.ofRat _ (4 / 3), .ofRat _ 3]) := by
    decide +kernel
  have hw : computeSynapseQueryVector (exactSeeds seeds) = .ok (some [4 / 3, 3]) := by
    decide +kernel
  -- The seeds are positive, so they are their own magnitudes.
  have hm : computeSynapseQueryVector (magnitudes seeds) = .ok (some [4 / 3, 3]) := by
    decide +kernel
  obtain ⟨w, m, hw', hm', -, -, hrounds⟩ := (query_rounds seeds hlen).2 _ hv
  rw [hw, Except.ok.injEq, Option.some.injEq] at hw'
  rw [hm, Except.ok.injEq, Option.some.injEq] at hm'
  refine ⟨hlen, hv, hw, by decide +kernel, hrounds 0 _ _ _ rfl ?_ ?_⟩
  · rw [← hw']
    rfl
  · rw [← hm']
    rfl

/-! ### The order of the seeds -/

/-- The exact mean does not depend on the order. -/
theorem exactMean_perm {qs qs' : List ℚ} (h : Perm qs qs') : exactMean qs = exactMean qs' := by
  rw [exactMean, exactMean, h.sum_eq, h.length_eq]

/-- Two orders of the seeds give query vectors that are near one exact vector, so they are near
each other. -/
theorem query_order_error {v v' : List Binary32} (hperm : Perm seeds seeds')
    (hlen : seeds.length < 2 ^ 64) (hv : F32.computeSynapseQueryVector seeds = .ok (some v))
    (hv' : F32.computeSynapseQueryVector seeds' = .ok (some v')) :
    ∃ m, computeSynapseQueryVector (magnitudes seeds) = .ok (some m) ∧ v.length = m.length ∧
      ∀ (i : Nat) (x x' : Binary32) (c c' d : ℚ), v[i]? = some x → v'[i]? = some x' →
        m[i]? = some d → x.toRat? = some c → x'.toRat? = some c' →
        |c - c'| ≤ 2 * (meanLoss seeds.length * d + 1 / 2 ^ 150) := by
  obtain ⟨hne, cols, hcols, rfl⟩ := columns_of_query hv
  obtain ⟨hne', cols', hcols', rfl⟩ := columns_of_query hv'
  rw [magnitudes, query_map _ hne, hcols]
  refine ⟨_, rfl, by simp, ?_⟩
  intro i x x' c c' d hx hx' hd hc hc'
  obtain ⟨xs, hxs, rfl⟩ := Option.map_eq_some_iff.mp (List.getElem?_map ▸ hx)
  obtain ⟨xs', hxs', rfl⟩ := Option.map_eq_some_iff.mp (List.getElem?_map ▸ hx')
  rw [List.getElem?_map, hxs] at hd
  obtain rfl := Option.some.inj hd
  have hcol := column_of_columns hcols hxs
  have hcol' := column_of_columns hcols' hxs'
  have hpermCol := column_perm hperm hcol hcol'
  have hnear := ((column_rounds hne hlen hcol).near c hc).2
  have hnear' := ((column_rounds hne' (hperm.length_eq ▸ hlen) hcol').near c' hc').2
  rw [← hperm.length_eq, ← exactMean_perm (hpermCol.map _),
    ← exactMean_perm (hpermCol.map _)] at hnear'
  rw [abs_sub_comm] at hnear'
  linarith [abs_sub_le c (exactMean (xs.map exactValue)) c']

/-- The order does matter: the second sum loses the one. -/
example :
    let a : Binary32 := .ofRat _ (2 ^ 24)
    let b : Binary32 := .ofRat _ (-2 ^ 24)
    let one : Binary32 := .ofRat _ 1
    F32.computeSynapseQueryVector [[a], [b], [one]]
      ≠ F32.computeSynapseQueryVector [[a], [one], [b]] := by
  decide +kernel

end

end SwarmRuntime.State
