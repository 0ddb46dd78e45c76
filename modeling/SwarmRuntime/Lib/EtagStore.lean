import Mathlib.Logic.Function.Basic
import Mathlib.Data.List.Pairwise
import Mathlib.Data.Set.Defs

/-!
# `SwarmRuntime.Lib.EtagStore`: a key-value store with entity tags and lifetimes

Each key holds at most one cell: a value, the tag of the write that installed it, and the
second at which it expires. A guarded write (`set` with `some e`) succeeds exactly when the
key holds a live cell with the tag `e`. An unguarded write always succeeds.

`journal` is a ghost field, newest entry first: one entry for each successful write, with
its author. No operation reads it. It carries the two facts that optimistic concurrency
rests on:

* `Journaled s k`: the cell of `k` is the newest journal entry of `k`. So a guarded write
  that succeeds names the newest entry (`exists_newest_of_accepts`).
* `Tagged s k`: no two journal entries of `k` share a tag. So a tag that a client has read
  names one write for ever (`Tagged.eq_of_etag`).

Both hold along every run in which each write installs a tag that is `Fresh` for its key.
`Later` relates two moments of one store. `restrict` is the store on some of its keys: reads and
writes of these keys do not see the others.
-/

set_option autoImplicit false

namespace SwarmRuntime.Lib

/-- What a key holds. `expires = some n` means that the cell is absent from second `n` on. -/
structure Cell (V E : Type) where
  value : V
  etag : E
  expires : Option Nat
  deriving DecidableEq

/-- A cell is live until it expires. -/
def Cell.live {V E : Type} (now : Nat) (c : Cell V E) : Bool :=
  match c.expires with
  | none => true
  | some n => decide (now < n)

/-- A cell is live at `now` when its expiry, if it has one, is still to come. -/
theorem Cell.live_iff {V E : Type} {now : Nat} {c : Cell V E} :
    c.live now = true ↔ ∀ n, c.expires = some n → now < n := by
  unfold Cell.live
  cases c.expires <;> simp

/-- One successful write. -/
structure Entry (K V E A : Type) where
  key : K
  value : V
  etag : E
  author : A
  deriving DecidableEq

/-- The store: a cell for each key, the store's clock in seconds, the journal of writes. -/
structure EtagStore (K V E A : Type) where
  cells : K → Option (Cell V E)
  time : Nat
  journal : List (Entry K V E A)

namespace EtagStore

variable {K V E A : Type}

/-- The store without a cell. -/
def empty : EtagStore K V E A := ⟨fun _ => none, 0, []⟩

/-- Read a key: its cell, when it has one that is live. -/
def lookup (s : EtagStore K V E A) (k : K) : Option (Cell V E) :=
  (s.cells k).filter (Cell.live s.time)

/-- Let `n` seconds pass. -/
def tick (s : EtagStore K V E A) (n : Nat) : EtagStore K V E A :=
  { s with time := s.time + n }

/-- The guard of a write: no guard, or a live cell with the guard's tag. -/
def accepts [DecidableEq E] (s : EtagStore K V E A) (k : K) : Option E → Bool
  | none => true
  | some e => (s.lookup k).any fun c => c.etag = e

/-! ### Time -/

section
variable {s : EtagStore K V E A} {k : K} {c : Cell V E}

@[simp] theorem time_tick (s : EtagStore K V E A) (n : Nat) : (s.tick n).time = s.time + n := rfl

@[simp] theorem journal_tick (s : EtagStore K V E A) (n : Nat) :
    (s.tick n).journal = s.journal := rfl

@[simp] theorem cells_tick (s : EtagStore K V E A) (n : Nat) : (s.tick n).cells = s.cells := rfl

@[simp] theorem tick_zero (s : EtagStore K V E A) : s.tick 0 = s := rfl

@[simp] theorem tick_tick (s : EtagStore K V E A) (m n : Nat) :
    (s.tick m).tick n = s.tick (m + n) := by
  simp [tick, Nat.add_assoc]

/-- A read returns the cell of the key, and that cell is live. -/
theorem lookup_eq_some : s.lookup k = some c ↔ s.cells k = some c ∧ c.live s.time = true := by
  simp [lookup, Option.filter_eq_some_iff]

/-- A cell without a lifetime is read. -/
theorem lookup_of_cells (h : s.cells k = some c) (hc : c.expires = none) :
    s.lookup k = some c :=
  lookup_eq_some.mpr ⟨h, Cell.live_iff.mpr fun n hn => by rw [hc] at hn; cases hn⟩

/-- What is read after a delay was to be read before. -/
theorem lookup_of_lookup_tick {n : Nat} (h : (s.tick n).lookup k = some c) :
    s.lookup k = some c := by
  rw [lookup_eq_some, Cell.live_iff] at h ⊢
  exact ⟨h.1, fun m hm => Nat.lt_of_le_of_lt (Nat.le_add_right _ n) (h.2 m hm)⟩

/-- A record without a lifetime outlives every delay. -/
theorem lookup_tick_of_none (n : Nat) (h : s.lookup k = some c) (hc : c.expires = none) :
    (s.tick n).lookup k = some c := by
  rw [lookup_eq_some] at h ⊢
  exact ⟨h.1, by simp [Cell.live_iff, hc]⟩

/-- A record with a lifetime is read while it lasts, and only then. -/
theorem lookup_tick_of_some {m : Nat} (n : Nat) (h : s.lookup k = some c)
    (hc : c.expires = some m) :
    (s.tick n).lookup k = if s.time + n < m then some c else none := by
  rw [lookup_eq_some] at h
  by_cases hm : s.time + n < m
  · rw [if_pos hm, lookup_eq_some]
    exact ⟨h.1, by simp [Cell.live_iff, hc, hm]⟩
  · rw [if_neg hm, lookup, cells_tick, h.1]
    simp [Option.filter, Cell.live, hc, hm]

/-- A tagged guard passes exactly on the live cell with that tag. -/
@[simp] theorem accepts_some [DecidableEq E] {e : E} :
    s.accepts k (some e) = true ↔ ∃ c, s.lookup k = some c ∧ c.etag = e := by
  simp [accepts, Option.any_eq_true]

@[simp] theorem accepts_none [DecidableEq E] : s.accepts k none = true := rfl

end

/-! ### Writes -/

variable [DecidableEq K]

/-- Install a cell at `k` and journal the write. `ttl` is a lifetime in seconds. -/
def put (s : EtagStore K V E A) (a : A) (k : K) (v : V) (ttl : Option Nat) (e : E) :
    EtagStore K V E A :=
  { s with
    cells := Function.update s.cells k (some ⟨v, e, ttl.map (s.time + ·)⟩)
    journal := ⟨k, v, e, a⟩ :: s.journal }

/-- A guarded write. It has no effect when the guard fails. -/
def set [DecidableEq E] (s : EtagStore K V E A) (a : A) (k : K) (v : V) (guard : Option E)
    (ttl : Option Nat) (e : E) : Option (EtagStore K V E A) :=
  if s.accepts k guard then some (s.put a k v ttl e) else none

/-- The journal entries of one key, newest first. -/
def history (s : EtagStore K V E A) (k : K) : List (Entry K V E A) :=
  s.journal.filter fun e => e.key = k

section
variable (s : EtagStore K V E A) (a : A) (k k' : K) (v : V) (ttl : Option Nat) (e : E)

@[simp] theorem time_put : (s.put a k v ttl e).time = s.time := rfl

@[simp] theorem journal_put : (s.put a k v ttl e).journal = ⟨k, v, e, a⟩ :: s.journal := rfl

/-- Another key keeps its cell. -/
@[simp] theorem cells_put_of_ne (h : k' ≠ k) : (s.put a k v ttl e).cells k' = s.cells k' := by
  simp [put, h]

/-- The written key holds the new cell. -/
@[simp] theorem cells_put_self :
    (s.put a k v ttl e).cells k = some ⟨v, e, ttl.map (s.time + ·)⟩ := by
  simp [put]

/-- A write leaves the reads of every other key unchanged. -/
@[simp] theorem lookup_put_of_ne (h : k' ≠ k) :
    (s.put a k v ttl e).lookup k' = s.lookup k' := by
  simp [lookup, h]

/-- A write without a lifetime is read back. -/
@[simp] theorem lookup_put_none : (s.put a k v none e).lookup k = some ⟨v, e, none⟩ := by
  simp [lookup, Cell.live]

/-- A write with a positive lifetime is read back. -/
theorem lookup_put_some {n : Nat} (hn : 0 < n) :
    (s.put a k v (some n) e).lookup k = some ⟨v, e, some (s.time + n)⟩ := by
  simp [lookup, Cell.live, hn]

@[simp] theorem history_tick (n : Nat) : (s.tick n).history k = s.history k := rfl

@[simp] theorem history_put_self :
    (s.put a k v ttl e).history k = ⟨k, v, e, a⟩ :: s.history k := by
  simp [history]

@[simp] theorem history_put_of_ne (h : k' ≠ k) :
    (s.put a k v ttl e).history k' = s.history k' := by
  simp [history, h.symm]

end

section
variable [DecidableEq E] {s s' : EtagStore K V E A} {a : A} {k : K} {v : V} {ttl : Option Nat}
  {e : E} {guard : Option E}

theorem set_of_accepts (h : s.accepts k guard = true) :
    s.set a k v guard ttl e = some (s.put a k v ttl e) := if_pos h

theorem set_of_not_accepts (h : s.accepts k guard = false) : s.set a k v guard ttl e = none := by
  simp [set, h]

end

/-! ### The journal of a key -/

/-- The tag `e` was never used for the key `k`. -/
def Fresh (s : EtagStore K V E A) (k : K) (e : E) : Prop := ∀ x ∈ s.history k, x.etag ≠ e

/-- The cell of `k` is its newest journal entry. -/
def Journaled (s : EtagStore K V E A) (k : K) : Prop :=
  ∀ c, s.cells k = some c → ∃ x, (s.history k).head? = some x ∧ x.value = c.value ∧ x.etag = c.etag

/-- No two journal entries of `k` share a tag. -/
def Tagged (s : EtagStore K V E A) (k : K) : Prop :=
  (s.history k).Pairwise fun x y => x.etag ≠ y.etag

section
variable {s : EtagStore K V E A} {k : K}

/-- Every entry in the history of a key is of that key. -/
theorem key_of_mem_history {x : Entry K V E A} (h : x ∈ s.history k) : x.key = k := by
  simpa using (List.mem_filter.mp h).2

/-- A tag names one entry of the key. -/
theorem Tagged.eq_of_etag (h : s.Tagged k) {x y : Entry K V E A} (hx : x ∈ s.history k)
    (hy : y ∈ s.history k) (hxy : x.etag = y.etag) : x = y := by
  have hsymm : Std.Symm fun x y : Entry K V E A => x.etag ≠ y.etag := ⟨fun _ _ hab => hab.symm⟩
  by_contra hne
  exact List.Pairwise.forall h hx hy hne hxy

theorem Journaled.put (h : s.Journaled k) (a : A) (k' : K) (v : V) (ttl : Option Nat) (e : E) :
    (s.put a k' v ttl e).Journaled k := by
  intro c hc
  by_cases hk : k = k'
  · subst hk
    -- The new cell and the new entry are of one write.
    rw [cells_put_self, Option.some.injEq] at hc
    subst hc
    exact ⟨_, by rw [history_put_self]; rfl, rfl, rfl⟩
  · rw [cells_put_of_ne _ _ _ _ _ _ _ hk] at hc
    rw [history_put_of_ne _ _ _ _ _ _ _ hk]
    exact h c hc

theorem Tagged.put (h : s.Tagged k) (a : A) (k' : K) (v : V) (ttl : Option Nat) (e : E)
    (hfresh : s.Fresh k' e) : (s.put a k' v ttl e).Tagged k := by
  unfold Tagged at *
  by_cases hk : k = k'
  · subst hk
    rw [history_put_self, List.pairwise_cons]
    exact ⟨fun x hx => hfresh x hx |>.symm, h⟩
  · rwa [history_put_of_ne _ _ _ _ _ _ _ hk]

/-- A read returns the newest entry of the key. -/
theorem Journaled.exists_newest (h : s.Journaled k) {c : Cell V E} (hc : s.lookup k = some c) :
    ∃ x older, s.history k = x :: older ∧ x.value = c.value ∧ x.etag = c.etag := by
  obtain ⟨x, hx, hv, he⟩ := h c (lookup_eq_some.mp hc).1
  obtain ⟨older, hhist⟩ := List.head?_eq_some_iff.mp hx
  exact ⟨x, older, hhist, hv, he⟩

/-- A guarded write that succeeds names the newest entry of its key. -/
theorem exists_newest_of_accepts [DecidableEq E] (h : s.Journaled k) {e : E}
    (hacc : s.accepts k (some e) = true) :
    ∃ x older, s.history k = x :: older ∧ x.etag = e := by
  obtain ⟨c, hc, rfl⟩ := accepts_some.mp hacc
  obtain ⟨x, older, hhist, -, he⟩ := h.exists_newest hc
  exact ⟨x, older, hhist, he⟩

end

/-! ### Two moments of one store -/

/-- `s'` is `s` at a later moment: time has gone on, each history has only grown, and a key
whose history has not grown holds what it held. -/
structure Later (s s' : EtagStore K V E A) : Prop where
  time : s.time ≤ s'.time
  history : ∀ k, s.history k <:+ s'.history k
  cells : ∀ k, s'.history k = s.history k → s'.cells k = s.cells k

namespace Later

variable {s s' s'' : EtagStore K V E A} {k : K} {c : Cell V E}

theorem refl (s : EtagStore K V E A) : s.Later s :=
  ⟨Nat.le_refl _, fun _ => List.suffix_rfl, fun _ _ => rfl⟩

/-- A history that has not grown in two intervals has not grown in either. -/
theorem trans (h : s.Later s') (h' : s'.Later s'') : s.Later s'' := by
  refine ⟨Nat.le_trans h.time h'.time, fun k => (h.history k).trans (h'.history k), ?_⟩
  intro k hk
  -- The three histories are suffixes of one another, so their lengths decide.
  have hlen : (s''.history k).length = (s.history k).length := congrArg List.length hk
  have hle : (s.history k).length ≤ (s'.history k).length := (h.history k).length_le
  have hle' : (s'.history k).length ≤ (s''.history k).length := (h'.history k).length_le
  have hmid : s.history k = s'.history k := (h.history k).eq_of_length (by omega)
  have hend : s'.history k = s''.history k := (h'.history k).eq_of_length (by omega)
  rw [h'.cells k hend.symm, h.cells k hmid.symm]

theorem tick (s : EtagStore K V E A) (n : Nat) : s.Later (s.tick n) :=
  ⟨Nat.le_add_right _ _, fun _ => List.suffix_rfl, fun _ _ => rfl⟩

theorem put (s : EtagStore K V E A) (a : A) (k : K) (v : V) (ttl : Option Nat) (e : E) :
    s.Later (s.put a k v ttl e) := by
  refine ⟨Nat.le_refl _, fun k' => ?_, fun k' hk' => ?_⟩
  · show s.history k' <:+ (s.put a k v ttl e).history k'
    by_cases hk : k' = k
    · subst hk
      rw [history_put_self]
      -- The history of the written key grows by one entry, and the others stay.
      exact List.suffix_cons _ _
    · have hsame : (s.put a k v ttl e).history k' = s.history k' :=
        history_put_of_ne _ _ _ _ _ _ _ hk
      exact hsame ▸ List.suffix_rfl
  · show (s.put a k v ttl e).cells k' = s.cells k'
    by_cases hk : k' = k
    · subst hk
      rw [history_put_self] at hk'
      -- A key whose history has not grown is not the written one.
      exact absurd (congrArg List.length hk') (by simp)
    · rw [cells_put_of_ne _ _ _ _ _ _ _ hk]

/-- A moment between two moments of one state has its time and its histories. -/
theorem unchanged (h : s.Later s') (h' : s'.Later s) (k : K) :
    s'.time = s.time ∧ s'.history k = s.history k := by
  have htime : s.time ≤ s'.time := h.time
  have htime' : s'.time ≤ s.time := h'.time
  have hlen : (s.history k).length ≤ (s'.history k).length := (h.history k).length_le
  have hlen' : (s'.history k).length ≤ (s.history k).length := (h'.history k).length_le
  exact ⟨by omega, ((h.history k).eq_of_length (by omega)).symm⟩

/-- An entry stays in the history of its key. -/
theorem mem_history (h : s.Later s') {x : Entry K V E A} (hx : x ∈ s.history k) :
    x ∈ s'.history k :=
  (h.history k).subset hx

/-- What is read later, of a key that was not written in between, was to be read before. -/
theorem lookup_of_lookup (h : s.Later s') (hk : s'.history k = s.history k)
    (hc : s'.lookup k = some c) : s.lookup k = some c := by
  rw [lookup_eq_some, Cell.live_iff] at hc ⊢
  -- The cell is the same at both moments, and an earlier clock leaves it live.
  rw [h.cells k hk] at hc
  exact ⟨hc.1, fun n hn => Nat.lt_of_le_of_lt h.time (hc.2 n hn)⟩

end Later

/-! ### The store on some of its keys -/

section
open Classical

variable {keys : Set K} {s : EtagStore K V E A} {k : K}

/-- The store without the keys outside `keys`. -/
noncomputable def restrict (keys : Set K) (s : EtagStore K V E A) : EtagStore K V E A :=
  { s with
    cells := fun k => if k ∈ keys then s.cells k else none
    journal := s.journal.filter fun x => x.key ∈ keys }

omit [DecidableEq K] in
@[simp] theorem time_restrict : (s.restrict keys).time = s.time := rfl

omit [DecidableEq K] in
/-- A key of `keys` keeps its cell. -/
theorem cells_restrict_of_mem (h : k ∈ keys) : (s.restrict keys).cells k = s.cells k := if_pos h

omit [DecidableEq K] in
/-- A key of `keys` is read as before. -/
theorem lookup_restrict_of_mem (h : k ∈ keys) : (s.restrict keys).lookup k = s.lookup k := by
  rw [lookup, lookup, cells_restrict_of_mem h, time_restrict]

omit [DecidableEq K] in
/-- The guard of a write to a key of `keys` passes as before. -/
theorem accepts_restrict_of_mem [DecidableEq E] (h : k ∈ keys) (guard : Option E) :
    (s.restrict keys).accepts k guard = s.accepts k guard := by
  cases guard with
  | none => rfl
  | some e => rw [accepts, accepts, lookup_restrict_of_mem h]

omit [DecidableEq K] in
/-- Stores are equal with equal cells, times and journals. -/
theorem eq_of_cells {s s' : EtagStore K V E A} (hcells : ∀ k, s.cells k = s'.cells k)
    (htime : s.time = s'.time) (hjournal : s.journal = s'.journal) : s = s' := by
  cases s
  cases s'
  rw [EtagStore.mk.injEq]
  exact ⟨funext hcells, htime, hjournal⟩

/-- A write to a key of `keys` is a write to the smaller store. -/
theorem restrict_put_of_mem (h : k ∈ keys) (a : A) (v : V) (ttl : Option Nat) (e : E) :
    (s.put a k v ttl e).restrict keys = (s.restrict keys).put a k v ttl e := by
  refine eq_of_cells (fun k' => ?_) rfl ?_
  · show (if k' ∈ keys then (s.put a k v ttl e).cells k' else none)
      = ((s.restrict keys).put a k v ttl e).cells k'
    by_cases hk : k' = k
    · subst hk
      rw [if_pos h, cells_put_self, cells_put_self, time_restrict]
    · rw [cells_put_of_ne _ _ _ _ _ _ _ hk, cells_put_of_ne _ _ _ _ _ _ _ hk]
      rfl
  · show (⟨k, v, e, a⟩ :: s.journal).filter (fun x => x.key ∈ keys)
      = ⟨k, v, e, a⟩ :: s.journal.filter fun x => x.key ∈ keys
    exact List.filter_cons_of_pos (decide_eq_true h)

/-- A write to a key outside `keys` leaves the smaller store as it is. -/
theorem restrict_put_of_not_mem (h : k ∉ keys) (a : A) (v : V) (ttl : Option Nat) (e : E) :
    (s.put a k v ttl e).restrict keys = s.restrict keys := by
  refine eq_of_cells (fun k' => ?_) rfl ?_
  · show (if k' ∈ keys then (s.put a k v ttl e).cells k' else none)
      = if k' ∈ keys then s.cells k' else none
    by_cases hk : k' ∈ keys
    · have hne : k' ≠ k := by
        rintro rfl
        exact h hk
      rw [if_pos hk, if_pos hk, cells_put_of_ne _ _ _ _ _ _ _ hne]
    · rw [if_neg hk, if_neg hk]
  · show (⟨k, v, e, a⟩ :: s.journal).filter (fun x => x.key ∈ keys)
      = s.journal.filter fun x => x.key ∈ keys
    exact List.filter_cons_of_neg fun hmem => h (of_decide_eq_true hmem)

end

end EtagStore

end SwarmRuntime.Lib
