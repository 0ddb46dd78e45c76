import Mathlib.Data.List.Infix

/-!
# `SwarmRuntime.Lib.Delimited`: parts joined with a separator

A string made of parts and a separator does not say where it was cut when a part may contain
the separator. The lemmas here say what two cuts of one list have in common.

* Cut at the first element of a kind (`append_cons_inj_of_kind`): the cuts are the same.
* Cut at one element (`append_cons_eq_append_cons_iff`): the cuts are the same, or the longer
  head goes on past the element at which the shorter one ends.
* Cut at an element written twice (`append_pair_eq_append_pair_iff`), with heads that do not
  contain the pair: the cuts are the same, or they are one place apart. The second case is a run
  of three, `xs ++ [x, x, x] ++ ys`, which can be read in two ways.
-/

set_option autoImplicit false

namespace SwarmRuntime.Lib

variable {α : Type} {x : α} {xs xs' ys ys' : List α}

/-! ### An element of a kind -/

/-- Two lists that agree, split at the first element of a kind, agree in all parts. -/
theorem append_cons_inj_of_kind {P : α → Prop} {y y' : α} (hxs : ∀ a ∈ xs, ¬ P a)
    (hxs' : ∀ a ∈ xs', ¬ P a) (hy : P y) (hy' : P y') (h : xs ++ y :: ys = xs' ++ y' :: ys') :
    xs = xs' ∧ y = y' ∧ ys = ys' := by
  rcases List.append_eq_append_iff.mp h with ⟨us, rfl, hys⟩ | ⟨us, rfl, hys⟩
  · cases us with
    | nil =>
      obtain ⟨rfl, rfl⟩ := List.cons.inj hys
      exact ⟨(List.append_nil _).symm, rfl, rfl⟩
    | cons u us =>
      obtain ⟨rfl, -⟩ := List.cons.inj hys
      exact absurd hy (hxs' y (by simp))
  · cases us with
    | nil =>
      obtain ⟨rfl, rfl⟩ := List.cons.inj hys
      exact ⟨List.append_nil _, rfl, rfl⟩
    | cons u us =>
      obtain ⟨rfl, -⟩ := List.cons.inj hys
      exact absurd hy' (hxs y' (by simp))

/-! ### One element -/

/-- Two cuts of one list at the element `x`. -/
theorem append_cons_eq_append_cons_iff :
    xs ++ x :: ys = xs' ++ x :: ys' ↔
      (xs = xs' ∧ ys = ys') ∨
      (∃ zs, xs' = xs ++ x :: zs ∧ ys = zs ++ x :: ys') ∨
      (∃ zs, xs = xs' ++ x :: zs ∧ ys' = zs ++ x :: ys) := by
  constructor
  · intro h
    rcases List.append_eq_append_iff.mp h with ⟨us, hxs, hys⟩ | ⟨us, hxs, hys⟩
    · cases us with
      | nil => exact .inl ⟨by simpa using hxs.symm, (List.cons.inj hys).2⟩
      | cons u us =>
        obtain ⟨rfl, htail⟩ := List.cons.inj hys
        exact .inr (.inl ⟨us, hxs, htail⟩)
    · cases us with
      | nil => exact .inl ⟨by simpa using hxs, ((List.cons.inj hys).2).symm⟩
      | cons u us =>
        obtain ⟨rfl, htail⟩ := List.cons.inj hys
        exact .inr (.inr ⟨us, hxs, htail⟩)
  · rintro (⟨rfl, rfl⟩ | ⟨zs, rfl, rfl⟩ | ⟨zs, rfl, rfl⟩)
    · rfl
    · simp
    · simp

/-- Two lists that agree, split at the first place of one element, agree in both parts. -/
theorem append_cons_inj_of_first (hx : x ∉ xs) (hx' : x ∉ xs')
    (h : xs ++ x :: ys = xs' ++ x :: ys') : xs = xs' ∧ ys = ys' := by
  have hparts := append_cons_inj_of_kind (P := fun a => a = x) (fun a ha hax => hx (hax ▸ ha))
    (fun a ha hax => hx' (hax ▸ ha)) rfl rfl h
  exact ⟨hparts.1, hparts.2.2⟩

/-- A head without `x` is the shorter one, or the two cuts are the same. -/
theorem append_cons_cases_of_first (hx : x ∉ xs) (h : xs ++ x :: ys = xs' ++ x :: ys') :
    (xs = xs' ∧ ys = ys') ∨ ∃ zs, xs' = xs ++ x :: zs ∧ ys = zs ++ x :: ys' := by
  rcases append_cons_eq_append_cons_iff.mp h with heq | hlong | ⟨zs, rfl, -⟩
  · exact .inl heq
  · exact .inr hlong
  · exact absurd (by simp) hx

/-! ### One element twice -/

/-- The pair of an element with itself does not occur in a list. -/
def PairFree (x : α) (xs : List α) : Prop := ¬ [x, x] <:+: xs

/-- Two cuts of one list at the element `x` written twice, the heads without that pair. -/
theorem append_pair_eq_append_pair_iff (hx : PairFree x xs) (hx' : PairFree x xs') :
    xs ++ x :: x :: ys = xs' ++ x :: x :: ys' ↔
      (xs = xs' ∧ ys = ys') ∨ (xs' = xs ++ [x] ∧ ys = x :: ys') ∨
        (xs = xs' ++ [x] ∧ ys' = x :: ys) := by
  constructor
  · intro h
    rcases append_cons_eq_append_cons_iff.mp h with ⟨hxs, hys⟩ | ⟨zs, hxs, hys⟩ | ⟨zs, hxs, hys⟩
    · exact .inl ⟨hxs, (List.cons.inj hys).2⟩
    · -- The second `x` of the shorter cut is the first of the longer one, or inside its head.
      cases zs with
      | nil => exact .inr (.inl ⟨hxs, (List.cons.inj hys).2⟩)
      | cons z zs =>
        obtain ⟨rfl, -⟩ := List.cons.inj hys
        exact absurd ⟨xs, zs, by simp [hxs]⟩ hx'
    · cases zs with
      | nil => exact .inr (.inr ⟨hxs, (List.cons.inj hys).2⟩)
      | cons z zs =>
        obtain ⟨rfl, -⟩ := List.cons.inj hys
        exact absurd ⟨xs', zs, by simp [hxs]⟩ hx
  · rintro (⟨rfl, rfl⟩ | ⟨rfl, rfl⟩ | ⟨rfl, rfl⟩)
    · rfl
    · simp
    · simp

theorem PairFree.of_cons {y : α} (h : PairFree x (y :: xs)) : PairFree x xs := by
  intro hin
  exact h (hin.trans (List.suffix_cons y xs).isInfix)

end SwarmRuntime.Lib
