import SwarmRuntime.Proofs.Alone
import SwarmRuntime.State.Codec

/-!
# `SwarmRuntime.Proofs.Tags`: the result of a hydrate and the tags of a freeze

`FreezeInput` takes the tags of the two records "as read during hydration". `hydrate` reads both
tags and returns neither: `HydrationResult` has no place for them. Two stores with the same
records under other tags give the same result, and a freeze with one choice of tags cannot be
accepted by both (`enoughToFreeze_iff`).
-/

set_option autoImplicit false

namespace SwarmRuntime.State

open SwarmRuntime.Lib SwarmRuntime.Lib.Interaction

variable {M : AgentHydrationManager} {B : Build} {t a : String} {r : HydrationResult}

/-- A hydrate of the store `s` without a failing call returns the result `r`. -/
def HydratesTo (M : AgentHydrationManager) (B : Build) (t a : String) (s : Backing Unit)
    (r : HydrationResult) : Prop :=
  ∃ ws, Calm 3 ws ∧ (exec (serve ()) (M.hydrate B t a).run ws s).ending = .returned (.ok r)

/-- With the tags that `tags` computes from the result `r`, every freeze returns `Ok` on every
store that a hydrate has found to hold `r`. -/
def EnoughToFreeze (M : AgentHydrationManager) (B : Build) (t a : String)
    (tags : HydrationResult → ETag × ETag) (r : HydrationResult) : Prop :=
  ∀ (s : Backing Unit) (i : FreezeInput) (ws : List Answer), HydratesTo M B t a s r →
    i.tenantId = t → i.agentId = a → (i.stateEtag, i.memoryEtag) = tags r →
    i.Increments B → Calm 7 ws →
    ∃ seq, (exec (serve ()) (freeze B i).run ws s).ending = .returned (.ok seq)

/-- A store with the same records under other tags is hydrated to the same result. -/
theorem HydratesTo.pairStore {s : Backing Unit} (h : HydratesTo M B t a s r) (es em : ETag) :
    HydratesTo M B t a (pairStore () B t a r.state r.workingMemory es em) r := by
  obtain ⟨ws, hws, hok⟩ := h
  refine ⟨ws, hws, ?_⟩
  obtain ⟨w₁, w₂, w₃, ws, rfl, h₁, h₂, h₃⟩ := hws.exists_three
  rw [(exec_hydrate h₁ h₂ h₃).2, hydrateOn_eq_ok] at hok ⊢
  obtain ⟨cs, cm, -, -, hguard, -, -, hver, hrec⟩ := hok
  exact ⟨_, _, lookup_state_pairStore, B.state.decode_encodeToVec _, hguard,
    lookup_memory_pairStore, B.memory.decode_encodeToVec _, hver, hrec⟩

/-- The tags of an accepted freeze are the tags of the store. -/
theorem tags_of_freeze {state : AgentStateRecord} {mem : WorkingMemoryRecord} {es em : ETag}
    {i : FreezeInput} {ws : List Answer} (hws : Calm 7 ws) {seq : UInt64}
    (hok : (exec (serve ()) (freeze B i).run ws
      (pairStore () B i.tenantId i.agentId state mem es em)).ending = .returned (.ok seq)) :
    i.stateEtag = es ∧ i.memoryEtag = em := by
  have hcur := ((exec_freeze_ok_iff hws).mp ⟨seq, hok⟩).2
  obtain ⟨cs, hcs, hes⟩ := hcur.state
  obtain ⟨cm, hcm, hem⟩ := hcur.memory
  rw [lookup_state_pairStore, Option.some.injEq] at hcs
  rw [lookup_memory_pairStore, Option.some.injEq] at hcm
  subst hcs hcm
  exact ⟨hes.symm, hem.symm⟩

/-- A result that a hydrate has returned is not enough to freeze, whatever the tags are computed
by. -/
theorem not_enoughToFreeze {s : Backing Unit} (hs : HydratesTo M B t a s r)
    (tags : HydrationResult → ETag × ETag) : ¬ EnoughToFreeze M B t a tags r := by
  intro henough
  let i : FreezeInput :=
    { blankInput t a with
      stateEtag := (tags r).1
      memoryEtag := (tags r).2 }
  let w : Answer := answerWith "3"
  have hcalm : Calm 7 (List.replicate 7 w) := by decide
  have hfits : i.Fits := fits_blankInput t a
  -- One store has the tag `x` on its state record, and the other the tag `y`.
  have htag : ∀ x : ETag, (tags r).1 = x := by
    intro x
    obtain ⟨seq, hok⟩ := henough _ i (List.replicate 7 w) (hs.pairStore x (tags r).2) rfl rfl rfl
      hfits.increments hcalm
    exact (tags_of_freeze hcalm hok).1
  have hsame : (⟨"1"⟩ : ETag) = ⟨"2"⟩ := (htag ⟨"1"⟩).symm.trans (htag ⟨"2"⟩)
  exact absurd hsame (by decide)

/-- Only a result that no hydrate returns is enough to freeze. -/
theorem enoughToFreeze_iff (tags : HydrationResult → ETag × ETag) (r : HydrationResult) :
    EnoughToFreeze M B t a tags r ↔ ¬ ∃ s, HydratesTo M B t a s r := by
  constructor
  · intro henough hreturned
    obtain ⟨s, hs⟩ := hreturned
    exact not_enoughToFreeze hs tags henough
  · intro hno s i ws hs
    exact absurd ⟨s, hs⟩ hno

/-- No function computes the tags for the results of one agent. -/
theorem not_exists_tags :
    ¬ ∃ tags, ∀ r, EnoughToFreeze .new releaseBuild "acme" "writer" tags r := by
  intro htags
  obtain ⟨tags, henough⟩ := htags
  have hs : HydratesTo .new releaseBuild "acme" "writer"
      (blankStore () releaseBuild "acme" "writer")
      ⟨blankState "acme" "writer", blankMemory "acme" "writer", false⟩ := by
    refine ⟨[answerWith "2", answerWith "2", answerWith "2"], by decide, ?_⟩
    rw [(exec_hydrate rfl rfl rfl).2]
    have hstatus : AgentLifecycleStatus.frozen.toI32 ≠ AgentLifecycleStatus.active.toI32 := by
      decide
    exact hydrateOn_pairStore rfl hstatus
  exact not_enoughToFreeze hs tags (henough _)

end SwarmRuntime.State
