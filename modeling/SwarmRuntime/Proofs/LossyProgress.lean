import SwarmRuntime.Proofs.LostReplies

/-!
# `SwarmRuntime.Proofs.LossyProgress`: an agent between lost replies

When can an agent still be used, if clients can lose the replies to their writes? The store alone
says it. The journal names the clients that have written the memory of the agent and not its state,
and the agent is lost exactly when one of them makes no call any more (`lossy_usable_iff`). What
that client has been told does not matter.

The run with losses is matched by a run without. An agent that can be used in one of them can be
used in the other: a continuation of the run with losses is matched as well (`usable_of_alike`), and
one of the run without can be made in the run with losses, where no further reply has to be lost
(`lossyUsable_of_alike`).
-/

set_option autoImplicit false

namespace SwarmRuntime.State

open SwarmRuntime.Lib SwarmRuntime.Lib.Interaction

namespace Swarm

variable {M : AgentHydrationManager} {B : Build} {t a : String} {P P' : Swarm} {id : Nat}
  {s₀ : Backing Author} {ms : List LossyMove} {state₀ : AgentStateRecord}
  {mem₀ : WorkingMemoryRecord}

/-- A new client can hydrate the agent: in some continuation of the run it returns a result. -/
def LossyUsable (M : AgentHydrationManager) (B : Build) (t a : String) (P : Swarm) : Prop :=
  ∃ ms P' id p r, Run (lossyStep M B) (Admits (FreezesHydrated t a)) P ms P' ∧
    P.procs id = none ∧ P'.procs id = some p ∧ p.request = .hydrate t a ∧
    p.rest = done (.hydrated (.ok r))

/-! ### From one run to the other -/

/-- The clients freeze what they have hydrated in the run without losses too. -/
theorem Alike.freezesHydrated (h : Alike M B P P') {m : SwarmMove}
    (hok : FreezesHydrated t a P' m) : FreezesHydrated t a P m where
  toFreezesInputs := h.freezesInputs hok.toFreezesInputs
  noExpiry := by
    rw [Matches.shared h]
    exact hok.noExpiry

/-- A client that waits for a call has lost no reply, so tags that are fresh without the losses
are fresh with them. -/
theorem Alike.freshTags_right (h : Alike M B P P') {m : SwarmMove} (hfresh : FreshTags P m) :
    FreshTags P' m := by
  intro id w key value etag ttl hm hpending
  rw [← Matches.shared h]
  refine hfresh id w key value etag ttl hm ?_
  rcases h.procs id with hsame | ⟨p, p', i, -, hp', hloses⟩
  · unfold pending at hpending ⊢
    rw [hsame, hpending]
  · unfold pending at hpending
    rw [hp'] at hpending
    cases hloses with
    | memory => simp at hpending
    | state => simp at hpending
    | checkpoint => simp at hpending

/-- What is admitted in the run without losses is admitted in the run with losses. -/
theorem Alike.freezesHydrated_right (h : Alike M B P P') {m : SwarmMove}
    (hok : FreezesHydrated t a P m) : FreezesHydrated t a P' m where
  fresh := h.freshTags_right hok.fresh
  inputs := by
    intro id i hm hroot
    obtain ⟨r, hfrom⟩ := hok.inputs id i hm hroot
    exact ⟨r, h.afterHydrate.mp hfrom⟩
  noExpiry := by
    rw [← Matches.shared h]
    exact hok.noExpiry

/-- No reply has to be lost. -/
theorem spares_service (M : AgentHydrationManager) (B : Build) :
    Spares (service M B) (lossyService M B) LossyAnswer.answer :=
  fun _ w => ⟨⟨w, none⟩, rfl, fun c _ => serveLossy_of_none c rfl⟩

/-- A client that is gone in the run without losses, where it was between its two writes, is gone
in the run with losses: it has crashed, or it has lost a reply. -/
theorem Alike.stopped_right (h : Alike M B P P') (hstopped : P.Stopped id) : P'.Stopped id := by
  obtain ⟨p, hp, hno⟩ := hstopped
  rcases h.procs id with hsame | ⟨p₁, p₁', i, -, hp₁', hloses⟩
  · exact ⟨p, hsame.symm.trans hp, hno⟩
  · exact ⟨p₁', hp₁', .inr hloses.ended⟩

/-- The new client returns the same result with the losses. -/
theorem lossyUsable_of_alike (h : Alike M B P P') (husable : Usable M B t a P) :
    LossyUsable M B t a P' := by
  obtain ⟨ns, P₁, id, p, r, hrun, hnew, hp, hq, hdone⟩ := husable
  obtain ⟨ms, P₁', hrun', hP₁⟩ :
      ∃ ms P₁', Run (lossyStep M B) (Admits (FreezesHydrated t a)) P' ms P₁' ∧
        Alike M B P₁ P₁' :=
    Pool.run_spares (loses_service M B) (spares_service M B)
      (fun P P' m hP hok => Alike.freezesHydrated_right hP hok) h hrun
  exact ⟨ms, P₁', id, p, r, hrun', (Matches.none_iff h).mp hnew,
    (hP₁.eq_of_hydrate (.inl hp) hq).2, hq, hdone⟩

/-- So does a new client of the run with losses, without them. -/
theorem usable_of_alike (h : Alike M B P P') (htraced : P'.Traced (lossyService M B))
    (husable : LossyUsable M B t a P') : Usable M B t a P := by
  obtain ⟨ms, P₁', id, p, r, hrun, hnew, hp, hq, hdone⟩ := husable
  obtain ⟨ns, P₁, -, hrun', hP₁⟩ := run_lossless_of_alike freezesHydrated_crash
    (fun _ _ _ hP hok => hP.freezesHydrated hok) h htraced hrun
  exact ⟨ns, P₁, id, p, r, hrun', (Matches.none_iff h).mpr hnew,
    (hP₁.eq_of_hydrate (.inr hp) hq).1, hq, hdone⟩

/-! ### The agents that can still be used -/

/-- An agent that starts FROZEN can be used, at any moment of any run with lost replies, exactly as
long as no client is gone that has written its memory and not its state. -/
theorem lossy_usable_iff (hinit : StartsWith B t a s₀ state₀ mem₀)
    (hlive : HoldsPair B t a s₀ state₀ mem₀)
    (hfrozen : state₀.status = AgentLifecycleStatus.frozen.toI32)
    (h : Run (lossyStep M B) (Admits (FreezesHydrated t a)) (start s₀) ms P')
    (hshort : B.overflowChecks = false → ms.length < 2 ^ 63) :
    LossyUsable M B t a P' ↔ ∀ id,
      (∃ x ∈ P'.shared.history (workingMemoryKey t a), x.author = some id) →
      (∀ x ∈ P'.shared.history (agentStateKey t a), x.author ≠ some id) → ¬ P'.Stopped id := by
  obtain ⟨ns, P, hlen, hrun, hP⟩ := run_lossless_of_alike freezesHydrated_crash
    (fun _ _ _ hP hok => hP.freezesHydrated hok) (.refl _) (start_traced s₀) h
  have hdistinct : DistinctVersions B t a P.shared := by
    refine distinct_of_short hinit (run_freezesInputs hrun) fun hno => ?_
    have hms := hshort hno
    omega
  constructor
  · intro husable id hmemory hstate hgone
    have hhalf : HalfWritten t a P id := by
      rw [halfWritten_iff hinit hrun, Matches.shared hP]
      exact ⟨hmemory, hstate⟩
    exact not_usable_of_gone hinit hrun hhalf (Matches.stopped hP hgone) hdistinct
      (usable_of_alike hP (Pool.run_traced (start_traced s₀) h) husable)
  · intro halive
    refine lossyUsable_of_alike hP (usable_of_alive hinit hlive hfrozen hrun hdistinct ?_)
    intro id hhalf hgone
    obtain ⟨hmemory, hstate⟩ := (halfWritten_iff hinit hrun).mp hhalf
    rw [Matches.shared hP] at hmemory hstate
    exact halive id hmemory hstate (hP.stopped_right hgone)

/-- After client 1 has lost the reply to its memory write, the agent cannot be used. -/
theorem lossy_usable_iff_memory :
    ∃ (ms : List LossyMove) (P : Swarm),
      Run (lossyStep .new debugBuild) (Admits (FreezesHydrated "acme" "writer"))
        (start (blankStore none debugBuild "acme" "writer")) ms P ∧
      LosesWrite (workingMemoryKey "acme" "writer") P 1 (blankInput "acme" "writer")
        "deadline exceeded" ∧
      ¬ LossyUsable .new debugBuild "acme" "writer" P := by
  obtain ⟨ms, P, c, e, hrun, hloses, hstate, -⟩ :=
    run_loses_memory .new debugBuild "acme" "writer" "deadline exceeded"
  refine ⟨ms, P, hrun, hloses, fun husable => ?_⟩
  exact (lossy_usable_iff (startsWith_pairStore rfl) holdsPair_pairStore rfl hrun
    fun hno => by cases hno).mp husable 1 hloses.applied hstate hloses.stopped

end Swarm

end SwarmRuntime.State
