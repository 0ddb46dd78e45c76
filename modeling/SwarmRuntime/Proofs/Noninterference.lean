import SwarmRuntime.Lib.Projection
import SwarmRuntime.Proofs.Swarm

/-!
# `SwarmRuntime.Proofs.Noninterference`: what the clients of one agent see of the others

`freeze` and `hydrate` share one store with every other agent. A request is `About` some agents when
it names one of them, up to the `keyRoot` that its keys are built from. The calls of such a request
name keys of these agents only, and the calls of every other request name none of them
(`calls_key`). So the clients of the agents run as on a store that holds nothing but their records
(`run_sees_own`).

`noninterference` is the consequence for two runs. The runs may differ in everything that the other
clients do, and in the records of the other agents. As long as the clients of the agents move alike,
they read, write and return the same.
-/

set_option autoImplicit false

namespace SwarmRuntime.State

open SwarmRuntime.Lib SwarmRuntime.Lib.Interaction

/-! ### The keys of some agents -/

/-- The keys of the agents whose roots are in `roots`. -/
def keysOf (roots : Set String) : Set String :=
  {key | ∃ t a, keyRoot t a ∈ roots ∧
    (key = agentStateKey t a ∨ key = workingMemoryKey t a ∨ ∃ n, key = checkpointKey t a n)}

section
variable {roots : Set String} {t a : String}

theorem agentStateKey_mem_keysOf : agentStateKey t a ∈ keysOf roots ↔ keyRoot t a ∈ roots := by
  constructor
  · rintro ⟨t', a', hroot, hkey | hkey | ⟨n, hkey⟩⟩
    · rwa [(agentStateKey_eq_iff _ _ _ _).mp hkey]
    · exact absurd hkey (agentStateKey_ne_workingMemoryKey _ _ _ _)
    · exact absurd hkey.symm (checkpointKey_ne_agentStateKey _ _ _ _ _)
  · intro hroot
    exact ⟨t, a, hroot, .inl rfl⟩

theorem workingMemoryKey_mem_keysOf :
    workingMemoryKey t a ∈ keysOf roots ↔ keyRoot t a ∈ roots := by
  constructor
  · rintro ⟨t', a', hroot, hkey | hkey | ⟨n, hkey⟩⟩
    · exact absurd hkey.symm (agentStateKey_ne_workingMemoryKey _ _ _ _)
    · rwa [(workingMemoryKey_eq_iff _ _ _ _).mp hkey]
    · exact absurd hkey.symm (checkpointKey_ne_workingMemoryKey _ _ _ _ _)
  · intro hroot
    exact ⟨t, a, hroot, .inr (.inl rfl)⟩

theorem checkpointKey_mem_keysOf {n : UInt64} :
    checkpointKey t a n ∈ keysOf roots ↔ keyRoot t a ∈ roots := by
  constructor
  · rintro ⟨t', a', hroot, hkey | hkey | ⟨n', hkey⟩⟩
    · exact absurd hkey (checkpointKey_ne_agentStateKey _ _ _ _ _)
    · exact absurd hkey (checkpointKey_ne_workingMemoryKey _ _ _ _ _)
    · rwa [(checkpointKey_eq_iff.mp hkey).1]
  · intro hroot
    exact ⟨t, a, hroot, .inr (.inr ⟨n, rfl⟩)⟩

end

/-! ### Requests and calls about some agents -/

/-- The request names one of the agents, or one of their keys. -/
def Request.About (roots : Set String) : Request → Prop
  | .get key => key ∈ keysOf roots
  | .hydrate tenantId agentId => keyRoot tenantId agentId ∈ roots
  | .freeze input => keyRoot input.tenantId input.agentId ∈ roots

/-- The key that a call names. -/
def Call.key : Call → Option String
  | .get key => some key
  | .set key _ _ _ => some key
  | .now => none

section
variable {M : AgentHydrationManager} {B : Build} {roots : Set String} {key : String}

/-- A call of a hydrate names a key of its agent. -/
theorem hydrate_key {t a : String} {tr : Transcript Reply} {c : Call}
    {next : Reply c → Async (StateResult HydrationResult)}
    (h : Trace (M.hydrate B t a).run tr (ask c next)) (hkey : c.key = some key) :
    key ∈ keysOf roots ↔ keyRoot t a ∈ roots := by
  cases hydrate_stage h with
  | start =>
    cases hkey
    exact agentStateKey_mem_keysOf
  | guard => cases hkey
  | memory =>
    cases hkey
    exact workingMemoryKey_mem_keysOf

/-- A call of a freeze names a key of its agent. -/
theorem freeze_key {i : FreezeInput} {tr : Transcript Reply} {c : Call}
    {next : Reply c → Async (StateResult UInt64)}
    (h : Trace (freeze B i).run tr (ask c next)) (hkey : c.key = some key) :
    key ∈ keysOf roots ↔ keyRoot i.tenantId i.agentId ∈ roots := by
  cases freeze_stage h with
  | start => cases hkey
  | memory =>
    cases hkey
    exact workingMemoryKey_mem_keysOf
  | stamp => cases hkey
  | state =>
    cases hkey
    exact agentStateKey_mem_keysOf
  | seq => cases hkey
  | created => cases hkey
  | checkpoint =>
    cases hkey
    exact checkpointKey_mem_keysOf

/-- The key of a call is one of the agents exactly when the request is about them. -/
theorem calls_key {q : Request} {c : Call} (h : (service M B).Calls q c)
    (hkey : c.key = some key) : key ∈ keysOf roots ↔ q.About roots := by
  obtain ⟨tr, next, htrace⟩ := h
  cases q with
  | get key' =>
    have htrace : Trace (Response.record <$> (DaprStateStore.get key').run) tr (ask c next) :=
      htrace
    obtain ⟨q', hq', hmap⟩ := trace_map.mp htrace
    obtain ⟨next', rfl, -⟩ := map_eq_ask.mp hmap.symm
    -- The program of a read is one call.
    rcases trace_ask.mp hq' with ⟨-, hask⟩ | ⟨r, tr', -, hdone⟩
    · cases hask
      cases hkey
      exact Iff.rfl
    · cases (trace_done.mp hdone).2
  | hydrate t a =>
    have htrace : Trace (Response.hydrated <$> (M.hydrate B t a).run) tr (ask c next) := htrace
    obtain ⟨q', hq', hmap⟩ := trace_map.mp htrace
    obtain ⟨next', rfl, -⟩ := map_eq_ask.mp hmap.symm
    exact hydrate_key hq' hkey
  | freeze i =>
    have htrace : Trace (Response.frozen <$> (freeze B i).run) tr (ask c next) := htrace
    obtain ⟨q', hq', hmap⟩ := trace_map.mp htrace
    obtain ⟨next', rfl, -⟩ := map_eq_ask.mp hmap.symm
    exact freeze_key hq' hkey

/-! ### Calls on the smaller store -/

variable {A : Type} {author : A} {keys : Set String} {w : Answer} {s : Backing A}

/-- A call that names a key of `keys` is served from these keys. -/
theorem serve_restrict {c : Call} (h : ∀ key, c.key = some key → key ∈ keys) :
    serve author c w (s.restrict keys)
      = ((serve author c w s).1, (serve author c w s).2.restrict keys) := by
  cases c with
  | now => rfl
  | get key =>
    have hmem : key ∈ keys := h key rfl
    cases hf : w.fault with
    | some msg => simp only [serve, hf]
    | none => simp only [serve, hf, EtagStore.lookup_restrict_of_mem hmem]
  | set key value etag ttl =>
    have hmem : key ∈ keys := h key rfl
    have hacc : (s.restrict keys).accepts key etag = s.accepts key etag :=
      EtagStore.accepts_restrict_of_mem hmem etag
    obtain ⟨hf, hguard, hserve⟩ | ⟨hf, hguard, hserve⟩ | ⟨msg, hf, hserve⟩ :=
      serve_set_cases author key value etag ttl w s
    · rw [hserve, serve_set_of_accepts hf (hacc.trans hguard), EtagStore.restrict_put_of_mem hmem]
    · rw [hserve, serve_set_of_not_accepts hf (hacc.trans hguard)]
    · rw [hserve, serve_fault hf]

/-- A call that names no key of `keys` leaves these keys as they are. -/
theorem restrict_serve {c : Call} (h : ∀ key, c.key = some key → key ∉ keys) :
    (serve author c w s).2.restrict keys = s.restrict keys := by
  cases c with
  | now => rfl
  | get key => rw [serve_get_state]
  | set key value etag ttl =>
    obtain ⟨-, -, hserve⟩ | ⟨-, -, hserve⟩ | ⟨msg, -, hserve⟩ :=
      serve_set_cases author key value etag ttl w s
    · rw [hserve]
      exact EtagStore.restrict_put_of_not_mem (h key rfl) _ _ _ _
    · rw [hserve]
    · rw [hserve]

/-- The clients of the agents use the keys of the agents, and the other clients do not. -/
theorem projects_service (M : AgentHydrationManager) (B : Build) (roots : Set String) :
    Projects (service M B) (service M B) (Request.About roots)
      (EtagStore.restrict (keysOf roots)) where
  prog := rfl
  serve_own _ _ _ _ _ hown hcalls :=
    serve_restrict fun _ hkey => (calls_key hcalls hkey).mpr hown
  serve_foreign _ _ _ _ _ hown hcalls :=
    restrict_serve fun _ hkey hmem => hown ((calls_key hcalls hkey).mp hmem)
  env _ _ := rfl

end

namespace Swarm

variable {M : AgentHydrationManager} {B : Build} {P P' : Swarm} {s₀ s₁ : Backing Author}
  {ms ns : List SwarmMove} {roots : Set String} {ok ok' : Swarm → SwarmMove → Prop}

/-- The moves of a run that the clients of the agents make, and the passing of time. -/
noncomputable def ownMoves (M : AgentHydrationManager) (B : Build) (roots : Set String)
    (s₀ : Backing Author) (ms : List SwarmMove) : List SwarmMove :=
  kept (step M B) (Pool.Owns (Request.About roots)) (start s₀) ms

/-- The clients of the agents `roots`, on a store with the records of these agents. -/
noncomputable def seenBy (roots : Set String) (P : Swarm) : Swarm :=
  P.project (Request.About roots) (EtagStore.restrict (keysOf roots))

/-- A client that is seen is there, and it is about the agents. -/
theorem seenBy_procs {id : Nat} {p : Proc Reply Request Response} :
    (seenBy roots P).procs id = some p ↔ P.procs id = some p ∧ p.request.About roots := by
  constructor
  · exact Pool.of_procs_project
  · rintro ⟨hp, hown⟩
    exact Pool.procs_project_of_own hp hown

theorem traced_start (s : Backing Author) : (start s).Traced (service M B) := by
  intro id p hp
  cases hp

/-- A run, seen by the clients of some agents, is a run of these clients alone. -/
theorem run_sees_own (h : Run (step M B) ok (start s₀) ms P) :
    Run (step M B) (fun _ _ => True) (start (s₀.restrict (keysOf roots)))
      (ownMoves M B roots s₀ ms) (seenBy roots P) :=
  Pool.run_project (projects_service M B roots) (traced_start s₀) (fun _ _ _ _ => trivial) h

/-- What the clients of the agents read, write and return does not depend on the other clients, nor
on the records of the other agents. -/
theorem noninterference
    (hstart : s₀.restrict (keysOf roots) = s₁.restrict (keysOf roots))
    (hmoves : ownMoves M B roots s₀ ms = ownMoves M B roots s₁ ns)
    (h : Run (step M B) ok (start s₀) ms P) (h' : Run (step M B) ok' (start s₁) ns P') :
    P.shared.restrict (keysOf roots) = P'.shared.restrict (keysOf roots) ∧
      ∀ id p, p.request.About roots → (P.procs id = some p ↔ P'.procs id = some p) := by
  have hleft : Run (step M B) (fun _ _ => True) (start (s₀.restrict (keysOf roots)))
      (ownMoves M B roots s₀ ms) (seenBy roots P) := run_sees_own h
  have hright : Run (step M B) (fun _ _ => True) (start (s₁.restrict (keysOf roots)))
      (ownMoves M B roots s₁ ns) (seenBy roots P') := run_sees_own h'
  rw [hstart, hmoves] at hleft
  have hsame : seenBy roots P = seenBy roots P' := hleft.unique hright
  constructor
  · show (seenBy roots P).shared = (seenBy roots P').shared
    rw [hsame]
  · intro id p hown
    have hiff : P.procs id = some p ∧ p.request.About roots ↔
        P'.procs id = some p ∧ p.request.About roots := by
      rw [← seenBy_procs, ← seenBy_procs, hsame]
    rwa [and_iff_left hown, and_iff_left hown] at hiff

/-- The clients of `writer` of `acme`, one that reads the state record and one that writes the
memory record, do not see that another client looks for `reader`, nor the state record of
`reader`. -/
theorem noninterference_reader :
    let s₀ := blankStore none debugBuild "acme" "writer"
    let s₁ := s₀.put none (agentStateKey "acme" "reader") [] none ⟨"1"⟩
    let own : Set String := {keyRoot "acme" "writer"}
    ∃ ms ns P P', ms ≠ ns ∧ s₀ ≠ s₁ ∧
      Run (step .new debugBuild) (fun _ _ => True) (start s₀) ms P ∧
      Run (step .new debugBuild) (fun _ _ => True) (start s₁) ns P' ∧
      (∃ p r, P.procs 0 = some p ∧
        p.transcript = [⟨.get (agentStateKey "acme" "writer"), .ok (some r)⟩]) ∧
      (∃ x ∈ P.shared.history (workingMemoryKey "acme" "writer"), x.author = some 1) ∧
      P.shared.restrict (keysOf own) = P'.shared.restrict (keysOf own) ∧
      ∀ id p, p.request.About own → (P.procs id = some p ↔ P'.procs id = some p) := by
  intro s₀ s₁ own
  have hother : keyRoot "acme" "reader" ∉ own := by
    rw [Set.mem_singleton_iff]
    decide
  have hstore : s₀.restrict (keysOf own) = s₁.restrict (keysOf own) := by
    rw [EtagStore.restrict_put_of_not_mem]
    rwa [agentStateKey_mem_keysOf]
  have hne : s₀ ≠ s₁ := fun heq => by
    have hlength : s₀.journal.length = s₁.journal.length := congrArg (·.journal.length) heq
    rw [EtagStore.journal_put, List.length_cons] at hlength
    omega
  -- Client 0 reads and client 1 writes in both runs; client 2 reads `reader` in the first only.
  let a₁ : SwarmMove := .start 0 (.hydrate "acme" "writer")
  let a₂ : SwarmMove := .serve 0 (answerWith "2")
  let a₃ : SwarmMove := .start 1 (.freeze (blankInput "acme" "writer"))
  let a₄ : SwarmMove := .serve 1 (answerWith "3")
  let a₅ : SwarmMove := .serve 1 (answerWith "4")
  let f₁ : SwarmMove := .start 2 (.hydrate "acme" "reader")
  let f₂ : SwarmMove := .serve 2 (answerWith "5")
  let go (P : Swarm) (m : SwarmMove) : Swarm := (step .new debugBuild P m).getD P
  let P₁ := go (start s₀) a₁
  let P₂ := go P₁ f₁
  let P₃ := go P₂ a₂
  let P₄ := go P₃ f₂
  let P₅ := go P₄ a₃
  let P₆ := go P₅ a₄
  let P₇ := go P₆ a₅
  let Q₁ := go (start s₁) a₁
  let Q₂ := go Q₁ a₂
  let Q₃ := go Q₂ a₃
  let Q₄ := go Q₃ a₄
  let Q₅ := go Q₄ a₅
  have h₁ : step .new debugBuild (start s₀) a₁ = some P₁ := rfl
  have h₂ : step .new debugBuild P₁ f₁ = some P₂ := rfl
  have h₃ : step .new debugBuild P₂ a₂ = some P₃ := rfl
  have h₄ : step .new debugBuild P₃ f₂ = some P₄ := rfl
  have h₅ : step .new debugBuild P₄ a₃ = some P₅ := rfl
  have h₆ : step .new debugBuild P₅ a₄ = some P₆ := rfl
  have h₇ : step .new debugBuild P₆ a₅ = some P₇ := rfl
  have hrun : Run (step .new debugBuild) (fun _ _ => True) (start s₀) [a₁, f₁, a₂, f₂, a₃, a₄, a₅]
      P₇ :=
    .snoc (.snoc (.snoc (.snoc (.snoc (.snoc (.snoc .nil trivial h₁) trivial h₂) trivial h₃) trivial
      h₄) trivial h₅) trivial h₆) trivial h₇
  have g₁ : step .new debugBuild (start s₁) a₁ = some Q₁ := rfl
  have g₂ : step .new debugBuild Q₁ a₂ = some Q₂ := rfl
  have g₃ : step .new debugBuild Q₂ a₃ = some Q₃ := rfl
  have g₄ : step .new debugBuild Q₃ a₄ = some Q₄ := rfl
  have g₅ : step .new debugBuild Q₄ a₅ = some Q₅ := rfl
  have hrun' : Run (step .new debugBuild) (fun _ _ => True) (start s₁) [a₁, a₂, a₃, a₄, a₅] Q₅ :=
    .snoc (.snoc (.snoc (.snoc (.snoc .nil trivial g₁) trivial g₂) trivial g₃) trivial g₄) trivial
      g₅
  -- The moves of clients 0 and 1 are own ones, those of client 2 are not.
  have hstart : ∀ P : Swarm, P.Owns (Request.About own) a₁ ∧ P.Owns (Request.About own) a₃ ∧
      ¬ P.Owns (Request.About own) f₁ := fun P => ⟨rfl, rfl, hother⟩
  have hforeign : ¬ P₃.Owns (Request.About own) f₂ := by
    intro howns
    obtain ⟨p, hp, hown⟩ := howns
    cases hp
    exact hother hown
  have hkept : ownMoves .new debugBuild own s₀ [a₁, f₁, a₂, f₂, a₃, a₄, a₅]
      = [a₁, a₂, a₃, a₄, a₅] := by
    rw [ownMoves, kept_cons_of_step _ h₁, if_pos (hstart _).1, kept_cons_of_step _ h₂,
      if_neg (hstart _).2.2, kept_cons_of_step _ h₃, if_pos ⟨_, rfl, rfl⟩, kept_cons_of_step _ h₄,
      if_neg hforeign, kept_cons_of_step _ h₅, if_pos (hstart _).2.1, kept_cons_of_step _ h₆,
      if_pos ⟨_, rfl, rfl⟩, kept_cons_of_step _ h₇, if_pos ⟨_, rfl, rfl⟩, kept]
    rfl
  have hkept' : ownMoves .new debugBuild own s₁ [a₁, a₂, a₃, a₄, a₅] = [a₁, a₂, a₃, a₄, a₅] := by
    rw [ownMoves, kept_cons_of_step _ g₁, if_pos (hstart _).1, kept_cons_of_step _ g₂,
      if_pos ⟨_, rfl, rfl⟩, kept_cons_of_step _ g₃, if_pos (hstart _).2.1, kept_cons_of_step _ g₄,
      if_pos ⟨_, rfl, rfl⟩, kept_cons_of_step _ g₅, if_pos ⟨_, rfl, rfl⟩, kept]
    rfl
  obtain ⟨hshared, hprocs⟩ := noninterference hstore (hkept.trans hkept'.symm) hrun hrun'
  refine ⟨_, _, P₇, Q₅, by simp, hne, hrun, hrun', ?_, ?_, hshared, hprocs⟩
  · exact ⟨_, _, rfl, rfl⟩
  · exact ⟨_, List.mem_cons_self, rfl⟩

end Swarm

end SwarmRuntime.State
