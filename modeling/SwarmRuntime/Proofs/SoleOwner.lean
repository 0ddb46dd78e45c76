import SwarmRuntime.Proofs.Alone
import SwarmRuntime.State.Codec
import SwarmRuntime.State.Owner

/-!
# `SwarmRuntime.Proofs.SoleOwner`: one client, and the lifetime of the memory record

An owner hydrates and freezes its agent in turn, no call fails, and time passes between the
moves. `freeze` gives the memory record a lifetime of 86400 seconds and the state record none,
and the recovery that would replace a lost memory record is not implemented. So the owner goes on
exactly as long as each of its moves comes while the last memory record lives
(`smooth_iff_timely`). An operation takes no time here: all of it passes between the operations.
Late answers within one hydrate are the subject of `RecoveringOwner.serveLate`.

The invariant is `StoredFor`: what the last freeze left, and the age of its memory record.
-/

set_option autoImplicit false

namespace SwarmRuntime.State

open SwarmRuntime.Lib SwarmRuntime.Lib.Interaction

/-- The pair that a freeze writes, with the clock readings of its first and third call. -/
def FreezeInput.frozenPair (B : Build) (i : FreezeInput) (ws : List Answer) : HydrationResult :=
  let c₁ := (ws.getD 0 default).clock
  let c₂ := (ws.getD 2 default).clock
  ⟨i.frozenState B c₁ c₂, i.frozenMemory B c₁, false⟩

namespace Owner

variable {M : AgentHydrationManager} {B : Build} {t a : String}

/-- The moves of the owner take turns: hydrate, freeze, hydrate, and so on, with any time in
between, no crash and no failing call. `held` says whether a freeze is next. -/
def Alternating : Bool → List OwnerMove → Prop
  | _, [] => True
  | held, .wait _ :: ms => Alternating held ms
  | false, .hydrate ws :: ms => Calm 3 ws ∧ Alternating true ms
  | true, .freeze _ ws :: ms => Calm 7 ws ∧ Alternating false ms
  | true, .hydrate _ :: _ => False
  | false, .freeze _ _ :: _ => False

/-- Every hydrate of the run returns the pair that was frozen last, and every freeze returns
`Ok`. -/
def Smooth (M : AgentHydrationManager) (B : Build) (t a : String) :
    Owner → HydrationResult → List OwnerMove → Prop
  | _, _, [] => True
  | o, last, .wait n :: ms => Smooth M B t a (o.step M B t a (.wait n)) last ms
  | o, last, .hydrate ws :: ms =>
      (o.hydrateOutcome M B t a ws).ending = .returned (.ok last) ∧
        Smooth M B t a (o.step M B t a (.hydrate ws)) last ms
  | o, _, .freeze edit ws :: ms =>
      ∃ h, o.held = some h ∧
        (∃ seq, (o.freezeOutcome B t a h edit ws).ending = .returned (.ok seq)) ∧
        Smooth M B t a (o.step M B t a (.freeze edit ws)) ((h.input t a edit).frozenPair B ws) ms

/-- Each move comes less than 86400 seconds after the last freeze, `age` seconds ago at the
start, and no freeze overflows its version. -/
def Timely (B : Build) : Nat → List OwnerMove → Prop
  | _, [] => True
  | age, .wait n :: ms => Timely B (age + n) ms
  | age, .hydrate _ :: ms => age < 86400 ∧ Timely B age ms
  | age, .freeze edit _ :: ms =>
      age < 86400 ∧
        (B.overflowChecks = true → edit.workingMemory.version.toNat + 1 < 2 ^ 64) ∧
        Timely B 0 ms

/-- A freeze of the agent has just left the store `s`, with the pair `last`. -/
def JustFrozen (B : Build) (t a : String) (s : Backing Unit) (last : HydrationResult) : Prop :=
  ∃ i s₀ ws seq, i.tenantId = t ∧ i.agentId = a ∧ Calm 7 ws ∧
    (exec (serve ()) (freeze B i).run ws s₀).ending = .returned (.ok seq) ∧
    (exec (serve ()) (freeze B i).run ws s₀).state = s ∧ i.frozenPair B ws = last

/-- The store holds the pair `last` as a freeze wrote it, `age` seconds ago, under the tags `es`
and `em`. -/
structure StoredFor (B : Build) (t a : String) (s : Backing Unit) (age : Nat)
    (last : HydrationResult) (es em : ETag) : Prop where
  state : ∃ v, s.lookup (agentStateKey t a) = some ⟨v, es, none⟩ ∧ B.state.decode v = .ok last.state
  memory : ∃ v expires, s.cells (workingMemoryKey t a) = some ⟨v, em, some expires⟩ ∧
    B.memory.decode v = .ok last.workingMemory ∧ s.time + 86400 = expires + age
  versions : last.workingMemory.version = last.state.workingMemoryVersion
  frozen : last.state.status = AgentLifecycleStatus.frozen.toI32
  recovered : last.recoveredFromCheckpoint = false

section
variable {s : Backing Unit} {age : Nat} {last : HydrationResult} {es em : ETag}

/-- The record ages, and nothing else happens. -/
theorem StoredFor.tick (h : StoredFor B t a s age last es em) (n : Nat) :
    StoredFor B t a (s.tick n) (age + n) last es em := by
  obtain ⟨vs, hs, hdecs⟩ := h.state
  obtain ⟨vm, expires, hm, hdecm, hage⟩ := h.memory
  refine ⟨⟨vs, EtagStore.lookup_tick_of_none n hs rfl, hdecs⟩, ⟨vm, expires, hm, hdecm, ?_⟩,
    h.versions, h.frozen, h.recovered⟩
  rw [EtagStore.time_tick]
  omega

/-- The memory record is read while it is younger than its lifetime. -/
theorem StoredFor.lookup_memory (h : StoredFor B t a s age last es em) :
    (∃ c, s.lookup (workingMemoryKey t a) = some c) ↔ age < 86400 := by
  obtain ⟨vm, expires, hm, -, hage⟩ := h.memory
  constructor
  · intro hc
    obtain ⟨c, hc⟩ := hc
    obtain ⟨hcell, hlive⟩ := EtagStore.lookup_eq_some.mp hc
    rw [hm, Option.some.injEq] at hcell
    subst hcell
    have hlt : s.time < expires := Cell.live_iff.mp hlive expires rfl
    omega
  · intro hyoung
    refine ⟨_, EtagStore.lookup_eq_some.mpr ⟨hm, Cell.live_iff.mpr ?_⟩⟩
    intro n hn
    rw [Option.some.injEq] at hn
    omega

/-- A hydrate returns the pair exactly while the memory record lives. -/
theorem StoredFor.hydrateOn_iff (h : StoredFor B t a s age last es em)
    {clock : Option Duration} :
    hydrateOn M B t a s clock = .returned (.ok last) ↔ age < 86400 := by
  rw [← h.lookup_memory, hydrateOn_eq_ok]
  constructor
  · intro hok
    obtain ⟨-, cm, -, -, -, hm, -⟩ := hok
    exact ⟨cm, hm⟩
  · intro hread
    obtain ⟨c, hc⟩ := hread
    obtain ⟨vs, hs, hdecs⟩ := h.state
    obtain ⟨vm, expires, hm, hdecm, -⟩ := h.memory
    have hcell : s.cells (workingMemoryKey t a) = some c := (EtagStore.lookup_eq_some.mp hc).1
    rw [hm, Option.some.injEq] at hcell
    subst hcell
    refine ⟨_, _, hs, hdecs, ?_, hc, hdecm, h.versions, h.recovered⟩
    -- The frozen status passes the guard.
    intro hguard
    rw [h.frozen] at hguard
    exact absurd hguard.1 (by decide)

/-- The tags of the pair are current exactly while the memory record lives. -/
theorem StoredFor.current_iff (h : StoredFor B t a s age last es em) {held : Held}
    (hes : held.stateEtag = es) (hem : held.memoryEtag = em) (edit : Edit) :
    (held.input t a edit).Current s ↔ age < 86400 := by
  rw [← h.lookup_memory]
  constructor
  · intro hcur
    obtain ⟨c, hc, -⟩ := hcur.memory
    exact ⟨c, hc⟩
  · intro hread
    obtain ⟨c, hc⟩ := hread
    obtain ⟨vs, hs, -⟩ := h.state
    obtain ⟨vm, expires, hm, -⟩ := h.memory
    have hcell : s.cells (workingMemoryKey t a) = some c := (EtagStore.lookup_eq_some.mp hc).1
    rw [hm, Option.some.injEq] at hcell
    subst hcell
    exact ⟨⟨_, hs, hes.symm⟩, ⟨_, hc, hem.symm⟩⟩

/-- A freeze without a failing call leaves its own pair, new. -/
theorem storedFor_freeze {i : FreezeInput} {ws : List Answer} {s₀ : Backing Unit}
    (hinc : i.Increments B) (hcur : i.Current s₀) (hws : Calm 7 ws) :
    ∃ es em, StoredFor B i.tenantId i.agentId (exec (serve ()) (freeze B i).run ws s₀).state 0
      (i.frozenPair B ws) es em := by
  obtain ⟨w₁, w₂, w₃, w₄, w₅, w₆, w₇, rest, rfl, hstate⟩ := exec_freeze_state hinc hcur hws
  refine ⟨w₄.etag, w₂.etag, ⟨_, ?_, B.state.decode_encodeToVec _⟩, ⟨_, s₀.time + 86400, ?_,
    B.memory.decode_encodeToVec _, ?_⟩, rfl, rfl, rfl⟩
  · show (exec (serve ()) (freeze B i).run _ s₀).state.lookup (agentStateKey _ _) = _
    rw [hstate]
    exact i.lookup_state_withCheckpoint B () s₀ _ _ _ _ _ _ _
  · show (exec (serve ()) (freeze B i).run _ s₀).state.cells (workingMemoryKey _ _) = _
    rw [hstate]
    have hlookup := i.lookup_memory_withCheckpoint B () s₀ w₁.clock w₃.clock w₅.clock w₆.clock
      w₂.etag w₄.etag w₇.etag
    exact (EtagStore.lookup_eq_some.mp hlookup).1
  · show (exec (serve ()) (freeze B i).run _ s₀).state.time + 86400 = s₀.time + 86400 + 0
    rw [hstate, FreezeInput.time_withCheckpoint, Nat.add_zero]

theorem JustFrozen.storedFor (h : JustFrozen B t a s last) :
    ∃ es em, StoredFor B t a s 0 last es em := by
  obtain ⟨i, s₀, ws, seq, rfl, rfl, hws, hok, rfl, rfl⟩ := h
  -- A freeze that returned `Ok` had current tags.
  obtain ⟨hinc, hcur⟩ := (exec_freeze_ok_iff hws).mp ⟨seq, hok⟩
  exact storedFor_freeze hinc hcur hws

end

/-! ### The run -/

/-- A hydrate without a failing call returns the stored pair exactly while it lives. -/
theorem StoredFor.hydrate_iff {o : Owner} {age : Nat} {last : HydrationResult} {es em : ETag}
    (h : StoredFor B t a o.store age last es em) {ws : List Answer} (hws : Calm 3 ws) :
    (o.hydrateOutcome M B t a ws).ending = .returned (.ok last) ↔ age < 86400 := by
  obtain ⟨w₁, w₂, w₃, ws, rfl, h₁, h₂, h₃⟩ := hws.exists_three
  unfold hydrateOutcome
  rw [(exec_hydrate h₁ h₂ h₃).2]
  exact h.hydrateOn_iff

/-- After such a hydrate the store is the same, and the client holds the tags of the pair. -/
theorem StoredFor.step_hydrate {o : Owner} {age : Nat} {last : HydrationResult} {es em : ETag}
    (h : StoredFor B t a o.store age last es em) {ws : List Answer} (hws : Calm 3 ws)
    (hyoung : age < 86400) : o.step M B t a (.hydrate ws) = ⟨o.store, some ⟨last, es, em⟩⟩ := by
  have hending : (o.hydrateOutcome M B t a ws).ending = .returned (.ok last) :=
    (h.hydrate_iff hws).mpr hyoung
  -- A hydrate leaves the store, and the client takes the tags that are in it.
  have hstate : (o.hydrateOutcome M B t a ws).state = o.store := by
    obtain ⟨w₁, w₂, w₃, ws, rfl, h₁, h₂, h₃⟩ := hws.exists_three
    exact (exec_hydrate h₁ h₂ h₃).1
  obtain ⟨vs, hs, -⟩ := h.state
  obtain ⟨c, hc⟩ := h.lookup_memory.mpr hyoung
  obtain ⟨vm, expires, hm, -⟩ := h.memory
  have hcell : o.store.cells (workingMemoryKey t a) = some c := (EtagStore.lookup_eq_some.mp hc).1
  rw [hm, Option.some.injEq] at hcell
  subst hcell
  simp only [step, heldAfter, hstate, hending, hs, hc]

/-- A freeze without a failing call returns `Ok` exactly while the pair lives and the version can
be incremented. -/
theorem StoredFor.freeze_iff {o : Owner} {age : Nat} {last : HydrationResult} {es em : ETag}
    (h : StoredFor B t a o.store age last es em) {ws : List Answer} (hws : Calm 7 ws)
    (edit : Edit) :
    (∃ seq, (o.freezeOutcome B t a ⟨last, es, em⟩ edit ws).ending = .returned (.ok seq)) ↔
      (Held.input ⟨last, es, em⟩ t a edit).Increments B ∧ age < 86400 := by
  unfold freezeOutcome
  rw [exec_freeze_ok_iff hws, h.current_iff rfl rfl edit]

/-- After such a freeze the store holds the new pair. -/
theorem StoredFor.step_freeze {o : Owner} {age : Nat} {last : HydrationResult} {es em : ETag}
    (h : StoredFor B t a o.store age last es em) {ws : List Answer} (hws : Calm 7 ws)
    (edit : Edit) (hinc : (Held.input ⟨last, es, em⟩ t a edit).Increments B)
    (hyoung : age < 86400) :
    ∃ es' em', StoredFor B t a (o.freezeOutcome B t a ⟨last, es, em⟩ edit ws).state 0
      ((Held.input ⟨last, es, em⟩ t a edit).frozenPair B ws) es' em' :=
  storedFor_freeze hinc ((h.current_iff rfl rfl edit).mpr hyoung) hws

/-- The run lemma, with the client before a hydrate or before a freeze. -/
theorem smooth_iff {ms : List OwnerMove} {o : Owner} {age : Nat} {last : HydrationResult}
    {es em : ETag} (h : StoredFor B t a o.store age last es em) {held : Bool}
    (hheld : held = true → o.held = some ⟨last, es, em⟩) (hms : Alternating held ms) :
    Smooth M B t a o last ms ↔ Timely B age ms := by
  induction ms generalizing o age last es em held with
  | nil => exact Iff.rfl
  | cons m ms ih =>
    cases m with
    | wait n =>
      have hms : Alternating held ms := by cases held <;> exact hms
      exact ih (h.tick n) hheld hms
    | hydrate ws =>
      cases held with
      | true => exact absurd hms id
      | false =>
        obtain ⟨hws, hms⟩ : Calm 3 ws ∧ Alternating true ms := hms
        show _ ∧ _ ↔ _ ∧ _
        rw [h.hydrate_iff hws]
        -- Both sides ask the same of this hydrate. The rest of the run starts from the same pair.
        refine and_congr_right fun hyoung => ?_
        rw [h.step_hydrate hws hyoung]
        let o' : Owner := ⟨o.store, some ⟨last, es, em⟩⟩
        have hnext : StoredFor B t a o'.store age last es em := h
        exact ih hnext (fun _ => rfl) hms
    | freeze edit ws =>
      cases held with
      | false => exact absurd hms id
      | true =>
        obtain ⟨hws, hms⟩ : Calm 7 ws ∧ Alternating false ms := hms
        have ho : o.held = some ⟨last, es, em⟩ := hheld rfl
        have hfreeze := h.freeze_iff hws edit
        have hnext : o.step M B t a (.freeze edit ws)
            = ⟨(o.freezeOutcome B t a ⟨last, es, em⟩ edit ws).state, none⟩ := by
          simp only [step, ho]
        constructor
        · intro hsmooth
          -- After the freeze its own pair is stored, at age 0.
          obtain ⟨held, hheld, hok, hrest⟩ := hsmooth
          rw [ho, Option.some.injEq] at hheld
          subst hheld
          obtain ⟨hinc, hyoung⟩ := hfreeze.mp hok
          obtain ⟨es', em', hstored⟩ := h.step_freeze hws edit hinc hyoung
          refine ⟨hyoung, hinc, ?_⟩
          rw [hnext] at hrest
          exact (ih hstored (fun hheld => by cases hheld) hms).mp hrest
        · intro htimely
          obtain ⟨hyoung, hinc, hrest⟩ := htimely
          obtain ⟨es', em', hstored⟩ := h.step_freeze hws edit hinc hyoung
          refine ⟨_, ho, hfreeze.mpr ⟨hinc, hyoung⟩, ?_⟩
          rw [hnext]
          exact (ih hstored (fun hheld => by cases hheld) hms).mpr hrest

/-- From a pair that a freeze has just written, an owner goes on smoothly exactly when it is
timely. The delays are those between the operations: an operation takes no time in this model,
so the calls of one hydrate or freeze find the same records alive. -/
theorem smooth_iff_timely {o : Owner} {last : HydrationResult} {ms : List OwnerMove}
    (hstart : JustFrozen B t a o.store last) (hms : Alternating false ms) :
    Smooth M B t a o last ms ↔ Timely B 0 ms := by
  obtain ⟨es, em, hstored⟩ := hstart.storedFor
  exact smooth_iff hstored (fun hheld => by cases hheld) hms

/-- The blank records, just frozen. -/
theorem justFrozen_frozenStore :
    JustFrozen B t a (frozenStore () () B t a) ((blankInput t a).frozenPair B blankAnswers) :=
  ⟨blankInput t a, blankStore () B t a, blankAnswers, 1700000000, rfl, rfl, by decide,
    exec_freeze_blank.1, exec_freeze_blank.2, rfl⟩

/-- An owner that hydrates and freezes an hour after the last freeze. -/
theorem smooth_hour :
    Smooth .new releaseBuild "acme" "writer" ⟨frozenStore () () releaseBuild "acme" "writer", none⟩
      ((blankInput "acme" "writer").frozenPair releaseBuild blankAnswers)
      [.wait 3600, .hydrate blankAnswers,
        .freeze ⟨blankState "acme" "writer", blankMemory "acme" "writer", .freeze⟩
          blankAnswers] := by
  have halternating : Alternating false [.wait 3600, .hydrate blankAnswers,
      .freeze ⟨blankState "acme" "writer", blankMemory "acme" "writer", .freeze⟩ blankAnswers] :=
    ⟨by decide, by decide, trivial⟩
  have htimely : Timely releaseBuild 0 [.wait 3600, .hydrate blankAnswers,
      .freeze ⟨blankState "acme" "writer", blankMemory "acme" "writer", .freeze⟩ blankAnswers] :=
    ⟨by decide, by decide, by decide, trivial⟩
  exact (smooth_iff_timely justFrozen_frozenStore halternating).mpr htimely

/-- An owner that comes back a day after the last freeze does not get its records. -/
theorem not_smooth_day :
    ∃ last ms, JustFrozen releaseBuild "acme" "writer"
        (frozenStore () () releaseBuild "acme" "writer") last ∧ Alternating false ms ∧
      ¬ Smooth .new releaseBuild "acme" "writer"
        ⟨frozenStore () () releaseBuild "acme" "writer", none⟩ last ms := by
  refine ⟨_, [.wait 86400, .hydrate blankAnswers], justFrozen_frozenStore,
    ⟨by decide, trivial⟩, ?_⟩
  intro hsmooth
  obtain ⟨hok, -⟩ := hsmooth
  have hjust : JustFrozen releaseBuild "acme" "writer"
      (frozenStore () () releaseBuild "acme" "writer") _ := justFrozen_frozenStore
  obtain ⟨es, em, hstored⟩ := hjust.storedFor
  let o : Owner := ⟨(frozenStore () () releaseBuild "acme" "writer").tick 86400, none⟩
  have hlater : StoredFor releaseBuild "acme" "writer" o.store (0 + 86400) _ es em :=
    hstored.tick 86400
  have hcalm : Calm 3 blankAnswers := by decide
  exact absurd ((hlater.hydrate_iff hcalm).mp hok) (by decide)

end Owner

end SwarmRuntime.State
