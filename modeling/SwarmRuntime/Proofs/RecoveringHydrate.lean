import SwarmRuntime.Proofs.Hydrate
import SwarmRuntime.State.RecoveringOwner

/-!
# `SwarmRuntime.Proofs.RecoveringHydrate`: a hydrate that recovers

What a hydrate with `recoverLatest` finds when it returns `Ok`. Either the memory record was
there with the version that the state names, or it was not and the last checkpoint was read
(`exec_hydrateWith_ok`, `exec_recoverLatest_ok`). In both cases the state record is the stored
one, and the hydrate only let time pass (`Reads.exec_tick`).

`latestSeq_eq_some` says that the recovery takes the greatest stored sequence number. The
inductions are on the bound of the scan.
-/

set_option autoImplicit false

namespace SwarmRuntime.State

open SwarmRuntime.Lib SwarmRuntime.Lib.Interaction
open AgentHydrationManager

variable {A : Type} {id : A} {M : AgentHydrationManager} {B : Build} {t a : String}
  {s : Backing A}

/-! ### The last checkpoint -/

/-- What the scan finds is stored. -/
theorem lookup_of_latestBelow {k : Nat} {n : UInt64} (h : latestBelow t a s k = some n) :
    ∃ c, s.lookup (checkpointKey t a n) = some c := by
  induction k with
  | zero => cases h
  | succ k ih =>
    rw [latestBelow] at h
    by_cases hstored : (s.lookup (checkpointKey t a (UInt64.ofNat k))).isSome
    · rw [if_pos hstored, Option.some.injEq] at h
      subst h
      exact Option.isSome_iff_exists.mp hstored
    · rw [if_neg hstored] at h
      exact ih h

/-- The scan finds a number that is not below any stored one. -/
theorem latestBelow_of_lookup {k : Nat} (hk : k ≤ 2 ^ 64) {m : UInt64} (hm : m.toNat < k)
    {c : Cell Bytes ETag} (hc : s.lookup (checkpointKey t a m) = some c) :
    ∃ n, latestBelow t a s k = some n ∧ m ≤ n := by
  induction k with
  | zero => exact absurd hm (Nat.not_lt_zero _)
  | succ k ih =>
    have hlt : k < 2 ^ 64 := by omega
    have hnat : (UInt64.ofNat k).toNat = k := UInt64.toNat_ofNat_of_lt' hlt
    rw [latestBelow]
    by_cases hstored : (s.lookup (checkpointKey t a (UInt64.ofNat k))).isSome
    · rw [if_pos hstored]
      refine ⟨_, rfl, ?_⟩
      rw [UInt64.le_iff_toNat_le, hnat]
      omega
    · -- The number that is tried first is not stored, so `m` is below it.
      have hne : m.toNat ≠ k := by
        intro heq
        have hm' : m = UInt64.ofNat k := UInt64.toNat_inj.mp (heq.trans hnat.symm)
        subst hm'
        rw [hc] at hstored
        exact hstored rfl
      rw [if_neg hstored]
      exact ih (by omega) (by omega)

/-- The recovery takes the greatest stored sequence number. -/
theorem latestSeq_eq_some {n : UInt64} :
    latestSeq t a s = some n ↔ (∃ c, s.lookup (checkpointKey t a n) = some c) ∧
      ∀ m c, s.lookup (checkpointKey t a m) = some c → m ≤ n := by
  have hfind : ∀ m c, s.lookup (checkpointKey t a m) = some c →
      ∃ n, latestSeq t a s = some n ∧ m ≤ n := fun m _ hc =>
    latestBelow_of_lookup (Nat.le_refl _) (UInt64.toNat_lt m) hc
  constructor
  · intro h
    refine ⟨lookup_of_latestBelow h, fun m c hc => ?_⟩
    obtain ⟨n', hn', hle⟩ := hfind m c hc
    rw [h, Option.some.injEq] at hn'
    rw [hn']
    exact hle
  · intro h
    obtain ⟨⟨c, hc⟩, hgreatest⟩ := h
    obtain ⟨n', hn', hle⟩ := hfind n c hc
    obtain ⟨c', hc'⟩ := lookup_of_latestBelow hn'
    -- Each of the two numbers is the greatest.
    have hsame : n' = n := UInt64.le_antisymm (hgreatest n' c' hc') hle
    rw [hn', hsame]

/-- The memory that the recovery takes from the reply to its read. -/
def recoveredMemory (B : Build) (t a : String) :
    StateResult (Option StateRecord) → StateResult WorkingMemoryRecord
  | .error e => .error e
  | .ok none => .error (.noCheckpointAvailable t a)
  | .ok (some r) =>
      match B.checkpoint.decode r.value with
      | .error e => .error (.protoError e)
      | .ok checkpoint =>
          match checkpoint.memorySnapshot with
          | none => .error (.noCheckpointAvailable t a)
          | some mem => .ok mem

/-- Without a checkpoint the recovery is an error. -/
theorem recoverLatest_run_none (h : latestSeq t a s = none) :
    (recoverLatest B t a s).run = done (.error (.noCheckpointAvailable t a)) := by
  rw [recoverLatest, h]
  rfl

/-- Otherwise it is one read. -/
theorem recoverLatest_run_some {seq : UInt64} (h : latestSeq t a s = some seq) :
    (recoverLatest B t a s).run
      = ask (.get (checkpointKey t a seq)) fun r => done (recoveredMemory B t a r) := by
  rw [recoverLatest, h]
  show ExceptT.run (DaprStateStore.get (checkpointKey t a seq) >>= _) = _
  rw [run_get_bind]
  congr 1
  funext r
  match r with
  | .error e => rfl
  | .ok none => rfl
  | .ok (some r) =>
    rw [recoveredMemory]
    show ExceptT.run (decodeRecord B.checkpoint r.value >>= _) = _
    rw [run_decodeRecord_bind]
    cases B.checkpoint.decode r.value with
    | error e => rfl
    | ok checkpoint =>
      simp only
      cases checkpoint.memorySnapshot with
      | none => rfl
      | some mem => rfl

/-! ### Programs that only read -/

/-- The program makes no write. -/
inductive Reads {T : Type} : Async T → Prop
  | done (x : T) : Reads (done x)
  | panic (msg : String) : Reads (Interaction.panic msg)
  | get {key : String} {next : Reply (.get key) → Async T} (h : ∀ r, Reads (next r)) :
      Reads (ask (.get key) next)
  | now {next : Reply .now → Async T} (h : ∀ c, Reads (next c)) : Reads (ask .now next)

theorem Reads.map {T N : Type} {p : Async T} (h : Reads p) (f : T → N) : Reads (f <$> p) := by
  induction h with
  | done x => exact .done (f x)
  | panic msg => exact .panic msg
  | get _ ih => exact .get ih
  | now _ ih => exact .now ih

/-- A property of the store that reads and clock readings keep holds at the end. -/
theorem Reads.exec_keeps {T ω : Type} {serve : (c : Call) → ω → Backing A → Reply c × Backing A}
    {I : Backing A → Prop} (hget : ∀ key w s, I s → I (serve (.get key) w s).2)
    (hnow : ∀ w s, I s → I (serve .now w s).2) {p : Async T} (h : Reads p) {ws : List ω}
    (hI : I s) : I (exec serve p ws s).state := by
  induction h generalizing ws s with
  | done x => rwa [exec_done]
  | panic msg => rwa [exec_panic]
  | @get key next _ ih =>
    cases ws with
    | nil => exact hI
    | cons w ws =>
      rw [exec_ask_cons, Outcome.after_state]
      exact ih _ (hget key w s hI)
  | @now next _ ih =>
    cases ws with
    | nil => exact hI
    | cons w ws =>
      rw [exec_ask_cons, Outcome.after_state]
      exact ih _ (hnow w s hI)

/-- Time passes, and nothing else happens to the store. -/
theorem Reads.exec_tick {T : Type} {p : Async T} (h : Reads p) (ws : List LateAnswer) :
    ∃ n, (exec (serveLate id) p ws s).state = s.tick n := by
  refine h.exec_keeps (I := fun s' => ∃ n, s' = s.tick n) ?_ ?_ ⟨0, rfl⟩
  · rintro key w s' ⟨n, rfl⟩
    refine ⟨n + w.delay, ?_⟩
    rw [← EtagStore.tick_tick]
    exact serve_get_state
  · rintro w s' ⟨n, rfl⟩
    exact ⟨n + w.delay, EtagStore.tick_tick _ _ _⟩

/-- Without a delay not even time passes. -/
theorem Reads.exec_same {T : Type} {p : Async T} (h : Reads p) (ws : List Answer) :
    (exec (serve id) p ws s).state = s := by
  refine h.exec_keeps (I := fun s' => s' = s) ?_ ?_ rfl
  · rintro key w s' rfl
    exact serve_get_state
  · intro w s' hs'
    exact hs'

theorem reads_recoverLatest (s : Backing A) : Reads (recoverLatest B t a s).run := by
  cases hseq : latestSeq t a s with
  | none =>
    rw [recoverLatest_run_none hseq]
    exact .done _
  | some seq =>
    rw [recoverLatest_run_some hseq]
    exact .get fun r => .done _

theorem reads_loadMemoryWith {recover : AsyncResult WorkingMemoryRecord}
    (h : Reads recover.run) (state : AgentStateRecord) :
    Reads (loadMemoryWith B t a recover state) := by
  refine .get fun r => ?_
  unfold afterMemoryReadWith
  split
  · exact .done _
  · exact h.map _
  · split
    · exact .done _
    · split
      · exact h.map _
      · exact .done _

/-- A hydrate whose recovery only reads only reads. -/
theorem reads_hydrateWith {recover : AsyncResult WorkingMemoryRecord} (h : Reads recover.run) :
    Reads (M.hydrateWith recover B t a).run := by
  rw [hydrateWith_run_eq]
  refine .get fun r => ?_
  unfold afterStateReadWith
  split
  · exact .done _
  · exact .done _
  · split
    · exact .done _
    · split
      -- Only an ACTIVE record leads to the clock.
      · refine .now fun c => ?_
        split
        · exact .done _
        · exact reads_loadMemoryWith h _
      · exact reads_loadMemoryWith h _

/-! ### What a hydrate finds -/

section
variable {T : Type}

theorem lateness_take_succ (w : LateAnswer) (ws : List LateAnswer) (k : Nat) :
    lateness ((w :: ws).take (k + 1)) = w.delay + lateness (ws.take k) := rfl

/-- A read, when the program has returned: its answer, its reply, and the rest of the run. -/
theorem exec_get_returned {key : String} {next : Reply (.get key) → Async T}
    {ws : List LateAnswer} {x : T}
    (h : (exec (serveLate id) (ask (.get key) next) ws s).ending = .returned x) :
    ∃ w ws' reply, ws = w :: ws' ∧
      (exec (serveLate id) (next reply) ws' (s.tick w.delay)).ending = .returned x ∧
      ((∃ msg, reply = .error (.daprError msg)) ∨
        reply = .ok (((s.tick w.delay).lookup key).map fun c => ⟨c.value, c.etag⟩)) := by
  cases ws with
  | nil => cases h
  | cons w ws =>
    have hserve : (serveLate id (.get key) w s).2 = s.tick w.delay := serve_get_state
    rw [exec_ask_cons, Outcome.after_ending, hserve] at h
    refine ⟨w, ws, _, rfl, h, ?_⟩
    cases hfault : w.answer.fault with
    | some msg =>
      left
      refine ⟨msg, ?_⟩
      show (serve id (.get key) w.answer (s.tick w.delay)).1 = _
      simp only [serve, hfault]
    | none =>
      right
      show (serve id (.get key) w.answer (s.tick w.delay)).1 = _
      rw [serve_get hfault]

end

/-- Whether the memory record can be read, with the version that the state record names. -/
def MemoryFits (B : Build) (t a : String) (state : AgentStateRecord) (s : Backing A)
    (mem : WorkingMemoryRecord) : Prop :=
  ∃ c, s.lookup (workingMemoryKey t a) = some c ∧ B.memory.decode c.value = .ok mem ∧
    mem.version = state.workingMemoryVersion

/-- Where a hydrate that returned `Ok` has its working memory from. `s` is the store when the
memory record is read. -/
inductive MemorySource (B : Build) (t a : String) (recover : AsyncResult WorkingMemoryRecord)
    (id : A) (s : Backing A) (r : HydrationResult) : Prop
  | stored (hfits : MemoryFits B t a r.state s r.workingMemory)
  | recovered (hnot : ∀ mem, ¬ MemoryFits B t a r.state s mem) (ws : List LateAnswer)
      (hreturned : (exec (serveLate id) recover.run ws s).ending
        = .returned (.ok r.workingMemory))

/-- The memory half of a hydrate that returned `Ok`. -/
theorem exec_loadMemoryWith_ok {recover : AsyncResult WorkingMemoryRecord}
    {state : AgentStateRecord} {ws : List LateAnswer} {r : HydrationResult}
    (h : (exec (serveLate id) (loadMemoryWith B t a recover state) ws s).ending
      = .returned (.ok r)) :
    r.state = state ∧ MemorySource B t a recover id (s.tick (lateness (ws.take 1))) r := by
  unfold loadMemoryWith at h
  obtain ⟨w, ws', reply, rfl, hnext, ⟨msg, rfl⟩ | rfl⟩ := exec_get_returned h
  · rw [afterMemoryReadWith, exec_done] at hnext
    cases hnext
  rw [lateness_take_succ, List.take_zero]
  show r.state = state ∧ MemorySource B t a recover id (s.tick w.delay) r
  cases hread : (s.tick w.delay).lookup (workingMemoryKey t a) with
  | none =>
    rw [hread, Option.map_none, afterMemoryReadWith] at hnext
    -- The memory record is gone, so no memory fits.
    have hnot : ∀ mem, ¬ MemoryFits B t a r.state (s.tick w.delay) mem := by
      rintro mem ⟨c, hc, -⟩
      rw [hread] at hc
      cases hc
    obtain ⟨x, hending, hx⟩ := exec_map_returned (serveLate id) hnext
    cases x with
    | error e => cases hx
    | ok mem =>
      cases hx
      exact ⟨rfl, .recovered hnot ws' hending⟩
  | some c =>
    rw [hread, Option.map_some, afterMemoryReadWith] at hnext
    cases hdec : B.memory.decode c.value with
    | error e => simp [hdec] at hnext
    | ok mem =>
      simp only [hdec] at hnext
      by_cases hver : mem.version = state.workingMemoryVersion
      · rw [if_neg (not_not_intro hver), exec_done, Ending.returned.injEq, Except.ok.injEq] at hnext
        subst hnext
        exact ⟨rfl, .stored ⟨c, hread, hdec, hver⟩⟩
      · rw [if_pos hver] at hnext
        -- The record that is there is of another version, so no memory fits.
        have hnot : ∀ mem', ¬ MemoryFits B t a state (s.tick w.delay) mem' := by
          rintro mem' ⟨c', hc', hdec', hver'⟩
          rw [hread, Option.some.injEq] at hc'
          subst hc'
          rw [hdec, Except.ok.injEq] at hdec'
          subst hdec'
          exact hver hver'
        obtain ⟨x, hending, hx⟩ := exec_map_returned (serveLate id) hnext
        cases x with
        | error e => cases hx
        | ok mem' =>
          cases hx
          exact ⟨rfl, .recovered hnot ws' hending⟩

/-- A hydrate that returned `Ok` has read the state record, and it has its memory from the memory
record or from the recovery. -/
theorem exec_hydrateWith_ok {recover : AsyncResult WorkingMemoryRecord} {ws : List LateAnswer}
    {r : HydrationResult}
    (h : (exec (serveLate id) (M.hydrateWith recover B t a).run ws s).ending
      = .returned (.ok r)) :
    (∃ c, s.lookup (agentStateKey t a) = some c ∧ B.state.decode c.value = .ok r.state) ∧
      MemorySource B t a recover id
        (s.tick (lateness (ws.take (callsToMemory r.state)))) r := by
  rw [hydrateWith_run_eq] at h
  obtain ⟨w, ws', reply, rfl, hnext, ⟨msg, rfl⟩ | rfl⟩ := exec_get_returned h
  · rw [afterStateReadWith, exec_done] at hnext
    cases hnext
  cases hread : (s.tick w.delay).lookup (agentStateKey t a) with
  | none =>
    rw [hread, Option.map_none, afterStateReadWith, exec_done] at hnext
    cases hnext
  | some c =>
    have hc : s.lookup (agentStateKey t a) = some c := EtagStore.lookup_of_lookup_tick hread
    rw [hread, Option.map_some, afterStateReadWith] at hnext
    cases hdec : B.state.decode c.value with
    | error e => simp [hdec] at hnext
    | ok state =>
      simp only [hdec] at hnext
      by_cases hactive : state.status = AgentLifecycleStatus.active.toI32
      · rw [if_pos hactive] at hnext
        cases ws' with
        | nil => cases hnext
        | cons w' ws' =>
          -- The clock reading takes its time, and the guard may refuse.
          have hserve : (serveLate id .now w' (s.tick w.delay)).2
              = (s.tick w.delay).tick w'.delay := rfl
          rw [exec_ask_cons, Outcome.after_ending, hserve] at hnext
          by_cases hage : activeAge state (serveLate id .now w' (s.tick w.delay)).1
              < M.staleActiveThresholdSecs
          · rw [if_pos hage, exec_done] at hnext
            cases hnext
          · rw [if_neg hage] at hnext
            obtain ⟨rfl, hsource⟩ := exec_loadMemoryWith_ok hnext
            refine ⟨⟨c, hc, hdec⟩, ?_⟩
            rw [callsToMemory, if_pos hactive, lateness_take_succ, lateness_take_succ,
              ← EtagStore.tick_tick, ← EtagStore.tick_tick]
            exact hsource
      · rw [if_neg hactive] at hnext
        obtain ⟨rfl, hsource⟩ := exec_loadMemoryWith_ok hnext
        refine ⟨⟨c, hc, hdec⟩, ?_⟩
        rw [callsToMemory, if_neg hactive, lateness_take_succ, ← EtagStore.tick_tick]
        exact hsource

/-- A recovery that returned `Ok` has read the last checkpoint. -/
theorem exec_recoverLatest_ok {s₀ : Backing A} {ws : List LateAnswer} {mem : WorkingMemoryRecord}
    (h : (exec (serveLate id) (recoverLatest B t a s₀).run ws s).ending = .returned (.ok mem)) :
    ∃ seq c cp, latestSeq t a s₀ = some seq ∧ s.lookup (checkpointKey t a seq) = some c ∧
      B.checkpoint.decode c.value = .ok cp ∧ cp.memorySnapshot = some mem := by
  cases hseq : latestSeq t a s₀ with
  | none =>
    rw [recoverLatest_run_none hseq, exec_done] at h
    cases h
  | some seq =>
    rw [recoverLatest_run_some hseq] at h
    obtain ⟨w, ws', reply, -, hnext, ⟨msg, rfl⟩ | rfl⟩ := exec_get_returned h
    · rw [recoveredMemory, exec_done] at hnext
      cases hnext
    rw [exec_done, Ending.returned.injEq] at hnext
    cases hread : (s.tick w.delay).lookup (checkpointKey t a seq) with
    | none =>
      rw [hread, Option.map_none, recoveredMemory] at hnext
      cases hnext
    | some c =>
      rw [hread, Option.map_some, recoveredMemory] at hnext
      cases hdec : B.checkpoint.decode c.value with
      | error e => simp [hdec] at hnext
      | ok cp =>
        cases hmem : cp.memorySnapshot with
        | none => simp [hdec, hmem] at hnext
        | some mem' =>
          simp only [hdec, hmem, Except.ok.injEq] at hnext
          subst hnext
          exact ⟨seq, c, cp, rfl, EtagStore.lookup_of_lookup_tick hread, hdec, hmem⟩

end SwarmRuntime.State
