import SwarmRuntime.Proofs.Alone
import SwarmRuntime.Proofs.Migrations

/-!
# `SwarmRuntime.Proofs.Schema`: records of another schema version

`hydrate` decodes the stored record as it is. It reads neither the schema version nor a
migration registry, and `freeze` stamps the latest version on what it is given. So a record of a
newer binary is hydrated where `UnsupportedSchemaVersion` is due, and a record of an older one is
hydrated without migration. `schemaSafe_iff` says for which stored pairs no harm comes of it.
-/

set_option autoImplicit false

namespace SwarmRuntime.State

open SwarmRuntime.Lib SwarmRuntime.Lib.Interaction

variable {M : AgentHydrationManager} {B : Build} {R : MigrationRegistry} {t a : String}
  {s : Backing Unit} {ws : List Answer} {cs cm : Cell Bytes ETag} {state : AgentStateRecord}

/-- A hydrate of the stored record `raw`, of the version `w`, hands out a state that is not its
migration, and a freeze of this state puts a record of the latest version in its place. -/
def Relabels (M : AgentHydrationManager) (B : Build) (R : MigrationRegistry) (t a : String)
    (s : Backing Unit) (ws : List Answer) (raw : Bytes) (w : UInt32) : Prop :=
  ∃ r i ws' seq c written, w ≠ B.latestSchemaVersion ∧
    (exec (serve ()) (M.hydrate B t a).run ws s).ending = .returned (.ok r) ∧
    ¬ R.Yields B raw w r.state ∧ i.tenantId = t ∧ i.agentId = a ∧ i.state = r.state ∧
    (exec (serve ()) (freeze B i).run ws' s).ending = .returned (.ok seq) ∧
    (exec (serve ()) (freeze B i).run ws' s).state.lookup (agentStateKey t a) = some c ∧
    B.state.decode c.value = .ok written ∧ written.schemaVersion = B.latestSchemaVersion

/-- The hydrate/freeze cycle respects the schema version `w` of the stored record `raw`: a newer
record is refused, an older one is refused or migrated, and none is relabelled. -/
structure SchemaSafe (M : AgentHydrationManager) (B : Build) (R : MigrationRegistry)
    (t a : String) (s : Backing Unit) (ws : List Answer) (raw : Bytes) (w : UInt32) : Prop where
  newer : B.latestSchemaVersion < w →
    (exec (serve ()) (M.hydrate B t a).run ws s).ending
      = .returned (.error (MigrationRegistry.unsupported B w))
  older : w < B.latestSchemaVersion →
    (∃ e, (exec (serve ()) (M.hydrate B t a).run ws s).ending = .returned (.error e)) ∨
      ∃ r, (exec (serve ()) (M.hydrate B t a).run ws s).ending = .returned (.ok r) ∧
        R.Yields B raw w r.state
  cycle : ¬ Relabels M B R t a s ws raw w

/-- The guard turns the record away, with the clock reading of a hydrate with the answers
`ws`. -/
def TurnedAway (M : AgentHydrationManager) (state : AgentStateRecord) (ws : List Answer) : Prop :=
  state.status = AgentLifecycleStatus.active.toI32 ∧
    AgentHydrationManager.activeAge state (ws.getD 1 default).clock < M.staleActiveThresholdSecs

/-- How a hydrate of a stored pair can end. The schema version of the state is not among the
conditions. -/
inductive PairEnding (M : AgentHydrationManager) (B : Build) (t a : String) (ws : List Answer)
    (cm : Cell Bytes ETag) (state : AgentStateRecord) :
    Ending (StateResult HydrationResult) → Prop
  | turnedAway (age : UInt64) (hbusy : TurnedAway M state ws) :
      PairEnding M B t a ws cm state (.returned (.error (.agentBusy t a age)))
  | undecodable (e : DecodeError) (hpass : ¬ TurnedAway M state ws)
      (hmem : B.memory.decode cm.value = .error e) :
      PairEnding M B t a ws cm state (.returned (.error (.protoError e)))
  | torn (mem : WorkingMemoryRecord) (msg : String) (hpass : ¬ TurnedAway M state ws)
      (hmem : B.memory.decode cm.value = .ok mem)
      (hver : mem.version ≠ state.workingMemoryVersion) :
      PairEnding M B t a ws cm state (.panicked msg)
  | hydrated (mem : WorkingMemoryRecord) (hpass : ¬ TurnedAway M state ws)
      (hmem : B.memory.decode cm.value = .ok mem)
      (hver : mem.version = state.workingMemoryVersion) :
      PairEnding M B t a ws cm state (.returned (.ok ⟨state, mem, false⟩))

theorem hydrate_pair (hws : Calm 3 ws) (hs : s.lookup (agentStateKey t a) = some cs)
    (hdec : B.state.decode cs.value = .ok state)
    (hm : s.lookup (workingMemoryKey t a) = some cm) :
    PairEnding M B t a ws cm state (exec (serve ()) (M.hydrate B t a).run ws s).ending := by
  obtain ⟨w₁, w₂, w₃, ws, rfl, h₁, h₂, h₃⟩ := hws.exists_three
  rw [(exec_hydrate h₁ h₂ h₃).2]
  unfold hydrateOn
  simp only [hs, hdec, hm]
  -- The guard comes first, then the decode of the memory, then the versions.
  by_cases hbusy : state.status = AgentLifecycleStatus.active.toI32 ∧
      AgentHydrationManager.activeAge state w₂.clock < M.staleActiveThresholdSecs
  · rw [if_pos hbusy]
    exact .turnedAway _ hbusy
  · rw [if_neg hbusy]
    cases hmem : B.memory.decode cm.value with
    | error e => exact .undecodable e hbusy hmem
    | ok mem =>
      by_cases hver : mem.version = state.workingMemoryVersion
      · simp only [if_neg (not_not_intro hver)]
        exact .hydrated mem hbusy hmem hver
      · simp only [if_pos hver]
        exact .torn mem _ hbusy hmem hver

/-- No ending of a stored pair is `UnsupportedSchemaVersion`. -/
theorem PairEnding.ne_unsupported {ending : Ending (StateResult HydrationResult)}
    (h : PairEnding M B t a ws cm state ending) (w : UInt32) :
    ending ≠ .returned (.error (MigrationRegistry.unsupported B w)) := by
  intro hend
  cases hend
  cases h

/-- When a hydrate of a stored pair ends with an error or with the migration of its record: it is
turned away, or its memory does not decode, or it is hydrated and the record is its own
migration. -/
theorem PairEnding.refused_or_migrated_iff {ending : Ending (StateResult HydrationResult)}
    (h : PairEnding M B t a ws cm state ending) {raw : Bytes} {w : UInt32} :
    ((∃ e, ending = .returned (.error e)) ∨
        ∃ r, ending = .returned (.ok r) ∧ R.Yields B raw w r.state) ↔
      TurnedAway M state ws ∨ (∃ e, B.memory.decode cm.value = .error e) ∨
        ∃ mem, B.memory.decode cm.value = .ok mem ∧ mem.version = state.workingMemoryVersion ∧
          R.Yields B raw w state := by
  cases h with
  | turnedAway age hbusy => exact ⟨fun _ => .inl hbusy, fun _ => .inl ⟨_, rfl⟩⟩
  | undecodable e hpass hmem => exact ⟨fun _ => .inr (.inl ⟨e, hmem⟩), fun _ => .inl ⟨_, rfl⟩⟩
  | torn mem msg hpass hmem hver =>
    constructor
    · -- A panic is neither an error nor a result.
      intro hend
      rcases hend with ⟨e, herr⟩ | ⟨r, hok, -⟩
      · cases herr
      · cases hok
    · intro hcause
      rcases hcause with hbusy | ⟨e, herr⟩ | ⟨mem', hmem', hver', -⟩
      · exact absurd hbusy hpass
      · rw [hmem] at herr
        cases herr
      · rw [hmem] at hmem'
        cases hmem'
        exact absurd hver' hver
  | hydrated mem hpass hmem hver =>
    constructor
    · intro hend
      rcases hend with ⟨e, herr⟩ | ⟨r, hok, hyields⟩
      · cases herr
      · cases hok
        exact .inr (.inr ⟨mem, hmem, hver, hyields⟩)
    · intro hcause
      rcases hcause with hbusy | ⟨e, herr⟩ | ⟨mem', -, -, hyields⟩
      · exact absurd hbusy hpass
      · rw [hmem] at herr
        cases herr
      · exact .inr ⟨_, rfl, hyields⟩

/-- A record that a hydrate refuses or migrates is not relabelled. -/
theorem not_relabels {raw : Bytes} {w : UInt32}
    (h : (∃ e, (exec (serve ()) (M.hydrate B t a).run ws s).ending = .returned (.error e)) ∨
      ∃ r, (exec (serve ()) (M.hydrate B t a).run ws s).ending = .returned (.ok r) ∧
        R.Yields B raw w r.state) : ¬ Relabels M B R t a s ws raw w := by
  intro hrel
  obtain ⟨r, i, ws', seq, c, written, -, hok, hno, -⟩ := hrel
  rcases h with ⟨e, herr⟩ | ⟨r', hok', hyields⟩
  · rw [hok] at herr
    cases herr
  · rw [hok] at hok'
    cases hok'
    exact hno hyields

/-- For which stored pairs the cycle respects the schema version: a record of the latest version,
or one of an older version that is not hydrated, because the guard turns it away or its memory
does not decode, or that its migrations leave as it is. It never does for a newer version. -/
theorem schemaSafe_iff (hws : Calm 3 ws) (hs : s.lookup (agentStateKey t a) = some cs)
    (hdec : B.state.decode cs.value = .ok state)
    (hm : s.lookup (workingMemoryKey t a) = some cm) :
    SchemaSafe M B R t a s ws cs.value state.schemaVersion ↔
      state.schemaVersion = B.latestSchemaVersion ∨
        state.schemaVersion < B.latestSchemaVersion ∧
          (TurnedAway M state ws ∨ (∃ e, B.memory.decode cm.value = .error e) ∨
            ∃ mem, B.memory.decode cm.value = .ok mem ∧
              mem.version = state.workingMemoryVersion ∧
              R.Yields B cs.value state.schemaVersion state) := by
  have hpair : PairEnding M B t a ws cm state
      (exec (serve ()) (M.hydrate B t a).run ws s).ending := hydrate_pair hws hs hdec hm
  constructor
  · intro hsafe
    by_cases heq : state.schemaVersion = B.latestSchemaVersion
    · exact .inl heq
    rcases UInt32.lt_or_lt_of_ne heq with hlt | hgt
    · exact .inr ⟨hlt, hpair.refused_or_migrated_iff.mp (hsafe.older hlt)⟩
    · exact absurd (hsafe.newer hgt) (hpair.ne_unsupported _)
  · intro hcause
    rcases hcause with heq | ⟨hlt, hcause⟩
    · -- Of a record of the latest version nothing is asked.
      rw [heq]
      refine ⟨fun hgt => absurd hgt (UInt32.lt_irrefl _),
        fun hlt => absurd hlt (UInt32.lt_irrefl _), ?_⟩
      intro hrel
      obtain ⟨r, i, ws', seq, c, written, hne, -⟩ := hrel
      exact hne rfl
    · have holder := hpair.refused_or_migrated_iff.mpr hcause
      exact ⟨fun hgt => absurd hgt (UInt32.lt_asymm hlt), fun _ => holder, not_relabels holder⟩

/-- A blank state record of the schema version `w`. -/
def blankStateOf (w : UInt32) (t a : String) : AgentStateRecord :=
  { blankState t a with schemaVersion := w }

open MigrationRegistry in
/-- The store that holds a pair of schema version 1, written by a binary whose latest version is
2. -/
abbrev olderStore : Backing Unit :=
  pairStore () secondVersionBuild "acme" "writer" (blankStateOf 1 "acme" "writer")
    (blankMemory "acme" "writer") ⟨"1"⟩ ⟨"1"⟩

open MigrationRegistry in
/-- A record of schema version 1 under a binary whose latest version is 2, with a migration
from version 1 to version 2 that leaves records as they are: the hydrate returns the record as it
is stored, and that is its migration. -/
theorem schemaSafe_older :
    (exec (serve ()) (AgentHydrationManager.new.hydrate secondVersionBuild "acme" "writer").run
        blankAnswers olderStore).ending
      = .returned (.ok ⟨blankStateOf 1 "acme" "writer", blankMemory "acme" "writer", false⟩) ∧
    (1 : UInt32) < secondVersionBuild.latestSchemaVersion ∧
    SchemaSafe .new secondVersionBuild (new.register (relabel 2)) "acme" "writer" olderStore
      blankAnswers (secondVersionBuild.state.encodeToVec (blankStateOf 1 "acme" "writer")) 1 := by
  have hcalm : Calm 3 blankAnswers := by decide
  have hstatus : (blankStateOf 1 "acme" "writer").status ≠ AgentLifecycleStatus.active.toI32 := by
    decide
  have hbelow : (1 : UInt32) < secondVersionBuild.latestSchemaVersion := by decide
  have hdec := secondVersionBuild.state.decode_encodeToVec (blankStateOf 1 "acme" "writer")
  have hmem := secondVersionBuild.memory.decode_encodeToVec (blankMemory "acme" "writer")
  -- The walk makes one step, which returns the record that it decodes.
  have hstep := loopStep_relabel (blankStateOf 1 "acme" "writer") 2
  have hyields := (yields_iff (UInt32.le_of_lt hbelow)).mpr
    ⟨_, 2, .single hstep, UInt32.le_refl _, decodeState_encodeToVec _ _⟩
  refine ⟨?_, hbelow, ?_⟩
  · unfold blankAnswers
    rw [(exec_hydrate rfl rfl rfl).2, hydrateOn_pairStore rfl hstatus]
  · refine (schemaSafe_iff (s := olderStore) hcalm lookup_state_pairStore hdec
      lookup_memory_pairStore).mpr ?_
    exact .inr ⟨hbelow, .inr (.inr ⟨_, hmem, rfl, hyields⟩)⟩

/-- A record of schema version 2, of a newer binary, is hydrated by a binary whose latest schema
version is 1. -/
theorem not_schemaSafe_newer :
    ¬ SchemaSafe .new releaseBuild .new "acme" "writer"
      (pairStore () releaseBuild "acme" "writer" (blankStateOf 2 "acme" "writer")
        (blankMemory "acme" "writer") ⟨"1"⟩ ⟨"1"⟩) blankAnswers
      (releaseBuild.state.encodeToVec (blankStateOf 2 "acme" "writer")) 2 := by
  intro hsafe
  have hnewer : releaseBuild.latestSchemaVersion < 2 := by decide
  have hrefused := hsafe.newer hnewer
  have hstatus : (blankStateOf 2 "acme" "writer").status ≠ AgentLifecycleStatus.active.toI32 := by
    decide
  unfold blankAnswers at hrefused
  rw [(exec_hydrate rfl rfl rfl).2, hydrateOn_pairStore rfl hstatus] at hrefused
  cases hrefused

end SwarmRuntime.State
