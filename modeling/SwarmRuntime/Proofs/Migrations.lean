import Mathlib.Data.FinEnum
import SwarmRuntime.Lib.Loop
import SwarmRuntime.State.Codec
import SwarmRuntime.State.Migrations

/-!
# `SwarmRuntime.Proofs.Migrations`: the walk of `apply_to_latest`

`register` checks nothing: a migration may lead to any version. The walk goes on while the
version is below the latest one, wherever the registered migrations lead.

* `returns_iff`: the walk comes to its end iff no version below the latest one comes back, or
  a migration fails on the way.
* `landsOnLatest_of_versions`: it lands on the latest version where it comes to its end and no
  version above the latest one is reached. This is exact for registries that do not lead back
  from above the latest version.
* `landsOnLatest_iff_of_jump`: a walk that has jumped above the latest version lands on it iff
  the migrations lead back from there and make the same record again.

`loopStep` is one iteration of the walk and `nextVersion` what it does to the version, which is
all that decides where the walk goes. The bytes decide whether a migration fails.
-/

set_option autoImplicit false

namespace SwarmRuntime.State

open Relation StateTransition SwarmRuntime.Lib.Loop

namespace MigrationRegistry

variable {R : MigrationRegistry} {B : Build} {raw raw' : Bytes} {v w : UInt32}

/-- A migration is registered for the version that it reads from. -/
theorem migrations_register (R : MigrationRegistry) (m : StateMigration) :
    (R.register m).migrations m.fromVersion = some m := by
  unfold register
  exact Function.update_self m.fromVersion (some m) R.migrations

/-- The version after one iteration of the walk. -/
def nextVersion (R : MigrationRegistry) (B : Build) (version : UInt32) : Option UInt32 :=
  if version < B.latestSchemaVersion then
    match R.migrations version with
    | none => none
    | some migration => some migration.toVersion
  else none

/-- The bytes and the version after one iteration of the walk: `none` when it returns. -/
def loopStep (R : MigrationRegistry) (B : Build) (p : Bytes × UInt32) : Option (Bytes × UInt32) :=
  if p.2 < B.latestSchemaVersion then
    match R.migrations p.2 with
    | none => none
    | some migration =>
        match migration.migrateAgentState p.1 with
        | .error _ => none
        | .ok migrated => some (B.state.encodeToVec migrated, migration.toVersion)
  else none

/-- What an iteration that goes on has done. -/
theorem loopStep_eq_some {p q : Bytes × UInt32} :
    R.loopStep B p = some q ↔
      p.2 < B.latestSchemaVersion ∧ ∃ m state, R.migrations p.2 = some m ∧
        m.migrateAgentState p.1 = .ok state ∧ q = (B.state.encodeToVec state, m.toVersion) := by
  unfold loopStep
  by_cases hlt : p.2 < B.latestSchemaVersion
  · rw [if_pos hlt]
    cases hreg : R.migrations p.2 with
    | none => simp
    | some m =>
      cases hmig : m.migrateAgentState p.1 with
      | error e => simp [hmig]
      | ok state => simp [hlt, hmig, eq_comm]
  · rw [if_neg hlt]
    simp [hlt]

/-- The version goes where the migrations lead, whatever the bytes are. -/
theorem tracks_nextVersion : Tracks (R.loopStep B) (R.nextVersion B) Prod.snd := by
  intro p q hstep
  obtain ⟨hlt, m, state, hreg, hmig, rfl⟩ := loopStep_eq_some.mp hstep
  simp [nextVersion, hlt, hreg]

/-- `apply_to_latest` returns, after enough iterations. -/
def Returns (R : MigrationRegistry) (B : Build) (raw : Bytes) (currentVersion : UInt32) : Prop :=
  ∃ fuel result, R.applyToLatest B fuel raw currentVersion = some result

/-- A migration fails on the way from `currentVersion`. -/
def FailsOnTheWay (R : MigrationRegistry) (B : Build) (raw : Bytes) (currentVersion : UInt32) :
    Prop :=
  ∃ raw' version m e, Reaches (R.loopStep B) (raw, currentVersion) (raw', version) ∧
    version < B.latestSchemaVersion ∧ R.migrations version = some m ∧
    m.migrateAgentState raw' = .error e

/-- The walk decodes the bytes once the version is not below the latest one. -/
theorem walk_of_not_lt (fuel : Nat) (h : ¬ v < B.latestSchemaVersion) :
    R.walk B fuel raw v = some (decodeState B raw) := by
  cases fuel with
  | zero => rw [walk, if_neg h]
  | succ fuel => rw [walk, if_neg h]

/-- Below the latest version the walk ends with an error only. -/
theorem walk_of_lt (hlt : v < B.latestSchemaVersion) (h : R.loopStep B (raw, v) = none) :
    ∃ e, ∀ fuel, R.walk B (fuel + 1) raw v = some (.error e) := by
  unfold loopStep at h
  rw [if_pos hlt] at h
  cases hreg : R.migrations v with
  | none =>
    refine ⟨unsupported B v, fun fuel => ?_⟩
    rw [walk, if_pos hlt, hreg]
  | some m =>
    cases hmig : m.migrateAgentState raw with
    | error e =>
      refine ⟨e, fun fuel => ?_⟩
      rw [walk, if_pos hlt, hreg]
      simp only [hmig]
    | ok state =>
      simp only [hreg, hmig] at h
      cases h

/-- The walk is over once its loop is. -/
theorem walk_of_none (h : R.loopStep B (raw, v) = none) :
    ∃ result, ∀ fuel, R.walk B (fuel + 1) raw v = some result := by
  by_cases hlt : v < B.latestSchemaVersion
  · obtain ⟨e, he⟩ := walk_of_lt hlt h
    exact ⟨.error e, he⟩
  · exact ⟨decodeState B raw, fun fuel => walk_of_not_lt _ hlt⟩

/-- One iteration of the walk. -/
theorem walk_of_some (fuel : Nat) (h : R.loopStep B (raw, v) = some (raw', w)) :
    R.walk B (fuel + 1) raw v = R.walk B fuel raw' w := by
  obtain ⟨hlt, m, state, hreg, hmig, heq⟩ := loopStep_eq_some.mp h
  cases heq
  rw [walk, if_pos hlt, hreg]
  simp only [hmig]

/-- The walk from `raw` and `v` is the walk from where its loop takes it, with the iterations
still to go. -/
theorem walk_reaches (h : Reaches (R.loopStep B) (raw, v) (raw', w)) :
    ∃ n, ∀ fuel, R.walk B (fuel + n) raw v = R.walk B fuel raw' w := by
  generalize hp : (raw, v) = p at h
  generalize hq : (raw', w) = q at h
  induction h using ReflTransGen.head_induction_on generalizing raw v with
  | refl =>
    cases hp.trans hq.symm
    exact ⟨0, fun fuel => rfl⟩
  | @head p p' hstep _ ih =>
    subst hp
    obtain ⟨n, hn⟩ := @ih p'.1 p'.2 rfl
    refine ⟨n + 1, fun fuel => ?_⟩
    rw [← hn fuel]
    exact walk_of_some (fuel + n) hstep

/-- A walk that is over has come to the end of its loop. -/
theorem halts_of_walk {fuel : Nat} {result : StateResult AgentStateRecord}
    (h : R.walk B fuel raw v = some result) : Halts (R.loopStep B) (raw, v) := by
  induction fuel generalizing raw v with
  | zero =>
    refine ⟨(raw, v), ReflTransGen.refl, ?_⟩
    by_cases hlt : v < B.latestSchemaVersion
    · rw [walk, if_pos hlt] at h
      cases h
    · show R.loopStep B (raw, v) = none
      rw [loopStep, if_neg hlt]
  | succ fuel ih =>
    cases hnext : R.loopStep B (raw, v) with
    | none => exact ⟨(raw, v), ReflTransGen.refl, hnext⟩
    | some p =>
      rw [walk_of_some fuel hnext] at h
      obtain ⟨q, hr, hend⟩ := ih h
      exact ⟨q, hr.head hnext, hend⟩

/-- `apply_to_latest` is the walk, but for a version above the latest one. -/
theorem applyToLatest_eq_walk (fuel : Nat) (h : v ≤ B.latestSchemaVersion) :
    R.applyToLatest B fuel raw v = R.walk B fuel raw v := by
  have hnot : ¬ B.latestSchemaVersion < v := UInt32.not_lt.mpr h
  unfold applyToLatest
  rw [if_neg hnot]
  by_cases heq : v = B.latestSchemaVersion
  · have hdone : ¬ v < B.latestSchemaVersion := heq ▸ UInt32.lt_irrefl v
    rw [if_pos heq, walk_of_not_lt fuel hdone]
  · rw [if_neg heq]

/-- A version that is not below the latest one has no next one. -/
theorem nextVersion_of_le (h : B.latestSchemaVersion ≤ v) : R.nextVersion B v = none :=
  if_neg (UInt32.not_lt.mpr h)

/-- The loop of `apply_to_latest` ends iff `apply_to_latest` returns. -/
theorem returns_iff_halts : R.Returns B raw v ↔ Halts (R.loopStep B) (raw, v) := by
  constructor
  · intro hret
    obtain ⟨fuel, result, hret⟩ := hret
    by_cases hle : v ≤ B.latestSchemaVersion
    · rw [applyToLatest_eq_walk fuel hle] at hret
      exact halts_of_walk hret
    · refine ⟨(raw, v), ReflTransGen.refl, if_neg fun hlt => hle (UInt32.le_of_lt hlt)⟩
  · intro hhalt
    obtain ⟨⟨raw', w⟩, hr, hend⟩ := hhalt
    by_cases hle : v ≤ B.latestSchemaVersion
    · obtain ⟨n, hn⟩ := walk_reaches hr
      obtain ⟨result, hresult⟩ := walk_of_none hend
      refine ⟨0 + 1 + n, result, ?_⟩
      rw [applyToLatest_eq_walk _ hle, hn, hresult]
    · refine ⟨0, _, if_pos (UInt32.not_le.mp hle)⟩

/-- Where the versions go on and the walk does not, a migration has failed. -/
theorem failsOnTheWay_iff :
    R.FailsOnTheWay B raw v ↔
      ∃ p, Reaches (R.loopStep B) (raw, v) p ∧ R.loopStep B p = none ∧
        R.nextVersion B p.2 ≠ none := by
  constructor
  · intro hfail
    obtain ⟨raw', version, m, e, hr, hlt, hreg, hmig⟩ := hfail
    refine ⟨(raw', version), hr, ?_, ?_⟩
    · simp [loopStep, hlt, hreg, hmig]
    · simp [nextVersion, hlt, hreg]
  · intro hend
    obtain ⟨⟨raw', version⟩, hr, hnone, hnext⟩ := hend
    unfold nextVersion at hnext
    unfold loopStep at hnone
    by_cases hlt : version < B.latestSchemaVersion
    · rw [if_pos hlt] at hnone hnext
      cases hreg : R.migrations version with
      | none => simp [hreg] at hnext
      | some m =>
        cases hmig : m.migrateAgentState raw' with
        | error e => exact ⟨raw', version, m, e, hr, hlt, hreg, hmig⟩
        | ok state => simp [hreg, hmig] at hnone
    · rw [if_neg hlt] at hnext
      exact absurd rfl hnext

/-- `apply_to_latest` returns iff no version below the latest one comes back on the way along the
registered migrations, or one of these fails. -/
theorem returns_iff :
    R.Returns B raw v ↔ ¬ Revisits (R.nextVersion B) v ∨ R.FailsOnTheWay B raw v := by
  have : Finite UInt32 := Finite.of_equiv _ FinEnum.equiv.symm
  calc R.Returns B raw v
      ↔ Halts (R.loopStep B) (raw, v) := returns_iff_halts
    _ ↔ Halts (R.nextVersion B) v ∨ ∃ p, Reaches (R.loopStep B) (raw, v) p ∧
          R.loopStep B p = none ∧ R.nextVersion B p.2 ≠ none :=
        halts_iff_of_tracks tracks_nextVersion
    _ ↔ ¬ Revisits (R.nextVersion B) v ∨ R.FailsOnTheWay B raw v := by
        rw [halts_iff_acyclic, failsOnTheWay_iff]

/-- A binary whose latest schema version is 2. -/
def secondVersionBuild : Build := { releaseBuild with latestSchemaVersion := 2 }

/-- A record of schema version 1. -/
def firstVersionRecord : AgentStateRecord :=
  { (default : AgentStateRecord) with schemaVersion := 1 }

/-- A migration of records of version 1 that leaves them as they are and names the version
`toVersion`. -/
def relabel (toVersion : UInt32) : StateMigration :=
  ⟨1, toVersion, decodeState secondVersionBuild⟩

@[simp] theorem decodeState_encodeToVec (B : Build) (state : AgentStateRecord) :
    decodeState B (B.state.encodeToVec state) = .ok state := by
  simp [decodeState]

/-- One iteration at version 1 with the migration `relabel`: the bytes stay as they are. -/
theorem loopStep_relabel (state : AgentStateRecord) (toVersion : UInt32) :
    (new.register (relabel toVersion)).loopStep secondVersionBuild
        (secondVersionBuild.state.encodeToVec state, 1)
      = some (secondVersionBuild.state.encodeToVec state, toVersion) := by
  have hbelow : (1 : UInt32) < secondVersionBuild.latestSchemaVersion := by decide
  refine loopStep_eq_some.mpr ⟨hbelow, relabel toVersion, state, ?_, ?_, rfl⟩
  · exact migrations_register new (relabel toVersion)
  · exact decodeState_encodeToVec secondVersionBuild state

/-- A migration that stays at its version keeps the walk going for good. -/
theorem not_returns_stay :
    ¬ (new.register (relabel 1)).Returns secondVersionBuild
        (secondVersionBuild.state.encodeToVec firstVersionRecord) 1 := by
  intro hret
  refine not_revisits (returns_iff_halts.mp hret) ⟨_, ReflTransGen.refl, ?_⟩
  exact TransGen.single (loopStep_relabel firstVersionRecord 1)

/-- A chain of registered migrations: each leads to the version that the next one is
registered for. -/
inductive Chain (R : MigrationRegistry) : UInt32 → List StateMigration → UInt32 → Prop
  | nil (v : UInt32) : Chain R v [] v
  | cons {v w : UInt32} {m : StateMigration} {steps : List StateMigration}
      (hreg : R.migrations v = some m) (hrest : Chain R m.toVersion steps w) :
      Chain R v (m :: steps) w

/-- The bytes after each migration of `steps`, once and in order. -/
def applyAll (B : Build) : List StateMigration → Bytes → StateResult Bytes
  | [], raw => .ok raw
  | m :: steps, raw =>
      match m.migrateAgentState raw with
      | .error e => .error e
      | .ok state => applyAll B steps (B.state.encodeToVec state)

/-- A chain of migrations from `version` to the latest one makes the record `state` of
`raw`. -/
def MigratesTo (R : MigrationRegistry) (B : Build) (raw : Bytes) (version : UInt32)
    (state : AgentStateRecord) : Prop :=
  ∃ steps raw', Chain R version steps B.latestSchemaVersion ∧ applyAll B steps raw = .ok raw' ∧
    decodeState B raw' = .ok state

/-- `apply_to_latest` lands on the latest version: a record that it returns comes of a chain of
migrations to that version, and where there is no such chain it returns an error. -/
structure LandsOnLatest (R : MigrationRegistry) (B : Build) (raw : Bytes)
    (currentVersion : UInt32) : Prop where
  migrates : ∀ state, R.Yields B raw currentVersion state →
    R.MigratesTo B raw currentVersion state
  refuses : (¬ ∃ steps, Chain R currentVersion steps B.latestSchemaVersion) →
    ∃ fuel e, R.applyToLatest B fuel raw currentVersion = some (.error e)

/-- One more iteration at the start of a chain. -/
theorem MigratesTo.head {state : AgentStateRecord}
    (hstep : R.loopStep B (raw, v) = some (raw', w)) (h : R.MigratesTo B raw' w state) :
    R.MigratesTo B raw v state := by
  obtain ⟨-, m, migrated, hreg, hmig, heq⟩ := loopStep_eq_some.mp hstep
  cases heq
  obtain ⟨steps, last, hchain, happly, hdec⟩ := h
  refine ⟨m :: steps, last, .cons hreg hchain, ?_, hdec⟩
  simp only [applyAll, hmig, happly]

/-- Where the walk comes to a version, the chain to the latest version comes through it. -/
theorem MigratesTo.of_head {state : AgentStateRecord}
    (hstep : R.loopStep B (raw, v) = some (raw', w)) (h : R.MigratesTo B raw v state) :
    R.MigratesTo B raw' w state := by
  obtain ⟨hlt, m, migrated, hreg, hmig, heq⟩ := loopStep_eq_some.mp hstep
  cases heq
  obtain ⟨steps, last, hchain, happly, hdec⟩ := h
  cases hchain with
  | nil => exact absurd hlt (UInt32.lt_irrefl _)
  | @cons _ _ m' steps hreg' hrest =>
    cases hreg.symm.trans hreg'
    simp only [applyAll, hmig] at happly
    exact ⟨steps, last, hrest, happly, hdec⟩

/-- The walk and the chain make the same record. -/
theorem migratesTo_reaches {state : AgentStateRecord}
    (hr : Reaches (R.loopStep B) (raw, v) (raw', w)) :
    R.MigratesTo B raw v state ↔ R.MigratesTo B raw' w state := by
  generalize hp : (raw, v) = p at hr
  generalize hq : (raw', w) = q at hr
  induction hr using ReflTransGen.head_induction_on generalizing raw v with
  | refl =>
    cases hp.trans hq.symm
    exact Iff.rfl
  | @head p p' hstep _ ih =>
    subst hp
    have hhead : R.MigratesTo B raw v state ↔ R.MigratesTo B p'.1 p'.2 state :=
      ⟨.of_head hstep, .head hstep⟩
    exact hhead.trans (ih rfl)

/-- A chain to the latest version ends the walk. -/
theorem Chain.halts {steps : List StateMigration}
    (h : Chain R v steps B.latestSchemaVersion) : Halts (R.nextVersion B) v := by
  generalize hw : B.latestSchemaVersion = w at h
  induction h with
  | nil v => exact ⟨v, ReflTransGen.refl, nextVersion_of_le (hw ▸ UInt32.le_refl _)⟩
  | @cons v w m steps hreg _ ih =>
    obtain ⟨last, hr, hend⟩ := ih hw
    by_cases hlt : v < B.latestSchemaVersion
    · have hnext : R.nextVersion B v = some m.toVersion := by
        simp [nextVersion, hlt, hreg]
      exact ⟨last, hr.head hnext, hend⟩
    · exact ⟨v, ReflTransGen.refl, nextVersion_of_le (UInt32.not_lt.mp hlt)⟩

/-- More iterations change no result. -/
theorem walk_add {fuel : Nat} {result : StateResult AgentStateRecord} (n : Nat)
    (h : R.walk B fuel raw v = some result) : R.walk B (fuel + n) raw v = some result := by
  induction fuel generalizing raw v with
  | zero =>
    by_cases hlt : v < B.latestSchemaVersion
    · rw [walk, if_pos hlt] at h
      cases h
    · rw [walk_of_not_lt _ hlt] at h
      rw [walk_of_not_lt _ hlt, h]
  | succ fuel ih =>
    have hfuel : fuel + 1 + n = fuel + n + 1 := by omega
    rw [hfuel]
    cases hnext : R.loopStep B (raw, v) with
    | none =>
      obtain ⟨last, hlast⟩ := walk_of_none hnext
      rw [hlast] at h
      rw [hlast, h]
    | some p =>
      rw [walk_of_some _ hnext] at h
      rw [walk_of_some _ hnext]
      exact ih h

/-- `apply_to_latest` returns the record that it comes to at or above the latest version. -/
theorem yields_iff {state : AgentStateRecord} (hle : v ≤ B.latestSchemaVersion) :
    R.Yields B raw v state ↔ ∃ raw' w, Reaches (R.loopStep B) (raw, v) (raw', w) ∧
      B.latestSchemaVersion ≤ w ∧ decodeState B raw' = .ok state := by
  constructor
  · intro hyields
    obtain ⟨fuel, hok⟩ := hyields
    rw [applyToLatest_eq_walk fuel hle] at hok
    obtain ⟨⟨raw', w⟩, hr, hend⟩ := halts_of_walk hok
    obtain ⟨n, hn⟩ := walk_reaches hr
    -- The walk from the end has the same result.
    have hlast : R.walk B (fuel + 1) raw' w = some (.ok state) := by
      rw [← hn, Nat.add_assoc]
      exact walk_add (1 + n) hok
    by_cases hlt : w < B.latestSchemaVersion
    · obtain ⟨e, he⟩ := walk_of_lt hlt hend
      rw [he] at hlast
      cases hlast
    · rw [walk_of_not_lt _ hlt] at hlast
      exact ⟨raw', w, hr, UInt32.not_lt.mp hlt, Option.some.inj hlast⟩
  · intro hreach
    obtain ⟨raw', w, hr, hge, hdec⟩ := hreach
    obtain ⟨n, hn⟩ := walk_reaches hr
    refine ⟨0 + n, ?_⟩
    rw [applyToLatest_eq_walk _ hle, hn, walk_of_not_lt _ (UInt32.not_lt.mpr hge), hdec]

/-- A walk that ends below the latest version returns an error. -/
theorem refused_of_lt (hle : v ≤ B.latestSchemaVersion)
    (hr : Reaches (R.loopStep B) (raw, v) (raw', w)) (hend : R.loopStep B (raw', w) = none)
    (hlt : w < B.latestSchemaVersion) :
    ∃ fuel e, R.applyToLatest B fuel raw v = some (.error e) := by
  obtain ⟨n, hn⟩ := walk_reaches hr
  obtain ⟨e, he⟩ := walk_of_lt hlt hend
  refine ⟨0 + 1 + n, e, ?_⟩
  rw [applyToLatest_eq_walk _ hle, hn, he]

/-- The iterations of a walk are a chain. -/
theorem chain_of_reaches (hr : Reaches (R.loopStep B) (raw, v) (raw', w)) :
    ∃ steps, Chain R v steps w := by
  generalize hp : (raw, v) = p at hr
  generalize hq : (raw', w) = q at hr
  induction hr using ReflTransGen.head_induction_on generalizing raw v with
  | refl =>
    cases hp.trans hq.symm
    exact ⟨[], .nil _⟩
  | @head p p' hstep _ ih =>
    subst hp
    obtain ⟨-, m, state, hreg, -, rfl⟩ := loopStep_eq_some.mp hstep
    obtain ⟨steps, hrest⟩ := ih rfl
    exact ⟨m :: steps, .cons hreg hrest⟩

/-- The bytes after a migration decode to the record that it made. -/
theorem decodeState_of_reaches₁ (hr : Reaches₁ (R.loopStep B) (raw, v) (raw', w)) :
    ∃ state, decodeState B raw' = .ok state := by
  obtain ⟨p, -, hstep⟩ := TransGen.tail'_iff.mp hr
  obtain ⟨-, m, state, -, -, heq⟩ := loopStep_eq_some.mp hstep
  cases heq
  exact ⟨state, decodeState_encodeToVec B state⟩

/-- Along the registered migrations the version jumps above the latest one. -/
def JumpsOver (R : MigrationRegistry) (B : Build) (currentVersion : UInt32) : Prop :=
  ∃ version, Reaches₁ (R.nextVersion B) currentVersion version ∧ B.latestSchemaVersion < version

/-- From a version above the latest one, to which the registered migrations jump, they lead back
to the latest one. The walk has ended before it takes such a migration. -/
def LeadsBack (R : MigrationRegistry) (B : Build) (currentVersion : UInt32) : Prop :=
  ∃ version steps, Reaches₁ (R.nextVersion B) currentVersion version ∧
    B.latestSchemaVersion < version ∧ Chain R version steps B.latestSchemaVersion

/-- From a version above the latest one there is no iteration. -/
theorem loopStep_of_lt (h : B.latestSchemaVersion < v) : R.loopStep B (raw, v) = none :=
  if_neg (UInt32.lt_asymm h)

/-- A walk that has jumped above the latest version has left the version it starts from. -/
theorem reaches₁_of_lt (hle : v ≤ B.latestSchemaVersion)
    (hr : Reaches (R.loopStep B) (raw, v) (raw', w)) (hgt : B.latestSchemaVersion < w) :
    Reaches₁ (R.loopStep B) (raw, v) (raw', w) := by
  rcases reflTransGen_iff_eq_or_transGen.mp hr with heq | hr₁
  · cases heq
    exact absurd hgt (UInt32.not_lt.mpr hle)
  · exact hr₁

/-- A version above the latest one is refused. -/
theorem landsOnLatest_of_lt (hgt : B.latestSchemaVersion < v) : LandsOnLatest R B raw v := by
  have hrefused : ∀ fuel, R.applyToLatest B fuel raw v = some (.error (unsupported B v)) :=
    fun fuel => if_pos hgt
  refine ⟨?_, fun _ => ⟨0, _, hrefused 0⟩⟩
  intro state hyields
  obtain ⟨fuel, hok⟩ := hyields
  rw [hrefused] at hok
  cases hok

/-- Where `apply_to_latest` lands on the latest version, its loop comes to an end. -/
theorem LandsOnLatest.returns (h : LandsOnLatest R B raw v) : R.Returns B raw v := by
  by_cases hchain : ∃ steps, Chain R v steps B.latestSchemaVersion
  · obtain ⟨steps, hchain⟩ := hchain
    exact returns_iff_halts.mpr (tracks_nextVersion.halts hchain.halts)
  · obtain ⟨fuel, e, herr⟩ := h.refuses hchain
    exact ⟨fuel, .error e, herr⟩

/-- Where a migration fails on the way, `apply_to_latest` returns its error and no record. -/
theorem FailsOnTheWay.landsOnLatest (h : R.FailsOnTheWay B raw v) : LandsOnLatest R B raw v := by
  by_cases hle : v ≤ B.latestSchemaVersion
  · obtain ⟨raw', w, m, e, hr, hlt, hreg, hmig⟩ := h
    have hend : R.loopStep B (raw', w) = none := by
      simp [loopStep, hlt, hreg, hmig]
    refine ⟨fun state hyields => ?_, fun _ => refused_of_lt hle hr hend hlt⟩
    -- A record comes of an end at or above the latest version, and a loop has one end.
    obtain ⟨raw₁, w₁, hr₁, hge, -⟩ := (yields_iff hle).mp hyields
    have hend₁ : R.loopStep B (raw₁, w₁) = none := if_neg (UInt32.not_lt.mpr hge)
    cases end_unique hr hend hr₁ hend₁
    exact absurd hlt (UInt32.not_lt.mpr hge)
  · exact landsOnLatest_of_lt (UInt32.not_le.mp hle)

/-- A walk that comes to an end, where the versions do not jump over the latest one, lands on
it. -/
theorem landsOnLatest_of_not_jumpsOver (hends : R.Returns B raw v) (hno : ¬ R.JumpsOver B v) :
    LandsOnLatest R B raw v := by
  by_cases hle : v ≤ B.latestSchemaVersion
  · -- An end at or above the latest version is at it.
    have hat : ∀ {raw' w}, Reaches (R.loopStep B) (raw, v) (raw', w) →
        B.latestSchemaVersion ≤ w → w = B.latestSchemaVersion := by
      intro raw' w hr hge
      by_contra hne
      have hgt : B.latestSchemaVersion < w := UInt32.lt_of_le_of_ne hge (Ne.symm hne)
      exact hno ⟨w, tracks_nextVersion.reaches₁ (reaches₁_of_lt hle hr hgt), hgt⟩
    refine ⟨fun state hyields => ?_, fun hchain => ?_⟩
    · obtain ⟨raw', w, hr, hge, hdec⟩ := (yields_iff hle).mp hyields
      cases hat hr hge
      exact (migratesTo_reaches hr).mpr ⟨[], raw', .nil _, rfl, hdec⟩
    · obtain ⟨⟨raw', w⟩, hr, hend⟩ := returns_iff_halts.mp hends
      by_cases hlt : w < B.latestSchemaVersion
      · exact refused_of_lt hle hr hend hlt
      · cases hat hr (UInt32.not_lt.mp hlt)
        exact absurd (chain_of_reaches hr) hchain
  · exact landsOnLatest_of_lt (UInt32.not_le.mp hle)

/-- Where the walk has jumped above the latest version, it lands on that version iff a chain from
where it stands leads back to it and makes the same record again. -/
theorem landsOnLatest_iff_of_jump (hr : Reaches₁ (R.loopStep B) (raw, v) (raw', w))
    (hgt : B.latestSchemaVersion < w) :
    LandsOnLatest R B raw v ↔
      ∃ state, decodeState B raw' = .ok state ∧ R.MigratesTo B raw' w state := by
  have hle : v ≤ B.latestSchemaVersion := by
    refine UInt32.not_lt.mp fun hlt => ?_
    exact not_reaches₁_of_none (loopStep_of_lt hlt) hr
  have hr' := hr.to_reflTransGen
  obtain ⟨state, hdec⟩ := decodeState_of_reaches₁ hr
  constructor
  · intro hlands
    have hyields : R.Yields B raw v state :=
      (yields_iff hle).mpr ⟨raw', w, hr', UInt32.le_of_lt hgt, hdec⟩
    exact ⟨state, hdec, (migratesTo_reaches hr').mp (hlands.migrates state hyields)⟩
  · intro hback
    obtain ⟨state', hdec', hback⟩ := hback
    refine ⟨fun other hyields => ?_, fun hno => ?_⟩
    · -- The record is the one decoded where the walk ends.
      obtain ⟨raw₁, w₁, hr₁, hge, hdec₁⟩ := (yields_iff hle).mp hyields
      have hend₁ : R.loopStep B (raw₁, w₁) = none := if_neg (UInt32.not_lt.mpr hge)
      cases end_unique hr' (loopStep_of_lt hgt) hr₁ hend₁
      cases hdec'.symm.trans hdec₁
      exact (migratesTo_reaches hr').mpr hback
    · obtain ⟨steps, -, hchain, -⟩ := (migratesTo_reaches hr').mpr hback
      exact absurd ⟨steps, hchain⟩ hno

/-- Where no migration fails, the walk goes wherever the versions go. A jump over the latest
version that lands on it then leads back. -/
theorem LandsOnLatest.leadsBack (h : LandsOnLatest R B raw v) (hfine : ¬ R.FailsOnTheWay B raw v)
    (hjump : R.JumpsOver B v) : R.LeadsBack B v := by
  obtain ⟨w, hnext, hgt⟩ := hjump
  have hgo : ∀ p, Reaches (R.loopStep B) (raw, v) p → R.loopStep B p = none →
      R.nextVersion B p.2 = none := by
    intro p hr hend
    by_contra hmore
    exact hfine (failsOnTheWay_iff.mpr ⟨p, hr, hend, hmore⟩)
  obtain ⟨⟨raw', w'⟩, hr, hkey⟩ := tracks_nextVersion.lifts hgo hnext.to_reflTransGen
  cases hkey
  have hle : v ≤ B.latestSchemaVersion := by
    refine UInt32.not_lt.mp fun hlt => ?_
    exact not_reaches₁_of_none (nextVersion_of_le (UInt32.le_of_lt hlt)) hnext
  have hr₁ := reaches₁_of_lt hle hr hgt
  obtain ⟨state, -, steps, -, hchain, -⟩ := (landsOnLatest_iff_of_jump hr₁ hgt).mp h
  exact ⟨w', steps, hnext, hgt, hchain⟩

/-- When `apply_to_latest` lands on the latest version, told by the versions: it is enough that a
migration fails on the way, or that no version below the latest one comes back and none above it
is reached. Where the registered migrations do not lead back from above the latest version, this
is also necessary; `landsOnLatest_iff_of_jump` settles the runs where they do. -/
theorem landsOnLatest_of_versions :
    (R.FailsOnTheWay B raw v ∨ ¬ Revisits (R.nextVersion B) v ∧ ¬ R.JumpsOver B v →
        LandsOnLatest R B raw v) ∧
      (¬ R.LeadsBack B v → (LandsOnLatest R B raw v ↔
        R.FailsOnTheWay B raw v ∨ ¬ Revisits (R.nextVersion B) v ∧ ¬ R.JumpsOver B v)) := by
  have henough : R.FailsOnTheWay B raw v ∨ ¬ Revisits (R.nextVersion B) v ∧ ¬ R.JumpsOver B v →
      LandsOnLatest R B raw v := by
    intro hcond
    rcases hcond with hfail | ⟨hacyclic, hno⟩
    · exact hfail.landsOnLatest
    · exact landsOnLatest_of_not_jumpsOver (returns_iff.mpr (.inl hacyclic)) hno
  refine ⟨henough, fun hforward => ⟨fun hlands => ?_, henough⟩⟩
  by_cases hfail : R.FailsOnTheWay B raw v
  · exact .inl hfail
  · rcases returns_iff.mp hlands.returns with hacyclic | hfail'
    · exact .inr ⟨hacyclic, fun hjump => hforward (hlands.leadsBack hfail hjump)⟩
    · exact absurd hfail' hfail

/-- With latest version 2, a migration from version 1 to version 3 passes over it: the record is
returned, and no chain of migrations leads to version 2. -/
theorem not_landsOnLatest_skip :
    ¬ LandsOnLatest (new.register (relabel 3)) secondVersionBuild
        (secondVersionBuild.state.encodeToVec firstVersionRecord) 1 := by
  intro hlands
  have hbelow : (1 : UInt32) ≤ secondVersionBuild.latestSchemaVersion := by decide
  have habove : secondVersionBuild.latestSchemaVersion ≤ (3 : UInt32) := by decide
  have hstep := loopStep_relabel firstVersionRecord 3
  have hyields : (new.register (relabel 3)).Yields secondVersionBuild
      (secondVersionBuild.state.encodeToVec firstVersionRecord) 1 firstVersionRecord := by
    refine (yields_iff hbelow).mpr ⟨_, 3, .single hstep, habove, ?_⟩
    exact decodeState_encodeToVec secondVersionBuild firstVersionRecord
  have hback := (migratesTo_reaches (.single hstep)).mp (hlands.migrates _ hyields)
  -- Nothing is registered for version 3.
  have hnone : (new.register (relabel 3)).migrations 3 = none := by decide
  obtain ⟨steps, last, hchain, -⟩ := hback
  generalize hend : secondVersionBuild.latestSchemaVersion = latest at hchain
  cases hchain with
  | nil => exact absurd hend (by decide)
  | cons hreg hrest =>
    rw [hnone] at hreg
    cases hreg

/-- A registry that leads from version 1 to version 3 and back to version 2. -/
def overAndBack : MigrationRegistry :=
  (new.register (relabel 3)).register ⟨3, 2, decodeState secondVersionBuild⟩

/-- With latest version 2 the walk along `overAndBack` jumps over that version and lands on it:
the record that it returns is the one that the way back makes again. -/
theorem landsOnLatest_overAndBack :
    LandsOnLatest overAndBack secondVersionBuild
      (secondVersionBuild.state.encodeToVec firstVersionRecord) 1 := by
  have hbelow : (1 : UInt32) < secondVersionBuild.latestSchemaVersion := by decide
  have habove : secondVersionBuild.latestSchemaVersion < (3 : UInt32) := by decide
  have hdec := decodeState_encodeToVec secondVersionBuild firstVersionRecord
  have hjump : overAndBack.loopStep secondVersionBuild
      (secondVersionBuild.state.encodeToVec firstVersionRecord, 1)
      = some (secondVersionBuild.state.encodeToVec firstVersionRecord, 3) :=
    loopStep_eq_some.mpr ⟨hbelow, relabel 3, firstVersionRecord, rfl, hdec, rfl⟩
  refine (landsOnLatest_iff_of_jump (.single hjump) habove).mpr ⟨firstVersionRecord, hdec, ?_⟩
  -- The way back is the one migration from version 3.
  refine ⟨[⟨3, 2, decodeState secondVersionBuild⟩], _, .cons rfl (.nil _), ?_, hdec⟩
  simp only [applyAll, hdec]

end MigrationRegistry

end SwarmRuntime.State
