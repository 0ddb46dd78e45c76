import Mathlib.Logic.Function.Basic
import SwarmRuntime.State.Store

/-!
# `SwarmRuntime.State.Migrations`: schema migrations (`migrations.rs`)

The registry of migration steps, keyed by `from_version`, and the walk that brings the bytes of a
record to `LATEST_SCHEMA_VERSION`. The walk is a loop that the versions of the steps need not
bring to an end, so it takes fuel, one unit for each iteration. `none` is a walk that is not
over yet.

No function of the crate calls `apply_to_latest`.
-/

set_option autoImplicit false

namespace SwarmRuntime.State

/-- A single schema migration step. -/
structure StateMigration where
  fromVersion : UInt32
  toVersion : UInt32
  migrateAgentState : Bytes → StateResult AgentStateRecord

/-- Registry of all known migrations, keyed by `from_version`. -/
structure MigrationRegistry where
  migrations : UInt32 → Option StateMigration

namespace MigrationRegistry

/-- An empty registry. -/
def new : MigrationRegistry := ⟨fun _ => none⟩

/-- A registry with all known migrations: there are none yet. -/
def withAllMigrations : MigrationRegistry := new

/-- Register a migration step. A second step from one version replaces the first. -/
def register (R : MigrationRegistry) (migration : StateMigration) : MigrationRegistry :=
  ⟨Function.update R.migrations migration.fromVersion (some migration)⟩

/-- The error for a version that the registry does not bring to the latest one. -/
def unsupported (B : Build) (found : UInt32) : StateError :=
  .unsupportedSchemaVersion "AgentStateRecord" found B.latestSchemaVersion

/-- `AgentStateRecord::decode(raw).map_err(StateError::ProtoError)` -/
def decodeState (B : Build) (raw : Bytes) : StateResult AgentStateRecord :=
  match B.state.decode raw with
  | .ok state => .ok state
  | .error e => .error (.protoError e)

/-- The loop of `apply_to_latest`, at the bytes `raw` of the version `version`. -/
def walk (R : MigrationRegistry) (B : Build) :
    Nat → Bytes → UInt32 → Option (StateResult AgentStateRecord)
  | fuel, raw, version =>
      if version < B.latestSchemaVersion then
        match fuel with
        | 0 => none
        | fuel + 1 =>
            match R.migrations version with
            -- No step leads on from this version.
            | none => some (.error (unsupported B version))
            | some migration =>
                match migration.migrateAgentState raw with
                | .error e => some (.error e)
                | .ok migrated =>
                    -- The step names the version it produces, and nothing checks that it is higher.
                    walk R B fuel (B.state.encodeToVec migrated) migration.toVersion
      else some (decodeState B raw)

/-- Apply all necessary migrations to bring `raw` from `currentVersion` to the latest
version. -/
def applyToLatest (R : MigrationRegistry) (B : Build) (fuel : Nat) (raw : Bytes)
    (currentVersion : UInt32) : Option (StateResult AgentStateRecord) :=
  if B.latestSchemaVersion < currentVersion then some (.error (unsupported B currentVersion))
  else if currentVersion = B.latestSchemaVersion then some (decodeState B raw)
  else R.walk B fuel raw currentVersion

/-- `apply_to_latest` returns `Ok(state)`, after enough iterations. -/
def Yields (R : MigrationRegistry) (B : Build) (raw : Bytes) (currentVersion : UInt32)
    (state : AgentStateRecord) : Prop :=
  ∃ fuel, R.applyToLatest B fuel raw currentVersion = some (.ok state)

end MigrationRegistry

end SwarmRuntime.State
