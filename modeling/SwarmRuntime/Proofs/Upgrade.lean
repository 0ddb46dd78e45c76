import SwarmRuntime.Proofs.Migrations

/-!
# `SwarmRuntime.Proofs.Upgrade`: migrations over several versions of the binary

The latest schema version grows with the binary, and the registry with it. A record can be
migrated by each version of the binary on the way, or by the last one alone. `staged_upgrade`
says that both come to the same result, an error included, when the newer registry keeps the
older migrations (`Keeps`) and none of these jumps over the version in between. The walk of the
newer binary passes through the record that the older one returned.

`complete_migrates` is what a registry without gaps is good for: with a migration from each version
to the next one, every record comes to the latest version, in one iteration for each version, and
with every property that the migrations keep.
-/

set_option autoImplicit false

namespace SwarmRuntime.State

open Relation StateTransition SwarmRuntime.Lib.Loop

/-- The binary with the latest schema version `latest`. -/
def Build.upTo (B : Build) (latest : UInt32) : Build := { B with latestSchemaVersion := latest }

namespace MigrationRegistry

variable {R R' : MigrationRegistry} {B : Build} {raw raw' : Bytes} {v w L L' : UInt32}
  {state : AgentStateRecord}

/-! ### Two versions of the binary -/

/-- The registry `R'` keeps the migrations that `R` has for versions below `latest`. -/
def Keeps (R' R : MigrationRegistry) (latest : UInt32) : Prop :=
  ∀ u m, u < latest → R.migrations u = some m → R'.migrations u = some m

/-- No migration from a version below `latest` leads above `latest`. -/
def StopsAt (R : MigrationRegistry) (latest : UInt32) : Prop :=
  ∀ u m, u < latest → R.migrations u = some m → m.toVersion ≤ latest

/-- An iteration of the older binary is one of the newer binary. -/
theorem loopStep_upTo {p q : Bytes × UInt32} (hL : L ≤ L') (hkeeps : Keeps R' R L)
    (h : R.loopStep (B.upTo L) p = some q) : R'.loopStep (B.upTo L') p = some q := by
  obtain ⟨hlt, m, next, hreg, hmigrate, heq⟩ := loopStep_eq_some.mp h
  have hreg' : R'.migrations p.2 = some m := hkeeps p.2 m hlt hreg
  exact loopStep_eq_some.mpr ⟨UInt32.lt_of_lt_of_le hlt hL, m, next, hreg', hmigrate, heq⟩

/-- So is the walk of the older binary, by induction on its iterations. -/
theorem reaches_upTo {p q : Bytes × UInt32} (hL : L ≤ L') (hkeeps : Keeps R' R L)
    (h : Reaches (R.loopStep (B.upTo L)) p q) : Reaches (R'.loopStep (B.upTo L')) p q := by
  induction h with
  | refl => exact .refl
  | tail _ hstep ih => exact ih.tail (loopStep_upTo hL hkeeps hstep)

/-- A walk from below that returns a record, and does not jump, ends at the latest version, with
the bytes of the record. -/
theorem reaches_of_yields (hv : v < B.latestSchemaVersion)
    (hstops : StopsAt R B.latestSchemaVersion) (h : R.Yields B raw v state) :
    Reaches (R.loopStep B) (raw, v) (B.state.encodeToVec state, B.latestSchemaVersion) := by
  obtain ⟨raw', w, hreaches, hge, hdecode⟩ := (yields_iff (UInt32.le_of_lt hv)).mp h
  rcases reflTransGen_iff_eq_or_transGen.mp hreaches with heq | htrans
  · cases heq
    exact absurd hv (UInt32.not_lt.mpr hge)
  · -- The last iteration lands on the latest version, and encodes the record.
    obtain ⟨⟨raw'', u⟩, -, hstep⟩ := TransGen.tail'_iff.mp htrans
    obtain ⟨hlt, m, last, hreg, -, heq⟩ := loopStep_eq_some.mp hstep
    cases heq
    have hland : m.toVersion = B.latestSchemaVersion :=
      UInt32.le_antisymm (hstops u m hlt hreg) hge
    rw [decodeState_encodeToVec, Except.ok.injEq] at hdecode
    rw [← hdecode, ← hland]
    exact hreaches

/-- The walk has the same results from each point that it passes. -/
theorem applyToLatest_reaches {result : StateResult AgentStateRecord}
    (hv : v ≤ B.latestSchemaVersion) (hw : w ≤ B.latestSchemaVersion)
    (h : Reaches (R.loopStep B) (raw, v) (raw', w)) :
    (∃ fuel, R.applyToLatest B fuel raw v = some result) ↔
      ∃ fuel, R.applyToLatest B fuel raw' w = some result := by
  obtain ⟨n, hn⟩ := walk_reaches h
  constructor
  · rintro ⟨fuel, hfuel⟩
    refine ⟨fuel, ?_⟩
    rw [applyToLatest_eq_walk fuel hv] at hfuel
    rw [applyToLatest_eq_walk fuel hw, ← hn]
    exact walk_add n hfuel
  · rintro ⟨fuel, hfuel⟩
    refine ⟨fuel + n, ?_⟩
    rw [applyToLatest_eq_walk fuel hw] at hfuel
    rw [applyToLatest_eq_walk _ hv, hn]
    exact hfuel

/-- A record that the binary of version `L` has migrated comes to the same result with the binary
of version `L'` as the original does: the same record, the same error, or no end. -/
theorem staged_upgrade (hL : L ≤ L') (hv : v < L) (hkeeps : Keeps R' R L) (hstops : StopsAt R L)
    (h : R.Yields (B.upTo L) raw v state) (result : StateResult AgentStateRecord) :
    (∃ fuel, R'.applyToLatest (B.upTo L') fuel (B.state.encodeToVec state) L = some result) ↔
      ∃ fuel, R'.applyToLatest (B.upTo L') fuel raw v = some result := by
  have hv' : v ≤ L' := UInt32.le_of_lt (UInt32.lt_of_lt_of_le hv hL)
  have holder := reaches_of_yields (B := B.upTo L) hv hstops h
  have hnewer : Reaches (R'.loopStep (B.upTo L')) (raw, v) (B.state.encodeToVec state, L) :=
    reaches_upTo hL hkeeps holder
  exact (applyToLatest_reaches (B := B.upTo L') hv' hL hnewer).symm

/-- A new migration leaves the others as they are. -/
theorem migrations_register_of_ne (R : MigrationRegistry) {m : StateMigration} {u : UInt32}
    (h : u ≠ m.fromVersion) : (R.register m).migrations u = R.migrations u := by
  unfold register
  exact Function.update_of_ne h (some m) R.migrations

/-- The registry of a binary with the latest schema version 2. -/
def secondVersionRegistry : MigrationRegistry := new.register (relabel 2)

/-- The registry of the next binary: it has a migration from version 2 to version 3 as well. -/
def thirdVersionRegistry : MigrationRegistry :=
  secondVersionRegistry.register ⟨2, 3, decodeState secondVersionBuild⟩

/-- A migration that `secondVersionRegistry` finds is `relabel 2`. -/
theorem secondVersionRegistry_eq_some {u : UInt32} {m : StateMigration}
    (h : secondVersionRegistry.migrations u = some m) : u = 1 ∧ m = relabel 2 := by
  by_cases hu : u = 1
  · subst hu
    have hone : secondVersionRegistry.migrations 1 = some (relabel 2) :=
      migrations_register new (relabel 2)
    rw [hone, Option.some.injEq] at h
    exact ⟨rfl, h.symm⟩
  · have hnone : secondVersionRegistry.migrations u = none := migrations_register_of_ne new hu
    rw [hnone] at h
    cases h

/-- The next binary keeps it. -/
theorem thirdVersionRegistry_one : thirdVersionRegistry.migrations 1 = some (relabel 2) := by
  have hne : (1 : UInt32) ≠ 2 := by decide
  calc thirdVersionRegistry.migrations 1
      = secondVersionRegistry.migrations 1 :=
        migrations_register_of_ne secondVersionRegistry hne
    _ = some (relabel 2) := migrations_register new (relabel 2)

/-- A record of version 1 is migrated to version 3 by way of version 2, or at once. -/
theorem staged_upgrade_third :
    (∃ fuel, thirdVersionRegistry.applyToLatest (secondVersionBuild.upTo 3) fuel
        (secondVersionBuild.state.encodeToVec firstVersionRecord) 2
      = some (.ok firstVersionRecord)) ↔
    ∃ fuel, thirdVersionRegistry.applyToLatest (secondVersionBuild.upTo 3) fuel
        (secondVersionBuild.state.encodeToVec firstVersionRecord) 1
      = some (.ok firstVersionRecord) := by
  have hkeeps : Keeps thirdVersionRegistry secondVersionRegistry 2 := by
    intro u m _ h
    obtain ⟨rfl, rfl⟩ := secondVersionRegistry_eq_some h
    exact thirdVersionRegistry_one
  have hstops : StopsAt secondVersionRegistry 2 := by
    intro u m _ h
    obtain ⟨rfl, rfl⟩ := secondVersionRegistry_eq_some h
    exact UInt32.le_refl 2
  have hyields : secondVersionRegistry.Yields secondVersionBuild
      (secondVersionBuild.state.encodeToVec firstVersionRecord) 1 firstVersionRecord := by
    have hbelow : (1 : UInt32) ≤ secondVersionBuild.latestSchemaVersion := by decide
    have hstep := loopStep_relabel firstVersionRecord 2
    refine (yields_iff hbelow).mpr ⟨_, 2, .single hstep, UInt32.le_refl 2, ?_⟩
    exact decodeState_encodeToVec secondVersionBuild firstVersionRecord
  exact staged_upgrade (B := secondVersionBuild) (by decide) (by decide) hkeeps hstops hyields
    (.ok firstVersionRecord)

/-! ### A registry without gaps -/

/-- From `v` on there is a migration from each version to the next one. On the records with the
property `p` it succeeds, and it keeps the property. -/
def Complete (R : MigrationRegistry) (B : Build) (p : AgentStateRecord → Prop) (v : UInt32) :
    Prop :=
  ∀ u, v ≤ u → u < B.latestSchemaVersion → ∃ m, R.migrations u = some m ∧ m.toVersion = u + 1 ∧
    ∀ state, p state →
      ∃ next, m.migrateAgentState (B.state.encodeToVec state) = .ok next ∧ p next

/-- The next version is not behind the latest one. -/
theorem toNat_add_one (h : v < L) : (v + 1).toNat = v.toNat + 1 := by
  have hlt := UInt32.lt_iff_toNat_lt.mp h
  have hbound := L.toNat_lt
  have hone : (1 : UInt32).toNat = 1 := rfl
  rw [UInt32.toNat_add, hone, Nat.mod_eq_of_lt (by omega)]

/-- Every record of a version without gaps above it is brought to the latest version, in as many
iterations as there are versions in between. -/
theorem complete_migrates {p : AgentStateRecord → Prop} (hcomplete : Complete R B p v)
    (hv : v ≤ B.latestSchemaVersion) (hp : p state) :
    ∃ last, R.applyToLatest B (B.latestSchemaVersion.toNat - v.toNat)
      (B.state.encodeToVec state) v = some (.ok last) ∧ p last := by
  rw [applyToLatest_eq_walk _ hv]
  generalize hn : B.latestSchemaVersion.toNat - v.toNat = n
  induction n generalizing v state with
  | zero =>
    have hle := UInt32.le_iff_toNat_le.mp hv
    have hdone : ¬ v < B.latestSchemaVersion := by
      rw [UInt32.lt_iff_toNat_lt]
      omega
    exact ⟨state, by rw [walk_of_not_lt _ hdone, decodeState_encodeToVec], hp⟩
  | succ n ih =>
    have hlt : v < B.latestSchemaVersion := by
      rw [UInt32.lt_iff_toNat_lt]
      omega
    obtain ⟨m, hreg, hto, hkeeps⟩ := hcomplete v (UInt32.le_refl v) hlt
    obtain ⟨next, hmigrate, hnext⟩ := hkeeps state hp
    have hstep : R.loopStep B (B.state.encodeToVec state, v)
        = some (B.state.encodeToVec next, v + 1) :=
      loopStep_eq_some.mpr ⟨hlt, m, next, hreg, hmigrate, by rw [hto]⟩
    have hsucc := toNat_add_one hlt
    have hlt' := UInt32.lt_iff_toNat_lt.mp hlt
    have hrest : Complete R B p (v + 1) := by
      intro u hu
      refine hcomplete u (UInt32.le_trans ?_ hu)
      rw [UInt32.le_iff_toNat_le]
      omega
    have hv' : v + 1 ≤ B.latestSchemaVersion := by
      rw [UInt32.le_iff_toNat_le]
      omega
    rw [walk_of_some n hstep]
    exact ih hrest hv' hnext (by omega)

/-- The binary with latest version 3 takes a record of version 1 through two migrations. -/
theorem complete_migrates_third :
    ∃ last, thirdVersionRegistry.applyToLatest (secondVersionBuild.upTo 3) 2
      (secondVersionBuild.state.encodeToVec firstVersionRecord) 1 = some (.ok last) ∧
        last.schemaVersion = 1 := by
  have hsame : ∀ state : AgentStateRecord, state.schemaVersion = 1 →
      ∃ next, decodeState secondVersionBuild (secondVersionBuild.state.encodeToVec state)
        = .ok next ∧ next.schemaVersion = 1 :=
    fun state h => ⟨state, decodeState_encodeToVec secondVersionBuild state, h⟩
  have hcomplete : Complete thirdVersionRegistry (secondVersionBuild.upTo 3)
      (fun state => state.schemaVersion = 1) 1 := by
    intro u hu hlt
    -- The versions from 1 on and below 3 are 1 and 2.
    have hcases : u = 1 ∨ u = 2 := by
      have hlow : (1 : UInt32).toNat ≤ u.toNat := UInt32.le_iff_toNat_le.mp hu
      have hhigh : u.toNat < (3 : UInt32).toNat := UInt32.lt_iff_toNat_lt.mp hlt
      simp only [← UInt32.toNat_inj]
      have hone : (1 : UInt32).toNat = 1 := rfl
      have htwo : (2 : UInt32).toNat = 2 := rfl
      have hthree : (3 : UInt32).toNat = 3 := rfl
      omega
    cases hcases with
    | inl hone =>
      subst hone
      exact ⟨relabel 2, thirdVersionRegistry_one, rfl, hsame⟩
    | inr htwo =>
      subst htwo
      exact ⟨_, migrations_register secondVersionRegistry _, rfl, hsame⟩
  exact complete_migrates hcomplete (by decide) rfl

end MigrationRegistry

end SwarmRuntime.State
