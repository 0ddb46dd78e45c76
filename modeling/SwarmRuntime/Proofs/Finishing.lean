import SwarmRuntime.Proofs.HourlyLimit

/-!
# `SwarmRuntime.Proofs.Finishing`: the threads of a budget gate finish

A thread waits for the mutex only, and the one that has locked it waits for nothing. `GateMoves`
leaves crashes out, because a thread that crashes inside leaves the mutex locked.

* `trace_length_le`: whatever it is answered, a thread makes at most eleven operations for each of
  its API calls, and one more for each entry that its resets visit. `Thread.left` is the measure,
  and every operation takes one from it.
* `gate_finishes`: as long as a thread has not finished, some thread can move.

A schedule that goes on while it can therefore ends with every thread at its end.
-/

set_option autoImplicit false

namespace SwarmRuntime.Proofs

open SwarmRuntime.Lib SwarmRuntime.Inference SwarmRuntime.Lib.Interaction

/-! ### The measure -/

/-- The entries that an operation lists for a reset to visit. -/
def visits : (op : GateOp) → op.Result → Nat
  | .iterTenants, (tenants : List String) => tenants.length
  | _, _ => 0

/-- The entries that the resets of a transcript visit. -/
def visitsIn : Transcript GateOp.Result → Nat
  | [] => 0
  | ⟨op, r⟩ :: tr => visits op r + visitsIn tr

/-- The operations that are left of an API call at its place, without the entries that are still
to be listed. -/
def Place.left : Place → Nat
  | .idle => 0
  | .charging => 1
  | .admitted => 2
  | .checkingTenant => 3
  | .checking => 4
  | .leaving => 5
  | .renewed _ => 6
  | .visiting tenants => 7 + tenants.length
  | .cleared => 8
  | .ended => 9
  | .locked _ => 10

/-- The operations that are left of a thread. -/
def Thread.left (x : Thread) : Nat := x.place.left + 11 * x.apis.length

section
variable {lim : GateLimits} {x x' : Thread} {op : GateOp} {r : op.Result}

/-- Every operation of a thread takes one from what is left, and a list of entries adds to it. -/
theorem Moves.left_lt (h : Moves lim x op r x') : x'.left + 1 ≤ x.left + visits op r := by
  cases h with
  | lock before api apis start =>
    show 10 + 11 * apis.length + 1 ≤ 0 + 11 * (apis.length + 1) + 0
    omega
  | iter api apis tenants =>
    show 7 + tenants.length + 11 * apis.length + 1 ≤ 8 + 11 * apis.length + tenants.length
    omega
  | clearTenant api apis t tenants =>
    show 7 + tenants.length + 11 * apis.length + 1
      ≤ 7 + (tenants.length + 1) + 11 * apis.length + 0
    omega
  | _ =>
    simp only [Thread.left, Place.left, visits]
    omega

/-- What a thread has done and what is left of it stay within its share. -/
theorem trace_length_le {tr : Transcript GateOp.Result} {rest : GateProg Unit}
    (h : Trace (x.code lim) tr rest) : tr.length ≤ x.left + visitsIn tr := by
  induction tr generalizing x with
  | nil => exact Nat.zero_le _
  | cons e tr ih =>
    generalize hcode : x.code lim = p at h
    cases h with
    | @cons c next r t q hrest =>
      obtain ⟨x', hmoves, hnext⟩ := moves_of_code hcode r
      rw [hnext] at hrest
      have hlater := ih hrest
      have hlt := hmoves.left_lt
      show tr.length + 1 ≤ x.left + (visits c r + visitsIn tr)
      omega

/-- A thread is at its end, or about to make an operation. -/
theorem code_cases (lim : GateLimits) (x : Thread) :
    x.code lim = done () ∨ ∃ op next, x.code lim = ask op next := by
  obtain ⟨place, api, apis⟩ := x
  cases place with
  | idle =>
    cases apis with
    | nil => exact .inl rfl
    | cons api apis => exact .inr ⟨_, _, worker_cons lim api apis⟩
  | visiting tenants =>
    cases tenants with
    | nil => exact .inr ⟨_, _, rfl⟩
    | cons t tenants => exact .inr ⟨_, _, rfl⟩
  | _ => exact .inr ⟨_, _, rfl⟩

/-- The holder of the mutex is about to make an operation, and it is not the lock. -/
theorem code_of_inside (lim : GateLimits) (h : x.place.inside = true) :
    ∃ op next, x.code lim = ask op next ∧ op ≠ .lockWindow := by
  obtain ⟨place, api, apis⟩ := x
  cases place with
  | idle | checking | checkingTenant | admitted | charging => cases h
  | visiting tenants =>
    cases tenants with
    | nil => exact ⟨_, _, rfl, nofun⟩
    | cons t tenants => exact ⟨_, _, rfl, nofun⟩
  | _ => exact ⟨_, _, rfl, nofun⟩

end

/-! ### The pool -/

section
variable {ι : Type} [DecidableEq ι] {lim : GateLimits} {P P' : Workers ι}
  {ms : List (WorkersMove ι)} {t₀ : Instant} {th : ι → Thread}

omit [DecidableEq ι] in
/-- The runs in which no thread crashes. -/
structure GateMoves (P : Workers ι) (mv : WorkersMove ι) : Prop extends
    Workers.Scheduled P mv where
  alive : ∀ i, mv ≠ .crash i

theorem run_alive (h : Run (Workers.step lim) GateMoves (Workers.start t₀) ms P) {i : ι}
    {p : Proc GateOp.Result (List ApiCall) Unit} (hp : P.procs i = some p) : p.crashed = false := by
  induction h generalizing p with
  | nil => cases hp
  | @snoc ms P P' mv hr hok hs ih =>
    cases mv with
    | start j apis =>
      obtain ⟨hnone, rfl⟩ := Pool.step_start.mp hs
      rw [Pool.procs_setProc] at hp
      split at hp
      · cases hp
        rfl
      · exact ih hp
    | serve j w =>
      obtain ⟨apis, tr, op, next, hj, rfl⟩ := Pool.step_serve.mp hs
      rw [Pool.procs_setProc] at hp
      split at hp
      · cases hp
        rfl
      · exact ih hp
    | crash j => exact absurd rfl (hok.alive j)
    | env n =>
      rw [Pool.step_env.mp hs] at hp
      exact ih hp

/-- Over a run the threads stand at their places, and at most one of them is inside. -/
theorem run_timed (h : Run (Workers.step lim) GateMoves (Workers.start t₀) ms P) :
    ∃ th, Stands lim P th ∧ Timed lim P.shared th := by
  have hcosts (apis : List ApiCall) : Costs (2 ^ 64) apis := fun api _ =>
    Nat.le_of_lt api.tokens.toNat_lt
  have hallowed (P : Workers ι) (mv : WorkersMove ι) (hok : GateMoves P mv) :
      Metering (2 ^ 64) P mv ∧ Visiting VisitsOnce P mv :=
    ⟨⟨hok.toScheduled, fun _ _ _ => hcosts _⟩, hok.visit⟩
  have hstart : Timed lim (.new t₀ : GateCells ι) fun _ => ⟨.idle, ⟨"", 0⟩, []⟩ :=
    ⟨fun _ => ⟨nofun, nofun⟩, nofun, nofun, nofun, Nat.le_refl _, nofun⟩
  exact run_invariant (Timed lim) hallowed (fun s th s' th' htimed hadvance =>
    hadvance.timed (fun _ _ => id) htimed) h (stands_start lim t₀ ⟨"", 0⟩) hstart

omit [DecidableEq ι] in
/-- A thread that is about to make an operation, and has not crashed, waits for this operation. -/
theorem pending_of_code (hstands : Stands lim P th) {i : ι}
    {p : Proc GateOp.Result (List ApiCall) Unit} (hp : P.procs i = some p)
    (halive : p.crashed = false) {op : GateOp} {next : op.Result → GateProg Unit}
    (hcode : (th i).code lim = ask op next) : P.pending i = some op := by
  obtain ⟨apis, tr, rest, crashed⟩ := p
  cases halive
  have hrest : rest = ask op next := (hstands.code i _ hp).trans hcode
  subst hrest
  rw [Workers.pending, hp]

/-- The threads finish. Each of them makes a bounded number of operations, and while one has not
finished some thread can make its next operation: it does not wait for the mutex, or the mutex is
free. -/
theorem gate_finishes (h : Run (Workers.step lim) GateMoves (Workers.start t₀) ms P) :
    (∀ i p, P.procs i = some p →
      p.transcript.length ≤ 11 * p.request.length + visitsIn p.transcript) ∧
      ∀ i p, P.procs i = some p → p.rest ≠ done () →
        ∃ j op, P.pending j = some op ∧ (op = .lockWindow → P.shared.holder = none) := by
  constructor
  · intro i p hp
    have htrace : Trace (worker lim p.request) p.transcript p.rest :=
      Pool.run_traced (S := workers lim) (fun _ _ hp => by cases hp) h i p hp
    have hcode : worker lim p.request = (⟨.idle, ⟨"", 0⟩, p.request⟩ : Thread).code lim := rfl
    rw [hcode] at htrace
    have hlength := trace_length_le htrace
    have hleft : Thread.left ⟨.idle, ⟨"", 0⟩, p.request⟩ = 11 * p.request.length := Nat.zero_add _
    rwa [hleft] at hlength
  · intro i p hp hunfinished
    obtain ⟨th, hstands, htimed⟩ := run_timed h
    obtain hend | ⟨op, next, hcode⟩ := code_cases lim (th i)
    · exact absurd ((hstands.code i p hp).trans hend) hunfinished
    · have hpending := pending_of_code hstands hp (run_alive h hp) hcode
      cases hholder : P.shared.holder with
      | none => exact ⟨i, op, hpending, fun _ => rfl⟩
      | some j =>
        -- The holder of the mutex can move.
        have hinside : (th j).place.inside = true := (htimed.inside j).mpr hholder
        obtain ⟨op', next', hcode', hne⟩ := code_of_inside lim hinside
        cases hj : P.procs j with
        | none =>
          rw [hstands.unstarted j hj] at hinside
          cases hinside
        | some p' =>
          exact ⟨j, op', pending_of_code hstands hj (run_alive h hj) hcode', fun heq =>
            absurd heq hne⟩

end

/-- One thread has locked the mutex, and another one waits for it. -/
theorem gate_finishes_waiting :
    ∃ ms P, Run (Workers.step (.new 10 10)) GateMoves (Workers.start 0 : Workers (Fin 2)) ms P ∧
      P.pending 1 = some .lockWindow ∧ P.shared.holder = some 0 ∧
      ∃ j op, P.pending j = some op ∧ (op = .lockWindow → P.shared.holder = none) := by
  have h₀ : Run (Workers.step (.new 10 10)) GateMoves (Workers.start 0 : Workers (Fin 2)) [] _ :=
    .nil
  have h₁ := h₀.snoc (m := .start 0 [⟨"acme", 8⟩]) ⟨⟨nofun, nofun⟩, nofun⟩ rfl
  have h₂ := h₁.snoc (m := .start 1 [⟨"acme", 8⟩]) ⟨⟨nofun, nofun⟩, nofun⟩ rfl
  have h₃ := h₂.snoc (m := .serve 0 []) ⟨⟨fun _ _ _ _ => rfl, fun j w hmove hpending => by
    cases hmove
    cases hpending⟩, nofun⟩ rfl
  exact ⟨_, _, h₃, rfl, rfl, (gate_finishes h₃).2 1 _ rfl nofun⟩

end SwarmRuntime.Proofs
