import SwarmRuntime.Proofs.AtomicBudget

/-!
# `SwarmRuntime.Proofs.HourlyLimit`: what the budget gate admits in an hour

The threads of a gate interleave at each atomic operation. `Timed` is what the mutex gives: one
thread at a time is in `maybe_reset_window`, and a reset starts when the window is over. From it,
two clears of one counter are a window apart (`Spaced`). `Counted` is what the checks give: a
counter stays below its limit and one API call for each thread (`Within`), and its ledger is covered
by its clears (`Ledger.Covers`).

`hourly_limit` puts the two together. In any time the threads record at most one budget for each
window that fits in it, and two more. From the start of the gate on it is one more.
-/

set_option autoImplicit false

namespace SwarmRuntime.Proofs

open SwarmRuntime.Lib SwarmRuntime.Inference

/-! ### The counters -/

/-- A counter of the gate. -/
inductive Counter where
  | global
  | tenant (tenantId : String)

namespace Counter

variable {ι : Type}

/-- The tokens in the counter. -/
def used (s : GateCells ι) : Counter → UInt64
  | .global => s.globalUsed
  | .tenant t => s.usedBy t

/-- The ledger of the counter. -/
def ledger (s : GateCells ι) : Counter → Ledger
  | .global => s.globalLedger
  | .tenant t => s.tenantLedger t

/-- The limit of the counter. -/
def limit (lim : GateLimits) : Counter → UInt64
  | .global => lim.globalLimit
  | .tenant _ => lim.perTenantLimit

/-- The thread has passed the check of the counter, and has not added to it yet. -/
def holds : Counter → Thread → Bool
  | .global, ⟨.checkingTenant, _, _⟩ => true
  | .global, ⟨.admitted, _, _⟩ => true
  | .tenant t, ⟨.admitted, api, _⟩ => api.tenantId = t
  | .tenant t, ⟨.charging, api, _⟩ => api.tenantId = t
  | _, _ => false

/-- A reset at this place does not clear the counter any more. -/
def wiped : Counter → Place → Prop
  | .global, .cleared => True
  | .global, .visiting _ => True
  | .tenant t, .visiting tenants => t ∉ tenants
  | _, .renewed _ => True
  | _, _ => False

end Counter

namespace Place

/-- The thread has locked the mutex. -/
def inside : Place → Bool
  | .locked _ | .ended | .cleared | .visiting _ | .renewed _ | .leaving => true
  | .idle | .checking | .checkingTenant | .admitted | .charging => false

/-- The thread is in a reset. -/
def resetting : Place → Bool
  | .ended | .cleared | .visiting _ | .renewed _ => true
  | _ => false

end Place

/-! ### What one advance does to a counter -/

section
variable {ι : Type} [DecidableEq ι] {lim : GateLimits} {m : Nat} {κ : Counter}
  {s s' : GateCells ι} {th th' : ι → Thread} {i : ι} {x y : Thread}
  {visits : GateCells ι → List String → Prop}

/-- What an advance does to one counter: nothing, a check that passes, an addition, or a clear. -/
inductive CounterStep (lim : GateLimits) (m : Nat) (κ : Counter) (s : GateCells ι)
    (th : ι → Thread) (s' : GateCells ι) (th' : ι → Thread) : Prop
  | same (hused : κ.used s' = κ.used s) (hledger : κ.ledger s' = κ.ledger s)
      (hholds : ∀ j, κ.holds (th' j) = true → κ.holds (th j) = true)
  | passed (hused : κ.used s' = κ.used s) (hledger : κ.ledger s' = κ.ledger s)
      (hlt : κ.used s < κ.limit lim)
  | added (i : ι) (x : Thread) (n : UInt64) (hused : κ.used s' = κ.used s + n)
      (hledger : κ.ledger s' = (κ.ledger s).add n.toNat) (hn : n.toNat ≤ m)
      (hth : th' = Function.update th i x) (hbefore : κ.holds (th i) = true)
      (hafter : κ.holds x = false)
  | cleared (hused : κ.used s' = 0) (hledger : κ.ledger s' = (κ.ledger s).clear)
      (hholds : ∀ j, κ.holds (th' j) = true → κ.holds (th j) = true)

/-- Only the thread that moves can begin to hold a check. -/
theorem holds_of_update (hi : th i = y) (hholds : κ.holds x = true → κ.holds y = true) :
    ∀ j, κ.holds (Function.update th i x j) = true → κ.holds (th j) = true := by
  intro j hj
  by_cases h : j = i
  · subst h
    rw [Function.update_self] at hj
    rw [hi]
    exact hholds hj
  · rwa [Function.update_of_ne h] at hj

/-- The API calls of every thread cost at most `m`. -/
def Cheap (m : Nat) (th : ι → Thread) : Prop :=
  ∀ i, ((th i).place ≠ .idle → (th i).api.tokens.toNat ≤ m) ∧ Costs m (th i).apis

omit [DecidableEq ι] in
/-- The entry that a passed tenant check has read is below the limit. -/
theorem usedBy_lt_of_admits {t : String} (hp : 1 ≤ lim.perTenantLimit)
    (h : admits lim.perTenantLimit (s.tenantUsed t) = true) :
    s.usedBy t < lim.perTenantLimit := by
  unfold GateCells.usedBy
  cases hentry : s.tenantUsed t with
  | none => exact UInt64.lt_of_lt_of_le (by decide) hp
  | some used =>
    rw [hentry] at h
    exact of_decide_eq_true h

theorem Advance.counterStep (h : Advance lim m visits s th s' th') (hp : 1 ≤ lim.perTenantLimit)
    (hcheap : Cheap m th) (κ : Counter) : CounterStep lim m κ s th s' th' := by
  cases h with
  | tick n => cases κ <;> exact .same rfl rfl fun _ => id
  | still => exact .same rfl rfl fun _ => id
  | start i api apis hidle hcosts =>
    exact .same rfl rfl (holds_of_update rfl fun hx => by cases κ <;> cases hx)
  | serve i op w x hmoves hlock hvisit =>
    have hcost := (hcheap i).1
    generalize hi : th i = y at hmoves hcost
    generalize hr : (GateCells.serve i op w s).1 = r at hmoves
    cases hmoves with
    | lock before api apis start =>
      cases κ <;> exact .same rfl rfl (holds_of_update hi fun hx => by cases hx)
    | ended api apis start now hover =>
      cases κ <;> exact .same rfl rfl (holds_of_update hi fun hx => by cases hx)
    | lasts api apis start now =>
      cases κ <;> exact .same rfl rfl (holds_of_update hi fun hx => by cases hx)
    | clearGlobal api apis =>
      cases κ with
      | global => exact .cleared rfl rfl (holds_of_update hi fun hx => by cases hx)
      | tenant t => exact .same rfl rfl (holds_of_update hi fun hx => by cases hx)
    | iter api apis tenants =>
      cases κ <;> exact .same rfl rfl (holds_of_update hi fun hx => by cases hx)
    | clearTenant api apis t tenants =>
      cases κ with
      | global => exact .same rfl rfl (holds_of_update hi fun hx => by cases hx)
      | tenant t' =>
        have hholds : ∀ j, (Counter.tenant t').holds (Function.update th i
            ⟨.visiting tenants, api, apis⟩ j) = true → (Counter.tenant t').holds (th j) = true :=
          holds_of_update hi fun hx => by cases hx
        by_cases ht : t' = t
        · subst ht
          refine .cleared ?_ ?_ hholds
          · show (Function.update s.tenantUsed t' _ t').getD 0 = 0
            rw [Function.update_self]
            cases s.tenantUsed t' <;> rfl
          · exact Function.update_self _ _ _
        · refine .same ?_ ?_ hholds
          · show (Function.update s.tenantUsed t _ t').getD 0 = (s.tenantUsed t').getD 0
            rw [Function.update_of_ne ht]
          · exact Function.update_of_ne ht _ _
    | renew api apis now =>
      cases κ <;> exact .same rfl rfl (holds_of_update hi fun hx => by cases hx)
    | setStart api apis now =>
      cases κ <;> exact .same rfl rfl (holds_of_update hi fun hx => by cases hx)
    | unlock api apis =>
      cases κ <;> exact .same rfl rfl (holds_of_update hi fun hx => by cases hx)
    | globalOk api apis used hused =>
      cases κ with
      | global =>
        have hread : s.globalUsed = used := hr
        rw [← hread] at hused
        exact .passed rfl rfl hused
      | tenant t => exact .same rfl rfl (holds_of_update hi fun hx => by cases hx)
    | globalFull api apis used =>
      cases κ <;> exact .same rfl rfl (holds_of_update hi fun hx => by cases hx)
    | accept api apis entry hentry =>
      cases κ with
      | global => exact .same rfl rfl (holds_of_update hi fun _ => rfl)
      | tenant t =>
        by_cases ht : api.tenantId = t
        · subst ht
          have hread : s.tenantUsed api.tenantId = entry := hr
          exact .passed rfl rfl (usedBy_lt_of_admits hp (hread ▸ hentry))
        · refine .same rfl rfl (holds_of_update hi fun hx => ?_)
          exact absurd (of_decide_eq_true hx) ht
    | refuse api apis entry =>
      cases κ <;> exact .same rfl rfl (holds_of_update hi fun hx => by cases hx)
    | addGlobal api apis =>
      cases κ with
      | global =>
        have hheld : Counter.global.holds (th i) = true := by rw [hi]; rfl
        exact .added i _ api.tokens rfl rfl (hcost nofun) rfl hheld rfl
      | tenant t => exact .same rfl rfl (holds_of_update hi fun hx => hx)
    | addTenant api apis =>
      cases κ with
      | global => exact .same rfl rfl (holds_of_update hi fun hx => by cases hx)
      | tenant t =>
        by_cases ht : api.tenantId = t
        · subst ht
          have hheld : (Counter.tenant api.tenantId).holds (th i) = true := by
            rw [hi]
            exact decide_eq_true rfl
          refine .added i _ api.tokens ?_ ?_ (hcost nofun) rfl hheld rfl
          · show (Function.update s.tenantUsed api.tenantId _ api.tenantId).getD 0 = _
            rw [Function.update_self]
            rfl
          · exact Function.update_self _ _ _
        · have hne : t ≠ api.tenantId := fun heq => ht heq.symm
          refine .same ?_ ?_ (holds_of_update hi fun hx => by cases hx)
          · show (Function.update s.tenantUsed api.tenantId _ t).getD 0 = (s.tenantUsed t).getD 0
            rw [Function.update_of_ne hne]
          · exact Function.update_of_ne hne _ _

/-- An advance keeps the cost of the API calls. -/
theorem Advance.cheap (h : Advance lim m visits s th s' th') (hcheap : Cheap m th) :
    Cheap m th' := by
  have hupdate (i : ι) (x : Thread) (hx : x.place ≠ .idle → x.api.tokens.toNat ≤ m)
      (hapis : Costs m x.apis) : Cheap m (Function.update th i x) := by
    intro j
    by_cases hj : j = i
    · subst hj
      rw [Function.update_self]
      exact ⟨hx, hapis⟩
    · rw [Function.update_of_ne hj]
      exact hcheap j
  cases h with
  | tick n => exact hcheap
  | still => exact hcheap
  | start i api apis hidle hcosts => exact hupdate i _ (fun hne => absurd rfl hne) hcosts
  | serve i op w x hmoves hlock hvisit =>
    obtain ⟨hcost, hcosts⟩ := hcheap i
    generalize th i = y at hmoves hcost hcosts
    cases hmoves with
    | lock before api apis start =>
      -- The next API call is taken from the list.
      exact hupdate i _ (fun _ => hcosts api List.mem_cons_self)
        fun api' hmem => hcosts api' (List.mem_cons_of_mem _ hmem)
    | globalFull | refuse | addTenant => exact hupdate i _ (fun hne => absurd rfl hne) hcosts
    | ended | lasts | clearGlobal | iter | clearTenant | renew | setStart | unlock | globalOk |
        accept | addGlobal =>
      exact hupdate i _ (fun _ => hcost nofun) hcosts

/-! ### The counters stay within their limits -/

variable [Fintype ι] {l₀ : Counter → Ledger}

/-- The most that a counter holds: its limit and one API call for each thread, less one. -/
def cap (ι : Type) [Fintype ι] (lim : GateLimits) (m : Nat) (κ : Counter) : Nat :=
  (κ.limit lim).toNat + Fintype.card ι * m - 1

/-- The threads that hold a check of the counter. -/
def pendingOn (κ : Counter) (th : ι → Thread) : Nat :=
  pendingWhere (fun x => κ.holds x = true) th

/-- What the checks give: each counter is within its limit and one API call for each thread, and
its ledger is covered. -/
structure Counted (lim : GateLimits) (m : Nat) (l₀ : Counter → Ledger) (s : GateCells ι)
    (th : ι → Thread) : Prop where
  cheap : Cheap m th
  within : ∀ κ : Counter,
    Within (κ.limit lim).toNat (Fintype.card ι) m (κ.used s).toNat (pendingOn κ th)
  covers : ∀ κ : Counter, Ledger.Covers (cap ι lim m κ) (l₀ κ) (κ.ledger s) (κ.used s).toNat

omit [DecidableEq ι] in
theorem used_le_cap (h : Within (κ.limit lim).toNat (Fintype.card ι) m (κ.used s).toNat
    (pendingOn κ th)) : (κ.used s).toNat ≤ cap ι lim m κ := by
  have hlt := h.used_lt
  show (κ.used s).toNat ≤ (κ.limit lim).toNat + Fintype.card ι * m - 1
  omega

/-- One step of a counter keeps it within its limit, and its ledger covered. -/
theorem CounterStep.counted (hstep : CounterStep lim m κ s th s' th')
    (hfits : (κ.limit lim).toNat + Fintype.card ι * m < 2 ^ 64)
    (hwithin : Within (κ.limit lim).toNat (Fintype.card ι) m (κ.used s).toNat (pendingOn κ th))
    (hcovers : Ledger.Covers (cap ι lim m κ) (l₀ κ) (κ.ledger s) (κ.used s).toNat) :
    Within (κ.limit lim).toNat (Fintype.card ι) m (κ.used s').toNat (pendingOn κ th') ∧
      Ledger.Covers (cap ι lim m κ) (l₀ κ) (κ.ledger s') (κ.used s').toNat := by
  have hfewer (hholds : ∀ j, κ.holds (th' j) = true → κ.holds (th j) = true) :
      pendingOn κ th' ≤ pendingOn κ th := pendingWhere_mono _ hholds
  cases hstep with
  | same hused hledger hholds =>
    rw [hused, hledger]
    exact ⟨hwithin.mono_pending (hfewer hholds), hcovers⟩
  | passed hused hledger hlt =>
    rw [hused, hledger]
    exact ⟨.of_lt (UInt64.lt_iff_toNat_lt.mp hlt) (pendingWhere_le _ _), hcovers⟩
  | added i x n hused hledger hn hth hbefore hafter =>
    -- The thread gives its check up for the addition.
    have hcount : pendingOn κ th' + 1 = pendingOn κ th := by
      have hupdate := pendingWhere_update (fun x => κ.holds x = true) th i x
      rw [if_pos hbefore, hafter, if_neg nofun, ← hth] at hupdate
      exact hupdate
    rw [← hcount] at hwithin
    rw [hused, hwithin.toNat_add hn hfits, hledger]
    exact ⟨hwithin.charge hn, hcovers.add n.toNat⟩
  | cleared hused hledger hholds =>
    have hclear := hcovers.clear (used_le_cap hwithin)
    rw [hused, hledger]
    exact ⟨(hwithin.mono_used (Nat.zero_le _)).mono_pending (hfewer hholds), hclear⟩

omit [DecidableEq ι] in
/-- A thread that holds a check adds to the counter without wrapping it around. -/
theorem Counted.toNat_add (h : Counted lim m l₀ s th) (κ : Counter) {n : UInt64}
    (hfits : (κ.limit lim).toNat + Fintype.card ι * m < 2 ^ 64) (hheld : κ.holds (th i) = true)
    (hn : n.toNat ≤ m) : (κ.used s + n).toNat = (κ.used s).toNat + n.toNat := by
  have hpos := pendingWhere_pos (fun x => κ.holds x = true) hheld
  obtain ⟨rest, hrest⟩ := Nat.exists_eq_succ_of_ne_zero (Nat.pos_iff_ne_zero.mp hpos)
  have hwithin := h.within κ
  rw [pendingOn, hrest] at hwithin
  exact hwithin.toNat_add hn hfits

theorem Counted.advance (h : Counted lim m l₀ s th) (hadvance : Advance lim m visits s th s' th')
    (hp : 1 ≤ lim.perTenantLimit)
    (hfits : ∀ κ : Counter, (κ.limit lim).toNat + Fintype.card ι * m < 2 ^ 64) :
    Counted lim m l₀ s' th' := by
  have hcounted (κ : Counter) :=
    (hadvance.counterStep hp h.cheap κ).counted (hfits κ) (h.within κ) (h.covers κ)
  exact ⟨hadvance.cheap h.cheap, fun κ => (hcounted κ).1, fun κ => (hcounted κ).2⟩

end

/-- The length of the window, in nanoseconds. -/
def windowNanos (lim : GateLimits) : Nat := lim.windowDurationSecs.toNat * 10 ^ 9

theorem window_le_of_expired {lim : GateLimits} {start now : Instant}
    (h : expired lim.windowDurationSecs start now = true) : windowNanos lim ≤ now - start := by
  have hle : lim.windowDurationSecs.toNat ≤ (now - start) / 10 ^ 9 := of_decide_eq_true h
  exact (Nat.le_div_iff_mul_le (by omega)).mp hle

/-! ### One thread in the reset -/

section
variable {ι : Type} {lim : GateLimits} {m : Nat} {κ : Counter} {s s' : GateCells ι}
  {th th' : ι → Thread} {i j : ι} {x : Thread} {visits : GateCells ι → List String → Prop}

/-- A thread in a reset has locked the mutex. -/
theorem inside_of_resetting {place : Place} (h : place.resetting = true) : place.inside = true := by
  cases place <;> first | rfl | cases h

/-- What the mutex gives: the threads inside are the holder of the mutex, and a reset starts when
the window is over. -/
structure Timed (lim : GateLimits) (s : GateCells ι) (th : ι → Thread) : Prop where
  inside : ∀ i, (th i).place.inside = true ↔ s.holder = some i
  locked : ∀ i start, (th i).place = .locked start → start = s.windowStart
  resetting : ∀ i, (th i).place.resetting = true → s.windowStart + windowNanos lim ≤ s.clock
  renewed : ∀ i now, (th i).place = .renewed now →
    s.windowStart + windowNanos lim ≤ now ∧ now ≤ s.clock
  past : s.windowStart ≤ s.clock
  visiting : ∀ i tenants, (th i).place = .visiting tenants → tenants.Nodup

/-- Two threads are not inside at once. -/
theorem Timed.exclusive (h : Timed lim s th) (hi : (th i).place.inside = true)
    (hj : (th j).place.inside = true) : j = i := by
  rw [h.inside] at hi hj
  rw [hi] at hj
  exact (Option.some.inj hj).symm

variable [DecidableEq ι]

/-- An operation that is not on the mutex and does not start a window. -/
theorem Timed.moved (h : Timed lim s th) (hholder : s'.holder = s.holder)
    (hstart : s'.windowStart = s.windowStart) (hclock : s'.clock = s.clock)
    (hinside : x.place.inside = (th i).place.inside) (hlocked : ∀ start, x.place ≠ .locked start)
    (hresetting : x.place.resetting = true → s.windowStart + windowNanos lim ≤ s.clock)
    (hrenewed : ∀ now, x.place = .renewed now →
      s.windowStart + windowNanos lim ≤ now ∧ now ≤ s.clock)
    (hvisiting : ∀ tenants, x.place = .visiting tenants → tenants.Nodup) :
    Timed lim s' (Function.update th i x) where
  inside := by
    rw [hholder]
    refine (Function.forall_update_iff th fun j y => y.place.inside = true ↔ s.holder = some j).mpr
      ⟨?_, fun j _ => h.inside j⟩
    rw [hinside]
    exact h.inside i
  locked := by
    rw [hstart]
    exact (Function.forall_update_iff th fun _ y => ∀ start, y.place = .locked start →
      start = s.windowStart).mpr ⟨fun start hx => absurd hx (hlocked start), fun j _ => h.locked j⟩
  resetting := by
    rw [hstart, hclock]
    exact (Function.forall_update_iff th fun _ y => y.place.resetting = true →
      s.windowStart + windowNanos lim ≤ s.clock).mpr ⟨hresetting, fun j _ => h.resetting j⟩
  renewed := by
    rw [hstart, hclock]
    exact (Function.forall_update_iff th fun _ y => ∀ now, y.place = .renewed now →
      s.windowStart + windowNanos lim ≤ now ∧ now ≤ s.clock).mpr
        ⟨hrenewed, fun j _ => h.renewed j⟩
  past := by
    rw [hstart, hclock]
    exact h.past
  visiting := (Function.forall_update_iff th fun _ y => ∀ tenants, y.place = .visiting tenants →
    tenants.Nodup).mpr ⟨hvisiting, fun j _ => h.visiting j⟩

/-- A thread that locks the mutex is alone inside. -/
theorem Timed.lock (h : Timed lim s th) (hfree : s.holder = none) {api : ApiCall}
    {apis : List ApiCall} :
    Timed lim { s with holder := some i }
      (Function.update th i ⟨.locked s.windowStart, api, apis⟩) where
  inside := by
    refine (Function.forall_update_iff th fun j y => y.place.inside = true ↔ some i = some j).mpr
      ⟨⟨fun _ => rfl, fun _ => rfl⟩, fun j hj => ?_⟩
    have hout := h.inside j
    rw [hfree] at hout
    exact ⟨fun hin => absurd (hout.mp hin) nofun, fun heq => absurd (Option.some.inj heq).symm hj⟩
  locked := (Function.forall_update_iff th fun _ y => ∀ start, y.place = .locked start →
    start = s.windowStart).mpr ⟨fun start hx => by cases hx; rfl, fun j _ => h.locked j⟩
  resetting := (Function.forall_update_iff th fun _ y => y.place.resetting = true →
    s.windowStart + windowNanos lim ≤ s.clock).mpr ⟨nofun, fun j _ => h.resetting j⟩
  renewed := (Function.forall_update_iff th fun _ y => ∀ now, y.place = .renewed now →
    s.windowStart + windowNanos lim ≤ now ∧ now ≤ s.clock).mpr ⟨nofun, fun j _ => h.renewed j⟩
  past := h.past
  visiting := (Function.forall_update_iff th fun _ y => ∀ tenants, y.place = .visiting tenants →
    tenants.Nodup).mpr ⟨nofun, fun j _ => h.visiting j⟩

/-- A thread that unlocks the mutex leaves nobody inside. -/
theorem Timed.unlock (h : Timed lim s th) (hplace : (th i).place = .leaving) {api : ApiCall}
    {apis : List ApiCall} :
    Timed lim { s with holder := none } (Function.update th i ⟨.checking, api, apis⟩) where
  inside := by
    have hholder : s.holder = some i := (h.inside i).mp (by rw [hplace]; rfl)
    refine (Function.forall_update_iff th fun j y => y.place.inside = true ↔ none = some j).mpr
      ⟨⟨nofun, nofun⟩, fun j hj => ⟨fun hin => ?_, nofun⟩⟩
    have hother := (h.inside j).mp hin
    rw [hholder] at hother
    exact absurd (Option.some.inj hother).symm hj
  locked := (Function.forall_update_iff th fun _ y => ∀ start, y.place = .locked start →
    start = s.windowStart).mpr ⟨nofun, fun j _ => h.locked j⟩
  resetting := (Function.forall_update_iff th fun _ y => y.place.resetting = true →
    s.windowStart + windowNanos lim ≤ s.clock).mpr ⟨nofun, fun j _ => h.resetting j⟩
  renewed := (Function.forall_update_iff th fun _ y => ∀ now, y.place = .renewed now →
    s.windowStart + windowNanos lim ≤ now ∧ now ≤ s.clock).mpr ⟨nofun, fun j _ => h.renewed j⟩
  past := h.past
  visiting := (Function.forall_update_iff th fun _ y => ∀ tenants, y.place = .visiting tenants →
    tenants.Nodup).mpr ⟨nofun, fun j _ => h.visiting j⟩

/-- A thread that starts a new window ends its reset, and no other thread is in one. -/
theorem Timed.setStart (h : Timed lim s th) {now : Instant} (hplace : (th i).place = .renewed now)
    {api : ApiCall} {apis : List ApiCall} :
    Timed lim { s with windowStart := now } (Function.update th i ⟨.leaving, api, apis⟩) := by
  have hinside : (th i).place.inside = true := by rw [hplace]; rfl
  have hothers (j : ι) (hj : j ≠ i) : (th j).place.inside ≠ true := fun hin =>
    hj (h.exclusive hinside hin)
  constructor
  · refine (Function.forall_update_iff th fun j y => y.place.inside = true ↔
      s.holder = some j).mpr
        ⟨⟨fun _ => (h.inside i).mp hinside, fun _ => rfl⟩, fun j _ => h.inside j⟩
  · refine (Function.forall_update_iff th fun _ y => ∀ start, y.place = .locked start →
      start = now).mpr ⟨nofun, fun j hj start hlocked => ?_⟩
    exact absurd (by rw [hlocked]; rfl) (hothers j hj)
  · refine (Function.forall_update_iff th fun _ y => y.place.resetting = true →
      now + windowNanos lim ≤ s.clock).mpr ⟨nofun, fun j hj hresetting => ?_⟩
    exact absurd (inside_of_resetting hresetting) (hothers j hj)
  · refine (Function.forall_update_iff th fun _ y => ∀ now', y.place = .renewed now' →
      now + windowNanos lim ≤ now' ∧ now' ≤ s.clock).mpr ⟨nofun, fun j hj now' hrenewed => ?_⟩
    exact absurd (by rw [hrenewed]; rfl) (hothers j hj)
  · exact (h.renewed i now hplace).2
  · exact (Function.forall_update_iff th fun _ y => ∀ tenants, y.place = .visiting tenants →
      tenants.Nodup).mpr ⟨nofun, fun j _ => h.visiting j⟩

theorem Advance.timed (h : Advance lim m visits s th s' th')
    (honce : ∀ s w, visits s w → w.Nodup) (htimed : Timed lim s th) : Timed lim s' th' := by
  cases h with
  | tick n =>
    have hlater (k : Nat) (hk : k ≤ s.clock) : k ≤ (s.tick n).clock :=
      Nat.le_trans hk (Nat.le_add_right _ n)
    exact ⟨htimed.inside, htimed.locked, fun i hi => hlater _ (htimed.resetting i hi),
      fun i now hi => ⟨(htimed.renewed i now hi).1, hlater _ (htimed.renewed i now hi).2⟩,
      hlater _ htimed.past, htimed.visiting⟩
  | still => exact htimed
  | start i api apis hidle hcosts =>
    exact htimed.moved rfl rfl rfl (by rw [hidle]) nofun nofun nofun nofun
  | serve i op w x hmoves hlock hvisit =>
    have hresetting := htimed.resetting i
    have hrenewed := htimed.renewed i
    have hvisiting := htimed.visiting i
    have hlocked := htimed.locked i
    have hpast := htimed.past
    generalize hi : th i = y at hmoves hresetting hrenewed hvisiting hlocked
    generalize hr : (GateCells.serve i op w s).1 = r at hmoves
    cases hmoves with
    | lock before api apis start =>
      have hstart : s.windowStart = start := hr
      rw [← hstart]
      exact htimed.lock (hlock rfl)
    | ended api apis start now hover =>
      have hnow : s.clock = now := hr
      have hle := window_le_of_expired hover
      rw [hlocked start rfl, ← hnow] at hle
      have hlate : s.windowStart + windowNanos lim ≤ s.clock := Nat.add_le_of_le_sub' hpast hle
      exact htimed.moved rfl rfl rfl (by rw [hi]; rfl) nofun (fun _ => hlate) nofun nofun
    | lasts api apis start now =>
      exact htimed.moved rfl rfl rfl (by rw [hi]; rfl) nofun nofun nofun nofun
    | clearGlobal api apis =>
      exact htimed.moved rfl rfl rfl (by rw [hi]; rfl) nofun (fun _ => hresetting rfl) nofun nofun
    | iter api apis tenants =>
      have htenants : w = tenants := hr
      refine htimed.moved rfl rfl rfl (by rw [hi]; rfl) nofun (fun _ => hresetting rfl) nofun ?_
      intro tenants' hx
      cases hx
      exact htenants ▸ honce s w (hvisit rfl)
    | clearTenant api apis t tenants =>
      refine htimed.moved rfl rfl rfl (by rw [hi]; rfl) nofun (fun _ => hresetting rfl) nofun ?_
      intro tenants' hx
      cases hx
      exact (hvisiting _ rfl).of_cons
    | renew api apis now =>
      have hnow : s.clock = now := hr
      refine htimed.moved rfl rfl rfl (by rw [hi]; rfl) nofun (fun _ => hresetting rfl) ?_ nofun
      intro now' hx
      cases hx
      exact ⟨hnow ▸ hresetting rfl, Nat.le_of_eq hnow.symm⟩
    | setStart api apis now => exact htimed.setStart (by rw [hi])
    | unlock api apis => exact htimed.unlock (by rw [hi])
    | globalOk | globalFull | accept | refuse | addGlobal | addTenant =>
      exact htimed.moved rfl rfl rfl (by rw [hi]; rfl) nofun nofun nofun nofun

/-! ### Clears are a window apart -/

/-- What an advance does to the windows of one counter: nothing, a clear of the counter, or the
start of a new window. -/
inductive WindowStep (κ : Counter) (s : GateCells ι) (th : ι → Thread) (s' : GateCells ι)
    (th' : ι → Thread) : Prop
  | same (hstart : s'.windowStart = s.windowStart) (hclock : s.clock ≤ s'.clock)
      (hclears : (κ.ledger s').clears = (κ.ledger s).clears)
      (hwiped : ∀ j, κ.wiped (th j).place → κ.wiped (th' j).place)
      (hrenewed : ∀ j now, (th' j).place = .renewed now →
        (th j).place = .renewed now ∨ now = s.clock)
  | cleared (i : ι) (hstart : s'.windowStart = s.windowStart) (hclock : s'.clock = s.clock)
      (hclears : (κ.ledger s').clears = (κ.ledger s).clears + 1)
      (hresetting : (th i).place.resetting = true) (hbefore : ∀ j, ¬ κ.wiped (th j).place)
      (hafter : κ.wiped (th' i).place) (hrenewed : ∀ j now, (th' j).place ≠ .renewed now)
  | renewed (i : ι) (now : Instant) (hplace : (th i).place = .renewed now)
      (hstart : s'.windowStart = now) (hclock : s'.clock = s.clock)
      (hclears : (κ.ledger s').clears = (κ.ledger s).clears)
      (hrenewed : ∀ j now', (th' j).place ≠ .renewed now')

omit [DecidableEq ι] in
/-- A thread that has cleared a counter is in a reset. -/
theorem inside_of_wiped {place : Place} (h : κ.wiped place) : place.inside = true := by
  cases κ <;> cases place <;> first | rfl | cases h

/-- An operation of a thread that neither clears the counter nor starts a window. -/
theorem windowStep_same {y : Thread} (hi : th i = y) (hstart : s'.windowStart = s.windowStart)
    (hclock : s'.clock = s.clock) (hclears : (κ.ledger s').clears = (κ.ledger s).clears)
    (hwiped : κ.wiped y.place → κ.wiped x.place)
    (hrenewed : ∀ now, x.place = .renewed now → now = s.clock) :
    WindowStep κ s th s' (Function.update th i x) := by
  refine .same hstart (Nat.le_of_eq hclock.symm) hclears ?_ ?_
  · refine (Function.forall_update_iff th fun j y => κ.wiped (th j).place →
      κ.wiped y.place).mpr ⟨fun h => ?_, fun _ _ => id⟩
    rw [hi] at h
    exact hwiped h
  · exact (Function.forall_update_iff th fun j y => ∀ now, y.place = .renewed now →
      (th j).place = .renewed now ∨ now = s.clock).mpr
        ⟨fun now h => .inr (hrenewed now h), fun _ _ _ h => .inl h⟩

/-- A clear of the counter: no other thread is in a reset. -/
theorem windowStep_cleared {y : Thread} (htimed : Timed lim s th) (hi : th i = y)
    (hstart : s'.windowStart = s.windowStart) (hclock : s'.clock = s.clock)
    (hclears : (κ.ledger s').clears = (κ.ledger s).clears + 1)
    (hresetting : y.place.resetting = true) (hbefore : ¬ κ.wiped y.place)
    (hafter : κ.wiped x.place) (hrenewed : ∀ now, x.place ≠ .renewed now) :
    WindowStep κ s th s' (Function.update th i x) := by
  have hinside : (th i).place.inside = true := by
    rw [hi]
    exact inside_of_resetting hresetting
  refine .cleared i hstart hclock hclears (by rw [hi]; exact hresetting) ?_
    (by rw [Function.update_self]; exact hafter) ?_
  · intro j hwiped
    have hj : j = i := htimed.exclusive hinside (inside_of_wiped hwiped)
    rw [hj, hi] at hwiped
    exact hbefore hwiped
  · refine (Function.forall_update_iff th fun _ y => ∀ now, y.place ≠ .renewed now).mpr
      ⟨hrenewed, fun j hj now hother => hj (htimed.exclusive hinside ?_)⟩
    rw [hother]
    rfl

theorem Advance.windowStep (h : Advance lim m visits s th s' th') (htimed : Timed lim s th)
    (κ : Counter) : WindowStep κ s th s' th' := by
  cases h with
  | tick n =>
    refine .same rfl (Nat.le_add_right _ n) ?_ (fun _ => id) fun _ _ => .inl
    cases κ <;> rfl
  | still => exact .same rfl (Nat.le_refl _) rfl (fun _ => id) fun _ _ => .inl
  | start i api apis hidle hcosts =>
    refine windowStep_same (y := th i) rfl rfl rfl rfl (fun hwiped => ?_) nofun
    rw [hidle] at hwiped
    cases κ <;> cases hwiped
  | serve i op w x hmoves hlock hvisit =>
    have hvisiting := htimed.visiting i
    generalize hi : th i = y at hmoves hvisiting
    generalize hr : (GateCells.serve i op w s).1 = r at hmoves
    cases hmoves with
    | lock | ended | lasts | unlock | globalOk | globalFull | accept | refuse =>
      cases κ <;> exact windowStep_same hi rfl rfl rfl (fun hwiped => by cases hwiped) nofun
    | addGlobal =>
      cases κ <;> exact windowStep_same hi rfl rfl rfl (fun hwiped => by cases hwiped) nofun
    | addTenant api apis =>
      refine windowStep_same hi rfl rfl ?_ (fun hwiped => by cases κ <;> cases hwiped) nofun
      cases κ with
      | global => rfl
      | tenant t =>
        show (Function.update s.tenantLedger api.tenantId _ t).clears = (s.tenantLedger t).clears
        by_cases ht : t = api.tenantId
        · subst ht
          rw [Function.update_self]
          rfl
        · rw [Function.update_of_ne ht]
    | clearGlobal api apis =>
      cases κ with
      | global => exact windowStep_cleared htimed hi rfl rfl rfl rfl id trivial nofun
      | tenant t => exact windowStep_same hi rfl rfl rfl (fun hwiped => by cases hwiped) nofun
    | iter api apis tenants =>
      cases κ with
      | global => exact windowStep_same hi rfl rfl rfl (fun _ => trivial) nofun
      | tenant t => exact windowStep_same hi rfl rfl rfl (fun hwiped => by cases hwiped) nofun
    | clearTenant api apis t tenants =>
      cases κ with
      | global => exact windowStep_same hi rfl rfl rfl (fun _ => trivial) nofun
      | tenant t' =>
        by_cases ht : t' = t
        · subst ht
          have hnodup : (t' :: tenants).Nodup := hvisiting _ rfl
          refine windowStep_cleared htimed hi rfl rfl ?_ rfl
            (fun hwiped => hwiped List.mem_cons_self) (List.nodup_cons.mp hnodup).1 nofun
          show (Function.update s.tenantLedger t' _ t').clears = _
          rw [Function.update_self]
          rfl
        · refine windowStep_same hi rfl rfl ?_
            (fun hwiped hmem => hwiped (List.mem_cons_of_mem _ hmem)) nofun
          show (Function.update s.tenantLedger t _ t').clears = (s.tenantLedger t').clears
          rw [Function.update_of_ne ht]
    | renew api apis now =>
      have hnow : s.clock = now := hr
      refine windowStep_same hi rfl rfl rfl (fun _ => by cases κ <;> trivial) fun now' hx => ?_
      cases hx
      exact hnow.symm
    | setStart api apis now =>
      have hinside : (th i).place.inside = true := by rw [hi]; rfl
      refine .renewed i now (by rw [hi]) rfl rfl (by cases κ <;> rfl) ?_
      refine (Function.forall_update_iff th fun _ y => ∀ now', y.place ≠ .renewed now').mpr
        ⟨nofun, fun j hj now' hother => hj (htimed.exclusive hinside ?_)⟩
      rw [hother]
      rfl

/-- The clear number `c₁ + d + 1` of the counter comes `d` windows after `b`, or later. -/
structure Spaced (lim : GateLimits) (κ : Counter) (b c₁ : Nat) (s : GateCells ι)
    (th : ι → Thread) : Prop where
  clears : c₁ ≤ (κ.ledger s).clears
  base : b ≤ s.windowStart + windowNanos lim ∨ b ≤ s.clock
  clock : ∀ d, (κ.ledger s).clears = c₁ + d + 1 → b + d * windowNanos lim ≤ s.clock
  calm : (∀ j, ¬ κ.wiped (th j).place) → ∀ d, (κ.ledger s).clears = c₁ + d + 1 →
    b + d * windowNanos lim ≤ s.windowStart
  renewed : ∀ i now, (th i).place = .renewed now → ∀ d, (κ.ledger s).clears = c₁ + d + 1 →
    b + d * windowNanos lim ≤ now

omit [DecidableEq ι] in
/-- One step of a window keeps the distance of the clears. -/
theorem WindowStep.spaced {b c₁ : Nat} (h : WindowStep κ s th s' th') (htimed : Timed lim s th)
    (hspaced : Spaced lim κ b c₁ s th) : Spaced lim κ b c₁ s' th' := by
  cases h with
  | same hstart hclock hclears hwiped hrenewed =>
    constructor
    · rw [hclears]
      exact hspaced.clears
    · rw [hstart]
      exact hspaced.base.imp_right fun hle => Nat.le_trans hle hclock
    · rw [hclears]
      exact fun d hd => Nat.le_trans (hspaced.clock d hd) hclock
    · rw [hclears, hstart]
      exact fun hcalm => hspaced.calm fun j hj => hcalm j (hwiped j hj)
    · rw [hclears]
      intro j now hplace d hd
      rcases hrenewed j now hplace with hbefore | rfl
      · exact hspaced.renewed j now hbefore d hd
      · exact hspaced.clock d hd
  | cleared i hstart hclock hclears hresetting hbefore hafter hrenewed =>
    have hlate := htimed.resetting i hresetting
    have hmore := hspaced.clears
    constructor
    · omega
    · rw [hstart, hclock]
      exact hspaced.base
    · rw [hclock]
      intro d hd
      cases d with
      | zero =>
        have hbase := hspaced.base
        rw [Nat.zero_mul, Nat.add_zero]
        rcases hbase with hle | hle
        · exact Nat.le_trans hle hlate
        · exact hle
      | succ d =>
        -- The window of the clear before had started by then.
        have hcalm := hspaced.calm hbefore d (by omega)
        rw [Nat.succ_mul, ← Nat.add_assoc]
        exact Nat.le_trans (Nat.add_le_add_right hcalm _) hlate
    · exact fun hcalm => absurd hafter (hcalm i)
    · exact fun j now hplace => absurd hplace (hrenewed j now)
  | renewed i now hplace hstart hclock hclears hrenewed =>
    have hlate := (htimed.renewed i now hplace).1
    constructor
    · rw [hclears]
      exact hspaced.clears
    · rw [hstart, hclock]
      exact hspaced.base.imp_left fun hle =>
        Nat.le_trans hle (Nat.le_trans hlate (Nat.le_add_right _ _))
    · rw [hclears, hclock]
      exact hspaced.clock
    · rw [hclears, hstart]
      exact fun _ => hspaced.renewed i now hplace
    · exact fun j now' hother => absurd hother (hrenewed j now')

omit [DecidableEq ι] in
/-- The clears of a counter after a moment: one, and one for each window since. -/
theorem Spaced.clears_le {b c₁ : Nat} (h : Spaced lim κ b c₁ s th) (hwindow : 0 < windowNanos lim) :
    (κ.ledger s).clears - c₁ ≤ (s.clock - b) / windowNanos lim + 1 := by
  have hmore := h.clears
  by_cases hnone : (κ.ledger s).clears = c₁
  · rw [hnone, Nat.sub_self]
    exact Nat.zero_le _
  · have hd : (κ.ledger s).clears = c₁ + ((κ.ledger s).clears - c₁ - 1) + 1 := by omega
    have hle : (κ.ledger s).clears - c₁ - 1 ≤ (s.clock - b) / windowNanos lim := by
      rw [Nat.le_div_iff_mul_le hwindow]
      exact Nat.le_sub_of_add_le' (h.clock _ hd)
    exact Nat.sub_le_iff_le_add.mp hle

omit [DecidableEq ι] in
/-- The clears of a counter from the start of its first window on: one for each window. -/
theorem Spaced.clears_le_of_start {t₀ : Nat} (h : Spaced lim κ (t₀ + windowNanos lim) 0 s th)
    (hwindow : 0 < windowNanos lim) :
    (κ.ledger s).clears - 0 ≤ (s.clock - t₀) / windowNanos lim := by
  rw [Nat.le_div_iff_mul_le hwindow, Nat.sub_zero]
  cases hclears : (κ.ledger s).clears with
  | zero =>
    rw [Nat.zero_mul]
    exact Nat.zero_le _
  | succ d =>
    have hclock := h.clock d (by omega)
    rw [Nat.succ_mul]
    exact Nat.le_sub_of_add_le' (by omega)

end

/-! ### Over a run -/

section
variable {ι : Type} [Fintype ι] {lim : GateLimits} {m : Nat} {s : GateCells ι} {th : ι → Thread}
  {l₀ : Counter → Ledger} {b : Nat} {visits : GateCells ι → List String → Prop}

/-- What holds of the gate at each moment of a run: the counters are within their limits, the mutex
is held, and the clears after `l₀` are a window apart. -/
structure Governed (lim : GateLimits) (m : Nat) (l₀ : Counter → Ledger) (b : Nat)
    (s : GateCells ι) (th : ι → Thread) : Prop where
  counted : Counted lim m l₀ s th
  timed : Timed lim s th
  spaced : ∀ κ : Counter, Spaced lim κ b (l₀ κ).clears s th

/-- A new gate, with its first window. -/
theorem governed_start (hlimit : ∀ κ : Counter, 1 ≤ κ.limit lim) (t₀ : Instant) (api : ApiCall) :
    Governed lim m (fun _ => .empty) (t₀ + windowNanos lim) (.new t₀ : GateCells ι)
      fun _ => ⟨.idle, api, []⟩ where
  counted := by
    have hused (κ : Counter) : κ.used (.new t₀ : GateCells ι) = 0 := by cases κ <;> rfl
    have hledger (κ : Counter) : κ.ledger (.new t₀ : GateCells ι) = .empty := by cases κ <;> rfl
    refine ⟨fun _ => ⟨fun hne => absurd rfl hne, nofun⟩, fun κ => ?_, fun κ => ?_⟩
    · rw [hused]
      exact .of_lt (UInt64.le_iff_toNat_le.mp (hlimit κ)) (pendingWhere_le _ _)
    · rw [hledger]
      exact Ledger.covers_self _ _ _
  timed := ⟨fun _ => ⟨nofun, nofun⟩, nofun, nofun, nofun, Nat.le_refl _, nofun⟩
  spaced κ := by
    have hclears : (κ.ledger (.new t₀ : GateCells ι)).clears = 0 := by cases κ <;> rfl
    refine ⟨Nat.zero_le _, .inl (Nat.le_refl _), fun d hd => ?_, fun _ d hd => ?_, nofun⟩
    · rw [hclears] at hd
      exact absurd hd (Nat.succ_ne_zero _).symm
    · rw [hclears] at hd
      exact absurd hd (Nat.succ_ne_zero _).symm

/-- At any moment the clears can be counted anew. -/
theorem Governed.again (h : Governed lim m l₀ b s th) :
    Governed lim m (fun κ => κ.ledger s) s.clock s th where
  counted := ⟨h.counted.cheap, h.counted.within, fun κ => Ledger.covers_self _ _ _⟩
  timed := h.timed
  spaced κ := by
    have hnone (d : Nat) : (κ.ledger s).clears ≠ (κ.ledger s).clears + d + 1 := by omega
    exact ⟨Nat.le_refl _, .inr (Nat.le_refl _), fun d hd => absurd hd (hnone d),
      fun _ d hd => absurd hd (hnone d), fun _ _ _ d hd => absurd hd (hnone d)⟩

variable [DecidableEq ι] {P P' : Workers ι} {ms : List (WorkersMove ι)}

theorem Governed.advance {s' : GateCells ι} {th' : ι → Thread}
    (h : Governed lim m l₀ b s th) (hlimit : ∀ κ : Counter, 1 ≤ κ.limit lim)
    (hfits : ∀ κ : Counter, (κ.limit lim).toNat + Fintype.card ι * m < 2 ^ 64)
    (honce : ∀ s w, visits s w → w.Nodup) (hadvance : Advance lim m visits s th s' th') :
    Governed lim m l₀ b s' th' where
  counted := h.counted.advance hadvance (hlimit (.tenant "")) hfits
  timed := hadvance.timed honce h.timed
  spaced κ := (hadvance.windowStep h.timed κ).spaced h.timed (h.spaced κ)

theorem run_governed (hlimit : ∀ κ : Counter, 1 ≤ κ.limit lim)
    (hfits : ∀ κ : Counter, (κ.limit lim).toNat + Fintype.card ι * m < 2 ^ 64)
    (h : Run (Workers.step lim) (Metering m) P ms P') (hstands : Stands lim P th)
    (hgoverned : Governed lim m l₀ b P.shared th) :
    ∃ th', Stands lim P' th' ∧ Governed lim m l₀ b P'.shared th' := by
  have hallowed (P : Workers ι) (mv : WorkersMove ι) (hok : Metering m P mv) :
      Metering m P mv ∧ Visiting VisitsOnce P mv := ⟨hok, hok.visit⟩
  refine run_invariant (Governed lim m l₀ b) hallowed ?_ h hstands hgoverned
  exact fun s th s' th' hgov hadvance => hgov.advance hlimit hfits (fun _ _ => id) hadvance

theorem forall_limit {g p : UInt64} (hg : 1 ≤ g) (hp : 1 ≤ p) (κ : Counter) :
    1 ≤ κ.limit (.new g p) := by
  cases κ
  · exact hg
  · exact hp

theorem forall_fits {g p : UInt64} {k : Nat} (hg : g.toNat + k * m < 2 ^ 64)
    (hp : p.toNat + k * m < 2 ^ 64) (κ : Counter) :
    (κ.limit (.new g p)).toNat + k * m < 2 ^ 64 := by
  cases κ
  · exact hg
  · exact hp

/-- The hourly limits, with the operations of all threads interleaved. Every counter stays below its
limit and one API call for each thread. In any time the threads record at most one such budget for
each hour that fits in it, and two more; since the gate is new, one more. -/
theorem hourly_limit {g p : UInt64} (hg : 1 ≤ g) (hp : 1 ≤ p)
    (hgm : g.toNat + Fintype.card ι * m < 2 ^ 64) (hpm : p.toNat + Fintype.card ι * m < 2 ^ 64)
    {t₀ : Instant} {ns : List (WorkersMove ι)}
    (h : Run (Workers.step (.new g p)) (Metering m) (Workers.start t₀) ms P)
    (h' : Run (Workers.step (.new g p)) (Metering m) P ns P') (κ : Counter) :
    (κ.used P.shared).toNat ≤ cap ι (.new g p) m κ ∧
      (κ.ledger P.shared).added
        ≤ ((P.shared.clock - t₀) / (3600 * 10 ^ 9) + 1) * cap ι (.new g p) m κ ∧
      (κ.ledger P'.shared).added ≤ (κ.ledger P.shared).added +
        ((P'.shared.clock - P.shared.clock) / (3600 * 10 ^ 9) + 2) * cap ι (.new g p) m κ := by
  have hlimit := forall_limit hg hp
  have hfits := forall_fits hgm hpm
  have hwindow : windowNanos (.new g p) = 3600 * 10 ^ 9 := rfl
  have hpos : 0 < windowNanos (.new g p) := by rw [hwindow]; omega
  obtain ⟨th, hstands, hgoverned⟩ := run_governed hlimit hfits h (stands_start _ t₀ ⟨"", 0⟩)
    (governed_start hlimit t₀ ⟨"", 0⟩)
  obtain ⟨th', -, hafter⟩ := run_governed hlimit hfits h' hstands hgoverned.again
  have hused := used_le_cap (hgoverned.counted.within κ)
  have hused' := used_le_cap (hafter.counted.within κ)
  rw [← hwindow]
  refine ⟨hused, ?_, ?_⟩
  · have hclears := (hgoverned.spaced κ).clears_le_of_start hpos
    have hadded := (hgoverned.counted.covers κ).added_le hused hclears
    exact Nat.le_trans hadded (Nat.le_of_eq (Nat.zero_add _))
  · exact (hafter.counted.covers κ).added_le hused' ((hafter.spaced κ).clears_le hpos)

omit [Fintype ι] [DecidableEq ι] in
theorem metering_start {i : ι} {apis : List ApiCall} (hcosts : Costs m apis) :
    Metering m P (.start i apis) := by
  refine ⟨⟨nofun, nofun⟩, fun j apis' hmove => ?_⟩
  cases hmove
  exact hcosts

omit [Fintype ι] [DecidableEq ι] in
theorem metering_serve {i : ι} {w : List String} {op : GateOp} (hop : P.pending i = some op)
    (hlock : op = .lockWindow → P.shared.holder = none) (hvisit : op = .iterTenants → w.Nodup) :
    Metering m P (.serve i w) := by
  refine ⟨⟨fun j v hmove hpending => ?_, fun j v hmove hpending => ?_⟩, nofun⟩
  · cases hmove
    rw [hop, Option.some.injEq] at hpending
    exact hlock hpending
  · cases hmove
    rw [hop, Option.some.injEq] at hpending
    exact hvisit hpending

end

/-- Two threads pass both checks of a new gate before either of them records: sixteen tokens under
a limit of ten. -/
theorem hourly_limit_two :
    ∃ ms P, Run (Workers.step (.new 10 10)) (Metering 8) (Workers.start 0 : Workers (Fin 2)) ms P ∧
      Counter.global.used P.shared = 16 ∧
      (Counter.global.used P.shared).toNat ≤ cap (Fin 2) (.new 10 10) 8 .global := by
  have hcosts : Costs 8 [⟨"acme", 8⟩] := by
    intro api hapi
    rw [List.mem_singleton.mp hapi]
    decide
  have h₀ : Run (Workers.step (.new 10 10)) (Metering 8) (Workers.start 0 : Workers (Fin 2)) [] _ :=
    .nil
  have h₁ := h₀.snoc (metering_start (i := 0) hcosts) rfl
  have h₂ := h₁.snoc (metering_start (i := 1) hcosts) rfl
  -- The first thread goes up to its addition, then the second one.
  have h₃ := h₂.snoc (metering_serve (i := 0) (w := []) rfl (fun _ => rfl) nofun) rfl
  have h₄ := h₃.snoc (metering_serve (i := 0) (w := []) rfl nofun nofun) rfl
  have h₅ := h₄.snoc (metering_serve (i := 0) (w := []) rfl nofun nofun) rfl
  have h₆ := h₅.snoc (metering_serve (i := 0) (w := []) rfl nofun nofun) rfl
  have h₇ := h₆.snoc (metering_serve (i := 0) (w := []) rfl nofun nofun) rfl
  have h₈ := h₇.snoc (metering_serve (i := 1) (w := []) rfl (fun _ => rfl) nofun) rfl
  have h₉ := h₈.snoc (metering_serve (i := 1) (w := []) rfl nofun nofun) rfl
  have h₁₀ := h₉.snoc (metering_serve (i := 1) (w := []) rfl nofun nofun) rfl
  have h₁₁ := h₁₀.snoc (metering_serve (i := 1) (w := []) rfl nofun nofun) rfl
  have h₁₂ := h₁₁.snoc (metering_serve (i := 1) (w := []) rfl nofun nofun) rfl
  have h₁₃ := h₁₂.snoc (metering_serve (i := 0) (w := []) rfl nofun nofun) rfl
  have h₁₄ := h₁₃.snoc (metering_serve (i := 1) (w := []) rfl nofun nofun) rfl
  exact ⟨_, _, h₁₄, rfl,
    (hourly_limit (by decide) (by decide) (by decide) (by decide) h₁₄ .nil .global).1⟩

end SwarmRuntime.Proofs
