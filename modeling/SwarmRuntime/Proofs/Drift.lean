import Mathlib.Algebra.BigOperators.Ring.Finset
import SwarmRuntime.Lib.Split
import SwarmRuntime.Proofs.HourlyLimit

/-!
# `SwarmRuntime.Proofs.Drift`: the global counter and the tenants, between two operations

`record_usage` adds to the global counter first and to the counter of its tenant then, and a reset
clears the counters one after the other. Other threads come in between, so the global counter is
not the sum of the counters of the tenants.

The difference has a part for each thread (`Split`). While no reset is clearing, the part of a
thread is what it has added on one side only, give or take one API call that a reset has cut in two
(`loose`). From the clear of the global counter to that of the last tenant, the difference is that
of the tenants which stay cleared (`drift`), and a thread that is past its check has at most its one
API call in it (`tight`): it cannot ask the gate again before the reset ends, because the mutex is
locked. A reset starts from no difference at all, so the parts do not pile up over many windows.

`counters_agree` is the bound that follows.
-/

set_option autoImplicit false

namespace SwarmRuntime.Proofs

open SwarmRuntime.Lib SwarmRuntime.Inference

/-! ### The difference -/

/-- The tenants whose counters a reset at this place has no more to clear, when it has cleared the
global counter. -/
def Place.kept : Place → Option (String → Bool)
  | .cleared => some fun _ => false
  | .visiting tenants => some fun t => decide (t ∉ tenants)
  | _ => none

/-- The tokens that a thread has added to the global counter, and not to its tenant yet. -/
def Thread.inFlight : Thread → ℤ
  | ⟨.charging, api, _⟩ => api.tokens.toNat
  | _ => 0

/-- The part of a thread in the difference, while no reset is clearing. -/
def loose (m : Nat) (x : Thread) (d : ℤ) : Prop := x.inFlight - m ≤ d ∧ d ≤ x.inFlight + m

/-- The part of a thread in the difference, while a reset is clearing. -/
def tight (m : Nat) (x : Thread) (d : ℤ) : Prop :=
  (x.place = .idle ∧ -(m : ℤ) ≤ d ∧ d ≤ m) ∨ (x.place ≠ .idle ∧ 0 ≤ d ∧ d ≤ x.inFlight)

section
variable {ι : Type} {m : Nat} {S : Finset String} {kept : String → Bool} {s s' : GateCells ι}
  {x y : Thread} {d : ℤ} {t : String} {n : UInt64}

/-- The global counter, less the counters of the tenants that are kept. -/
def drift (kept : String → Bool) (S : Finset String) (s : GateCells ι) : ℤ :=
  s.globalUsed.toNat - ∑ t ∈ S with kept t, ((s.usedBy t).toNat : ℤ)

theorem drift_congr (hglobal : s'.globalUsed = s.globalUsed)
    (htenants : s'.tenantUsed = s.tenantUsed) : drift kept S s' = drift kept S s := by
  unfold drift GateCells.usedBy
  rw [hglobal, htenants]

/-- An addition to the global counter. -/
theorem drift_addGlobal (hglobal : s'.globalUsed.toNat = s.globalUsed.toNat + n.toNat)
    (htenants : s'.tenantUsed = s.tenantUsed) : drift kept S s' = drift kept S s + n.toNat := by
  unfold drift GateCells.usedBy
  rw [hglobal, htenants]
  omega

/-- A change of the counter of one tenant, which is kept. -/
theorem drift_tenant (ht : t ∈ S) (hkept : kept t = true) (hglobal : s'.globalUsed = s.globalUsed)
    (hother : ∀ t', t' ≠ t → s'.tenantUsed t' = s.tenantUsed t') :
    drift kept S s' = drift kept S s - ((s'.usedBy t).toNat - (s.usedBy t).toNat : ℤ) := by
  have hmem : t ∈ S.filter fun t => kept t = true := Finset.mem_filter.mpr ⟨ht, hkept⟩
  have hsum := sum_eq_add_sub (f := fun t' => ((s.usedBy t').toNat : ℤ))
    (g := fun t' => ((s'.usedBy t').toNat : ℤ)) hmem fun t' _ hne => by
      simp only [GateCells.usedBy, hother t' hne]
  unfold drift
  rw [hglobal, hsum]
  omega

/-- A change of the counter of one tenant, which is not kept. -/
theorem drift_of_not_kept (hkept : kept t = false) (hglobal : s'.globalUsed = s.globalUsed)
    (hother : ∀ t', t' ≠ t → s'.tenantUsed t' = s.tenantUsed t') :
    drift kept S s' = drift kept S s := by
  have hsum : ∑ t' ∈ S with kept t', ((s'.usedBy t').toNat : ℤ)
      = ∑ t' ∈ S with kept t', ((s.usedBy t').toNat : ℤ) := by
    refine Finset.sum_congr rfl fun t' ht' => ?_
    have hne : t' ≠ t := by
      rintro rfl
      rw [Finset.mem_filter, hkept] at ht'
      exact absurd ht'.2 nofun
    simp only [GateCells.usedBy, hother t' hne]
  unfold drift
  rw [hglobal, hsum]

/-- More tenants are kept, and their counters are at zero. -/
theorem drift_widen {kept' : String → Bool} (hmore : ∀ t, kept t = true → kept' t = true)
    (hzero : ∀ t, kept' t = true → kept t = false → s.usedBy t = 0) :
    drift kept' S s = drift kept S s := by
  have hsub : (S.filter fun t => kept t = true) ⊆ S.filter fun t => kept' t = true :=
    fun t ht => Finset.mem_filter.mpr
      ⟨(Finset.mem_filter.mp ht).1, hmore t (Finset.mem_filter.mp ht).2⟩
  have hsum := Finset.sum_subset (f := fun t => ((s.usedBy t).toNat : ℤ)) hsub fun t ht hnot => by
    rw [Finset.mem_filter] at ht hnot
    have hkept : kept t = false := by
      cases hk : kept t with
      | false => rfl
      | true => exact absurd ⟨ht.1, hk⟩ hnot
    rw [hzero t ht.2 hkept]
    rfl
  unfold drift
  rw [hsum]

/-! ### The parts of the threads -/

theorem tight_zero (m : Nat) (x : Thread) : tight m x 0 := by
  by_cases hidle : x.place = .idle
  · left
    exact ⟨hidle, by omega, by omega⟩
  · right
    refine ⟨hidle, le_refl _, ?_⟩
    obtain ⟨place, api, apis⟩ := x
    cases place <;> first | exact le_refl _ | exact Int.natCast_nonneg _

/-- A thread that is past its check and has no tokens in flight has no part. -/
theorem tight_imp (hidle : y.place ≠ .idle) (hflight : y.inFlight = 0) (h : tight m y d) :
    tight m x d := by
  rcases h with ⟨hplace, -⟩ | ⟨-, hle, hge⟩
  · exact absurd hplace hidle
  · have hzero : d = 0 := by omega
    rw [hzero]
    exact tight_zero m x

/-- The tokens in flight are those of one API call. -/
theorem loose_of_tight (hcost : x.inFlight ≤ m) (h : tight m x d) : loose m x d := by
  rcases h with ⟨hplace, hle, hge⟩ | ⟨-, hle, hge⟩
  · obtain ⟨place, api, apis⟩ := x
    cases hplace
    show (0 : ℤ) - m ≤ d ∧ d ≤ 0 + m
    omega
  · exact ⟨by omega, by omega⟩

end

/-! ### The invariant -/

section
variable {ι : Type} [Fintype ι] {lim : GateLimits} {m : Nat} {S : Finset String}
  {s s' : GateCells ι} {th th' : ι → Thread} {i : ι} {x y : Thread}

/-- The difference has a part for each thread, whether a reset is clearing or not. -/
inductive Drifting (m : Nat) (S : Finset String) (s : GateCells ι) (th : ι → Thread) : Prop
  | even (hnone : ∀ i, (th i).place.kept = none)
      (h : Split (loose m) th (drift (fun _ => true) S s))
  | clearing (j : ι) (kept : String → Bool) (hkept : (th j).place.kept = some kept)
      (h : Split (tight m) th (drift kept S s))

omit [Fintype ι] in
/-- A thread that clears has locked the mutex. -/
theorem inside_of_kept {place : Place} {kept : String → Bool} (h : place.kept = some kept) :
    place.inside = true := by
  cases place <;> first | rfl | cases h

omit [Fintype ι] in
/-- An iteration visits each entry that is there when it starts, once. -/
def Whole (s : GateCells ι) (w : List String) : Prop :=
  w.Nodup ∧ ∀ t, s.tenantUsed t ≠ none → t ∈ w

variable [DecidableEq ι]

/-- An operation of a thread that neither clears nor counts. -/
theorem Drifting.moved (h : Drifting m S s th) (hi : th i = y)
    (hglobal : s'.globalUsed = s.globalUsed) (htenants : s'.tenantUsed = s.tenantUsed)
    (hy : y.place.kept = none) (hx : x.place.kept = none)
    (hflight : x.inFlight = y.inFlight)
    (htight : (∃ j kept, (th j).place.kept = some kept) → ∀ d, tight m y d → tight m x d) :
    Drifting m S s' (Function.update th i x) := by
  cases h with
  | even hnone h =>
    refine .even ?_ (h.update (n := 0) ?_ fun d hd => ?_)
    · exact (Function.forall_update_iff th fun _ z => z.place.kept = none).mpr
        ⟨hx, fun j _ => hnone j⟩
    · rw [drift_congr hglobal htenants, Int.add_zero]
    · rw [hi] at hd
      rw [Int.add_zero, loose, hflight]
      exact hd
  | clearing j kept hkept h =>
    have hj : j ≠ i := by
      rintro rfl
      rw [hi, hy] at hkept
      cases hkept
    refine .clearing j kept ?_ (h.update (n := 0) ?_ fun d hd => ?_)
    · rw [Function.update_of_ne hj]
      exact hkept
    · rw [drift_congr hglobal htenants, Int.add_zero]
    · rw [hi] at hd
      rw [Int.add_zero]
      exact htight ⟨j, kept, hkept⟩ d hd

/-- A thread adds its tokens to the global counter. -/
theorem Drifting.addGlobal (h : Drifting m S s th) {api : ApiCall} {apis : List ApiCall}
    (hi : th i = ⟨.admitted, api, apis⟩)
    (hglobal : s'.globalUsed.toNat = s.globalUsed.toNat + api.tokens.toNat)
    (htenants : s'.tenantUsed = s.tenantUsed) :
    Drifting m S s' (Function.update th i ⟨.charging, api, apis⟩) := by
  cases h with
  | even hnone h =>
    refine .even ?_ (h.update (drift_addGlobal hglobal htenants) fun d hd => ?_)
    · exact (Function.forall_update_iff th fun _ z => z.place.kept = none).mpr
        ⟨rfl, fun j _ => hnone j⟩
    · rw [hi] at hd
      have hbefore : (0 : ℤ) - m ≤ d ∧ d ≤ 0 + m := hd
      show (api.tokens.toNat : ℤ) - m ≤ _ ∧ _ ≤ (api.tokens.toNat : ℤ) + m
      omega
  | clearing j kept hkept h =>
    have hj : j ≠ i := by
      rintro rfl
      rw [hi] at hkept
      cases hkept
    refine .clearing j kept ?_ (h.update (drift_addGlobal hglobal htenants) fun d hd => ?_)
    · rw [Function.update_of_ne hj]
      exact hkept
    · rw [hi] at hd
      rcases hd with ⟨hplace, -⟩ | ⟨-, hle, hge⟩
      · cases hplace
      · have hafter : d ≤ 0 := hge
        right
        exact ⟨nofun, by omega, show d + _ ≤ (api.tokens.toNat : ℤ) by omega⟩

/-- A thread adds its tokens to the counter of its tenant. -/
theorem Drifting.addTenant (h : Drifting m S s th) {api : ApiCall} {apis : List ApiCall}
    (hi : th i = ⟨.charging, api, apis⟩) (hcost : api.tokens.toNat ≤ m) (ht : api.tenantId ∈ S)
    (hglobal : s'.globalUsed = s.globalUsed)
    (hself : (s'.usedBy api.tenantId).toNat = (s.usedBy api.tenantId).toNat + api.tokens.toNat)
    (hother : ∀ t, t ≠ api.tenantId → s'.tenantUsed t = s.tenantUsed t) :
    Drifting m S s' (Function.update th i ⟨.idle, api, apis⟩) := by
  cases h with
  | even hnone h =>
    have hdrift : drift (fun _ => true) S s' = _ := drift_tenant ht rfl hglobal hother
    refine .even ?_ (h.update (n := -api.tokens.toNat) ?_ fun d hd => ?_)
    · exact (Function.forall_update_iff th fun _ z => z.place.kept = none).mpr
        ⟨rfl, fun j _ => hnone j⟩
    · rw [hdrift, hself]
      omega
    · rw [hi] at hd
      have hbefore : (api.tokens.toNat : ℤ) - m ≤ d ∧ d ≤ (api.tokens.toNat : ℤ) + m := hd
      show (0 : ℤ) - m ≤ _ ∧ _ ≤ (0 : ℤ) + m
      omega
  | clearing j kept hkept h =>
    have hj : j ≠ i := by
      rintro rfl
      rw [hi] at hkept
      cases hkept
    have hbefore {d : ℤ} (hd : tight m (th i) d) : 0 ≤ d ∧ d ≤ api.tokens.toNat := by
      rw [hi] at hd
      rcases hd with ⟨hplace, -⟩ | ⟨-, hd⟩
      · cases hplace
      · exact hd
    have hplace : (Function.update th i ⟨.idle, api, apis⟩ j).place.kept = some kept := by
      rw [Function.update_of_ne hj]
      exact hkept
    cases hk : kept api.tenantId with
    | true =>
      -- The counter is cleared already, so the tokens stay on this side.
      have hdrift := drift_tenant ht hk hglobal hother
      refine .clearing j kept hplace (h.update (n := -api.tokens.toNat) ?_ fun d hd => ?_)
      · rw [hdrift, hself]
        omega
      · have hpart := hbefore hd
        left
        exact ⟨rfl, by omega, by omega⟩
    | false =>
      have hdrift := drift_of_not_kept (S := S) hk hglobal hother
      refine .clearing j kept hplace (h.update (n := 0) ?_ fun d hd => ?_)
      · rw [hdrift, Int.add_zero]
      · have hpart := hbefore hd
        left
        exact ⟨rfl, by omega, by omega⟩

/-- A reset starts from no difference. -/
theorem drifting_cleared {api : ApiCall} {apis : List ApiCall} (hglobal : s'.globalUsed = 0) :
    Drifting m S s' (Function.update th i ⟨.cleared, api, apis⟩) := by
  have hkept : (Function.update th i ⟨.cleared, api, apis⟩ i).place.kept = some fun _ => false := by
    rw [Function.update_self]
    rfl
  have hdrift : drift (fun _ => false) S s' = 0 := by
    rw [drift, hglobal, Finset.filter_false_of_mem fun _ _ => nofun, Finset.sum_empty]
    rfl
  refine .clearing i _ hkept ?_
  rw [hdrift]
  exact .zero fun j => tight_zero m _

/-- The thread that clears goes on. -/
theorem Drifting.goesOn (h : Drifting m S s th) (htimed : Timed lim s th) (hi : th i = y)
    {kept kept' : String → Bool} (hy : y.place.kept = some kept) (hx : x.place.kept = some kept')
    (hflight : y.inFlight = 0) (hdrift : drift kept' S s' = drift kept S s) :
    Drifting m S s' (Function.update th i x) := by
  cases h with
  | even hnone h =>
    have hnot := hnone i
    rw [hi, hy] at hnot
    cases hnot
  | clearing j kept₀ hkept h =>
    have hinside : (th i).place.inside = true := by
      rw [hi]
      exact inside_of_kept hy
    obtain rfl : j = i := htimed.exclusive hinside (inside_of_kept hkept)
    rw [hi, hy, Option.some.injEq] at hkept
    subst hkept
    refine .clearing j kept' ?_ (h.update (n := 0) ?_ fun d hd => ?_)
    · rw [Function.update_self]
      exact hx
    · rw [hdrift, Int.add_zero]
    · have hidle : y.place ≠ .idle := by
        intro hidle
        rw [hidle] at hy
        cases hy
      rw [hi] at hd
      rw [Int.add_zero]
      exact tight_imp hidle hflight hd

/-- The last tenant is cleared, and every tenant counts again. -/
theorem Drifting.ends (h : Drifting m S s th) (htimed : Timed lim s th)
    (hcosts : ∀ j, (th j).inFlight ≤ m) {api : ApiCall} {apis : List ApiCall} {now : Instant}
    (hi : th i = ⟨.visiting [], api, apis⟩) :
    Drifting m S s (Function.update th i ⟨.renewed now, api, apis⟩) := by
  have hinside : (th i).place.inside = true := by
    rw [hi]
    rfl
  cases h with
  | even hnone h =>
    have hnot := hnone i
    rw [hi] at hnot
    cases hnot
  | clearing j kept hkept h =>
    obtain rfl : j = i := htimed.exclusive hinside (inside_of_kept hkept)
    rw [hi] at hkept
    cases hkept
    have hloose := h.mono fun k d hd => loose_of_tight (hcosts k) hd
    refine .even ?_ (hloose.update (n := 0) ?_ fun d hd => ?_)
    · refine (Function.forall_update_iff th fun _ z => z.place.kept = none).mpr
        ⟨rfl, fun k hk => ?_⟩
      cases hother : (th k).place.kept with
      | none => rfl
      | some kept => exact absurd (htimed.exclusive hinside (inside_of_kept hother)) hk
    · rw [Int.add_zero]
      refine drift_widen (fun _ _ => rfl) fun t _ ht => ?_
      exact absurd List.not_mem_nil (of_decide_eq_false ht)
    · rw [hi] at hd
      rw [Int.add_zero]
      exact hd

omit [Fintype ι] [DecidableEq ι] in
/-- The tokens in flight are those of one API call. -/
theorem Cheap.inFlight_le (h : Cheap m th) (j : ι) : (th j).inFlight ≤ m := by
  have hcost := (h j).1
  generalize th j = y at hcost
  obtain ⟨place, api, apis⟩ := y
  cases place with
  | charging => exact Int.ofNat_le.mpr (hcost nofun)
  | _ => exact Int.natCast_nonneg m

omit [Fintype ι] in
/-- No tenant leaves the map. -/
theorem Advance.present {visits : GateCells ι → List String → Prop}
    (h : Advance lim m visits s th s' th') {t : String} (ht : s.tenantUsed t ≠ none) :
    s'.tenantUsed t ≠ none := by
  cases h with
  | tick n => exact ht
  | still => exact ht
  | start i api apis hidle hcosts => exact ht
  | serve i op w x hmoves hlock hvisit =>
    cases op with
    | clearTenant t' =>
      show Function.update s.tenantUsed t' _ t ≠ none
      by_cases heq : t = t'
      · subst heq
        rw [Function.update_self]
        exact fun hnone => ht (Option.map_eq_none_iff.mp hnone)
      · rwa [Function.update_of_ne heq]
    | addTenant t' n =>
      show Function.update s.tenantUsed t' _ t ≠ none
      by_cases heq : t = t'
      · subst heq
        rw [Function.update_self]
        exact nofun
      · rwa [Function.update_of_ne heq]
    | _ => exact ht

/-- Every advance keeps a part of the difference for each thread. -/
theorem Advance.drifting {l₀ : Counter → Ledger} {b : Nat}
    (h : Advance lim m Whole s th s' th') (hgov : Governed lim m l₀ b s th)
    (hfits : ∀ κ : Counter, (κ.limit lim).toNat + Fintype.card ι * m < 2 ^ 64)
    (hpresent : ∀ t, s'.tenantUsed t ≠ none → t ∈ S) (hdrifting : Drifting m S s th) :
    Drifting m S s' th' := by
  have htimed := hgov.timed
  cases h with
  | tick n =>
    cases hdrifting with
    | even hnone h => exact .even hnone h
    | clearing j kept hkept h => exact .clearing j kept hkept h
  | still => exact hdrifting
  | start i api apis hidle hcosts =>
    refine hdrifting.moved (y := th i) rfl rfl rfl (by rw [hidle]; rfl) rfl ?_ ?_
    · generalize th i = y at hidle
      obtain ⟨place, api', apis'⟩ := y
      cases hidle
      rfl
    · rintro - d (⟨-, hd⟩ | ⟨hplace, -⟩)
      · exact .inl ⟨rfl, hd⟩
      · exact absurd hidle hplace
  | serve i op w x hmoves hlock hvisit =>
    have hcost := (hgov.counted.cheap i).1
    have hvisiting := htimed.visiting i
    generalize hi : th i = y at hmoves hcost hvisiting
    generalize hr : (GateCells.serve i op w s).1 = r at hmoves
    cases hmoves with
    | lock before api apis start =>
      refine hdrifting.moved hi rfl rfl rfl rfl rfl ?_
      rintro ⟨j, kept, hkept⟩
      -- Nobody locks the mutex while a reset is clearing.
      have hholder := (htimed.inside j).mp (inside_of_kept hkept)
      rw [hlock rfl] at hholder
      cases hholder
    | ended | lasts | setStart | unlock | globalOk | globalFull | accept | refuse =>
      exact hdrifting.moved hi rfl rfl rfl rfl rfl fun _ _ => tight_imp nofun rfl
    | clearGlobal api apis => exact drifting_cleared rfl
    | iter api apis tenants =>
      have htenants : w = tenants := hr
      subst htenants
      refine hdrifting.goesOn htimed hi rfl rfl rfl (drift_widen nofun fun t ht _ => ?_)
      have hnone : s.tenantUsed t = none := not_not.mp fun hsome =>
        of_decide_eq_true ht ((hvisit rfl).2 t hsome)
      show (s.tenantUsed t).getD 0 = 0
      rw [hnone]
      rfl
    | clearTenant api apis t tenants =>
      have hgone : decide (t ∉ t :: tenants) = false :=
        decide_eq_false fun hnot => hnot List.mem_cons_self
      have hother (t' : String) (ht : t' ≠ t) :
          Function.update s.tenantUsed t ((s.tenantUsed t).map fun _ => 0) t' = s.tenantUsed t' :=
        Function.update_of_ne ht _ _
      have hsame : drift (fun t' => decide (t' ∉ t :: tenants)) S
          (GateCells.serve i (.clearTenant t) w s).2
            = drift (fun t' => decide (t' ∉ t :: tenants)) S s :=
        drift_of_not_kept hgone rfl hother
      refine hdrifting.goesOn htimed hi rfl rfl rfl ?_
      refine (drift_widen (fun t' ht => ?_) fun t' ht hnot => ?_).trans hsame
      · exact decide_eq_true fun hmem => of_decide_eq_true ht (List.mem_cons_of_mem _ hmem)
      · have hmem : t' ∈ t :: tenants := not_not.mp (of_decide_eq_false hnot)
        obtain rfl : t' = t := (List.mem_cons.mp hmem).resolve_right (of_decide_eq_true ht)
        show (Function.update s.tenantUsed t' _ t').getD 0 = 0
        rw [Function.update_self]
        cases s.tenantUsed t' <;> rfl
    | renew api apis now => exact hdrifting.ends htimed hgov.counted.cheap.inFlight_le hi
    | addGlobal api apis =>
      have hheld : Counter.global.holds (th i) = true := by
        rw [hi]
        rfl
      exact hdrifting.addGlobal hi
        (hgov.counted.toNat_add .global (hfits _) hheld (hcost nofun)) rfl
    | addTenant api apis =>
      have hheld : (Counter.tenant api.tenantId).holds (th i) = true := by
        rw [hi]
        exact decide_eq_true rfl
      have hused : GateCells.usedBy (GateCells.serve i (.addTenant api.tenantId api.tokens) w s).2
          api.tenantId = s.usedBy api.tenantId + api.tokens := by
        show (Function.update s.tenantUsed api.tenantId _ api.tenantId).getD 0 = _
        rw [Function.update_self]
        rfl
      have hmem : api.tenantId ∈ S := hpresent _ (by
        show Function.update s.tenantUsed api.tenantId _ api.tenantId ≠ none
        rw [Function.update_self]
        exact nofun)
      refine hdrifting.addTenant hi (hcost nofun) hmem rfl ?_
        fun t ht => Function.update_of_ne ht _ _
      rw [hused]
      exact hgov.counted.toNat_add (.tenant api.tenantId) (hfits _) hheld (hcost nofun)

/-! ### Over a run -/

variable {P : Workers ι} {ms : List (WorkersMove ι)}

omit [Fintype ι] [DecidableEq ι] in
/-- The runs in which an iteration visits every entry that is there when it starts. -/
structure Sweeping (m : Nat) (P : Workers ι) (mv : WorkersMove ι) : Prop extends
    Metering m P mv where
  all : ∀ i w, mv = .serve i w → P.pending i = some .iterTenants →
    ∀ t, P.shared.tenantUsed t ≠ none → t ∈ w

omit [Fintype ι] [DecidableEq ι] in
/-- The thread has added to the global counter, and not to its tenant yet. -/
def midCharge (P : Workers ι) (i : ι) : Bool :=
  match P.procs i with
  | some ⟨_, _, .ask (.addTenant _ _) _, _⟩ => true
  | _ => false

omit [Fintype ι] [DecidableEq ι] in
/-- Only a thread in the middle of a charge has tokens in flight. -/
theorem inFlight_le_of_stands (hstands : Stands lim P th) (hcheap : Cheap m th) (i : ι) :
    (th i).inFlight ≤ if midCharge P i = true then (m : ℤ) else 0 := by
  have hcode := hstands.code i
  have hcost := hcheap.inFlight_le i
  have hunstarted := hstands.unstarted i
  generalize th i = y at hcode hcost hunstarted
  obtain ⟨place, api, apis⟩ := y
  cases place with
  | charging =>
    cases hproc : P.procs i with
    | none => exact absurd (hunstarted hproc) nofun
    | some p =>
      obtain ⟨req, trace, rest, halted⟩ := p
      obtain rfl := hcode _ hproc
      have hmid : midCharge P i = true := by
        unfold midCharge
        rw [hproc]
        rfl
      rw [if_pos hmid]
      exact hcost
  | _ =>
    have hnonneg : (0 : ℤ) ≤ m := Int.natCast_nonneg m
    show (0 : ℤ) ≤ _
    split
    · exact hnonneg
    · exact le_refl _

/-- At every moment of a run the difference has a part for each thread. -/
theorem run_drifting (hlimit : ∀ κ : Counter, 1 ≤ κ.limit lim)
    (hfits : ∀ κ : Counter, (κ.limit lim).toNat + Fintype.card ι * m < 2 ^ 64) {t₀ : Instant}
    (h : Run (Workers.step lim) (Sweeping m) (Workers.start t₀) ms P)
    (hS : ∀ t, P.shared.tenantUsed t ≠ none → t ∈ S) :
    ∃ th, Stands lim P th ∧ Cheap m th ∧ (∃ b, Governed lim m (fun _ => .empty) b P.shared th) ∧
      Drifting m S P.shared th := by
  have hallowed (P : Workers ι) (mv : WorkersMove ι) (hok : Sweeping m P mv) :
      Metering m P mv ∧ Visiting Whole P mv :=
    ⟨hok.toMetering, fun i w hmove hop => ⟨hok.visit i w hmove hop, hok.all i w hmove hop⟩⟩
  have hstart : Drifting m S (.new t₀ : GateCells ι) fun _ => ⟨.idle, ⟨"", 0⟩, []⟩ := by
    have hdrift : drift (fun _ => true) S (.new t₀ : GateCells ι) = 0 := by
      have hsum : ∑ t ∈ S with true = true, (((GateCells.new t₀ : GateCells ι).usedBy t).toNat : ℤ)
          = 0 := Finset.sum_eq_zero fun _ _ => rfl
      rw [drift, hsum]
      rfl
    refine .even (fun _ => rfl) ?_
    rw [hdrift]
    exact .zero fun i => loose_of_tight (Int.natCast_nonneg m) (tight_zero m _)
  let I (s : GateCells ι) (th : ι → Thread) : Prop :=
    Governed lim m (fun _ => .empty) (t₀ + windowNanos lim) s th ∧
      ((∀ t, s.tenantUsed t ≠ none → t ∈ S) → Drifting m S s th)
  have hkeep (s : GateCells ι) (th : ι → Thread) (s' : GateCells ι) (th' : ι → Thread)
      (hI : I s th) (hadvance : Advance lim m Whole s th s' th') : I s' th' := by
    obtain ⟨hgov, hdrifting⟩ := hI
    refine ⟨hgov.advance hlimit hfits (fun _ _ hw => hw.1) hadvance, fun hpresent => ?_⟩
    exact hadvance.drifting hgov hfits hpresent
      (hdrifting fun t ht => hpresent t (hadvance.present ht))
  obtain ⟨th, hstands, hgov, hdrifting⟩ := run_invariant I hallowed hkeep h
    (stands_start lim t₀ ⟨"", 0⟩) ⟨governed_start hlimit t₀ ⟨"", 0⟩, fun _ => hstart⟩
  exact ⟨th, hstands, hgov.counted.cheap, ⟨_, hgov⟩, hdrifting hS⟩

/-- The global counter and the sum of the tenants, with the operations of all threads interleaved
and no reset under way. The tenants are ahead by at most one API call for each thread. The global
counter is ahead by as much at most, and by one more call for each thread in the middle of its
charge. -/
theorem counters_agree {g p : UInt64} (hg : 1 ≤ g) (hp : 1 ≤ p)
    (hgm : g.toNat + Fintype.card ι * m < 2 ^ 64) (hpm : p.toNat + Fintype.card ι * m < 2 ^ 64)
    {t₀ : Instant} (h : Run (Workers.step (.new g p)) (Sweeping m) (Workers.start t₀) ms P)
    (hfree : P.shared.holder = none) (hS : ∀ t, P.shared.tenantUsed t ≠ none → t ∈ S) :
    ∑ t ∈ S, (P.shared.usedBy t).toNat ≤ P.shared.globalUsed.toNat + Fintype.card ι * m ∧
      P.shared.globalUsed.toNat ≤ ∑ t ∈ S, (P.shared.usedBy t).toNat
        + (Fintype.card ι + (Finset.univ.filter fun i => midCharge P i = true).card) * m := by
  obtain ⟨th, hstands, hcheap, ⟨_, hgov⟩, hdrifting⟩ := run_drifting (forall_limit hg hp)
    (forall_fits hgm hpm) h hS
  cases hdrifting with
  | clearing j kept hkept h =>
    have hholder := (hgov.timed.inside j).mp (inside_of_kept hkept)
    rw [hfree] at hholder
    cases hholder
  | even hnone hsplit =>
    have htotal : drift (fun _ => true) S P.shared
        = P.shared.globalUsed.toNat - ((∑ t ∈ S, (P.shared.usedBy t).toNat : ℕ) : ℤ) := by
      rw [drift, Finset.filter_true_of_mem fun _ _ => rfl, Nat.cast_sum]
    have hge := hsplit.ge (c := fun _ => -(m : ℤ)) fun i d hd => by
      have hflight : 0 ≤ (th i).inFlight := by
        generalize th i = y
        obtain ⟨place, api, apis⟩ := y
        cases place <;> first | exact le_refl _ | exact Int.natCast_nonneg _
      have hle := hd.1
      omega
    have hle := hsplit.le (c := fun i => (if midCharge P i = true then (m : ℤ) else 0) + m)
      fun i d hd => by
        have hflight := inFlight_le_of_stands hstands hcheap i
        have hle := hd.2
        omega
    rw [htotal, Finset.sum_const, Finset.card_univ, Int.nsmul_eq_mul, Int.mul_neg,
      ← Int.natCast_mul] at hge
    rw [htotal, Finset.sum_add_distrib, ← Finset.sum_filter, Finset.sum_const, Finset.sum_const,
      Finset.card_univ, Int.nsmul_eq_mul, Int.nsmul_eq_mul, ← Int.natCast_mul,
      ← Int.natCast_mul] at hle
    rw [Nat.add_mul]
    omega

omit [Fintype ι] [DecidableEq ι] in
theorem sweeping_serve {i : ι} {w : List String} {op : GateOp} (hop : P.pending i = some op)
    (hlock : op = .lockWindow → P.shared.holder = none)
    (hvisit : op = .iterTenants → Whole P.shared w) : Sweeping m P (.serve i w) := by
  refine ⟨metering_serve hop hlock fun hiter => (hvisit hiter).1, fun j v hmove hpending => ?_⟩
  cases hmove
  rw [hop, Option.some.injEq] at hpending
  exact (hvisit hpending).2

end

/-- A thread is between its two additions while another one starts a new window: the tokens are
cleared on the one side and land on the other. -/
theorem counters_agree_cut :
    ∃ ms P, Run (Workers.step (.new 10 10)) (Sweeping 8) (Workers.start 0 : Workers (Fin 2)) ms P ∧
      P.shared.globalUsed = 0 ∧ P.shared.usedBy "acme" = 8 ∧
      ∑ t ∈ {"acme"}, (P.shared.usedBy t).toNat ≤ P.shared.globalUsed.toNat + 2 * 8 := by
  have hcosts : Costs 8 [⟨"acme", 8⟩] := by
    intro api hapi
    rw [List.mem_singleton.mp hapi]
    decide
  have hstart (i : Fin 2) (P : Workers (Fin 2)) : Sweeping 8 P (.start i [⟨"acme", 8⟩]) :=
    ⟨metering_start hcosts, nofun⟩
  have h₀ : Run (Workers.step (.new 10 10)) (Sweeping 8) (Workers.start 0 : Workers (Fin 2)) [] _ :=
    .nil
  have h₁ := h₀.snoc (hstart 0 _) rfl
  have h₂ := h₁.snoc (hstart 1 _) rfl
  have h₃ := h₂.snoc (sweeping_serve (i := 0) (w := []) rfl (fun _ => rfl) nofun) rfl
  have h₄ := h₃.snoc (sweeping_serve (i := 0) (w := []) rfl nofun nofun) rfl
  have h₅ := h₄.snoc (sweeping_serve (i := 0) (w := []) rfl nofun nofun) rfl
  have h₆ := h₅.snoc (sweeping_serve (i := 0) (w := []) rfl nofun nofun) rfl
  have h₇ := h₆.snoc (sweeping_serve (i := 0) (w := []) rfl nofun nofun) rfl
  have h₈ := h₇.snoc (sweeping_serve (i := 0) (w := []) rfl nofun nofun) rfl
  -- The other thread resets the window an hour later, before the first one goes on.
  have h₉ := h₈.snoc (m := .env (3600 * 10 ^ 9)) ⟨⟨⟨nofun, nofun⟩, nofun⟩, nofun⟩ rfl
  have h₁₀ := h₉.snoc (sweeping_serve (i := 1) (w := []) rfl (fun _ => rfl) nofun) rfl
  have h₁₁ := h₁₀.snoc (sweeping_serve (i := 1) (w := []) rfl nofun nofun) rfl
  have h₁₂ := h₁₁.snoc (sweeping_serve (i := 1) (w := []) rfl nofun nofun) rfl
  have h₁₃ := h₁₂.snoc (sweeping_serve (i := 1) (w := []) rfl nofun
    fun _ => ⟨List.nodup_nil, fun t ht => absurd rfl ht⟩) rfl
  have h₁₄ := h₁₃.snoc (sweeping_serve (i := 1) (w := []) rfl nofun nofun) rfl
  have h₁₅ := h₁₄.snoc (sweeping_serve (i := 1) (w := []) rfl nofun nofun) rfl
  have h₁₆ := h₁₅.snoc (sweeping_serve (i := 1) (w := []) rfl nofun nofun) rfl
  have h₁₇ := h₁₆.snoc (sweeping_serve (i := 0) (w := []) rfl nofun nofun) rfl
  refine ⟨_, _, h₁₇, rfl, rfl, (counters_agree (by decide) (by decide) (by decide) (by decide) h₁₇
    rfl fun t ht => ?_).1⟩
  rw [Finset.mem_singleton]
  by_contra hne
  exact ht (Function.update_of_ne hne _ _)

end SwarmRuntime.Proofs
