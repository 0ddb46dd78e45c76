import SwarmRuntime.Proofs.RoundTrip
import SwarmRuntime.State.Swarm

/-!
# `SwarmRuntime.Proofs.Swarm`: what every run of the swarm keeps

`step_cases` says what one move does to the store: nothing but time, or one successful
write. The run lemmas follow from it:

* `run_later`: the store at the end is the store of the start at a later moment.
* `run_journaled`, `run_tagged`: the two facts that tags rest on.
* `run_reads`: what a client has read of a key is in the history of the key.
* `run_written` and `run_authored`: the journal entries of a client are its successful
  writes.

`write_cases` says which clients can write a key: the freezes, by one of their three writes.
-/

set_option autoImplicit false

namespace SwarmRuntime.State

open SwarmRuntime.Lib SwarmRuntime.Lib.Interaction

/-! ### The start -/

section
variable {s : Backing Author} {key : String} {value : Bytes}

theorem HoldsFromStart.journaled (h : HoldsFromStart s key value) : s.Journaled key := by
  obtain ⟨e, n, hcell, hhist⟩ := h
  intro c hc
  rw [hcell, Option.some.injEq] at hc
  subst hc
  exact ⟨_, by rw [hhist]; rfl, rfl, rfl⟩

theorem HoldsFromStart.tagged (h : HoldsFromStart s key value) : s.Tagged key := by
  obtain ⟨e, n, -, hhist⟩ := h
  rw [EtagStore.Tagged, hhist]
  exact List.pairwise_singleton _ _

/-- The only entry of the start. -/
theorem HoldsFromStart.exists_entry (h : HoldsFromStart s key value) :
    ∃ x, s.history key = [x] ∧ x.value = value ∧ x.author = none := by
  obtain ⟨e, n, -, hhist⟩ := h
  exact ⟨_, hhist, rfl, rfl⟩

end

namespace Swarm

variable {M : AgentHydrationManager} {B : Build} {P P' : Swarm} {m : SwarmMove}
  {ok : Swarm → SwarmMove → Prop} {s₀ : Backing Author} {ms : List SwarmMove}

/-- In the move `m` the client `id` makes a write that succeeds. `tr` is its transcript
before the write. -/
structure Wrote (P P' : Swarm) (m : SwarmMove) (id : Nat) (q : Request)
    (tr : Transcript Reply) (key : String) (value : Bytes) (etag : Option ETag)
    (ttl : TtlPolicy) (w : Answer) : Prop where
  move : m = .serve id w
  before : ∃ next, P.procs id = some ⟨q, tr, ask (.set key value etag ttl) next, false⟩
  after : ∃ rest,
    P'.procs id = some ⟨q, tr ++ [⟨.set key value etag ttl, .ok w.etag⟩], rest, false⟩
  accepted : P.shared.accepts key etag = true
  shared : P'.shared = P.shared.put (some id) key value ttl.lifetime w.etag

/-- What one move does to the store: time passes, or one client writes. Only a move of the
environment lets time pass. -/
theorem step_cases (h : step M B P m = some P') :
    (∃ n, P'.shared = P.shared.tick n ∧ (n = 0 ∨ m = .env n)) ∨
      ∃ id q tr key value etag ttl w, Wrote P P' m id q tr key value etag ttl w := by
  obtain hsame | ⟨n, hm, htick⟩ | ⟨id, w, q, tr, c, next, hm, hp, hp', hserve⟩ :=
    Pool.step_shared h
  · exact .inl ⟨0, by rw [hsame, EtagStore.tick_zero], .inl rfl⟩
  · exact .inl ⟨n, htick, .inr hm⟩
  · cases c with
    -- A read, and a look at the clock, leave the store as it is.
    | get key =>
      have hread : (serve (some id) (.get key) w P.shared).2 = P.shared := serve_get_state
      have hstate : P'.shared = P.shared := hserve.trans hread
      exact .inl ⟨0, by rw [hstate, EtagStore.tick_zero], .inl rfl⟩
    | now =>
      have hstate : P'.shared = P.shared := hserve
      exact .inl ⟨0, by rw [hstate, EtagStore.tick_zero], .inl rfl⟩
    | set key value etag ttl =>
      have hs : P'.shared = (serve (some id) (.set key value etag ttl) w P.shared).2 := hserve
      -- A write is applied, or refused, or fails.
      obtain ⟨-, hacc, hsrv⟩ | ⟨-, -, hsrv⟩ | ⟨msg, -, hsrv⟩ :=
        serve_set_cases (some id) key value etag ttl w P.shared
      · rw [hsrv] at hs
        have hreply : ((service M B).serve id (.set key value etag ttl) w P.shared).1
            = .ok w.etag := congrArg Prod.fst hsrv
        rw [hreply] at hp'
        exact .inr ⟨id, q, tr, key, value, etag, ttl, w, hm, ⟨next, hp⟩, ⟨_, hp'⟩, hacc, hs⟩
      · rw [hsrv] at hs
        exact .inl ⟨0, by rw [hs, EtagStore.tick_zero], .inl rfl⟩
      · rw [hsrv] at hs
        exact .inl ⟨0, by rw [hs, EtagStore.tick_zero], .inl rfl⟩

/-- A writing client waits for its write. -/
theorem Wrote.pending {id : Nat} {q : Request} {tr : Transcript Reply} {key : String}
    {value : Bytes} {etag : Option ETag} {ttl : TtlPolicy} {w : Answer}
    (h : Wrote P P' m id q tr key value etag ttl w) :
    P.pending id = some (.set key value etag ttl) := by
  obtain ⟨next, hp⟩ := h.before
  rw [Swarm.pending, hp]

/-! ### The store along a run -/

/-- One move leads to a later moment of the store. -/
theorem step_later (h : step M B P m = some P') : P.shared.Later P'.shared := by
  obtain ⟨n, htick, -⟩ | ⟨id, q, tr, key, value, etag, ttl, w, hw⟩ := step_cases h
  · rw [htick]
    exact EtagStore.Later.tick _ n
  · rw [hw.shared]
    exact EtagStore.Later.put _ _ _ _ _ _

/-- A run leads to a later moment of the store. -/
theorem run_later {P₀ : Swarm} (h : Run (step M B) ok P₀ ms P) : P₀.shared.Later P.shared := by
  induction h with
  | nil => exact EtagStore.Later.refl _
  | snoc _ _ hs ih => exact ih.trans (step_later hs)

/-- Each move adds at most one entry to a history. -/
theorem run_history_length {P₀ : Swarm} (h : Run (step M B) ok P₀ ms P) (key : String) :
    (P.shared.history key).length ≤ (P₀.shared.history key).length + ms.length := by
  induction h with
  | nil => exact Nat.le_refl _
  | @snoc ms P P' m _ _ hs ih =>
    rw [List.length_append, List.length_singleton]
    obtain ⟨n, htick, -⟩ | ⟨id, q, tr, key', value, etag, ttl, w, hw⟩ := step_cases hs
    · rw [htick, EtagStore.history_tick]
      omega
    · by_cases hkey : key = key'
      · subst hkey
        rw [hw.shared, EtagStore.history_put_self, List.length_cons]
        omega
      · rw [hw.shared, EtagStore.history_put_of_ne _ _ _ _ _ _ _ hkey]
        omega

/-- The cell of a key stays the newest entry of its history. -/
theorem run_journaled {P₀ : Swarm} {key : String} (h0 : P₀.shared.Journaled key)
    (h : Run (step M B) ok P₀ ms P) : P.shared.Journaled key := by
  refine h.invariant (fun P => P.shared.Journaled key) h0 ?_
  intro ms P m P' _ hP _ hs
  obtain ⟨n, htick, -⟩ | ⟨id, q, tr, key', value, etag, ttl, w, hw⟩ := step_cases hs
  · show P'.shared.Journaled key
    rw [htick]
    exact hP
  · show P'.shared.Journaled key
    rw [hw.shared]
    exact hP.put _ _ _ _ _

/-- The tags of a key stay distinct, when every successful write installs a fresh one. -/
theorem run_tagged {P₀ : Swarm} {key : String} (hok : ∀ P m, ok P m → FreshTags P m)
    (h0 : P₀.shared.Tagged key) (h : Run (step M B) ok P₀ ms P) : P.shared.Tagged key := by
  refine h.invariant (fun P => P.shared.Tagged key) h0 ?_
  intro ms P m P' _ hP hokm hs
  obtain ⟨n, htick, -⟩ | ⟨id, q, tr, key', value, etag, ttl, w, hw⟩ := step_cases hs
  · show P'.shared.Tagged key
    rw [htick]
    exact hP
  -- The condition on the moves speaks of this very write.
  · have hfresh : P.shared.Fresh key' w.etag :=
      hok P m hokm id w key' value etag ttl hw.move hw.pending
    rw [hw.shared]
    exact hP.put _ _ _ _ _ hfresh

/-! ### Transcripts and the journal -/

/-- The clients of a run stand where their transcripts say. -/
theorem run_traced (h : Run (step M B) ok (start s₀) ms P) {id : Nat}
    {p : Proc Reply Request Response} (hp : P.procs id = some p) :
    Trace (p.request.prog M B) p.transcript p.rest :=
  Pool.run_traced (S := service M B) (fun _ _ hp => by cases hp) h id p hp

/-- What a client has read of a key is in the history of the key. -/
theorem run_reads {key : String} (h0 : s₀.Journaled key)
    (h : Run (step M B) ok (start s₀) ms P) {id : Nat} {p : Proc Reply Request Response}
    (hp : P.procs id = some p) {r : StateRecord}
    (hr : ⟨.get key, .ok (some r)⟩ ∈ p.transcript) :
    ∃ x ∈ P.shared.history key, x.value = r.value ∧ x.etag = r.etag := by
  obtain ⟨t₁, t₂, ht⟩ := List.append_of_mem hr
  -- At the moment of the read the cell was the newest entry, and entries stay.
  obtain ⟨pre, w, post, P₁, P₂, next, -, hpre, hok₁, hs₁, hpost, -, hreply⟩ :=
    Pool.run_served h (fun _ hp => by cases hp) hp ht
  have hserve : (serve (some id) (.get key) w P₁.shared).1 = .ok (some r) := hreply.symm
  obtain ⟨c, hc, hv, he⟩ := lookup_of_serve_get hserve
  obtain ⟨x, older, hhist, hxv, hxe⟩ := (run_journaled h0 hpre).exists_newest hc
  have hx : x ∈ P₁.shared.history key := by simp [hhist]
  have hlater : P₁.shared.Later P.shared := (step_later hs₁).trans (run_later hpost)
  exact ⟨x, hlater.mem_history hx, hxv.trans hv, hxe.trans he⟩

/-- A write that is served and answered `ok` is a write that succeeds. -/
theorem wrote_of_served {id : Nat} {q : Request} {tr : Transcript Reply} {key : String}
    {value : Bytes} {etag : Option ETag} {ttl : TtlPolicy} {w : Answer} {e : ETag}
    {next : Reply (.set key value etag ttl) → Async Response}
    (hs : step M B P (.serve id w) = some P')
    (hp : P.procs id = some ⟨q, tr, ask (.set key value etag ttl) next, false⟩)
    (hreply : (serve (some id) (.set key value etag ttl) w P.shared).1 = .ok e) :
    Wrote P P' (.serve id w) id q tr key value etag ttl w ∧ w.etag = e := by
  obtain ⟨q', tr', c, next', hp', rfl⟩ := Pool.step_serve.mp hs
  rw [hp, Option.some.injEq, Proc.mk.injEq] at hp'
  obtain ⟨rfl, rfl, hask, -⟩ := hp'
  cases hask
  obtain ⟨-, hacc, hsrv⟩ | ⟨-, -, hsrv⟩ | ⟨msg, -, hsrv⟩ :=
    serve_set_cases (some id) key value etag ttl w P.shared
  · have hfst : ((service M B).serve id (.set key value etag ttl) w P.shared).1 = .ok w.etag :=
      congrArg Prod.fst hsrv
    have hsnd : ((service M B).serve id (.set key value etag ttl) w P.shared).2
        = P.shared.put (some id) key value ttl.lifetime w.etag := congrArg Prod.snd hsrv
    have htag : w.etag = e := by
      rw [hsrv] at hreply
      exact Except.ok.inj hreply
    refine ⟨⟨rfl, ⟨next, hp⟩, ⟨next (.ok w.etag), ?_⟩, hacc, ?_⟩, htag⟩
    · rw [hfst, Pool.procs_setProc_self]
    · rw [Pool.shared_setProc, Pool.shared_setShared, hsnd]
  · rw [hsrv] at hreply
    cases hreply
  · rw [hsrv] at hreply
    cases hreply

/-- A successful write of a client is in the history of its key, under the client's name. -/
theorem run_written (h : Run (step M B) ok (start s₀) ms P) {id : Nat}
    {p : Proc Reply Request Response} (hp : P.procs id = some p) {key : String} {value : Bytes}
    {etag : Option ETag} {ttl : TtlPolicy} {e : ETag}
    (hw : ⟨.set key value etag ttl, .ok e⟩ ∈ p.transcript) :
    ⟨key, value, e, some id⟩ ∈ P.shared.history key := by
  obtain ⟨t₁, t₂, ht⟩ := List.append_of_mem hw
  obtain ⟨pre, w, post, P₁, P₂, next, -, hpre, -, hs₁, hpost, hp₁, hreply⟩ :=
    Pool.run_served h (fun _ hp => by cases hp) hp ht
  have hserve : (serve (some id) (.set key value etag ttl) w P₁.shared).1 = .ok e := hreply.symm
  obtain ⟨hwrote, rfl⟩ := wrote_of_served hs₁ hp₁ hserve
  have hmem : ⟨key, value, w.etag, some id⟩ ∈ P₂.shared.history key := by
    rw [hwrote.shared, EtagStore.history_put_self]
    exact List.mem_cons_self
  exact (run_later hpost).mem_history hmem

/-- Each journal entry of a client is a successful write of the client. -/
theorem run_authored (h0 : ∀ x ∈ s₀.journal, x.author = none)
    (h : Run (step M B) ok (start s₀) ms P) {x : Entry String Bytes ETag Author}
    (hx : x ∈ P.shared.journal) {id : Nat} (hid : x.author = some id) :
    ∃ p etag ttl, P.procs id = some p ∧
      ⟨.set x.key x.value etag ttl, .ok x.etag⟩ ∈ p.transcript := by
  induction h with
  | nil =>
    rw [h0 x hx] at hid
    cases hid
  | @snoc ms P P' m hr hokm hs ih =>
    -- An older entry: its client is still there, with a longer transcript.
    have hold : x ∈ P.shared.journal → ∃ p etag ttl, P'.procs id = some p ∧
        ⟨.set x.key x.value etag ttl, .ok x.etag⟩ ∈ p.transcript := by
      intro hx
      obtain ⟨p, etag, ttl, hp, hmem⟩ := ih hx
      obtain ⟨p', hp', -, hpre, -⟩ := Pool.step_extends hs id p hp
      exact ⟨p', etag, ttl, hp', hpre.subset hmem⟩
    obtain ⟨n, htick, -⟩ | ⟨id', q, tr, key, value, etag, ttl, w, hw⟩ := step_cases hs
    · rw [htick] at hx
      exact hold hx
    · rw [hw.shared, EtagStore.journal_put, List.mem_cons] at hx
      -- The new entry is of the client that was served, and its reply is in its transcript.
      rcases hx with rfl | hx
      · cases hid
        obtain ⟨rest, hp'⟩ := hw.after
        exact ⟨_, etag, ttl, hp', by simp⟩
      · exact hold hx

/-- Each entry of a client in a history is a successful write of the client to that key. -/
theorem run_wrote (h0 : ∀ x ∈ s₀.journal, x.author = none)
    (h : Run (step M B) ok (start s₀) ms P) {key : String} {x : Entry String Bytes ETag Author}
    (hx : x ∈ P.shared.history key) {id : Nat} (hid : x.author = some id) :
    ∃ p etag ttl, P.procs id = some p ∧
      ⟨.set key x.value etag ttl, .ok x.etag⟩ ∈ p.transcript := by
  have hxj : x ∈ P.shared.journal := List.mem_of_mem_filter hx
  obtain ⟨p, etag, ttl, hp, hmem⟩ := run_authored h0 h hxj hid
  rw [EtagStore.key_of_mem_history hx] at hmem
  exact ⟨p, etag, ttl, hp, hmem⟩

/-- A client that has not written a key is the author of none of its entries. -/
theorem run_not_author (h0 : ∀ x ∈ s₀.journal, x.author = none)
    (h : Run (step M B) ok (start s₀) ms P) {id : Nat} {p : Proc Reply Request Response}
    (hp : P.procs id = some p) {key : String}
    (hnot : ∀ value etag ttl e, ⟨.set key value etag ttl, .ok e⟩ ∉ p.transcript) :
    ∀ x ∈ P.shared.history key, x.author ≠ some id := by
  intro x hx hauthor
  obtain ⟨p', etag, ttl, hp', hmem⟩ := run_wrote h0 h hx hauthor
  rw [hp, Option.some.injEq] at hp'
  subst hp'
  exact hnot _ _ _ _ hmem

/-- An entry without an author was there from the start. -/
theorem run_unauthored (h : Run (step M B) ok (start s₀) ms P) {key : String}
    {x : Entry String Bytes ETag Author} (hx : x ∈ P.shared.history key)
    (hauthor : x.author = none) : x ∈ s₀.history key := by
  induction h with
  | nil => exact hx
  | snoc _ _ hs ih =>
    obtain ⟨n, htick, -⟩ | ⟨id, q, tr, key', value, etag, ttl, w, hw⟩ := step_cases hs
    · rw [htick, EtagStore.history_tick] at hx
      exact ih hx
    · by_cases hkey : key = key'
      · subst hkey
        rw [hw.shared, EtagStore.history_put_self, List.mem_cons] at hx
        rcases hx with rfl | hx
        · cases hauthor
        · exact ih hx
      · rw [hw.shared, EtagStore.history_put_of_ne _ _ _ _ _ _ _ hkey] at hx
        exact ih hx

/-! ### Who writes what -/

/-- A client that is about to write is a freeze at one of its three writes. -/
theorem write_cases (h : Run (step M B) ok (start s₀) ms P) {id : Nat} {q : Request}
    {tr : Transcript Reply} {key : String} {value : Bytes} {etag : Option ETag}
    {ttl : TtlPolicy} {next : Reply (.set key value etag ttl) → Async Response} {b : Bool}
    (hp : P.procs id = some ⟨q, tr, ask (.set key value etag ttl) next, b⟩) :
    ∃ i, q = .freeze i ∧ FreezeWrite B i tr (.set key value etag ttl) := by
  have htrace : Trace (q.prog M B) tr (ask (.set key value etag ttl) next) := run_traced h hp
  cases q with
  | get key' =>
    obtain ⟨q', hq', hmap⟩ := trace_map.mp htrace
    obtain ⟨next', rfl, -⟩ := map_eq_ask.mp hmap.symm
    have hq' : Trace (ask (Call.get key') done) tr (ask (.set key value etag ttl) next') := hq'
    rw [trace_ask] at hq'
    rcases hq' with ⟨-, hask⟩ | ⟨r, tr', -, hdone⟩
    · cases hask
    · simp at hdone
  | hydrate t a =>
    obtain ⟨q', hq', hmap⟩ := trace_map.mp htrace
    obtain ⟨next', rfl, -⟩ := map_eq_ask.mp hmap.symm
    exact absurd hq' hydrate_reads
  | freeze i =>
    obtain ⟨q', hq', hmap⟩ := trace_map.mp htrace
    obtain ⟨next', rfl, -⟩ := map_eq_ask.mp hmap.symm
    exact ⟨i, rfl, freeze_write hq'⟩

/-- A freeze that waits for a call has passed step 1. -/
theorem run_increments (h : Run (step M B) ok (start s₀) ms P) {id : Nat} {i : FreezeInput}
    {tr : Transcript Reply} {c : Call} {next : Reply c → Async Response} {b : Bool}
    (hp : P.procs id = some ⟨.freeze i, tr, ask c next, b⟩) : i.Increments B := by
  by_contra hinc
  have htrace : Trace (.frozen <$> (freeze B i).run) tr (ask c next) := run_traced h hp
  rw [freeze_run_overflow hinc, map_panic, trace_panic] at htrace
  cases htrace.2

section
variable {id : Nat} {q : Request} {tr : Transcript Reply} {key : String} {value : Bytes}
  {etag : Option ETag} {ttl : TtlPolicy} {w : Answer}

/-- A write is the newest entry of its key. -/
theorem Wrote.history_self (hw : Wrote P P' m id q tr key value etag ttl w) :
    P'.shared.history key = ⟨key, value, w.etag, some id⟩ :: P.shared.history key := by
  rw [hw.shared, EtagStore.history_put_self]

/-- A write leaves the history of every other key. -/
theorem Wrote.history_of_ne (hw : Wrote P P' m id q tr key value etag ttl w) {key' : String}
    (hkey : key' ≠ key) : P'.shared.history key' = P.shared.history key' := by
  rw [hw.shared, EtagStore.history_put_of_ne _ _ _ _ _ _ _ hkey]

/-- A successful write to a state key is the state write of a freeze of that agent. -/
theorem Wrote.stateWrite (hw : Wrote P P' m id q tr key value etag ttl w)
    (h : Run (step M B) ok (start s₀) ms P) {t a : String} (hkey : key = agentStateKey t a) :
    ∃ i c₁ c₂ e₁, keyRoot i.tenantId i.agentId = keyRoot t a ∧
      Wrote P P' m id (.freeze i) [⟨.now, c₁⟩, ⟨i.memoryWrite B c₁, .ok e₁⟩, ⟨.now, c₂⟩]
        (agentStateKey t a) (i.stateBytes B c₁ c₂) (some i.stateEtag) .none w := by
  obtain ⟨next, hp⟩ := hw.before
  obtain ⟨i, rfl, hwrite⟩ := write_cases h hp
  obtain ⟨hroot, c₁, c₂, e₁, rfl, rfl, rfl, rfl⟩ := hwrite.eq_state hkey
  exact ⟨i, c₁, c₂, e₁, hroot, hkey ▸ hw⟩

/-- A successful write to a memory key is the memory write of a freeze of that agent. -/
theorem Wrote.memoryWrite (hw : Wrote P P' m id q tr key value etag ttl w)
    (h : Run (step M B) ok (start s₀) ms P) {t a : String} (hkey : key = workingMemoryKey t a) :
    ∃ i c₁, keyRoot i.tenantId i.agentId = keyRoot t a ∧
      Wrote P P' m id (.freeze i) [⟨.now, c₁⟩] (workingMemoryKey t a) (i.memBytes B c₁)
        (some i.memoryEtag) (.seconds 86400) w := by
  obtain ⟨next, hp⟩ := hw.before
  obtain ⟨i, rfl, hwrite⟩ := write_cases h hp
  obtain ⟨hroot, c₁, rfl, rfl, rfl, rfl⟩ := hwrite.eq_memory hkey
  exact ⟨i, c₁, hroot, hkey ▸ hw⟩

end

/-- A client that has written a state key is a freeze of that agent, and it has written its
memory before. -/
theorem run_stateWrites (h : Run (step M B) ok (start s₀) ms P) {id : Nat}
    {p : Proc Reply Request Response} (hp : P.procs id = some p) {t a : String} {value : Bytes}
    {etag : Option ETag} {ttl : TtlPolicy} {e : ETag}
    (hw : ⟨.set (agentStateKey t a) value etag ttl, .ok e⟩ ∈ p.transcript) :
    ∃ i c₁ c₂ e₁, p.request = .freeze i ∧ keyRoot i.tenantId i.agentId = keyRoot t a ∧
      i.Increments B ∧ value = i.stateBytes B c₁ c₂ ∧ ⟨i.memoryWrite B c₁, .ok e₁⟩ ∈ p.transcript ∧
      ⟨i.stateWrite B c₁ c₂, .ok e⟩ ∈ p.transcript := by
  obtain ⟨t₁, t₂, ht⟩ := List.append_of_mem hw
  obtain ⟨pre, w, post, P₁, P₂, next, -, hpre, -, -, -, hp₁, -⟩ :=
    Pool.run_served h (fun _ hp => by cases hp) hp ht
  obtain ⟨i, hq, hwrite⟩ := write_cases hpre hp₁
  rw [hq] at hp₁
  have hinc : i.Increments B := run_increments hpre hp₁
  obtain ⟨hroot, c₁, c₂, e₁, rfl, rfl, rfl, rfl⟩ := hwrite.eq_state rfl
  refine ⟨i, c₁, c₂, e₁, hq, hroot, hinc, rfl, ?_, ?_⟩
  · simp [ht]
  · rwa [← (agentStateKey_eq_iff _ _ _ _).mpr hroot] at hw

/-- A client that has written a checkpoint key is a freeze of that agent, and it has written both
records before. -/
theorem run_checkpointWrites (h : Run (step M B) ok (start s₀) ms P) {id : Nat}
    {p : Proc Reply Request Response} (hp : P.procs id = some p) {t a : String} {n : UInt64}
    {value : Bytes} {etag : Option ETag} {ttl : TtlPolicy} {e : ETag}
    (hw : ⟨.set (checkpointKey t a n) value etag ttl, .ok e⟩ ∈ p.transcript) :
    ∃ i c₁ c₂ c₃ c₄ e₁ e₂ tail, p.request = .freeze i ∧
      keyRoot i.tenantId i.agentId = keyRoot t a ∧ secondsOf c₃ = n ∧
      value = B.checkpoint.encodeToVec (i.frozenCheckpoint B c₁ c₂ n c₄) ∧
      p.transcript = [⟨.now, c₁⟩, ⟨i.memoryWrite B c₁, .ok e₁⟩, ⟨.now, c₂⟩,
        ⟨i.stateWrite B c₁ c₂, .ok e₂⟩, ⟨.now, c₃⟩] ++ tail := by
  obtain ⟨t₁, t₂, ht⟩ := List.append_of_mem hw
  obtain ⟨pre, w, post, P₁, P₂, next, -, hpre, -, -, -, hp₁, -⟩ :=
    Pool.run_served h (fun _ hp => by cases hp) hp ht
  obtain ⟨i, hq, hwrite⟩ := write_cases hpre hp₁
  obtain ⟨hroot, c₁, c₂, c₃, c₄, e₁, e₂, hseq, rfl, hvalue, -, -⟩ := hwrite.eq_checkpoint rfl
  exact ⟨i, c₁, c₂, c₃, c₄, e₁, e₂, _, hq, hroot, hseq, hvalue, ht⟩

/-- What one move does to the two primary keys of an agent: nothing, or a freeze of the agent
writes its memory, or a freeze of the agent writes its state. -/
theorem step_primary (h : Run (step M B) ok (start s₀) ms P) (hs : step M B P m = some P')
    (t a : String) :
    (P'.shared.history (agentStateKey t a) = P.shared.history (agentStateKey t a) ∧
        P'.shared.history (workingMemoryKey t a) = P.shared.history (workingMemoryKey t a)) ∨
      (∃ id i c₁ w, keyRoot i.tenantId i.agentId = keyRoot t a ∧
        Wrote P P' m id (.freeze i) [⟨.now, c₁⟩] (workingMemoryKey t a) (i.memBytes B c₁)
          (some i.memoryEtag) (.seconds 86400) w) ∨
      ∃ id i c₁ c₂ e₁ w, keyRoot i.tenantId i.agentId = keyRoot t a ∧
        Wrote P P' m id (.freeze i) [⟨.now, c₁⟩, ⟨i.memoryWrite B c₁, .ok e₁⟩, ⟨.now, c₂⟩]
          (agentStateKey t a) (i.stateBytes B c₁ c₂) (some i.stateEtag) .none w := by
  obtain ⟨n, htick, -⟩ | ⟨id, q, tr, key, value, etag, ttl, w, hw⟩ := step_cases hs
  · exact .inl ⟨by rw [htick, EtagStore.history_tick], by rw [htick, EtagStore.history_tick]⟩
  -- A write goes to the state key, to the memory key, or elsewhere.
  · by_cases hstate : key = agentStateKey t a
    · obtain ⟨i, c₁, c₂, e₁, hroot, hw⟩ := hw.stateWrite h hstate
      exact .inr (.inr ⟨id, i, c₁, c₂, e₁, w, hroot, hw⟩)
    · by_cases hmem : key = workingMemoryKey t a
      · obtain ⟨i, c₁, hroot, hw⟩ := hw.memoryWrite h hmem
        exact .inr (.inl ⟨id, i, c₁, w, hroot, hw⟩)
      · exact .inl ⟨hw.history_of_ne (Ne.symm hstate), hw.history_of_ne (Ne.symm hmem)⟩

/-- A freeze of a run that has returned, as the trace of its own program. -/
theorem frozen_trace (h : Run (step M B) ok (start s₀) ms P) {id : Nat}
    {p : Proc Reply Request Response} (hp : P.procs id = some p) {i : FreezeInput}
    (hq : p.request = .freeze i) {r : StateResult UInt64} (hdone : p.rest = done (.frozen r)) :
    Trace (freeze B i).run p.transcript (done r) := by
  have htrace : Trace (p.request.prog M B) p.transcript p.rest := run_traced h hp
  rw [hq, hdone] at htrace
  obtain ⟨q, hq', hmap⟩ := trace_map.mp htrace
  obtain ⟨r', rfl, hr'⟩ := map_eq_done.mp hmap.symm
  cases hr'
  exact hq'

/-! ### The two reads of a hydrate -/

/-- A hydrate of a run that has returned a result, as the trace of its own program. -/
theorem hydrated_trace (h : Run (step M B) ok (start s₀) ms P) {id : Nat}
    {p : Proc Reply Request Response} (hp : P.procs id = some p) {t a : String}
    (hq : p.request = .hydrate t a) {r : StateResult HydrationResult}
    (hdone : p.rest = done (.hydrated r)) :
    Trace (M.hydrate B t a).run p.transcript (done r) := by
  have htrace : Trace (p.request.prog M B) p.transcript p.rest := run_traced h hp
  rw [hq, hdone] at htrace
  obtain ⟨q, hq', hmap⟩ := trace_map.mp htrace
  obtain ⟨r', rfl, hr'⟩ := map_eq_done.mp hmap.symm
  cases hr'
  exact hq'

/-- The two moments at which a hydrate that has returned `r` read its two records. -/
structure ReadsOf (M : AgentHydrationManager) (B : Build) (ok : Swarm → SwarmMove → Prop)
    (s₀ : Backing Author) (ms : List SwarmMove) (t a : String) (r : HydrationResult)
    (P₁ P₂ P : Swarm) (cs cm : Cell Bytes ETag) : Prop where
  first : ∃ pre, pre <+: ms ∧ Run (step M B) ok (start s₀) pre P₁
  second : ∃ pre, pre <+: ms ∧ Run (step M B) ok (start s₀) pre P₂
  between : P₁.shared.Later P₂.shared
  after : P₂.shared.Later P.shared
  stateCell : P₁.shared.lookup (agentStateKey t a) = some cs
  memoryCell : P₂.shared.lookup (workingMemoryKey t a) = some cm
  state : B.state.decode cs.value = .ok r.state
  memory : B.memory.decode cm.value = .ok r.workingMemory
  versions : r.workingMemory.version = r.state.workingMemoryVersion

/-- A hydrate that has returned a result has read its state record at one moment and its
memory record at a later one. -/
theorem run_hydrated (h : Run (step M B) ok (start s₀) ms P) {id : Nat}
    {p : Proc Reply Request Response} (hp : P.procs id = some p) {t a : String}
    (hq : p.request = .hydrate t a) {r : HydrationResult}
    (hdone : p.rest = done (.hydrated (.ok r))) :
    ∃ P₁ P₂ cs cm, ReadsOf M B ok s₀ ms t a r P₁ P₂ P cs cm := by
  obtain ⟨rs, rm, tail, htr, -, hdecs, hdecm, hver, -⟩ :=
    hydrate_ok (hydrated_trace h hp hq hdone)
  -- The memory read, and in the run up to it the state read.
  have htr₂ : p.transcript = (⟨.get (agentStateKey t a), .ok (some rs)⟩ :: tail) ++
      ⟨.get (workingMemoryKey t a), .ok (some rm)⟩ :: [] := by rw [htr]; rfl
  obtain ⟨pre₂, w₂, post₂, P₂, P₂', next₂, rfl, hrun₂, -, hs₂, hpost₂, hp₂, hreply₂⟩ :=
    Pool.run_served h (fun _ hp => by cases hp) hp htr₂
  have htr₁ : (⟨.get (agentStateKey t a), .ok (some rs)⟩ :: tail : Transcript Reply) =
      [] ++ ⟨.get (agentStateKey t a), .ok (some rs)⟩ :: tail := rfl
  obtain ⟨pre₁, w₁, post₁, P₁, P₁', next₁, rfl, hrun₁, -, hs₁, hpost₁, hp₁, hreply₁⟩ :=
    Pool.run_served hrun₂ (fun _ hp => by cases hp) hp₂ htr₁
  have hserve₁ : (serve (some id) (.get (agentStateKey t a)) w₁ P₁.shared).1
      = .ok (some rs) := hreply₁.symm
  have hserve₂ : (serve (some id) (.get (workingMemoryKey t a)) w₂ P₂.shared).1
      = .ok (some rm) := hreply₂.symm
  obtain ⟨cs, hcs, hcsv, -⟩ := lookup_of_serve_get hserve₁
  obtain ⟨cm, hcm, hcmv, -⟩ := lookup_of_serve_get hserve₂
  refine ⟨P₁, P₂, cs, cm, ?_⟩
  exact
    { first := ⟨pre₁, by simp, hrun₁⟩
      second := ⟨_, List.prefix_append _ _, hrun₂⟩
      between := (step_later hs₁).trans (run_later hpost₁)
      after := (step_later hs₂).trans (run_later hpost₂)
      stateCell := hcs
      memoryCell := hcm
      state := by rw [hcsv, hdecs]
      memory := by rw [hcmv, hdecm]
      versions := hver }

/-! ### A client that no other client disturbs -/

section
variable {t a : String} {id : Nat} {ws : List Answer} (I : List Answer → Backing Author → Prop)

/-- A hydrate that no other client disturbs returns what it returns alone. The invariant `I`
admits its calls. -/
theorem run_hydrate_alone (hok : ∀ P w ws, I (w :: ws) P.shared → ok P (.serve id w))
    (hkeep : ∀ c w ws s, I (w :: ws) s → I ws (serve (some id) c w s).2)
    (hstart : ok P (.start id (.hydrate t a))) (hid : P.procs id = none) (hI : I ws P.shared)
    {r : HydrationResult}
    (hend : (exec (serve (some id)) (M.hydrate B t a).run ws P.shared).ending
      = .returned (.ok r)) :
    ∃ ms P', Run (step M B) ok P ms P' ∧
      P'.procs id = some ⟨.hydrate t a,
        (exec (serve (some id)) (M.hydrate B t a).run ws P.shared).transcript,
        done (.hydrated (.ok r)), false⟩ ∧
      P'.shared = P.shared ∧ (∀ id', id' ≠ id → P'.procs id' = P.procs id') ∧
      ms.length ≤ ws.length + 1 := by
  have hend' : (exec ((service M B).serve id) ((service M B).prog (.hydrate t a)) ws
      P.shared).ending = .returned (.hydrated (.ok r)) := by
    show (exec (serve (some id)) (Response.hydrated <$> (M.hydrate B t a).run) ws
      P.shared).ending = _
    rw [exec_map, hend]
    rfl
  obtain ⟨ms, P', hrun, hproc, hshared, hothers⟩ :=
    Pool.run_alone I hok hkeep hstart hid hI hend'
  refine ⟨ms, P', hrun, ?_, ?_, hothers⟩
  · rw [hproc]
    show some (Proc.mk _ (exec (serve (some id)) (Response.hydrated <$> (M.hydrate B t a).run) ws
      P.shared).transcript _ _) = _
    rw [exec_map]
  · rw [hshared]
    show (exec (serve (some id)) (Response.hydrated <$> (M.hydrate B t a).run) ws
      P.shared).state = _
    rw [exec_map, (exec_hydrate_reads ws).1]

/-- A freeze that no other client disturbs returns what it returns alone. -/
theorem run_freeze_alone (hok : ∀ P w ws, I (w :: ws) P.shared → ok P (.serve id w))
    (hkeep : ∀ c w ws s, I (w :: ws) s → I ws (serve (some id) c w s).2) {i : FreezeInput}
    (hstart : ok P (.start id (.freeze i))) (hid : P.procs id = none) (hI : I ws P.shared)
    {seq : UInt64}
    (hend : (exec (serve (some id)) (freeze B i).run ws P.shared).ending = .returned (.ok seq)) :
    ∃ ms P', Run (step M B) ok P ms P' ∧
      P'.procs id = some ⟨.freeze i,
        (exec (serve (some id)) (freeze B i).run ws P.shared).transcript,
        done (.frozen (.ok seq)), false⟩ ∧
      P'.shared = (exec (serve (some id)) (freeze B i).run ws P.shared).state ∧
      (∀ id', id' ≠ id → P'.procs id' = P.procs id') ∧ ms.length ≤ ws.length + 1 := by
  have hend' : (exec ((service M B).serve id) ((service M B).prog (.freeze i)) ws
      P.shared).ending = .returned (.frozen (.ok seq)) := by
    show (exec (serve (some id)) (Response.frozen <$> (freeze B i).run) ws P.shared).ending = _
    rw [exec_map, hend]
    rfl
  obtain ⟨ms, P', hrun, hproc, hshared, hothers⟩ :=
    Pool.run_alone I hok hkeep hstart hid hI hend'
  refine ⟨ms, P', hrun, ?_, ?_, hothers⟩
  · rw [hproc]
    show some (Proc.mk _ (exec (serve (some id)) (Response.frozen <$> (freeze B i).run) ws
      P.shared).transcript _ _) = _
    rw [exec_map]
  · rw [hshared]
    show (exec (serve (some id)) (Response.frozen <$> (freeze B i).run) ws P.shared).state = _
    rw [exec_map]

/-- Answers whose tags are new to the store, one after the other. -/
def NewTags (ws : List Answer) (s : Backing Author) : Prop :=
  (ws.map Answer.etag).Nodup ∧ ∀ w ∈ ws, ∀ x ∈ s.journal, x.etag ≠ w.etag

/-- The answers that are left stay new. -/
theorem NewTags.serve {w : Answer} {s : Backing Author} (h : NewTags (w :: ws) s)
    (author : Author) (c : Call) : NewTags ws (serve author c w s).2 := by
  obtain ⟨hnodup, hnew⟩ := h
  rw [List.map_cons, List.nodup_cons] at hnodup
  refine ⟨hnodup.2, ?_⟩
  have hold : ∀ w' ∈ ws, ∀ x ∈ s.journal, x.etag ≠ w'.etag := fun w' hw' =>
    hnew w' (List.mem_cons_of_mem _ hw')
  cases c with
  | get key => rwa [serve_get_state]
  | now => exact hold
  | set key value etag ttl =>
    rcases serve_set_cases author key value etag ttl w s with
      ⟨-, -, hserve⟩ | ⟨-, -, hserve⟩ | ⟨msg, -, hserve⟩
    · -- The new entry has the tag of the answer that is used up.
      rw [hserve, EtagStore.journal_put]
      intro w' hw' x hx
      rcases List.mem_cons.mp hx with rfl | hx
      · intro htag
        have htag : w.etag = w'.etag := htag
        rw [htag] at hnodup
        exact hnodup.1 (List.mem_map_of_mem hw')
      · exact hold w' hw' x hx
    · rwa [hserve]
    · rwa [hserve]

/-- A call that is served with a new tag keeps the tags of the store fresh. -/
theorem NewTags.freshTags {w : Answer} (h : NewTags (w :: ws) P.shared) :
    FreshTags P (.serve id w) := by
  intro id' w' key value etag ttl hm _ x hx
  cases hm
  exact h.2 w List.mem_cons_self x (List.mem_of_mem_filter hx)

end

end Swarm

/-! ### One cycle -/

/-- A pair with one version starts a run. -/
theorem startsWith_pairStore {B : Build} {t a : String} {state : AgentStateRecord}
    {mem : WorkingMemoryRecord} {es em : ETag} (hver : state.workingMemoryVersion = mem.version) :
    StartsWith B t a (pairStore none B t a state mem es em) state mem where
  stateRecord := by
    refine ⟨_, ⟨es, none, ?_, ?_⟩, B.state.decode_encodeToVec state⟩
    · show (pairStore none B t a state mem es em).cells (agentStateKey t a) = _
      rw [pairStore, EtagStore.cells_put_self]
      rfl
    · show (pairStore none B t a state mem es em).history (agentStateKey t a) = _
      rw [pairStore, EtagStore.history_put_self, EtagStore.history_put_of_ne _ _ _ _ _ _ _
        (agentStateKey_ne_workingMemoryKey _ _ _ _)]
      rfl
  memoryRecord := by
    refine ⟨_, ⟨em, some 86400, ?_, ?_⟩, B.memory.decode_encodeToVec mem⟩
    · show (pairStore none B t a state mem es em).cells (workingMemoryKey t a) = _
      rw [pairStore, EtagStore.cells_put_of_ne _ _ _ _ _ _ _
        (agentStateKey_ne_workingMemoryKey _ _ _ _).symm, EtagStore.cells_put_self]
      rfl
    · show (pairStore none B t a state mem es em).history (workingMemoryKey t a) = _
      rw [pairStore, EtagStore.history_put_of_ne _ _ _ _ _ _ _
        (agentStateKey_ne_workingMemoryKey _ _ _ _).symm, EtagStore.history_put_self]
      rfl
  versions := hver
  unauthored := by
    intro x hx
    simp only [pairStore, EtagStore.journal_put, EtagStore.empty, List.mem_cons,
      List.not_mem_nil, or_false] at hx
    rcases hx with rfl | rfl
    · rfl
    · rfl

namespace Swarm

variable (M : AgentHydrationManager) {B : Build} {t a : String} {ok : Swarm → SwarmMove → Prop}

/-- The answers of a client that no other client disturbs: no call fails, and the tags are
new. -/
def Smoothly (ws : List Answer) (s : Backing Author) : Prop :=
  (∀ w ∈ ws, w.fault = none) ∧ NewTags ws s

theorem Smoothly.serve {w : Answer} {ws : List Answer} {s : Backing Author}
    (h : Smoothly (w :: ws) s) (author : Author) (c : Call) :
    Smoothly ws (serve author c w s).2 :=
  ⟨fun w' hw' => h.1 w' (List.mem_cons_of_mem _ hw'), h.2.serve author c⟩

/-- The condition on the moves admits each call that does not fail and is answered with a new
tag. -/
def AdmitsSmooth (ok : Swarm → SwarmMove → Prop) : Prop :=
  ∀ P id w, w.fault = none → FreshTags P (.serve id w) → ok P (.serve id w)

theorem AdmitsSmooth.serve (h : AdmitsSmooth ok) (id : Nat) (P : Swarm) (w : Answer)
    (ws : List Answer) (hws : Smoothly (w :: ws) P.shared) : ok P (.serve id w) :=
  h P id w (hws.1 w List.mem_cons_self) hws.2.freshTags

/-- What client 0 has read and returned when it hydrates the blank records. -/
structure ReadsBlank (B : Build) (t a : String) (p : Proc Reply Request Response)
    (rs rm : StateRecord) : Prop where
  request : p.request = .hydrate t a
  result : p.rest = done (.hydrated (.ok ⟨blankState t a, blankMemory t a, false⟩))
  stateRecord : ⟨.get (agentStateKey t a), .ok (some rs)⟩ ∈ p.transcript
  memoryRecord : ⟨.get (workingMemoryKey t a), .ok (some rm)⟩ ∈ p.transcript
  stateTag : rs.etag = ⟨"1"⟩
  memoryTag : rm.etag = ⟨"1"⟩
  memory : B.memory.decode rm.value = .ok (blankMemory t a)

/-- Client 0 hydrates the blank records from the start. -/
theorem run_reads_blank (hhydrate : ∀ P id, ok P (.start id (.hydrate t a)))
    (hsmooth : AdmitsSmooth ok) :
    ∃ ms P p rs rm,
      Run (step M B) ok (start (blankStore none B t a)) ms P ∧
      P.procs 0 = some p ∧ ReadsBlank B t a p rs rm ∧
      P.shared = blankStore none B t a ∧
      (∀ id, id ≠ 0 → P.procs id = none) ∧ ms.length ≤ 4 := by
  have hend : (exec (serve (some 0)) (M.hydrate B t a).run
      [answerWith "2", answerWith "3", answerWith "4"]
      (blankStore none B t a)).ending
        = .returned (.ok ⟨blankState t a, blankMemory t a, false⟩) := by
    rw [(exec_hydrate rfl rfl rfl).2]
    have hstatus : AgentLifecycleStatus.frozen.toI32 ≠ AgentLifecycleStatus.active.toI32 := by
      decide
    exact hydrateOn_pairStore rfl hstatus
  have hnew : Smoothly [answerWith "2", answerWith "3", answerWith "4"]
      (blankStore none B t a) := by
    refine ⟨by simp [answerWith], by simp [answerWith], ?_⟩
    simp [pairStore, EtagStore.empty, answerWith]
  obtain ⟨ms, P, hrun, hproc, hshared, hothers, hlen⟩ := run_hydrate_alone Smoothly
    (hsmooth.serve 0) (fun c w ws s hws => hws.serve (some 0) c) (hhydrate (start _) 0) rfl hnew
    hend
  obtain ⟨rs, rm, cs, cm, hgs, hgm, hcs, hes, hcm, hem, -, -, -⟩ := exec_hydrate_records hend
  rw [lookup_state_pairStore, Option.some.injEq] at hcs
  rw [lookup_memory_pairStore, Option.some.injEq] at hcm
  refine ⟨ms, P, _, rs, rm, hrun, hproc, ?_, hshared, hothers, hlen⟩
  exact
    { request := rfl
      result := rfl
      stateRecord := hgs
      memoryRecord := hgm
      stateTag := by rw [← hes, ← hcs]
      memoryTag := by rw [← hem, ← hcm]
      memory := (hydrate_ok_of_mem (exec_trace (serve (some 0)) hend) hgs hgm).2.1 }

/-- Then client 1 freezes the agent with the tags that client 0 has read. The condition on the
moves has to admit this request. -/
theorem run_replaces_blank (hhydrate : ∀ P id, ok P (.start id (.hydrate t a)))
    (hsmooth : AdmitsSmooth ok)
    (hfreeze : ∀ P p rs rm, P.procs 0 = some p → ReadsBlank B t a p rs rm →
      ok P (.start 1 (.freeze (blankInput t a)))) :
    ∃ ms P p seq,
      Run (step M B) ok (start (blankStore none B t a)) ms P ∧
      P.procs 1 = some p ∧ p.request = .freeze (blankInput t a) ∧
      p.rest = done (.frozen (.ok seq)) ∧ P.shared = frozenStore none (some 1) B t a ∧
      P.procs 2 = none ∧ ms.length ≤ 12 := by
  obtain ⟨ms₀, P₀, p₀, rs, rm, hrun₀, hproc₀, hreads, hshared₀, hothers₀, hlen₀⟩ :=
    run_reads_blank M hhydrate hsmooth
  have hdone : (exec (serve (some 1)) (freeze B (blankInput t a)).run blankAnswers
        P₀.shared).ending = .returned (.ok 1700000000) ∧
      (exec (serve (some 1)) (freeze B (blankInput t a)).run blankAnswers P₀.shared).state
        = frozenStore none (some 1) B t a := by
    rw [hshared₀]
    exact exec_freeze_blank
  have hnew : Smoothly blankAnswers P₀.shared := by
    rw [hshared₀]
    refine ⟨by simp [blankAnswers, answerWith], by simp [blankAnswers, answerWith], ?_⟩
    simp [blankAnswers, pairStore, EtagStore.empty, answerWith]
  have hid₁ : (1 : Nat) ≠ 0 := by decide
  have hid₂ : (2 : Nat) ≠ 0 := by decide
  have hid₂₁ : (2 : Nat) ≠ 1 := by decide
  obtain ⟨ms₁, P₁, hrun₁, hproc₁, hshared₁, hothers₁, hlen₁⟩ := run_freeze_alone Smoothly
    (hsmooth.serve 1) (fun c w ws s hws => hws.serve (some 1) c)
    (hfreeze P₀ p₀ rs rm hproc₀ hreads) (hothers₀ 1 hid₁) hnew hdone.1
  have hlen : (ms₀ ++ ms₁).length ≤ 12 := by
    rw [List.length_append]
    exact Nat.add_le_add hlen₀ hlen₁
  exact ⟨_, P₁, _, _, hrun₀.append hrun₁, hproc₁, rfl, rfl, hshared₁.trans hdone.2,
    (hothers₁ 2 hid₂₁).trans (hothers₀ 2 hid₂), hlen⟩

/-- And client 2 hydrates what client 1 has frozen. -/
theorem run_cycle (hhydrate : ∀ P id, ok P (.start id (.hydrate t a)))
    (hsmooth : AdmitsSmooth ok)
    (hfreeze : ∀ P p rs rm, P.procs 0 = some p → ReadsBlank B t a p rs rm →
      ok P (.start 1 (.freeze (blankInput t a)))) :
    ∃ ms P p frozenAt snapshotAt,
      Run (step M B) ok (start (blankStore none B t a)) ms P ∧
      P.procs 2 = some p ∧ p.request = .hydrate t a ∧
      p.rest = done (.hydrated (.ok ⟨thawedState B (blankState t a) 0 frozenAt,
        thawedMemory B (blankMemory t a) snapshotAt, false⟩)) := by
  obtain ⟨ms, P, -, -, hrun, -, -, -, hshared, hid, -⟩ :=
    run_replaces_blank M hhydrate hsmooth hfreeze
  have hend : (exec (serve (some 2)) (M.hydrate B t a).run
      [answerWith "9", answerWith "10", answerWith "11"] P.shared).ending
        = .returned (.ok ⟨thawedState B (blankState t a) 0 (stampOf (answerWith "4").clock),
            thawedMemory B (blankMemory t a) (stampOf (answerWith "2").clock), false⟩) := by
    rw [hshared, (exec_hydrate rfl rfl rfl).2, ← (frozenStore none (some 1) B t a).tick_zero]
    have hn : 0 < 86400 := by decide
    exact hydrateOn_finished hn
  have hnew : Smoothly [answerWith "9", answerWith "10", answerWith "11"] P.shared := by
    rw [hshared]
    refine ⟨by simp [answerWith], by simp [answerWith], ?_⟩
    simp [frozenStore, FreezeInput.finished, FreezeInput.withCheckpoint, FreezeInput.withState,
      FreezeInput.withMemory, pairStore, EtagStore.empty, answerWith]
  obtain ⟨ms', P', hrun', hproc', -, -⟩ := run_hydrate_alone Smoothly (hsmooth.serve 2)
    (fun c w ws s hws => hws.serve (some 2) c) (hhydrate P 2) hid hnew hend
  exact ⟨_, P', _, _, _, hrun.append hrun', hproc', rfl, rfl⟩

end Swarm

end SwarmRuntime.State
