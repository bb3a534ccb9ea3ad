import IndexPools.Proofs.Serving
import IndexPools.Proofs.Tenure

/-!
# Occupancy

What a pool reports can be read off its history. A live pool's lifetime began with the call that set
it up (`Lifetime`), and the keys that it holds are those that were given an index in that lifetime
and not freed since (`Stands`): a call adds no allocation but the one it gives, and takes none but
the one it frees (`Call.of_holds`, `Call.holds`). No call resizes a pool (`Call.sized`). So the
status of a pool counts and lists these keys exactly (`Trace.occupied`), and so does every status in
the store, as nothing but the visit of a registry writes one (`status_of_history`).
-/

namespace IndexPools

/-- The numbers and the list of a status agree. -/
def RegistryStatus.Exact (status : RegistryStatus) : Prop :=
  status.allocated + status.available = status.total ∧ status.used.Nodup ∧
    status.used.length = status.allocated

namespace Engine

variable {e e' : Engine} {pool q : PoolId} {i : Nat} {a : Allocation} {r : Request}

theorem not_mem_poolIds_start (store : Store) (cap : UInt32) (conflicts : ConflictPolicy)
    (pool : PoolId) : pool ∉ (start store cap conflicts).poolIds := by
  rw [mem_poolIds]
  rintro ⟨t, ht⟩
  simp [start, PoolDirectory.empty] at ht

theorem mem_poolIds_iff_capacity : pool ∈ e.poolIds ↔ ∃ c, e.pools.capacity? pool = some c := by
  unfold PoolDirectory.capacity?
  rw [mem_poolIds]
  rcases e.pools.live[pool]? with _ | t <;> simp

theorem status_of_live {t : SlotTable} (h : e.pools.live[pool]? = some t) :
    e.status pool = .ofSnapshot t.capacity t.snapshot := by
  unfold status
  rw [h]

theorem status_of_none (h : e.pools.live[pool]? = none) : e.status pool = .zero := by
  unfold status
  rw [h]

theorem Sound.status_exact (hs : e.Sound) (pool : PoolId) : (e.status pool).Exact := by
  rcases hlive : e.pools.live[pool]? with _ | t
  · rw [status_of_none hlive]
    exact ⟨rfl, List.nodup_nil, rfl⟩
  · have ht := hs.tables hlive
    rw [status_of_live hlive]
    refine ⟨Nat.add_sub_cancel' ht.allocated_le, ht.keys_nodup, ?_⟩
    exact (List.length_map _).trans ht.length_entries

theorem Rekeyed.capacity_eq (h : Rekeyed e q e') (pool : PoolId) :
    e'.pools.capacity? pool = e.pools.capacity? pool := by
  cases h with
  | kept => rfl
  | placed hlive => exact capacity_retable hlive (SlotTable.capacity_put _ _ _) pool
  | freed hlive => exact capacity_retable hlive (SlotTable.capacity_vacate _ _) pool

/-- One engine after another, of which a pool has the same capacity in both, or was set up in
between, with such a capacity and without keys. -/
def Sized (e e' : Engine) (capacity : Option Nat) (pool : PoolId) : Prop :=
  e'.pools.capacity? pool = e.pools.capacity? pool ∨
    (pool ∉ e.poolIds ∧ e'.pools.capacity? pool = capacity ∧ ∀ i a, ¬ e'.Holds pool i a)

theorem sized_opened {t : SlotTable} {c : Nat} {strategy : Strategy}
    (hnew : e.pools.live[q]? = none) (hcreate : SlotTable.create c strategy = .ok t)
    (pool : PoolId) : e.Sized (e.opened q t) (some c) pool := by
  by_cases hq : q = pool
  · subst hq
    have hlive : (e.opened q t).pools.live[q]? = some t := (live_opened q).trans (if_pos rfl)
    have hempty : t.Sound keyDigest ∧ ∀ i, t.holder? i = none := SlotTable.sound_of_create hcreate
    refine .inr ⟨fun hmem => ?_, ?_, fun i a ha => ?_⟩
    · obtain ⟨t', ht'⟩ := mem_poolIds.1 hmem
      cases hnew.symm.trans ht'
    · unfold PoolDirectory.capacity?
      rw [hlive, Option.map_some, SlotTable.capacity_of_create hcreate]
    · rw [holds_of_live hlive, hempty.2 i] at ha
      cases ha
  · refine .inl ?_
    unfold PoolDirectory.capacity?
    rw [live_opened, if_neg hq]

theorem Sized.congr {capacity : Option Nat} {e₁ : Engine} (h : e.Sized e₁ capacity pool)
    (hpools : e'.pools = e₁.pools) : e.Sized e' capacity pool := by
  unfold Sized Holds at h ⊢
  rwa [hpools]

/-- A pool is set up with the capacity that is asked for, or not at all. -/
theorem sized_initPool (e : Engine) (q : PoolId) (c : Nat) (strategy : Strategy)
    (pool : PoolId) : e.Sized (e.initPool q c strategy).2 (some c) pool := by
  rcases hlive : e.pools.live[q]? with _ | t
  · simp only [initPool, PoolDirectory.init, hlive]
    rcases hcreate : SlotTable.create c strategy with err | t
    · exact .inl rfl
    · exact sized_opened hlive hcreate pool
  · simp only [initPool, PoolDirectory.init, hlive]
    exact .inl rfl

theorem sized_initDeclared (e : Engine) (q pool : PoolId) :
    e.Sized (e.initDeclared q).2 (e.store.size q).toOption pool := by
  unfold initDeclared
  split_ifs
  · exact .inl rfl
  · rcases e.store.size q with err | c
    · exact .inl rfl
    · rcases e.store.strategy q with err | strategy
      · exact .inl rfl
      · exact sized_initPool e q c strategy pool

/-- A visit does to the pools what setting the pool up does, or deleting it, or nothing. -/
theorem pools_reconcileRegistry (e : Engine) (policy : PacePolicy) (pool : PoolId) :
    (e.reconcileRegistry policy pool).2.pools = e.pools ∨
      (e.reconcileRegistry policy pool).2.pools = (e.deletePool pool).2.pools ∨
      (e.reconcileRegistry policy pool).2.pools = (e.initDeclared pool).2.pools := by
  unfold reconcileRegistry
  rcases e.store.registry pool with err | record
  · exact .inl rfl
  · simp only []
    split_ifs
    · simp only [finishDeletion]
      split_ifs
      · exact .inl rfl
      · refine .inr (.inl ?_)
        rcases (e.deletePool pool).2.store.removeRegistry pool with err | store <;> rfl
    · refine .inr (.inr ?_)
      rcases e.initDeclared pool with ⟨err | created, e'⟩
      · rfl
      · simp only [mirrorStatus]
        split_ifs
        · rfl
        · rcases e'.store.setStatus pool (e'.status pool) with err | store <;> rfl

end Engine

namespace Call

open Engine

variable {c : Call} {e : Engine} {pool : PoolId} {key : String} {i : Nat} {a : Allocation}

/-- The capacity with which the call sets a pool up. -/
def capacity? (e : Engine) : Call → Option Nat
  | .initPool _ capacity _ => some capacity
  | .initDeclared pool => (e.store.size pool).toOption
  | .reconcileRegistry _ pool => (e.store.size pool).toOption
  | _ => none

/-- A pool that a call does not delete keeps its capacity, or is created with the one that the call
asks for. -/
theorem sized (hs : e.Sound) (c : Call) (hlives : pool ∈ (c.apply e).poolIds) :
    e.Sized (c.apply e) (c.capacity? e) pool := by
  have hdelete : ∀ {q : PoolId} {e' : Engine} {capacity : Option Nat},
      e'.pools = (e.deletePool q).2.pools → pool ∈ e'.poolIds → e.Sized e' capacity pool := by
    intro q e' capacity hpools hmem
    obtain ⟨t, ht⟩ := mem_poolIds.1 hmem
    rw [hpools, live_deletePool] at ht
    split_ifs at ht with hq
    refine .inl ?_
    unfold PoolDirectory.capacity?
    rw [hpools, live_deletePool, if_neg hq]
  cases c with
  | initPool q capacity strategy => exact sized_initPool e q capacity strategy pool
  | initDeclared q => exact sized_initDeclared e q pool
  | deletePool q => exact hdelete rfl hlives
  | register | deregister | allocate | release =>
    exact .inl ((Call.rekeyed hs rfl).capacity_eq pool)
  | resetPace | incrementPace | nextDelay => exact .inl rfl
  | reconcileRegister r => exact .inl ((registerVisit_cases hs r).capacity_eq pool)
  | reconcileRegistry policy q =>
    rcases e.pools_reconcileRegistry policy q with hpools | hpools | hpools
    · exact .inl (congrArg (·.capacity? pool) hpools)
    · exact hdelete hpools hlives
    · exact (sized_initDeclared e q pool).congr hpools

end Call

/-- The call of `calls` that created the pool asked for such a capacity, and the pool was live after
each call since; both lists begin with the last call. -/
inductive Lifetime (pool : PoolId) (capacity : Nat) :
    (calls since : List (Engine × Call)) → Prop
  | created {calls : List (Engine × Call)} {e : Engine} {c : Call} (hnew : pool ∉ e.poolIds)
      (hlives : pool ∈ (c.apply e).poolIds) (hcapacity : c.capacity? e = some capacity) :
      Lifetime pool capacity ((e, c) :: calls) []
  | lasting {calls since : List (Engine × Call)} {e : Engine} {c : Call}
      (before : Lifetime pool capacity calls since) (hlives : pool ∈ (c.apply e).poolIds) :
      Lifetime pool capacity ((e, c) :: calls) ((e, c) :: since)

/-- A call gave the key the index, and no call freed it since. -/
inductive Stands (pool : PoolId) (key : String) (i : Nat) : List (Engine × Call) → Prop
  | given {calls : List (Engine × Call)} {e : Engine} {c : Call}
      (hgives : c.Gives e pool key i) : Stands pool key i ((e, c) :: calls)
  | kept {calls : List (Engine × Call)} {e : Engine} {c : Call}
      (before : Stands pool key i calls) (hkept : ¬ c.Frees e pool key) :
      Stands pool key i ((e, c) :: calls)

/-- What a live pool owes to the calls of its lifetime. -/
structure Engine.Occupied (e : Engine) (pool : PoolId) (capacity : Nat)
    (since : List (Engine × Call)) : Prop where
  capacity_eq : e.pools.capacity? pool = some capacity
  holds_iff : ∀ key i, (∃ a, e.Holds pool i a ∧ a.key = key) ↔ Stands pool key i since

section

variable {e₀ e : Engine} {calls since : List (Engine × Call)} {pool : PoolId} {capacity : Nat}

theorem Engine.Occupied.call (h : e.Occupied pool capacity since) (hs : e.Sound) {c : Call}
    (hcapacity : (c.apply e).pools.capacity? pool = some capacity) :
    (c.apply e).Occupied pool capacity ((e, c) :: since) := by
  refine ⟨hcapacity, fun key i => ⟨?_, fun hstands => ?_⟩⟩
  · rintro ⟨a, ha, rfl⟩
    rcases Call.of_holds hs ha with ⟨hb, hkept⟩ | hgives
    · exact .kept ((h.holds_iff a.key i).1 ⟨a, hb, rfl⟩) hkept
    · exact .given hgives
  · cases hstands with
    | given hgives => exact hgives.holds hs
    | kept before hkept =>
      obtain ⟨a, ha, rfl⟩ := (h.holds_iff key i).2 before
      exact ⟨a, Call.holds hs ha hkept, rfl⟩

/-- The history of a live pool tells its capacity and its keys. -/
theorem Trace.occupied (h : Trace e₀ calls e) (hs : e₀.Sound) (hempty : ∀ pool, pool ∉ e₀.poolIds)
    (hlive : pool ∈ e.poolIds) :
    ∃ capacity since, Lifetime pool capacity calls since ∧ e.Occupied pool capacity since := by
  induction h with
  | start => exact absurd hlive (hempty pool)
  | store _ s ih =>
    obtain ⟨capacity, since, hlifetime, hcapacity, hholds⟩ := ih hlive
    exact ⟨capacity, since, hlifetime, hcapacity, hholds⟩
  | @call calls e before c ih =>
    have hs' := before.sound hs
    rcases c.sized hs' hlive with hsame | ⟨hnew, hcapacity, hnone⟩
    · have hlive' : pool ∈ e.poolIds := by
        rw [Engine.mem_poolIds_iff_capacity] at hlive ⊢
        rwa [← hsame]
      obtain ⟨capacity, since, hlifetime, hoccupied⟩ := ih hlive'
      exact ⟨capacity, (e, c) :: since, hlifetime.lasting hlive,
        hoccupied.call hs' (hsame.trans hoccupied.capacity_eq)⟩
    · obtain ⟨capacity, hsome⟩ := Engine.mem_poolIds_iff_capacity.1 hlive
      refine ⟨capacity, [], .created hnew hlive (hcapacity.symm.trans hsome), hsome, ?_⟩
      exact fun key i => iff_of_false (fun ⟨a, ha, _⟩ => hnone i a ha) nofun

end

/-- Every status in the store is exact. -/
def Store.Exact (s : Store) : Prop :=
  ∀ (q : PoolId) (record : RegistryRecord) (status : RegistryStatus),
    s.registries[q]? = some record → record.status = some status → status.Exact

namespace Store

variable {s s' : Store}

theorem Exact.congr (h : s.Exact) (hregistries : s'.registries = s.registries) : s'.Exact := by
  unfold Exact
  rwa [hregistries]

/-- A record may be put in place of another if its status was in the store, or is exact. -/
theorem Exact.insert (h : s.Exact) (id : PoolId) {record : RegistryRecord}
    (hrecord : ∀ status, record.status = some status → status.Exact) :
    { s with registries := s.registries.insert id record }.Exact := by
  intro q r status hr hstatus
  simp only [lookup_insert] at hr
  split_ifs at hr
  · cases hr
    exact hrecord status hstatus
  · exact h q r status hr hstatus

theorem Exact.erase (h : s.Exact) (id : PoolId) :
    { s with registries := s.registries.erase id }.Exact := by
  intro q r status hr hstatus
  simp only [lookup_erase] at hr
  split_ifs at hr
  exact h q r status hr hstatus

theorem Exact.changeRegistry (h : s.Exact) (id : PoolId) {f : RegistryRecord → RegistryRecord}
    (hf : ∀ record, (f record).status = record.status) :
    (s.orSame (s.changeRegistry id f)).Exact := by
  unfold Store.changeRegistry
  rcases hid : s.registries[id]? with _ | record
  · exact h
  · exact h.insert id fun status hstatus => h id record status hid ((hf record).symm.trans hstatus)

end Store

theorem Declaration.exact (d : Declaration) {s : Store} (h : s.Exact) : (d.apply s).Exact := by
  cases d with
  | registry id spec =>
    refine h.insert id fun status hstatus => ?_
    rcases hid : s.registries[id]? with _ | record
    · rw [hid] at hstatus
      cases hstatus
    · rw [hid] at hstatus
      exact h id record status hid hstatus
  | setReady id ready => exact h.changeRegistry id fun _ => rfl
  | registryDeleting id => exact h.changeRegistry id fun _ => rfl
  | register r => exact h.congr rfl
  | registerDeleting key => exact h.congr (s.registries_changeRegister key _)

/-- Anything, but that a status is written by another than a visit. -/
def Unforged (_ : System) : Event → Prop
  | .correct (.setStatus _ _) => False
  | _ => True

instance (s : System) : DecidablePred (Unforged s)
  | .correct (.setStatus _ _) => .isFalse id
  | .declare _ | .call _ | .pass _ | .correct (.removeRegistry _) | .correct (.setIndex _ _)
  | .correct (.removeRegister _) => .isTrue trivial

theorem Correction.exact {c : Correction} {s : Store} (h : s.Exact)
    (hc : ∀ id status, c ≠ .setStatus id status) : (c.apply s).Exact := by
  cases c with
  | setStatus id status => exact absurd rfl (hc id status)
  | removeRegistry id =>
    simp only [apply, Store.removeRegistry]
    rcases s.registries[id]? with _ | record
    · exact h
    · exact h.erase id
  | setIndex key index => exact h.congr (s.registries_changeRegister key _)
  | removeRegister key =>
    simp only [apply, Store.removeRegister]
    rcases s.registers[key]? with _ | r
    · exact h
    · exact h.congr rfl

/-- The visit of a registry writes the status of its pool, which is exact. -/
theorem Engine.RegistryVisit.exact {policy : PacePolicy} {e : Engine} {pool : PoolId}
    {res : Except ReconcileError RegistryOutcome × Engine} (h : RegistryVisit policy e pool res)
    (hs : e.Sound) (hexact : e.store.Exact) : res.2.store.Exact := by
  cases h with
  | missing | unset | blocked => exact hexact
  | deleted => exact hexact.erase pool
  | @synced record e' _ _ hset =>
    have hstore : e'.store.Exact := by
      rw [hset.moved.store_eq]
      exact hexact
    refine hstore.insert pool ?_
    rintro status ⟨⟩
    exact (hset.moved.sound hs).status_exact pool

theorem Call.exact {e : Engine} (hs : e.Sound) (h : e.store.Exact) (c : Call) :
    (c.apply e).store.Exact := by
  rcases c.store_cases hs with hstore | ⟨r, rfl⟩ | ⟨policy, pool, rfl⟩
  · rw [hstore]
    exact h
  · exact h.congr ((Engine.registerVisit_cases hs r).registries_eq hs)
  · exact (Engine.registryVisit_cases hs policy pool).exact hs h

theorem Run.exact {policy : PacePolicy} {s₀ s : System} {past : List (System × Event)}
    (run : Run policy Unforged s₀ past s) (h₀ : s₀.engine.Sound) (h : s₀.engine.store.Exact) :
    s.engine.store.Exact := by
  refine run.invariant (P := fun s => s.engine.store.Exact) h₀ h fun s event hs hadmits h => ?_
  cases event with
  | declare d => exact d.exact h
  | correct c =>
    refine Correction.exact h ?_
    rintro id status rfl
    exact hadmits
  | call c => exact c.exact hs h
  | pass now =>
    exact Engine.pass_stable (P := fun e => e.store.Exact) hs policy s.schedule now
      (h.congr (Engine.registries_midway hs s.schedule)) fun e pool hs h =>
        (Engine.registryVisit_cases hs policy pool).exact hs h

/-- In every state that is reached without a status being written from outside, a live pool reports
the capacity that it was created with, and exactly the keys that were given an index in its lifetime
and not freed since, in the order of their indices; a pool that is not live reports nothing. The
numbers and the list agree, also in every status that the store has. -/
theorem status_of_history {policy : PacePolicy} {store : Store} {cap : UInt32}
    {conflicts : ConflictPolicy} {past : List (System × Event)} {s : System}
    (hstore : ∀ (q : PoolId) (record : RegistryRecord), store.registries[q]? = some record →
      record.status = none)
    (run : Run policy Unforged (.start store cap conflicts) past s) :
    (∀ pool ∈ s.engine.poolIds, ∃ capacity since,
      Lifetime pool capacity (pastCalls policy past) since ∧
        (s.engine.status pool).total = capacity ∧
        (∃ entries : List (Nat × String), entries.Pairwise (fun x y => x.1 < y.1) ∧
          (∀ key i, (i, key) ∈ entries ↔ Stands pool key i since) ∧
          (s.engine.status pool).used = entries.map Prod.snd) ∧
        (s.engine.status pool).Exact) ∧
    (∀ pool ∉ s.engine.poolIds, s.engine.status pool = ⟨0, 0, 0, []⟩) ∧
    ∀ (q : PoolId) (record : RegistryRecord) (status : RegistryStatus),
      s.engine.store.registries[q]? = some record → record.status = some status →
        status.Exact := by
  have h₀ := Engine.sound_start store cap conflicts
  have hs : s.engine.Sound := run.sound h₀
  have hexact : store.Exact := by
    intro q record status hq hstatus
    cases (hstore q record hq).symm.trans hstatus
  refine ⟨fun pool hlive => ?_, fun pool hdead => ?_, run.exact h₀ hexact⟩
  · obtain ⟨capacity, since, hlifetime, hcapacity, hholds⟩ :=
      run.trace.occupied h₀ (Engine.not_mem_poolIds_start store cap conflicts) hlive
    obtain ⟨t, ht⟩ := Engine.mem_poolIds.1 hlive
    have hstatus := Engine.status_of_live ht
    refine ⟨capacity, since, hlifetime, ?_, ⟨t.entries.map fun x => (x.1, x.2.key), ?_, ?_, ?_⟩,
      hs.status_exact pool⟩
    · unfold PoolDirectory.capacity? at hcapacity
      rw [ht] at hcapacity
      rw [hstatus]
      exact Option.some.inj hcapacity
    · exact t.entries_sorted.map _ fun _ _ hlt => hlt
    · intro key i
      rw [← hholds key i, List.mem_map]
      constructor
      · rintro ⟨⟨j, a⟩, hentry, hpair⟩
        cases hpair
        exact ⟨a, (Engine.holds_of_live ht).2 (SlotTable.mem_entries.1 hentry), rfl⟩
      · rintro ⟨a, ha, rfl⟩
        exact ⟨(i, a), SlotTable.mem_entries.2 ((Engine.holds_of_live ht).1 ha), rfl⟩
    · rw [hstatus, List.map_map]
      rfl
  · rw [Engine.mem_poolIds, not_exists] at hdead
    exact Engine.status_of_none (Option.eq_none_iff_forall_ne_some.2 hdead)

/-- The pool was deleted with two keys, set up with another capacity than the one it had and the one
declared since, and "d" took the slot of "b", which was released in between. -/
theorem status_after_second_setup :
    ∃ (ids gone : PoolId) (past : List (System × Event)) (s : System)
      (since : List (Engine × Call)) (entries : List (Nat × String)) (record : RegistryRecord),
      (∀ (q : PoolId) (record : RegistryRecord), Store.empty.registries[q]? = some record →
        record.status = none) ∧
      Run .standard Unforged (.start .empty 3 .keepExisting) past s ∧
        s.engine.status ids = ⟨3, 2, 1, ["d", "c"]⟩ ∧
        Lifetime ids 3 (pastCalls .standard past) since ∧ ["d", "c"] = entries.map Prod.snd ∧
        (∀ key i, (i, key) ∈ entries ↔ Stands ids key i since) ∧ (∀ i, ¬ Stands ids "b" i since) ∧
        s.engine.status gone = ⟨0, 0, 0, []⟩ ∧
        s.engine.store.registries[ids]? = some record ∧
        record.status = some ⟨3, 2, 1, ["d", "c"]⟩ ∧
        RegistryStatus.Exact ⟨3, 2, 1, ["d", "c"]⟩ := by
  let ids : PoolId := ⟨"net", "ids", rfl, rfl⟩
  let gone : PoolId := ⟨"net", "gone", rfl, rfl⟩
  let spec : RegistrySpec := ⟨some 4, some .firstAvailable, none, none⟩
  let events : List Event :=
    [.pass 9000, .declare (.registry ids (.ofSize 9)), .call (.allocate ids "z" "d" none),
      .call (.release ids "x" "b" none), .call (.allocate ids "x" "c" none),
      .call (.allocate ids "x" "b" none), .call (.initPool ids 3 .firstAvailable),
      .call (.deletePool ids), .call (.allocate ids "y" "b" none),
      .call (.allocate ids "x" "a" none), .pass 0, .declare (.registry ids spec)]
  let s : System := (System.start .empty 3 .keepExisting).after .standard events
  have hstore : ∀ (q : PoolId) (record : RegistryRecord), Store.empty.registries[q]? = some record →
      record.status = none := by
    intro q record hq
    simp [Store.empty] at hq
  have hrun : Run .standard Unforged (.start .empty 3 .keepExisting) _ s :=
    run_after events (by decide +kernel)
  have hids : s.engine.status ids = ⟨3, 2, 1, ["d", "c"]⟩ := by decide +kernel
  have hrecord : s.engine.store.registries[ids]? =
      some ⟨ids, .ofSize 9, true, false, some ⟨3, 2, 1, ["d", "c"]⟩⟩ := by decide +kernel
  obtain ⟨hlive, hdead, hstored⟩ := status_of_history hstore hrun
  obtain ⟨capacity, since, hlifetime, htotal, ⟨entries, -, hstands, hused⟩, -⟩ :=
    hlive ids (by decide +kernel)
  rw [hids] at htotal hused
  obtain rfl : 3 = capacity := htotal
  refine ⟨ids, gone, _, s, since, entries, _, hstore, hrun, hids, hlifetime, hused, hstands,
    fun i hb => ?_, hdead gone (by decide +kernel), hrecord, rfl, hstored ids _ _ hrecord rfl⟩
  have hmem : "b" ∈ entries.map Prod.snd := List.mem_map_of_mem ((hstands "b" i).2 hb)
  rw [← hused] at hmem
  exact absurd hmem (by decide)

end IndexPools
