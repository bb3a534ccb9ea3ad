import IndexPools.Proofs.History
import IndexPools.Proofs.Holding

/-!
# Tenure

A key that was given an index has it until the key is deregistered or its pool is deleted, whatever
else is called in between (`index_until_freed`). Of all calls only those two take an allocation out
of a live table (`Call.holds`), and so it stays along every history without them (`Trace.holds`);
only a call that gives the key an index puts one there (`Call.of_holds`). A pass is such a history,
of calls that reconcile the registers and registries of the store (`trace_pass`); it takes no key
but those that a register marked for deletion names (`held_after_pass`).
-/

namespace IndexPools

namespace Call

/-- The request that the call places a key for. -/
def placing? : Call → Option Request
  | .register r => some r
  | .allocate pool owner key tags => some (.forKey pool owner key tags)
  | .reconcileRegister r => if r.deleting then none else r.request.toOption
  | _ => none

/-- The request that the call releases a key for. -/
def releasing? : Call → Option Request
  | .deregister r => some r
  | .release pool owner key tags => some (.forKey pool owner key tags)
  | .reconcileRegister r => if r.deleting then r.request.toOption else none
  | _ => none

/-- The call registers the key in the pool, which gives it the index `i`. -/
def Gives (c : Call) (e : Engine) (pool : PoolId) (key : String) (i : Nat) : Prop :=
  ∃ r, c.placing? = some r ∧ r.pool = pool ∧ r.key = .ok key ∧ (e.register r).1 = .ok i

/-- The call deletes the pool, or deregisters the key in it with success. -/
def Frees (c : Call) (e : Engine) (pool : PoolId) (key : String) : Prop :=
  c = .deletePool pool ∨
    ∃ r, c.releasing? = some r ∧ r.pool = pool ∧ r.key = .ok key ∧ (e.deregister r).1 = .ok ()

end Call

namespace Engine

variable {e e' : Engine} {pool : PoolId} {i : Nat} {a : Allocation} {r : Request}

theorem holds_congr (h : e'.pools = e.pools) : e'.Holds pool i a ↔ e.Holds pool i a := by
  unfold Holds
  rw [h]

theorem request_of_toOption {r : RegisterRecord} {q : Request} (h : r.request.toOption = some q) :
    r.pool = .ok q.pool ∧ q = r.ask q.pool := by
  unfold RegisterRecord.request at h
  rcases hpool : r.pool with err | pool
  · rw [hpool] at h
    cases h
  · rw [hpool] at h
    cases h
    exact ⟨rfl, rfl⟩

/-- A registration moves no key. -/
theorem holds_register (hs : e.Sound) (ha : e.Holds pool i a) :
    (e.register r).2.Holds pool i a := by
  have hcases := register_cases hs r
  generalize e.register r = res at hcases ⊢
  cases hcases with
  | refused | kept => exact ha
  | placed _ hlive _ hvacant => exact (holds_put hlive hvacant).2 (.inr ha)

/-- A release moves no key but its own. -/
theorem holds_deregister (hs : e.Sound) (ha : e.Holds pool i a) :
    (e.deregister r).2.Holds pool i a ∨
      (r.pool = pool ∧ r.key = .ok a.key ∧ (e.deregister r).1 = .ok ()) := by
  have hcases := deregister_cases hs r
  generalize e.deregister r = res at hcases ⊢
  cases hcases with
  | refused | idle => exact .inl ha
  | @freed key t j b haccept hlive hb hkey =>
    by_cases hsame : r.pool = pool ∧ i = j
    · obtain ⟨rfl, rfl⟩ := hsame
      rw [holds_of_live hlive, hb] at ha
      cases ha
      exact .inr ⟨rfl, hkey ▸ key_of_accept haccept, rfl⟩
    · exact .inl ((holds_vacate hs hlive hb).2 ⟨ha, hsame⟩)

/-- A key that was given an index holds it. -/
theorem holds_of_register (hs : e.Sound) (h : (e.register r).1 = .ok i) :
    ∃ a, (e.register r).2.Holds r.pool i a ∧ e.accept r = .ok a.key := by
  have hcases := register_cases hs r
  generalize e.register r = res at hcases h ⊢
  cases hcases with
  | refused => cases h
  | kept haccept hlive hheld hkey =>
    cases h
    exact ⟨_, ⟨_, hlive, hheld⟩, hkey ▸ haccept⟩
  | placed haccept hlive _ hvacant =>
    cases h
    exact ⟨_, (holds_put hlive hvacant).2 (.inl ⟨rfl, rfl, rfl⟩), haccept⟩

/-- A registration adds no key but its own. -/
theorem register_of_holds (hs : e.Sound) (ha : (e.register r).2.Holds pool i a) :
    e.Holds pool i a ∨ (r.pool = pool ∧ r.key = .ok a.key ∧ (e.register r).1 = .ok i) := by
  have hcases := register_cases hs r
  generalize e.register r = res at hcases ha ⊢
  cases hcases with
  | refused | kept => exact .inl ha
  | placed haccept hlive _ hvacant =>
    rcases (holds_put hlive hvacant).1 ha with ⟨rfl, rfl, rfl⟩ | ha
    · exact .inr ⟨rfl, key_of_accept haccept, rfl⟩
    · exact .inl ha

/-- A release that succeeds leaves its key nowhere. -/
theorem deregister_of_holds (hs : e.Sound) (ha : (e.deregister r).2.Holds pool i a) :
    e.Holds pool i a ∧
      ¬ (r.pool = pool ∧ r.key = .ok a.key ∧ (e.deregister r).1 = .ok ()) := by
  have hcases := deregister_cases hs r
  generalize e.deregister r = res at hcases ha ⊢
  cases hcases with
  | refused => exact ⟨ha, fun ⟨_, _, hok⟩ => nomatch hok⟩
  | @idle key t haccept hlive habsent =>
    refine ⟨ha, fun ⟨hpool, hkey, _⟩ => ?_⟩
    subst hpool
    cases hkey.symm.trans (key_of_accept haccept)
    exact habsent i a ((holds_of_live hlive).1 ha) rfl
  | @freed key t j b haccept hlive hheld hb =>
    obtain ⟨ha, hne⟩ := (holds_vacate hs hlive hheld).1 ha
    refine ⟨ha, fun ⟨hpool, hkey, _⟩ => hne ⟨hpool, ?_⟩⟩
    subst hpool hb
    exact hs.holds_inj ha ((holds_of_live hlive).2 hheld)
      (Except.ok.inj (hkey.symm.trans (key_of_accept haccept)))

end Engine

namespace Call

open Engine

variable {c : Call} {e : Engine} {pool : PoolId} {key : String} {i : Nat} {a : Allocation}

theorem pools_of_placing {r : Request} (h : c.placing? = some r) :
    (c.apply e).pools = (e.register r).2.pools := by
  cases c with
  | register q => cases h; rfl
  | allocate => cases h; rfl
  | reconcileRegister d =>
    simp only [placing?] at h
    split_ifs at h with hd
    rcases hq : d.request with err | q
    · rw [hq] at h
      cases h
    · rw [hq] at h
      cases h
      simp only [apply, Engine.reconcileRegister, hq, if_neg hd]
      rcases e.register r with ⟨err | j, e'⟩
      · rfl
      · simp only []
        split_ifs
        · rfl
        · rcases e'.store.setIndex d.key j with err | s <;> rfl
  | initPool | initDeclared | deletePool | deregister | release | resetPace | incrementPace
  | nextDelay | reconcileRegistry => cases h

theorem pools_of_releasing {r : Request} (h : c.releasing? = some r) :
    (c.apply e).pools = (e.deregister r).2.pools := by
  cases c with
  | deregister q => cases h; rfl
  | release => cases h; rfl
  | reconcileRegister d =>
    simp only [releasing?] at h
    split_ifs at h with hd
    rcases hq : d.request with err | q
    · rw [hq] at h
      cases h
    · rw [hq] at h
      cases h
      simp only [apply, Engine.reconcileRegister, hq, if_pos hd]
      rcases e.deregister r with ⟨err | u, e'⟩
      · rfl
      · simp only []
        rcases e'.store.removeRegister d.key with err | s <;> rfl
  | initPool | initDeclared | deletePool | register | allocate | resetPace | incrementPace
  | nextDelay | reconcileRegistry => cases h

theorem not_frees_of_placing {r : Request} (h : c.placing? = some r) : ¬ c.Frees e pool key := by
  rintro (rfl | ⟨r', hr', -⟩)
  · cases h
  · cases c with
    | reconcileRegister d =>
      simp only [placing?, releasing?] at h hr'
      split_ifs at h hr'
    | register | allocate => cases hr'
    | initPool | initDeclared | deletePool | deregister | release | resetPace | incrementPace
    | nextDelay | reconcileRegistry => cases h

theorem Gives.not_frees (h : c.Gives e pool key i) {q : PoolId} {k : String} :
    ¬ c.Frees e q k := by
  obtain ⟨r, hplacing, -⟩ := h
  exact not_frees_of_placing hplacing

theorem Gives.holds (h : c.Gives e pool key i) (hs : e.Sound) :
    ∃ a, (c.apply e).Holds pool i a ∧ a.key = key := by
  obtain ⟨r, hplacing, rfl, hkey, hindex⟩ := h
  obtain ⟨a, ha, haccept⟩ := holds_of_register hs hindex
  refine ⟨a, (holds_congr (pools_of_placing hplacing)).2 ha, ?_⟩
  exact Except.ok.inj ((key_of_accept haccept).symm.trans hkey)

/-- A call that does not free a key leaves it where it is. -/
theorem holds (hs : e.Sound) (ha : e.Holds pool i a) (hkept : ¬ c.Frees e pool a.key) :
    (c.apply e).Holds pool i a := by
  have hrelease : ∀ {r : Request}, c.releasing? = some r → (e.deregister r).2.Holds pool i a := by
    intro r hr
    exact (holds_deregister hs ha).resolve_right fun ⟨hpool, hkey, hok⟩ =>
      hkept (.inr ⟨r, hr, hpool, hkey, hok⟩)
  cases c with
  | initPool q capacity strategy =>
    rcases initPool_cases hs q capacity strategy with ⟨err, he, -⟩ | ⟨created, e', he, hset⟩
    · simpa only [apply, he] using ha
    · simpa only [apply, he] using hset.holds_iff.2 ha
  | initDeclared q =>
    rcases initDeclared_cases hs q with ⟨err, he, -⟩ | ⟨created, e', he, hset⟩
    · simpa only [apply, he] using ha
    · simpa only [apply, he] using hset.holds_iff.2 ha
  | deletePool q =>
    have hq : q ≠ pool := fun hq => hkept (.inl (hq ▸ rfl))
    unfold Holds
    simp only [apply, live_deletePool, if_neg hq]
    exact ha
  | register r => exact holds_register hs ha
  | allocate q owner key tags => exact holds_register hs ha
  | deregister r => exact hrelease rfl
  | release q owner key tags => exact hrelease rfl
  | resetPace | incrementPace | nextDelay => exact ha
  | reconcileRegister d =>
    refine ((registerVisit_cases hs d).holds hs ha).resolve_right ?_
    rintro ⟨hd, hpool, haccept⟩
    obtain ⟨t, hlive, -⟩ := ha
    refine hkept (.inr ⟨d.ask pool, ?_, rfl, key_of_accept haccept,
      deregister_of_accept haccept hlive⟩)
    simp only [releasing?, if_pos hd, RegisterRecord.request_eq_ok hpool]
    rfl
  | reconcileRegistry policy q => exact ((registryVisit_cases hs policy q).holds_iff hs).2 ha

/-- What a pool holds after a call it was given by the call, or held before, and the call did not
free it. -/
theorem of_holds (hs : e.Sound) (ha : (c.apply e).Holds pool i a) :
    (e.Holds pool i a ∧ ¬ c.Frees e pool a.key) ∨ c.Gives e pool a.key i := by
  have hplace : ∀ {r : Request}, c.placing? = some r →
      (e.Holds pool i a ∧ ¬ c.Frees e pool a.key) ∨ c.Gives e pool a.key i := by
    intro r hr
    rw [holds_congr (pools_of_placing hr)] at ha
    rcases register_of_holds hs ha with hb | ⟨hpool, hkey, hok⟩
    · exact .inl ⟨hb, not_frees_of_placing hr⟩
    · exact .inr ⟨r, hr, hpool, hkey, hok⟩
  have hrelease : ∀ {r : Request}, c.releasing? = some r → c ≠ .deletePool pool →
      (e.Holds pool i a ∧ ¬ c.Frees e pool a.key) ∨ c.Gives e pool a.key i := by
    intro r hr hkeeps
    rw [holds_congr (pools_of_releasing hr)] at ha
    obtain ⟨hb, hnot⟩ := deregister_of_holds hs ha
    refine .inl ⟨hb, ?_⟩
    rintro (hdelete | ⟨r', hr', hpool, hkey, hok⟩)
    · exact hkeeps hdelete
    · cases hr.symm.trans hr'
      exact hnot ⟨hpool, hkey, hok⟩
  have hother : e.Holds pool i a → c.releasing? = none → c ≠ .deletePool pool →
      (e.Holds pool i a ∧ ¬ c.Frees e pool a.key) ∨ c.Gives e pool a.key i := by
    intro hb hnone hkeeps
    refine .inl ⟨hb, ?_⟩
    rintro (hdelete | ⟨r, hr, -⟩)
    · exact hkeeps hdelete
    · cases hnone.symm.trans hr
  cases c with
  | initPool q capacity strategy =>
    refine hother ?_ rfl Call.noConfusion
    rcases initPool_cases hs q capacity strategy with ⟨err, he, -⟩ | ⟨created, e', he, hset⟩
    · simpa only [apply, he] using ha
    · exact hset.holds_iff.1 (by simpa only [apply, he] using ha)
  | initDeclared q =>
    refine hother ?_ rfl Call.noConfusion
    rcases initDeclared_cases hs q with ⟨err, he, -⟩ | ⟨created, e', he, hset⟩
    · simpa only [apply, he] using ha
    · exact hset.holds_iff.1 (by simpa only [apply, he] using ha)
  | deletePool q =>
    unfold Holds at ha
    simp only [apply, live_deletePool] at ha
    split_ifs at ha with hq
    · obtain ⟨t, ht, -⟩ := ha
      cases ht
    · exact hother ha rfl fun hdelete => hq (Call.deletePool.inj hdelete)
  | register r => exact hplace rfl
  | allocate q owner key tags => exact hplace rfl
  | deregister r => exact hrelease rfl Call.noConfusion
  | release q owner key tags => exact hrelease rfl Call.noConfusion
  | resetPace | incrementPace | nextDelay => exact hother ha rfl Call.noConfusion
  | reconcileRegister d =>
    rcases hq : d.request with err | r
    · have hsame : (Call.reconcileRegister d).apply e = e := by
        simp only [apply, Engine.reconcileRegister, hq]
      rw [hsame] at ha
      refine hother ha ?_ Call.noConfusion
      simp only [releasing?, hq, Except.toOption, ite_self]
    · by_cases hd : d.deleting = true
      · exact hrelease (r := r) (by simp only [releasing?, hq, if_pos hd, Except.toOption])
          Call.noConfusion
      · exact hplace (r := r) (by simp only [placing?, hq, if_neg hd, Except.toOption])
  | reconcileRegistry policy q =>
    exact hother (((registryVisit_cases hs policy q).holds_iff hs).1 ha) rfl Call.noConfusion

end Call

section

variable {e₀ e : Engine} {calls : List (Engine × Call)} {pool : PoolId} {i : Nat} {a : Allocation}

theorem Trace.holds (h : Trace e₀ calls e) (hs : e₀.Sound) (ha : e₀.Holds pool i a)
    (hkept : ∀ x ∈ calls, ¬ x.2.Frees x.1 pool a.key) : e.Holds pool i a := by
  induction h with
  | start => exact ha
  | store _ s ih => exact ih hkept
  | call before c ih =>
    obtain ⟨hc, hcalls⟩ := List.forall_mem_cons.1 hkept
    exact Call.holds (before.sound hs) (ih hcalls) hc

/-- From the registration of a key on, until the key is deregistered or its pool is deleted, the
pool lists the key, each registration of it comes to the same index or is refused for the holder's
sake, and no other key is given that index. -/
theorem index_until_freed {policy : PacePolicy} {store : Store} {cap : UInt32}
    {conflicts : ConflictPolicy} {past : List (System × Event)} {s : System}
    (run : Run policy (fun _ _ => True) (.start store cap conflicts) past s) {c : Call}
    {key : String} (hgives : c.Gives s.engine pool key i)
    (since : Trace (c.apply s.engine) calls e)
    (hkept : ∀ x ∈ calls, ¬ x.2.Frees x.1 pool key) :
    key ∈ (e.snapshot pool).used ∧
      (∃ owner tags, (c.apply s.engine).Holds pool i ⟨key, owner, tags⟩ ∧
        e.Holds pool i ⟨key, owner, tags⟩ ∧
        ∀ r : Request, r.pool = pool → e.accept r = .ok key →
          e.register r =
            (if e.conflicts = .reject ∧ ¬ (owner = r.owner ∧ tags = r.tags) then
              .error (.ownershipConflict pool key owner)
            else .ok i, e)) ∧
      ∀ (c' : Call) (key' : String) (j : Nat), c'.Gives e pool key' j → (j = i ↔ key' = key) := by
  have hs : s.engine.Sound := run.sound (Engine.sound_start store cap conflicts)
  obtain ⟨⟨key, owner, tags⟩, ha, rfl⟩ := hgives.holds hs
  have hse : e.Sound := since.sound (c.sound hs)
  have hnow : e.Holds pool i ⟨key, owner, tags⟩ := since.holds (c.sound hs) ha hkept
  obtain ⟨t, hlive, hheld⟩ := id hnow
  refine ⟨?_, ⟨owner, tags, ha, hnow, ?_⟩, ?_⟩
  · simp only [Engine.snapshot, PoolDirectory.snapshot, hlive, SlotTable.snapshot, List.mem_map]
    exact ⟨_, SlotTable.mem_entries.2 hheld, rfl⟩
  · rintro r rfl haccept
    exact Engine.register_of_held hse haccept hlive hheld
  · -- after the call both keys are held, each once and at its own slot
    intro c' key' j hgives'
    obtain ⟨b, hb, hbkey⟩ := hgives'.holds hse
    have ha' := Call.holds hse hnow hgives'.not_frees
    constructor
    · rintro rfl
      rw [← hbkey, hb.unique ha']
    · rintro rfl
      exact (c'.sound hse).holds_inj hb ha' hbkey

/-- The key "b" stays at slot 1, though slot 0, where it would go now, was released and the pool was
asked for again with another capacity. -/
theorem index_behind_released :
    ∃ (pool : PoolId) (past : List (System × Event)) (s : System) (c : Call)
      (calls : List (Engine × Call)) (e : Engine),
      Run .standard (fun _ _ => True) (.start .empty 3 .keepExisting) past s ∧
        c.Gives s.engine pool "b" 1 ∧ Trace (c.apply s.engine) calls e ∧
        (∀ x ∈ calls, ¬ x.2.Frees x.1 pool "b") ∧ "b" ∈ (e.snapshot pool).used ∧
        (∀ (c' : Call) (key' : String) (j : Nat), c'.Gives e pool key' j → (j = 1 ↔ key' = "b")) ∧
        (e.allocate pool "z" "b" none).1 = .ok 1 ∧ (e.allocate pool "z" "c" none).1 = .ok 0 := by
  let pool : PoolId := ⟨"net", "ids", rfl, rfl⟩
  let events : List Event :=
    [.call (.allocate pool "x" "a" none), .call (.initPool pool 3 .firstAvailable),
      .declare (.registry pool (.ofSize 3))]
  let s : System := (System.start .empty 3 .keepExisting).after .standard events
  let c : Call := .allocate pool "y" "b" none
  let e₁ : Engine := c.apply s.engine
  let e₂ : Engine := (e₁.release pool "y" "a" none).2
  have hrun : Run .standard (fun _ _ => True) (.start .empty 3 .keepExisting) _ s :=
    run_after events fun _ _ => trivial
  have hgives : c.Gives s.engine pool "b" 1 :=
    ⟨_, rfl, rfl, by decide +kernel, by decide +kernel⟩
  let calls : List (Engine × Call) :=
    [(e₂, .initPool pool 8 .hash), (e₁, .release pool "y" "a" none)]
  have hsince : Trace e₁ calls (e₂.initPool pool 8 .hash).2 :=
    (Trace.start.call (.release pool "y" "a" none)).call (.initPool pool 8 .hash)
  have hkept : ∀ x ∈ calls, ¬ x.2.Frees x.1 pool "b" := by
    refine List.forall_mem_cons.2 ⟨?_, List.forall_mem_singleton.2 ?_⟩
    · rintro (h | ⟨r, h, -⟩) <;> cases h
    · rintro (h | ⟨r, h, -, hkey, -⟩)
      · cases h
      · cases h
        exact absurd hkey (by decide +kernel)
  obtain ⟨hused, -, hothers⟩ := index_until_freed hrun hgives hsince hkept
  exact ⟨pool, _, s, c, _, _, hrun, hgives, hsince, hkept, hused, hothers, by decide +kernel,
    by decide +kernel⟩

end

/-- A pass is a history of reconciling calls, of registers that the store held before it. -/
theorem trace_pass (e : Engine) (policy : PacePolicy) (schedule : Schedule) (now : Millis) :
    ∃ calls, Trace e calls (e.pass policy schedule now).engine ∧
      ∀ x ∈ calls, x.2.Reconciles e.store.registerList :=
  ⟨_, e.trace_passCalls policy schedule now, fun _ => e.reconciles_of_passCalls policy schedule now⟩

/-- A pass leaves every allocation of a live pool in its slot, unless a register that was marked for
deletion before the pass names its key. -/
theorem held_after_pass {policy : PacePolicy} {store : Store} {cap : UInt32}
    {conflicts : ConflictPolicy} {past : List (System × Event)} {s : System}
    (run : Run policy (fun _ _ => True) (.start store cap conflicts) past s) (schedule : Schedule)
    (now : Millis) {pool : PoolId} {t : SlotTable} {i : Nat} {a : Allocation}
    (hlive : s.engine.pools.live[pool]? = some t) (hentry : (i, a) ∈ t.entries)
    (hstays : ∀ r ∈ s.engine.store.registerList, r.deleting = true → r.pool = .ok pool →
      (r.selector.bind fun sel => sel["name"]?) ≠ some a.key) :
    ∃ t', (s.engine.pass policy schedule now).engine.pools.live[pool]? = some t' ∧
      (i, a) ∈ t'.entries := by
  have hs : s.engine.Sound := run.sound (Engine.sound_start store cap conflicts)
  obtain ⟨calls, htrace, hcalls⟩ := trace_pass s.engine policy schedule now
  have hkept : ∀ x ∈ calls, ¬ x.2.Frees x.1 pool a.key := by
    rintro x hx (hdelete | ⟨q, hq, hpool, hkey, -⟩)
    · rcases hcalls x hx with ⟨r, -, hc⟩ | ⟨_, _, hc⟩
      · cases hc.symm.trans hdelete
      · cases hc.symm.trans hdelete
    · rcases hcalls x hx with ⟨r, hr, hc⟩ | ⟨_, _, hc⟩
      · rw [hc] at hq
        simp only [Call.releasing?] at hq
        split_ifs at hq with hd
        obtain ⟨hrpool, hask⟩ := Engine.request_of_toOption hq
        rw [hask] at hkey
        exact hstays r hr hd (hpool ▸ hrpool) (Engine.named_of_key hkey)
      · rw [hc] at hq
        cases hq
  obtain ⟨t', hlive', hheld⟩ := htrace.holds hs ⟨t, hlive, SlotTable.mem_entries.1 hentry⟩ hkept
  exact ⟨t', hlive', SlotTable.mem_entries.2 hheld⟩

/-- The key "b" is released for its register, which is to be deleted as its registry is, and "a",
which no register names, keeps slot 0. -/
theorem held_beside_released :
    ∃ (pool : PoolId) (past : List (System × Event)) (s : System) (t : SlotTable),
      Run .standard (fun _ _ => True) (.start .empty 3 .reject) past s ∧
        s.engine.pools.live[pool]? = some t ∧ (0, ⟨"a", "op", none⟩) ∈ t.entries ∧
        (1, ⟨"b", "x", none⟩) ∈ t.entries ∧
        (∀ r ∈ s.engine.store.registerList, r.deleting = true → r.pool = .ok pool →
          (r.selector.bind fun sel => sel["name"]?) ≠ some "a") ∧
        (s.engine.pass .standard s.schedule 1).stats.registersReleased = 1 ∧
        ∃ t', (s.engine.pass .standard s.schedule 1).engine.pools.live[pool]? = some t' ∧
          (0, ⟨"a", "op", none⟩) ∈ t'.entries := by
  let pool : PoolId := ⟨"net", "ids", rfl, rfl⟩
  let register : RegisterRecord :=
    ⟨⟨"net", "x"⟩, "ids", some ((∅ : Selector).insert "name" "b"), none, false, none⟩
  let events : List Event :=
    [.declare (.registryDeleting pool), .declare (.registerDeleting ⟨"net", "x"⟩), .pass 0,
      .declare (.register register), .call (.allocate pool "op" "a" none),
      .call (.initDeclared pool),
      .declare (.registry pool ⟨some 3, some .firstAvailable, none, none⟩)]
  have hrun : Run .standard (fun _ _ => True) (.start .empty 3 .reject) _ _ :=
    run_after events fun _ _ => trivial
  have hlive : ((System.start .empty 3 .reject).after .standard events).engine.pools.live[pool]?
      = some ⟨#[.held ⟨"a", "op", none⟩, .held ⟨"b", "x", none⟩, .unused], 2, .firstAvailable⟩ := by
    decide +kernel
  have hentry : (0, ⟨"a", "op", none⟩) ∈ SlotTable.entries
      ⟨#[.held ⟨"a", "op", none⟩, .held ⟨"b", "x", none⟩, .unused], 2, .firstAvailable⟩ := by
    decide +kernel
  have hstays : ∀ r ∈ ((System.start .empty 3 .reject).after .standard
      events).engine.store.registerList, r.deleting = true → r.pool = .ok pool →
        (r.selector.bind fun sel => sel["name"]?) ≠ some "a" := by decide +kernel
  exact ⟨pool, _, _, _, hrun, hlive, hentry, by decide +kernel, hstays, by decide +kernel,
    held_after_pass hrun _ 1 hlive hentry hstays⟩

end IndexPools
