import IndexPools.Proofs.Run

/-!
# The mirrored status

Right after a pass, each registry's record has the status of its pool (`status_after_pass`), though
a pass visits only the registries that are due. A registry with a deadline has the status of its
pool, or its pace level lies below the level that was recorded with the deadline, so that it is due
(`Engine.Watched`): what changes a table sets the level back to 0, and no deadline is recorded at
level 0. A pass goes through its registries with those that it passed showing their pools
(`Pass.Mirrors`).
-/

namespace IndexPools

namespace Engine

/-- The registry of a live pool, unless it is marked for deletion, has the pool's status. -/
def Shows (e : Engine) (pool : PoolId) : Prop :=
  ∀ (record : RegistryRecord) (t : SlotTable), e.store.registries[pool]? = some record →
    record.deleting = false → e.pools.live[pool]? = some t → record.status = some (e.status pool)

/-- A registry with a deadline shows its pool, or is due for its level. -/
structure Watched (e : Engine) (pool : PoolId) (d : Deadline) : Prop where
  stored : ∃ record, e.store.registries[pool]? = some record
  positive : 0 < d.level.value
  shown : e.Shows pool ∨ (e.paceLevel pool).value < d.level.value

variable {e e' : Engine} {pool q : PoolId} {d : Deadline}

theorem SameAt.shows (h : SameAt e e' q) (hs : e.Shows q) : e'.Shows q := by
  intro record t hrecord hstays hlive
  rw [h.record] at hrecord
  rw [h.table] at hlive
  have hstatus : e'.status q = e.status q := by
    unfold status
    rw [h.table]
  rw [hstatus]
  exact hs record t hrecord hstays hlive

theorem SameAt.watched (h : SameAt e e' q) (hw : e.Watched q d) : e'.Watched q d := by
  obtain ⟨hstored, hpositive, hshown⟩ := hw
  refine ⟨h.record ▸ hstored, hpositive, hshown.imp h.shows fun hl => ?_⟩
  rw [h.paceLevel_eq]
  exact hl

theorem Watched.registers (hw : e.Watched q d)
    (registers : Std.ExtTreeMap RegisterKey RegisterRecord) :
    { e with store := { e.store with registers } }.Watched q d :=
  ⟨hw.stored, hw.positive, hw.shown⟩

/-- A registry whose level was set back is due, since no deadline is recorded at level 0. -/
theorem Moved.watched (h : Moved e e') (hs : e.Sound) (hw : e.Watched q d) : e'.Watched q d := by
  rcases h.sameAt_or_reset hs q with hsame | hreset
  · exact hsame.watched hw
  · obtain ⟨hstored, hpositive, -⟩ := hw
    refine ⟨h.store_eq ▸ hstored, hpositive, .inr ?_⟩
    rw [hreset]
    exact hpositive

theorem RegisterVisit.watched {r : RegisterRecord}
    {res : Except ReconcileError RegisterOutcome × Engine} (h : RegisterVisit e r res)
    (hs : e.Sound) (hw : e.Watched q d) : res.2.Watched q d := by
  obtain ⟨e', registers, hmoved, he⟩ := h.moved hs
  rw [he]
  exact (hmoved.watched hs hw).registers registers

/-- No level is left at 0 once a delay was asked for. -/
theorem paceLevel_nextDelay (hs : e.Sound) (hcap : 0 < e.pacer.cap) (policy : PacePolicy) :
    0 < ((e.nextDelay pool policy).2.paceLevel pool).value := by
  have hlevel := Pacer.levels_nextDelay e.pacer pool pool policy
  rw [if_pos rfl] at hlevel
  rcases hl : e.pacer.levels[pool]? with _ | l
  · rw [hl] at hlevel
    rw [paceLevel_of_untracked hlevel]
    decide
  · rw [hl] at hlevel
    rw [paceLevel_of_level hlevel]
    have hle := hs.capped hl
    show 0 < if l < e.pacer.cap then l + 1 else l
    split_ifs with hlt
    · rw [UInt32.lt_iff_toNat_lt] at hlt ⊢
      have := e.pacer.cap.toNat_lt
      simp only [UInt32.toNat_add, UInt32.reduceToNat]
      omega
    · exact UInt32.lt_of_lt_of_le hcap (UInt32.not_lt.1 hlt)

/-- A registry that was visited shows its pool, and is not left at level 0 unless it is gone. -/
theorem RegistryVisit.visited {policy : PacePolicy}
    {res : Except ReconcileError RegistryOutcome × Engine} (h : RegistryVisit policy e pool res)
    (hs : e.Sound) (hcap : 0 < e.pacer.cap)
    (hstored : ∃ record, e.store.registries[pool]? = some record) :
    res.2.Shows pool ∧
      (requeueAfter policy res.1 ≠ none →
        (∃ record, res.2.store.registries[pool]? = some record) ∧
          0 < (res.2.paceLevel pool).value) := by
  cases h with
  | missing hrecord =>
    obtain ⟨record, hrecord'⟩ := hstored
    rw [hrecord] at hrecord'
    cases hrecord'
  | unset err _ _ hlive =>
    refine ⟨fun record t _ _ ht => ?_, fun _ => ⟨hstored, ?_⟩⟩
    · rw [hlive] at ht
      cases ht
    · rw [paceLevel_of_untracked (hs.untracked hlive)]
      decide
  | blocked hrecord hleaves =>
    refine ⟨fun record t hrecord' hstays _ => ?_, fun _ =>
      ⟨hstored, paceLevel_nextDelay hs hcap policy⟩⟩
    cases hrecord.symm.trans hrecord'
    rw [hleaves] at hstays
    cases hstays
  | deleted =>
    refine ⟨fun record t hrecord _ _ => ?_, fun hnone => absurd rfl hnone⟩
    simp only [removed, lookup_erase, if_true] at hrecord
    cases hrecord
  | @synced record e' _ _ hset =>
    have hrecord' : ((e'.mirrored pool record).nextDelay pool policy).2.store.registries[pool]?
        = some { record with status := some (e'.status pool) } :=
      (lookup_insert _ _ _ _).trans (if_pos rfl)
    refine ⟨fun record' t hr _ _ => ?_, fun _ => ⟨⟨_, hrecord'⟩, ?_⟩⟩
    · cases hrecord'.symm.trans hr
      rfl
    · exact paceLevel_nextDelay ((hset.moved.sound hs).store _) (hset.moved.cap_eq ▸ hcap) policy

end Engine

namespace Pass

/-- A pass on its way through the registries, of which `rest` are still to come. -/
structure Mirrors (p : Pass) (rest : List PoolId) : Prop where
  sound : p.engine.Sound
  capped : 0 < p.engine.pacer.cap
  stored : ∀ q ∈ rest, ∃ record, p.engine.store.registries[q]? = some record
  watched : ∀ q d, p.schedule.deadlines[q]? = some d → p.engine.Watched q d
  shown : ∀ q, q ∉ rest → p.engine.Shows q

variable {policy : PacePolicy} {now : Millis} {p : Pass} {pool : PoolId} {rest : List PoolId}

theorem Mirrors.skip (h : p.Mirrors (pool :: rest))
    (hdue : ¬ p.schedule.isDue pool now (p.engine.paceLevel pool)) : p.Mirrors rest := by
  refine ⟨h.sound, h.capped, fun q hq => h.stored q (List.mem_cons_of_mem _ hq), h.watched,
    fun q hq => ?_⟩
  by_cases hpool : q = pool
  · rw [hpool]
    unfold Schedule.isDue at hdue
    rcases hd : p.schedule.deadlines[pool]? with _ | d
    · simp [hd] at hdue
    · -- not due for its level, so the registry shows its pool already
      simp only [hd, Bool.or_eq_true, decide_eq_true_eq, not_or] at hdue
      exact (h.watched pool d hd).shown.resolve_right hdue.2
  · exact h.shown q (List.not_mem_cons_of_ne_of_not_mem hpool hq)

/-- After a visit: no deadline if the registry is gone, else one at the level it was left at, unless
none could be formed. -/
theorem deadlines_visitRegistry (q : PoolId) (d : Deadline)
    (hd : (p.visitRegistry policy now pool).schedule.deadlines[q]? = some d) :
    ((pool ≠ q ∨ (p.visitRegistry policy now pool).overflow = true) ∧
        p.schedule.deadlines[q]? = some d) ∨
      (pool = q ∧ requeueAfter policy (p.engine.reconcileRegistry policy pool).1 ≠ none ∧
        d.level = (p.engine.reconcileRegistry policy pool).2.paceLevel pool) := by
  unfold visitRegistry at hd ⊢
  dsimp only at hd ⊢
  rcases hr : requeueAfter policy (p.engine.reconcileRegistry policy pool).1 with _ | delay
  · simp only [hr, Schedule.remove, lookup_erase] at hd
    split_ifs at hd with hq
    exact .inl ⟨.inl hq, hd⟩
  · rcases hafter : deadlineAfter? now delay with _ | due
    · simp only [hr, hafter] at hd ⊢
      exact .inl ⟨.inr trivial, hd⟩
    · simp only [hr, hafter, Schedule.set, lookup_insert] at hd
      split_ifs at hd with hq
      · cases hd
        exact .inr ⟨hq, Option.some_ne_none _, rfl⟩
      · exact .inl ⟨.inl hq, hd⟩

theorem Mirrors.visit (h : p.Mirrors (pool :: rest)) (hnew : pool ∉ rest)
    (hover : (p.visitRegistry policy now pool).overflow = false) :
    (p.visitRegistry policy now pool).Mirrors rest := by
  have hv := Engine.registryVisit_cases h.sound policy pool
  obtain ⟨hshows, hlevel⟩ := hv.visited h.sound h.capped (h.stored pool List.mem_cons_self)
  refine ⟨?_, ?_, ?_, ?_, ?_⟩
  · rw [Engine.engine_visitRegistry]
    exact hv.sound h.sound
  · rw [Engine.engine_visitRegistry, hv.cap_eq]
    exact h.capped
  · intro q hq
    rw [Engine.engine_visitRegistry, (hv.sameAt fun e => hnew (e ▸ hq)).record]
    exact h.stored q (List.mem_cons_of_mem _ hq)
  · intro q d hd
    rw [Engine.engine_visitRegistry]
    rcases deadlines_visitRegistry q d hd with ⟨hq | hlast, hd'⟩ | ⟨rfl, hrequeue, hdlevel⟩
    · exact (hv.sameAt hq).watched (h.watched q d hd')
    · rw [hover] at hlast
      cases hlast
    · obtain ⟨hstored, hpos⟩ := hlevel hrequeue
      exact ⟨hstored, hdlevel ▸ hpos, .inl hshows⟩
  · intro q hq
    rw [Engine.engine_visitRegistry]
    by_cases hpool : pool = q
    · rw [← hpool]
      exact hshows
    · exact (hv.sameAt hpool).shows
        (h.shown q (List.not_mem_cons_of_ne_of_not_mem (Ne.symm hpool) hq))

theorem mirrors_visitRegistries (policy : PacePolicy) (now : Millis) :
    ∀ (rest : List PoolId) (p : Pass), rest.Nodup → p.Mirrors rest →
      (visitRegistries policy now rest p).overflow = false →
      (visitRegistries policy now rest p).Mirrors []
  | [], _, _, h, _ => h
  | pool :: rest, p, hdistinct, h, hover => by
    obtain ⟨hnew, hrest⟩ := List.nodup_cons.1 hdistinct
    simp only [visitRegistries] at hover ⊢
    split_ifs at hover ⊢ with hdue hlast
    · exact absurd hlast (by rw [hover]; exact Bool.false_ne_true)
    · rw [Bool.not_eq_true] at hlast
      exact mirrors_visitRegistries policy now rest _ hrest (h.visit hnew hlast) hover
    · exact mirrors_visitRegistries policy now rest p hrest (h.skip hdue) hover

end Pass

/-- What runs keep between their events: whatever is scheduled is watched. -/
structure System.Mirrors (s : System) : Prop where
  capped : 0 < s.engine.pacer.cap
  watched : ∀ q d, s.schedule.deadlines[q]? = some d → s.engine.Watched q d

theorem mirrors_pass {s : System} (hs : s.engine.Sound) (h : s.Mirrors) {policy : PacePolicy}
    {now : Millis} (hover : (s.engine.pass policy s.schedule now).overflow = false) :
    (s.engine.pass policy s.schedule now).Mirrors [] := by
  -- while registers are visited the schedule stands, and levels only fall
  obtain ⟨hs', hcap, hwatched⟩ := Engine.visitRegisters_stable
    (P := fun e => e.Sound ∧ 0 < e.pacer.cap ∧
      ∀ q d, s.schedule.deadlines[q]? = some d → e.Watched q d)
    (fun e r ⟨he, hcap, hw⟩ =>
      have hv := Engine.registerVisit_cases he r
      ⟨hv.sound he, hv.cap_eq he ▸ hcap, fun q d hd => hv.watched he (hw q d hd)⟩)
    s.engine.store.registerList ⟨s.engine, s.schedule, .zero, false⟩ ⟨hs, h.capped, h.watched⟩
  refine Pass.mirrors_visitRegistries policy now _ _ Std.ExtTreeMap.nodup_keys
    ⟨hs', hcap, fun q hq => ?_, fun q d hd => ?_, fun q hq record t hrecord => ?_⟩ hover
  · exact mem_iff_lookup.1 (Std.ExtTreeMap.mem_keys.1 hq)
  · rw [Schedule.retain, Std.ExtTreeMap.getElem?_filter', Engine.schedule_visitRegisters,
      Option.filter_eq_some_iff] at hd
    exact hwatched q d hd.1
  · exact absurd (Std.ExtTreeMap.mem_keys.2 (mem_iff_lookup.2 ⟨record, hrecord⟩)) hq

/-- A declaration leaves the status of a registry as it is, and no mark for deletion goes. -/
theorem Declaration.registry_kept (d : Declaration) {s : Store} {q : PoolId}
    {record : RegistryRecord} (h : s.registries[q]? = some record) :
    ∃ record', (d.apply s).registries[q]? = some record' ∧ record'.status = record.status ∧
      (record'.deleting = false → record.deleting = false) := by
  have hchange : ∀ (id : PoolId) (f : RegistryRecord → RegistryRecord),
      (∀ record, (f record).status = record.status ∧
        ((f record).deleting = false → record.deleting = false)) →
      ∃ record', (s.orSame (s.changeRegistry id f)).registries[q]? = some record' ∧
        record'.status = record.status ∧ (record'.deleting = false → record.deleting = false) := by
    intro id f hf
    rw [Store.registries_changeRegistry]
    split_ifs with hq
    · rw [hq, h]
      exact ⟨f record, rfl, hf record⟩
    · exact ⟨record, h, rfl, fun hstays => hstays⟩
  cases d with
  | registry id spec =>
    simp only [apply, Store.declareRegistry, lookup_insert]
    split_ifs with hq
    · rw [hq, h]
      exact ⟨_, rfl, rfl, fun hstays => hstays⟩
    · exact ⟨record, h, rfl, fun hstays => hstays⟩
  | setReady id ready => exact hchange id _ fun _ => ⟨rfl, fun hstays => hstays⟩
  | registryDeleting id => exact hchange id _ fun _ => ⟨rfl, fun hstays => Bool.noConfusion hstays⟩
  | register r => exact ⟨record, h, rfl, fun hstays => hstays⟩
  | registerDeleting key =>
    refine ⟨record, ?_, rfl, fun hstays => hstays⟩
    simp only [apply, Store.markRegisterDeleting, Store.registries_changeRegister]
    exact h

theorem Declaration.watched (d : Declaration) {e : Engine} {q : PoolId} {dl : Deadline}
    (hw : e.Watched q dl) : { e with store := d.apply e.store }.Watched q dl := by
  obtain ⟨⟨record, hrecord⟩, hpos, hshown⟩ := hw
  obtain ⟨record', hrecord', hstatus, hdeleting⟩ := d.registry_kept hrecord
  refine ⟨⟨record', hrecord'⟩, hpos, hshown.imp (fun hshows => ?_) fun hlevel => hlevel⟩
  intro r t hr hstays hlive
  cases hrecord'.symm.trans hr
  rw [hstatus]
  exact hshows record t hrecord (hdeleting hstays) hlive

/-- The calls that set pools up and place or release keys. -/
def Call.Places : Call → Prop
  | .initPool _ _ _ | .initDeclared _ | .register _ | .deregister _ | .allocate _ _ _ _
  | .release _ _ _ _ => True
  | _ => False

theorem Call.Places.moved {c : Call} (h : c.Places) {e : Engine} (hs : e.Sound) :
    e.Moved (c.apply e) := by
  cases c with
  | initPool pool capacity strategy => exact Engine.moved_initPool hs pool capacity strategy
  | initDeclared pool => exact Engine.moved_initDeclared hs pool
  | register | deregister | allocate | release => exact (Call.rekeyed hs rfl).moved hs
  | deletePool | resetPace | incrementPace | nextDelay | reconcileRegister | reconcileRegistry =>
    exact h.elim

/-- Declarations, calls that place keys, and passes whose deadlines can all be formed. -/
def Placing (policy : PacePolicy) (s : System) : Event → Prop
  | .declare _ => True
  | .correct _ => False
  | .call c => c.Places
  | .pass now => (s.engine.pass policy s.schedule now).overflow = false

instance : DecidablePred Call.Places
  | .initPool _ _ _ | .initDeclared _ | .register _ | .deregister _ | .allocate _ _ _ _
  | .release _ _ _ _ => .isTrue trivial
  | .deletePool _ | .resetPace _ | .incrementPace _ | .nextDelay _ _ | .reconcileRegister _
  | .reconcileRegistry _ _ => .isFalse id

instance (policy : PacePolicy) (s : System) : DecidablePred (Placing policy s)
  | .declare _ => .isTrue trivial
  | .correct _ => .isFalse id
  | .call c => inferInstanceAs (Decidable c.Places)
  | .pass now =>
    inferInstanceAs (Decidable ((s.engine.pass policy s.schedule now).overflow = false))

theorem mirrors_step {policy : PacePolicy} {s : System} (event : Event) (hs : s.engine.Sound)
    (hadmits : Placing policy s event) (h : s.Mirrors) : (s.step policy event).Mirrors := by
  cases event with
  | declare d => exact ⟨h.capped, fun q dl hd => d.watched (h.watched q dl hd)⟩
  | correct c => exact hadmits.elim
  | call c =>
    have hmoved := hadmits.moved hs
    exact ⟨hmoved.cap_eq ▸ h.capped, fun q d hd => hmoved.watched hs (h.watched q d hd)⟩
  | pass now =>
    have hpass := mirrors_pass hs h hadmits
    exact ⟨hpass.capped, hpass.watched⟩

theorem mirrors_start (store : Store) {cap : UInt32} (hcap : 1 ≤ cap)
    (conflicts : ConflictPolicy) : (System.start store cap conflicts).Mirrors := by
  refine ⟨Pacer.cap_pos hcap, fun q d hd => ?_⟩
  simp [System.start, Schedule.empty] at hd

/-- Right after a pass, a registry that stays has the status of its pool. -/
theorem status_after_pass {policy : PacePolicy} {store : Store} {cap : UInt32}
    {conflicts : ConflictPolicy} {past : List (System × Event)} {s₀ s : System} {now : Millis}
    (hcap : 1 ≤ cap)
    (run : Run policy (Placing policy) (.start store cap conflicts) ((s₀, .pass now) :: past) s)
    {pool : PoolId} {record : RegistryRecord} {t : SlotTable}
    (hrecord : s.engine.store.registries[pool]? = some record) (hstays : record.deleting = false)
    (hlive : s.engine.pools.live[pool]? = some t) :
    record.status = some (s.engine.status pool) := by
  have hsound : (System.start store cap conflicts).engine.Sound :=
    Engine.sound_start store cap conflicts
  cases run with
  | step before _ hadmits =>
    have hmirrors : s₀.Mirrors := before.invariant hsound (mirrors_start store hcap conflicts)
      fun _ event => mirrors_step event
    have hpass := mirrors_pass (before.sound hsound) hmirrors hadmits
    exact hpass.shown pool List.not_mem_nil record t hrecord hstays hlive

/-- The status follows a key that was placed while the registry's deadline was still to come. -/
theorem status_after_early_pass :
    ∃ (pool : PoolId) (past : List (System × Event)) (s₀ s : System) (record : RegistryRecord)
      (t : SlotTable),
      (1 : UInt32) ≤ 3 ∧
        Run .standard (Placing .standard) (.start .empty 3 .keepExisting)
          ((s₀, .pass 1) :: past) s ∧
        s₀.schedule.deadline? pool = some 1000 ∧
        s.engine.store.registries[pool]? = some record ∧ record.deleting = false ∧
        s.engine.pools.live[pool]? = some t ∧ record.status = some (s.engine.status pool) ∧
        record.status = some ⟨2, 1, 1, ["a"]⟩ := by
  let pool : PoolId := ⟨"net", "ids", rfl, rfl⟩
  let spec : RegistrySpec := ⟨some 2, some .firstAvailable, none, none⟩
  let t : SlotTable := ⟨#[.held ⟨"a", "x", none⟩, .unused], 1, .firstAvailable⟩
  let start : System := .start .empty 3 .keepExisting
  let events : List Event :=
    [.call (.allocate pool "x" "a" none), .pass 0, .declare (.registry pool spec)]
  have hrun : Run .standard (Placing .standard) start _ _ :=
    run_after (.pass 1 :: events) (by decide +kernel)
  have hrecord : (start.after .standard (.pass 1 :: events)).engine.store.registries[pool]?
      = some ⟨pool, spec, true, false, some ⟨2, 1, 1, ["a"]⟩⟩ := by decide +kernel
  have hlive : (start.after .standard (.pass 1 :: events)).engine.pools.live[pool]? = some t := by
    decide +kernel
  exact ⟨pool, _, _, _, _, t, by decide, hrun, by decide +kernel, hrecord, rfl, hlive,
    status_after_pass (by decide) hrun hrecord rfl hlive, rfl⟩

end IndexPools
