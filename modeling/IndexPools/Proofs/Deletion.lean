import IndexPools.Proofs.Answers
import IndexPools.Proofs.Holding
import IndexPools.Proofs.Loaded

/-!
# Deleted registries

A registry that is marked for deletion is blocked as long as its pool holds keys, and is gone as a
whole after the first visit that finds none (`Pass.visit_deleting`). What the visit finds is what
the registers left behind. Where every register of the pool is to go as well, and they name all the
keys that the pool holds, their visits leave neither a register nor a key (`Emptying.visit`); and
since a pool that lost a key is due at once, the registry goes in the same pass
(`deletion_of_pass`), unless the pass ends before it gets to it (`sweep_cut_short`).
-/

namespace IndexPools

namespace Pass

/-- Nothing of a registry is left, nor of its pool. -/
structure Gone (p : Pass) (pool : PoolId) : Prop where
  table : p.engine.pools.live[pool]? = none
  level : p.engine.pacer.levels[pool]? = none
  record : p.engine.store.registries[pool]? = none
  deadline : p.schedule.deadlines[pool]? = none

/-- The registry is kept for the sake of the keys of its pool. -/
def blocks : Except ReconcileError RegistryOutcome → Bool
  | .ok (.blocked _ _) => true
  | _ => false

variable {p p' : Pass} {pool : PoolId} {record : RegistryRecord}

theorem SameAt.gone (h : p.SameAt p' pool) (hgone : p.Gone pool) : p'.Gone pool :=
  ⟨h.engine.table.trans hgone.table, h.engine.level.trans hgone.level,
    h.engine.record.trans hgone.record, h.deadline.trans hgone.deadline⟩

/-- The visit of a registry that is marked for deletion. -/
theorem visit_deleting (policy : PacePolicy) (now : Millis) (hs : p.engine.Sound)
    (hrecord : p.engine.store.registries[pool]? = some record) (hleaves : record.deleting = true) :
    (∃ t, p.engine.pools.live[pool]? = some t ∧ t.entries ≠ [] ∧
      (∃ delay, (p.engine.reconcileRegistry policy pool).1 =
        .ok (.blocked t.entries.length delay)) ∧
      (p.visitRegistry policy now pool).engine.pools.live[pool]? = some t ∧
      (p.visitRegistry policy now pool).engine.store.registries[pool]? = some record) ∨
    ((∀ t, p.engine.pools.live[pool]? = some t → t.entries = []) ∧
      (p.engine.reconcileRegistry policy pool).1 = .ok .deleted ∧
      (p.visitRegistry policy now pool).Gone pool) := by
  have hschedule : (p.engine.reconcileRegistry policy pool).1 = .ok .deleted →
      (p.visitRegistry policy now pool).schedule = p.schedule.remove pool := by
    intro hanswer
    unfold visitRegistry
    simp only [hanswer, requeueAfter]
  have hengine : (p.visitRegistry policy now pool).engine =
      (p.engine.reconcileRegistry policy pool).2 := Engine.engine_visitRegistry policy now p pool
  have hv := Engine.registryVisit_cases hs policy pool
  rw [hengine]
  generalize p.engine.reconcileRegistry policy pool = res at hv hschedule hengine ⊢
  cases hv with
  | missing hnone =>
    rw [hrecord] at hnone
    cases hnone
  | unset err hrecord' hstays =>
    cases hrecord.symm.trans hrecord'
    rw [hleaves] at hstays
    cases hstays
  | synced hrecord' hstays =>
    cases hrecord.symm.trans hrecord'
    rw [hleaves] at hstays
    cases hstays
  | @blocked record' t hrecord' _ hlive hheld =>
    have hlength : t.entries.length = t.allocated := (hs.tables hlive).length_entries
    refine .inl ⟨t, hlive, ?_, ⟨_, by rw [hlength]⟩, hlive, hrecord⟩
    exact List.ne_nil_of_length_pos (hlength ▸ hheld)
  | deleted _ _ hempty =>
    refine .inr ⟨fun t hlive => ?_, rfl, ?_, ?_, ?_, ?_⟩
    · rw [← List.length_eq_zero_iff, (hs.tables hlive).length_entries]
      exact hempty t hlive
    · rw [hengine]
      exact (Engine.live_deletePool pool).trans (if_pos rfl)
    · rw [hengine]
      exact (Pacer.levels_forget _ _ _).trans (if_pos rfl)
    · rw [hengine]
      exact (lookup_erase _ _ _).trans (if_pos rfl)
    · rw [hschedule rfl]
      exact (lookup_erase _ _ _).trans (if_pos rfl)

end Pass

namespace Engine

variable {e : Engine} {policy : PacePolicy} {schedule : Schedule} {now : Millis} {pool : PoolId}
  {record : RegistryRecord} {r : RegisterRecord} {rest : List RegisterRecord} {t : SlotTable}

/-- A pass counts the registries that it visits and that are blocked. -/
theorem blocked_pass (e : Engine) (policy : PacePolicy) (schedule : Schedule) (now : Millis) :
    (e.pass policy schedule now).stats.registriesBlocked =
      (e.answers policy schedule now).countP fun x => Pass.blocks x.2 := by
  refine count_answers PassStats.registriesBlocked rfl
    (fun stats answer => (stats.registries_countRegister answer).2.1) (fun stats answer => ?_)
    e policy schedule now
  rcases answer with err | (_ | _ | _) <;> rfl

/-- A registry that is marked for deletion and visited in a pass is blocked by the keys that its
pool holds midway, or is gone. -/
theorem deletion_of_answer (hs : e.Sound) (hrecord : e.store.registries[pool]? = some record)
    (hleaves : record.deleting = true) {answer : Except ReconcileError RegistryOutcome}
    (hvisited : (pool, answer) ∈ e.answers policy schedule now) :
    (∃ t, (e.midway schedule).engine.pools.live[pool]? = some t ∧ t.entries ≠ [] ∧
      (∃ delay, answer = .ok (.blocked t.entries.length delay)) ∧
      (e.pass policy schedule now).engine.pools.live[pool]? = some t ∧
      (e.pass policy schedule now).engine.store.registries[pool]? = some record) ∨
    ((∀ t, (e.midway schedule).engine.pools.live[pool]? = some t → t.entries = []) ∧
      answer = .ok .deleted ∧ (e.pass policy schedule now).Gone pool) := by
  obtain ⟨p, hp, hbefore, rfl, hafter⟩ := visit_of_answer hs hvisited
  have hrecord' : p.engine.store.registries[pool]? = some record := by
    rw [hbefore.engine.record, registries_midway hs]
    exact hrecord
  have htable := hbefore.engine.table
  rcases Pass.visit_deleting policy now hp hrecord' hleaves with
    ⟨t, hlive, hheld, hanswer, hlive', hrecord''⟩ | ⟨hempty, hanswer, hgone⟩
  · exact .inl ⟨t, htable.symm.trans hlive, hheld, hanswer, hafter.engine.table.trans hlive',
      hafter.engine.record.trans hrecord''⟩
  · exact .inr ⟨fun t hlive => hempty t (htable.trans hlive), hanswer, hafter.gone hgone⟩

/-- The visit of a register that is marked for deletion, where its pool serves, takes the register's
key out of the pool and the register out of the store. -/
theorem visit_leaving (hs : e.Sound) (hstored : e.store.registers[r.key]? = some r)
    (hpool : r.pool = .ok pool) (hleaves : r.deleting = true) {key : String}
    (haccept : e.accept (r.ask pool) = .ok key) (hlive : e.pools.live[pool]? = some t) :
    (e.reconcileRegister r).2.store.registers = e.store.registers.erase r.key ∧
      (∃ t', (e.reconcileRegister r).2.pools.live[pool]? = some t') ∧
      ∀ (i : Nat) (a : Allocation), (e.reconcileRegister r).2.Holds pool i a →
        e.Holds pool i a ∧ a.key ≠ key := by
  have hok : (e.deregister (r.ask pool)).1 = .ok () := deregister_of_accept haccept hlive
  have hcases := deregister_cases hs (r.ask pool)
  rw [reconcileRegister_of_accept hpool hleaves haccept hlive]
  generalize e.deregister (r.ask pool) = res at hok hcases ⊢
  cases hcases with
  | refused => cases hok
  | idle haccept' hlive' habsent =>
    cases haccept.symm.trans haccept'
    refine ⟨congrArg (·.2.store.registers) (discard_of_stored hstored), ?_, fun i a ha => ?_⟩
    · rw [discard_of_stored hstored]
      exact ⟨t, hlive⟩
    · rw [holds_discard] at ha
      exact ⟨ha, habsent i a ((holds_of_live hlive').1 ha)⟩
  | @freed key' t' i b haccept' hlive' hheld hkey =>
    cases haccept.symm.trans haccept'
    have hdiscard : (e.retable pool (t'.vacate i)).discard r = _ := discard_of_stored hstored
    refine ⟨congrArg (·.2.store.registers) hdiscard, ?_, fun j a ha => ?_⟩
    · exact ⟨t'.vacate i,
        (congrArg (·.2.pools.live[pool]?) hdiscard).trans live_retable_self⟩
    · obtain ⟨ha, hne⟩ := (holds_vacate hs hlive' hheld).1 (holds_discard.1 ha)
      refine ⟨ha, fun hakey => hne ⟨rfl, ?_⟩⟩
      exact hs.holds_inj ha ⟨t', hlive', hheld⟩ (hakey.trans hkey.symm)

/-- A pool is being emptied by the visits of the registers in `rest`: they are all that are left of
its registers, and name all the keys that it still holds. -/
structure Emptying (e : Engine) (pool : PoolId) (rest : List RegisterRecord) : Prop where
  sound : e.Sound
  live : ∃ t, e.pools.live[pool]? = some t
  serves : e.store.serves pool = .ok true
  stored : ∀ r ∈ rest, e.store.registers[r.key]? = some r
  left : ∀ r, e.store.registers[r.key]? = some r → r.pool = .ok pool → r ∈ rest
  leaving : ∀ r ∈ rest, r.pool = .ok pool →
    r.deleting = true ∧ ∃ key, r.named? = some key ∧ key ≠ ""
  named : ∀ (i : Nat) (a : Allocation), e.Holds pool i a →
    ∃ r ∈ rest, r.pool = .ok pool ∧ r.named? = some a.key

namespace Emptying

/-- The visit of a register of the pool takes the register and its key out. -/
theorem visit_own (h : e.Emptying pool (r :: rest)) (hnew : ∀ r' ∈ rest, r.key ≠ r'.key)
    (hpool : r.pool = .ok pool) : (e.reconcileRegister r).2.Emptying pool rest := by
  have hv := registerVisit_cases h.sound r
  obtain ⟨hleaves, key, hname, hkey⟩ := h.leaving r List.mem_cons_self hpool
  obtain ⟨t, hlive⟩ := h.live
  obtain ⟨herased, hlive', hheld⟩ := visit_leaving h.sound (h.stored r List.mem_cons_self) hpool
    hleaves (accept_ask h.serves hname hkey) hlive
  have hserves : (e.reconcileRegister r).2.store.serves pool = .ok true :=
    (serves_congr (by rw [hv.registries_eq h.sound])).trans h.serves
  refine ⟨hv.sound h.sound, hlive', hserves, fun r' hr' => ?_, fun r' hr' hpool' => ?_,
    fun r' hr' => h.leaving r' (List.mem_cons_of_mem _ hr'), fun i a ha => ?_⟩
  · rw [hv.of_ne (hnew r' hr').symm]
    exact h.stored r' (List.mem_cons_of_mem _ hr')
  · rw [herased, lookup_erase] at hr'
    split_ifs at hr' with hk
    refine (List.mem_cons.1 (h.left r' hr' hpool')).resolve_left ?_
    rintro rfl
    exact hk rfl
  · obtain ⟨ha, hne⟩ := hheld i a ha
    obtain ⟨r', hr', hpool', hname'⟩ := h.named i a ha
    refine ⟨r', (List.mem_cons.1 hr').resolve_left ?_, hpool', hname'⟩
    rintro rfl
    exact hne (Option.some.inj (hname'.symm.trans hname))

/-- The visit of a register of another pool changes nothing of this one. -/
theorem visit_other (h : e.Emptying pool (r :: rest)) (hnew : ∀ r' ∈ rest, r.key ≠ r'.key)
    (hpool : r.pool ≠ .ok pool) : (e.reconcileRegister r).2.Emptying pool rest := by
  have hv := registerVisit_cases h.sound r
  have hsame : SameAt e (e.reconcileRegister r).2 pool := hv.sameAt h.sound hpool
  have hrest : ∀ r' ∈ r :: rest, r'.pool = .ok pool → r' ∈ rest := by
    intro r' hr' hpool'
    refine (List.mem_cons.1 hr').resolve_left ?_
    rintro rfl
    exact hpool hpool'
  have hserves : (e.reconcileRegister r).2.store.serves pool = .ok true :=
    (serves_congr hsame.record).trans h.serves
  refine ⟨hv.sound h.sound, hsame.table ▸ h.live, hserves, fun r' hr' => ?_,
    fun r' hr' hpool' => ?_, fun r' hr' => h.leaving r' (List.mem_cons_of_mem _ hr'),
    fun i a ha => ?_⟩
  · rw [hv.of_ne (hnew r' hr').symm]
    exact h.stored r' (List.mem_cons_of_mem _ hr')
  · by_cases hk : r'.key = r.key
    · -- what is left of `r` itself refers to the pool that `r` refers to
      rw [hk] at hr'
      have heq := hv.of_stored (h.stored r List.mem_cons_self) hr'
      rw [heq] at hpool'
      exact absurd hpool' hpool
    · rw [hv.of_ne hk] at hr'
      exact hrest r' (h.left r' hr' hpool') hpool'
  · unfold Holds at ha
    rw [hsame.table] at ha
    obtain ⟨r', hr', hpool', hname'⟩ := h.named i a ha
    exact ⟨r', hrest r' hr' hpool', hpool', hname'⟩

theorem visit (h : e.Emptying pool (r :: rest)) (hnew : ∀ r' ∈ rest, r.key ≠ r'.key) :
    (e.reconcileRegister r).2.Emptying pool rest := by
  by_cases hpool : r.pool = .ok pool
  · exact h.visit_own hnew hpool
  · exact h.visit_other hnew hpool

/-- Once all registers of the pool were visited no key is left. -/
theorem entries_eq (h : e.Emptying pool []) (hlive : e.pools.live[pool]? = some t) :
    t.entries = [] := by
  refine List.eq_nil_iff_forall_not_mem.2 fun ⟨i, a⟩ hentry => ?_
  obtain ⟨r, hr, -⟩ := h.named i a ⟨t, hlive, SlotTable.mem_entries.1 hentry⟩
  cases hr

end Emptying

/-- The pool serves, all registers of it are to go and name a key, and each key of its table is
named by one of them. -/
structure Sweepable (e : Engine) (pool : PoolId) (t : SlotTable) : Prop where
  live : e.pools.live[pool]? = some t
  serves : e.store.serves pool = .ok true
  leaving : ∀ r ∈ e.store.registerList, r.pool = .ok pool →
    r.deleting = true ∧ r.named? ≠ none ∧ r.named? ≠ some ""
  named : ∀ x ∈ t.entries,
    ∃ r ∈ e.store.registerList, r.pool = .ok pool ∧ r.named? = some x.2.key

theorem Sweepable.emptying (h : e.Sweepable pool t) (hs : e.Sound) (hk : e.store.Keyed) :
    e.Emptying pool e.store.registerList := by
  refine ⟨hs, ⟨t, h.live⟩, h.serves, fun _ => hk.mem_registerList.1,
    fun _ hr _ => hk.mem_registerList.2 hr, fun r hr hpool => ?_, fun i a ha => ?_⟩
  · obtain ⟨hleaves, hnone, hempty⟩ := h.leaving r hr hpool
    obtain ⟨key, hkey⟩ := Option.ne_none_iff_exists'.1 hnone
    refine ⟨hleaves, key, hkey, ?_⟩
    rintro rfl
    exact hempty hkey
  · exact h.named (i, a) (SlotTable.mem_entries.2 ((holds_of_live h.live).1 ha))

/-- A registry is due midway if its deadline has come, or if its pool lost its last key to the
registers. -/
theorem due_midway (hs : e.Sound) (hlive : e.pools.live[pool]? = some t)
    (hempty : ∀ t', (e.midway schedule).engine.pools.live[pool]? = some t' → t'.entries = [])
    (hdue : schedule.deadline? pool = none ∨
      (∃ due ≤ now, schedule.deadline? pool = some due) ∨ (schedule.Positive ∧ t.entries ≠ [])) :
    (e.midway schedule).schedule.isDue pool now ((e.midway schedule).engine.paceLevel pool)
      = true := by
  unfold Schedule.isDue
  rcases hd : (e.midway schedule).schedule.deadlines[pool]? with _ | d
  · rfl
  · have hd' : schedule.deadlines[pool]? = some d := ((deadline_midway hs).1 hd).1
    simp only [Bool.or_eq_true, decide_eq_true_eq]
    unfold Schedule.deadline? at hdue
    rw [hd'] at hdue
    rcases hdue with hnone | ⟨due, hle, hsome⟩ | ⟨hpositive, hheld⟩
    · cases hnone
    · cases hsome
      exact .inl hle
    · -- the table changed, so that the level was set back
      refine .inr ?_
      rcases table_or_reset_midway hs schedule pool with htable | hreset
      · exact absurd (hempty t (htable.trans hlive)) hheld
      · rw [hreset]
        exact hpositive pool d hd'

theorem Sweepable.emptied (h : e.Sweepable pool t) (hs : e.Sound) (hk : e.store.Keyed)
    (schedule : Schedule) : (e.midway schedule).engine.Emptying pool [] :=
  visitRegisters_rest (P := fun e rest => e.Emptying pool rest) (fun _ _ _ hnew h => h.visit hnew)
    _ ⟨e, schedule, .zero, false⟩ (values_pairwise hk) (h.emptying hs hk)

/-- A pass that does not end early takes a registry whose pool its registers empty. -/
theorem Sweepable.gone (h : e.Sweepable pool t) (hs : e.Sound) (hk : e.store.Keyed)
    (hrecord : e.store.registries[pool]? = some record) (hleaves : record.deleting = true)
    (hdue : schedule.deadline? pool = none ∨
      (∃ due ≤ now, schedule.deadline? pool = some due) ∨ (schedule.Positive ∧ t.entries ≠ []))
    (hover : (e.pass policy schedule now).overflow = false) :
    (e.pass policy schedule now).Gone pool := by
  have hempty : ∀ t', (e.midway schedule).engine.pools.live[pool]? = some t' → t'.entries = [] :=
    fun _ => (h.emptied hs hk schedule).entries_eq
  have hmem : pool ∈ (e.midway schedule).engine.store.registryIds := by
    rw [mem_registryIds, registries_midway hs]
    exact ⟨record, hrecord⟩
  obtain ⟨answer, hvisited⟩ := Pass.exists_answer _ _ Std.ExtTreeMap.nodup_keys
    (sound_midway hs schedule) hover hmem (due_midway hs h.live hempty hdue)
  rcases deletion_of_answer hs hrecord hleaves hvisited with ⟨t', hlive, hheld, -⟩ | ⟨-, -, hgone⟩
  · exact absurd (hempty t' hlive) hheld
  · exact hgone

end Engine

/-- A registry that is marked for deletion is blocked in each pass that visits it while its pool
holds keys, and is gone as a whole after the first that finds none. If its pool serves, and all
registers of the pool are to go and name what it holds, one pass takes the registers and, unless it
ends early, the registry. -/
theorem deletion_of_pass {policy : PacePolicy} {store : Store} {cap : UInt32}
    {conflicts : ConflictPolicy} {past : List (System × Event)} {s : System}
    (hstore : store.Initial)
    (run : Run policy (fun _ _ => True) (.start store cap conflicts) past s) (now : Millis)
    {pool : PoolId} {record : RegistryRecord}
    (hrecord : s.engine.store.registries[pool]? = some record)
    (hleaves : record.deleting = true) :
    (∀ answer, (pool, answer) ∈ s.engine.answers policy s.schedule now →
      (∀ t, (s.engine.midway s.schedule).engine.pools.live[pool]? = some t → t.entries ≠ [] →
        (s.engine.pass policy s.schedule now).engine.pools.live[pool]? = some t ∧
        (s.engine.pass policy s.schedule now).engine.store.registries[pool]? = some record ∧
        (∃ delay, answer = .ok (.blocked t.entries.length delay)) ∧
        (s.engine.pass policy s.schedule now).stats.registriesBlocked =
          (s.engine.answers policy s.schedule now).countP fun x => Pass.blocks x.2) ∧
      ((∀ t, (s.engine.midway s.schedule).engine.pools.live[pool]? = some t → t.entries = []) →
        answer = .ok .deleted ∧ (s.engine.pass policy s.schedule now).Gone pool)) ∧
    ∀ t, s.engine.Sweepable pool t →
      (s.schedule.deadline? pool = none ∨ (∃ due ≤ now, s.schedule.deadline? pool = some due) ∨
        (1 ≤ cap ∧ t.entries ≠ [])) →
      (∀ r ∈ (s.engine.pass policy s.schedule now).engine.store.registerList,
        r.pool ≠ .ok pool) ∧
      ((s.engine.pass policy s.schedule now).overflow = false →
        (s.engine.pass policy s.schedule now).Gone pool) := by
  have hstart : (System.start store cap conflicts).engine.Sound :=
    Engine.sound_start store cap conflicts
  have hs : s.engine.Sound := run.sound hstart
  have hkeyed : s.engine.store.Keyed := run.keyed hstart hstore.keyed
  constructor
  · intro answer hvisited
    rcases Engine.deletion_of_answer hs hrecord hleaves hvisited with
      ⟨t, hlive, hheld, hanswer, hlive', hrecord'⟩ | ⟨hempty, hanswer, hgone⟩
    · refine ⟨fun t' ht' _ => ?_, fun hnone => absurd (hnone t hlive) hheld⟩
      cases hlive.symm.trans ht'
      exact ⟨hlive', hrecord', hanswer, Engine.blocked_pass _ _ _ _⟩
    · exact ⟨fun t ht hheld => absurd (hempty t ht) hheld, fun _ => ⟨hanswer, hgone⟩⟩
  · intro t hsweep hdue
    constructor
    · intro r hr hpool
      obtain ⟨k, hk⟩ := mem_values.1 hr
      have hkeyed' := (run.step (.pass now) trivial).keyed hstart hstore.keyed
      obtain rfl : r.key = k := hkeyed' k r hk
      have hregisters : (s.engine.pass policy s.schedule now).engine.store.registers =
          (s.engine.midway s.schedule).engine.store.registers := Engine.registers_pass hs _ _ _
      rw [hregisters] at hk
      cases (hsweep.emptied hs hkeyed s.schedule).left r hk hpool
    · refine hsweep.gone hs hkeyed hrecord hleaves ?_
      refine hdue.imp_right (.imp_right fun ⟨hcap, hheld⟩ => ⟨?_, hheld⟩)
      exact run.positive hstart (Pacer.cap_pos hcap) fun q d hd => by
        simp [System.start, Schedule.empty] at hd

namespace Teardown

def spec : RegistrySpec := ⟨some 1, some .firstAvailable, none, none⟩

def register : RegisterRecord :=
  ⟨⟨"net", "x"⟩, "ids", some ((∅ : Selector).insert "name" "a"), none, false, none⟩

/-- A pool with one key, which goes with its register. -/
def events (ids : PoolId) : List Event :=
  [.declare (.registryDeleting ids), .declare (.registerDeleting ⟨"net", "x"⟩), .pass 1,
    .declare (.register register), .pass 0, .declare (.registry ids spec)]

end Teardown

/-- The pool "net.ids" goes before its deadline, and "net.old" stays for the key that an operator
took. -/
theorem deletion_beside_blocked :
    ∃ (ids old : PoolId) (past : List (System × Event)) (s : System)
      (record record' : RegistryRecord) (t t' : SlotTable)
      (answer : Except ReconcileError RegistryOutcome),
      Store.empty.Initial ∧
        Run .standard (fun _ _ => True) (.start .empty 3 .keepExisting) past s ∧
        s.engine.store.registries[ids]? = some record ∧ record.deleting = true ∧
        s.engine.store.registries[old]? = some record' ∧ record'.deleting = true ∧
        s.engine.Sweepable ids t ∧ s.schedule.deadline? ids = some 1001 ∧ t.entries ≠ [] ∧
        (s.engine.pass .standard s.schedule 2).Gone ids ∧
        (old, answer) ∈ s.engine.answers .standard s.schedule 2 ∧
        (s.engine.midway s.schedule).engine.pools.live[old]? = some t' ∧ t'.entries ≠ [] ∧
        (s.engine.pass .standard s.schedule 2).engine.pools.live[old]? = some t' ∧
        (s.engine.pass .standard s.schedule 2).stats.registriesBlocked = 1 := by
  let ids : PoolId := ⟨"net", "ids", rfl, rfl⟩
  let old : PoolId := ⟨"net", "old", rfl, rfl⟩
  let events : List Event :=
    .declare (.registryDeleting old) :: .call (.allocate old "op" "k" none) ::
      .call (.initDeclared old) :: .declare (.registry old Teardown.spec) :: Teardown.events ids
  let s : System := (System.start .empty 3 .keepExisting).after .standard events
  let t : SlotTable := ⟨#[.held ⟨"a", "x", none⟩], 1, .firstAvailable⟩
  let t' : SlotTable := ⟨#[.held ⟨"k", "op", none⟩], 1, .firstAvailable⟩
  have hrun : Run .standard (fun _ _ => True) (.start .empty 3 .keepExisting) _ s :=
    run_after events fun _ _ => trivial
  have hids : s.engine.store.registries[ids]? =
      some ⟨ids, Teardown.spec, true, true, some ⟨1, 1, 0, ["a"]⟩⟩ := by decide +kernel
  have hold : s.engine.store.registries[old]? = some ⟨old, Teardown.spec, true, true, none⟩ := by
    decide +kernel
  have hsweep : s.engine.Sweepable ids t :=
    ⟨by decide +kernel, by decide +kernel, by decide +kernel, by decide +kernel⟩
  have hgone := ((deletion_of_pass (.inl rfl) hrun 2 hids rfl).2 t hsweep
    (.inr (.inr (by decide +kernel)))).2 (by decide +kernel)
  have hvisited : (old, .ok (.blocked 1 1000)) ∈ s.engine.answers .standard s.schedule 2 := by
    decide +kernel
  have hmidway : (s.engine.midway s.schedule).engine.pools.live[old]? = some t' := by
    decide +kernel
  have hblocked := ((deletion_of_pass (.inl rfl) hrun 2 hold rfl).1 _ hvisited).1 t' hmidway
    (by decide +kernel)
  exact ⟨ids, old, _, s, _, _, t, t', _, .inl rfl, hrun, hids, rfl, hold, rfl, hsweep,
    by decide +kernel, by decide +kernel, hgone, hvisited, hmidway, by decide +kernel,
    hblocked.1, hblocked.2.2.2.trans (by decide +kernel)⟩

/-- A registry stays, with its registers gone, when a failed visit before it has no deadline. -/
theorem sweep_cut_short :
    ¬ ∀ (policy : PacePolicy) (store : Store) (cap : UInt32) (conflicts : ConflictPolicy)
      (past : List (System × Event)) (s : System) (now : Millis) (pool : PoolId)
      (record : RegistryRecord) (t : SlotTable), store.Initial →
      Run policy (fun _ _ => True) (.start store cap conflicts) past s →
      s.engine.store.registries[pool]? = some record → record.deleting = true →
      s.engine.Sweepable pool t →
      (s.schedule.deadline? pool = none ∨ (∃ due ≤ now, s.schedule.deadline? pool = some due) ∨
        (1 ≤ cap ∧ t.entries ≠ [])) →
      (s.engine.pass policy s.schedule now).Gone pool := by
  intro h
  let policy : PacePolicy := { PacePolicy.standard with shortWait := .ofSeconds (2 ^ 63) }
  let ids : PoolId := ⟨"net", "ids", rfl, rfl⟩
  let unsized : PoolId := ⟨"net", "bad", rfl, rfl⟩
  let events : List Event :=
    .declare (.registry unsized ⟨none, none, none, none⟩) :: Teardown.events ids
  let s : System := (System.start .empty 3 .keepExisting).after policy events
  have hrun : Run policy (fun _ _ => True) (.start .empty 3 .keepExisting) _ s :=
    run_after events fun _ _ => trivial
  have hrecord : s.engine.store.registries[ids]? =
      some ⟨ids, Teardown.spec, true, true, some ⟨1, 1, 0, ["a"]⟩⟩ := by decide +kernel
  have hsweep : s.engine.Sweepable ids ⟨#[.held ⟨"a", "x", none⟩], 1, .firstAvailable⟩ :=
    ⟨by decide +kernel, by decide +kernel, by decide +kernel, by decide +kernel⟩
  have hgone := h policy .empty 3 .keepExisting _ s 2 _ _ _ (.inl rfl) hrun hrecord rfl hsweep
    (.inr (.inr (by decide +kernel)))
  have hstays : (s.engine.pass policy s.schedule 2).engine.store.registries[ids]? ≠ none := by
    decide +kernel
  exact hstays hgone.record

end IndexPools
