import IndexPools.Proofs.Answers
import IndexPools.Proofs.Failures

/-!
# Passes without a register

No operation looks at a register that it is not asked to reconcile. So if one register is taken out
of the store, the visits of all other records are answered the same, and lead to the same engine
but for that register (`reconcileRegister_without`, `reconcileRegistry_without`). If the visit of the
register itself fails, nothing changes in it; so the two passes, with the register and without, go
side by side from beginning to end, and differ in one failure that is counted
(`pass_without_failed`).
-/

namespace IndexPools

namespace Engine

/-- The engine after a register was taken out of the store. -/
def without (e : Engine) (k : RegisterKey) : Engine :=
  { e with store := { e.store with registers := e.store.registers.erase k } }

variable {e : Engine} {k : RegisterKey} {r : RegisterRecord}

theorem register_without (e : Engine) (k : RegisterKey) (q : Request) :
    (e.without k).register q = ((e.register q).1, (e.register q).2.without k) := by
  have haccept : (e.without k).accept q = e.accept q := rfl
  rw [register_eq, register_eq]
  rw [haccept]
  rcases e.accept q with err | key
  · rfl
  · have hpools : (e.without k).pools = e.pools := rfl
    dsimp only
    rw [hpools]
    rcases e.pools.onPool q.pool fun t => t.insert keyDigest key q.owner q.tags with
      _ | ⟨err | ⟨i, _ | _ | ⟨owner, tags⟩⟩, pools⟩
    · rfl
    · rfl
    · rfl
    · rfl
    · obtain ⟨store, pools, pacer, conflicts⟩ := e
      cases conflicts <;> rfl

theorem deregister_without (e : Engine) (k : RegisterKey) (q : Request) :
    (e.without k).deregister q = ((e.deregister q).1, (e.deregister q).2.without k) := by
  have haccept : (e.without k).accept q = e.accept q := rfl
  rw [deregister_eq, deregister_eq]
  rw [haccept]
  rcases e.accept q with err | key
  · rfl
  · have hpools : (e.without k).pools = e.pools := rfl
    dsimp only
    rw [hpools]
    rcases e.pools.onPool q.pool fun t => t.delete keyDigest key with _ | ⟨_ | _, pools⟩ <;> rfl

theorem registers_without_of_ne {a : RegisterKey} (ha : a ≠ k) :
    (e.without k).store.registers[a]? = e.store.registers[a]? :=
  (lookup_erase _ _ _).trans (if_neg ha.symm)

theorem settle_without (hr : r.key ≠ k) (i : Nat) :
    (e.without k).settle r i = ((e.settle r i).1, (e.settle r i).2.without k) := by
  unfold settle Store.setIndex Store.changeRegister
  rw [registers_without_of_ne hr]
  split_ifs
  · rfl
  · rcases e.store.registers[r.key]? with _ | r'
    · rfl
    · simp only [without, erase_insert hr]

theorem discard_without (hr : r.key ≠ k) :
    (e.without k).discard r = ((e.discard r).1, (e.discard r).2.without k) := by
  unfold discard Store.removeRegister
  rw [registers_without_of_ne hr]
  rcases e.store.registers[r.key]? with _ | r'
  · rfl
  · simp only [without, erase_erase]

/-- A register is reconciled without a look at any other. -/
theorem reconcileRegister_without (e : Engine) (hr : r.key ≠ k) :
    (e.without k).reconcileRegister r =
      ((e.reconcileRegister r).1, (e.reconcileRegister r).2.without k) := by
  rcases hpool : r.pool with err | pool
  · unfold reconcileRegister RegisterRecord.request
    rw [hpool]
  · rw [reconcileRegister_eq hpool, reconcileRegister_eq hpool, register_without,
      deregister_without]
    split_ifs
    · rcases e.deregister (r.ask pool) with ⟨err | ⟨⟩, e'⟩
      · rfl
      · exact discard_without hr
    · rcases e.register (r.ask pool) with ⟨err | i, e'⟩
      · rfl
      · exact settle_without hr i

theorem finishDeletion_without (e : Engine) (k : RegisterKey) (policy : PacePolicy)
    (pool : PoolId) : (e.without k).finishDeletion policy pool =
      ((e.finishDeletion policy pool).1, (e.finishDeletion policy pool).2.without k) := by
  have hsnapshot : (e.without k).snapshot pool = e.snapshot pool := rfl
  have hregistries : ((e.without k).deletePool pool).2.store.registries =
      (e.deletePool pool).2.store.registries := rfl
  unfold finishDeletion Store.removeRegistry
  dsimp only
  rw [hsnapshot, hregistries]
  split_ifs
  · rfl
  · rcases (e.deletePool pool).2.store.registries[pool]? with _ | record <;> rfl

theorem initDeclared_without (e : Engine) (k : RegisterKey) (pool : PoolId) :
    (e.without k).initDeclared pool =
      ((e.initDeclared pool).1, (e.initDeclared pool).2.without k) := by
  have hpools : (e.without k).pools = e.pools := rfl
  have hsize : (e.without k).store.size pool = e.store.size pool := rfl
  have hstrategy : (e.without k).store.strategy pool = e.store.strategy pool := rfl
  unfold initDeclared initPool
  rw [hpools, hsize, hstrategy]
  split_ifs
  · rfl
  · rcases e.store.size pool with err | capacity
    · rfl
    · rcases e.store.strategy pool with err | strategy
      · rfl
      · dsimp only
        rcases e.pools.init pool capacity strategy with ⟨err | created, pools⟩ <;> rfl

theorem mirrorStatus_without (e : Engine) (k : RegisterKey) (pool : PoolId)
    (recorded : Option RegistryStatus) :
    (e.without k).mirrorStatus pool recorded =
      (e.mirrorStatus pool recorded).map fun e' => e'.without k := by
  have hstatus : (e.without k).status pool = e.status pool := rfl
  have hregistries : (e.without k).store.registries = e.store.registries := rfl
  unfold mirrorStatus Store.setStatus Store.changeRegistry
  rw [hstatus, hregistries]
  split_ifs
  · rfl
  · rcases e.store.registries[pool]? with _ | record <;> rfl

/-- A registry is reconciled without a look at the registers. -/
theorem reconcileRegistry_without (e : Engine) (k : RegisterKey) (policy : PacePolicy)
    (pool : PoolId) : (e.without k).reconcileRegistry policy pool =
      ((e.reconcileRegistry policy pool).1, (e.reconcileRegistry policy pool).2.without k) := by
  have hrecord : (e.without k).store.registry pool = e.store.registry pool := rfl
  unfold reconcileRegistry
  rw [hrecord, finishDeletion_without, initDeclared_without]
  rcases e.store.registry pool with err | record
  · rfl
  · dsimp only
    split_ifs
    · rfl
    · rcases e.initDeclared pool with ⟨err | created, e'⟩
      · rfl
      · dsimp only
        rw [mirrorStatus_without]
        rcases e'.mirrorStatus pool record.status with err | e'' <;> rfl

theorem registerAnswersOf_without : ∀ (rs : List RegisterRecord) (e : Engine),
    (∀ r ∈ rs, r.key ≠ k) → registerAnswersOf rs (e.without k) = registerAnswersOf rs e
  | [], _, _ => rfl
  | r :: rs, e, h => by
    simp only [registerAnswersOf, reconcileRegister_without e (h r List.mem_cons_self)]
    rw [registerAnswersOf_without rs _ fun r' hr' => h r' (List.mem_cons_of_mem _ hr')]

end Engine

/-- Further visits of registers that failed. -/
def PassStats.addFailed (s : PassStats) (n : Nat) : PassStats :=
  { s with registersFailed := s.registersFailed + n }

namespace PassStats

theorem countRegister_addFailed (s : PassStats) (n : Nat)
    (answer : Except ReconcileError RegisterOutcome) :
    (s.addFailed n).countRegister answer = (s.countRegister answer).addFailed n := by
  rcases answer with err | ⟨i, _ | _⟩ | _
  · simp only [countRegister, addFailed, Nat.add_right_comm]
  · rfl
  · rfl
  · rfl

theorem countRegistry_addFailed (s : PassStats) (n : Nat)
    (answer : Except ReconcileError RegistryOutcome) :
    (s.addFailed n).countRegistry answer = (s.countRegistry answer).addFailed n := by
  rcases answer with err | _ | _ | _ <;> rfl

end PassStats

namespace Pass

/-- The second pass is the first without the register of key `k`, of which `n` visits failed. -/
structure Lacks (k : RegisterKey) (n : Nat) (p p' : Pass) : Prop where
  engine : p'.engine = p.engine.without k
  schedule : p'.schedule = p.schedule
  stats : p.stats = p'.stats.addFailed n
  overflow : p'.overflow = p.overflow

namespace Lacks

variable {k : RegisterKey} {n : Nat} {p p' : Pass} {policy : PacePolicy} {now : Millis}

theorem visitRegister (h : Lacks k n p p') {r : RegisterRecord} (hr : r.key ≠ k) :
    Lacks k n (p.visitRegister r) (p'.visitRegister r) := by
  have hvisit := p.engine.reconcileRegister_without hr
  refine ⟨?_, h.schedule, ?_, h.overflow⟩
  · simp only [Pass.visitRegister, h.engine, hvisit]
  · simp only [Pass.visitRegister, h.engine, hvisit, h.stats, PassStats.countRegister_addFailed]

theorem visitRegisters : ∀ (rs : List RegisterRecord) {p p' : Pass}, Lacks k n p p' →
    (∀ r ∈ rs, r.key ≠ k) → Lacks k n (Pass.visitRegisters rs p) (Pass.visitRegisters rs p')
  | [], _, _, h, _ => h
  | r :: rs, _, _, h, hne =>
    visitRegisters rs (h.visitRegister (hne r List.mem_cons_self))
      fun r' hr' => hne r' (List.mem_cons_of_mem _ hr')

/-- The visit that the second pass lacks fails and changes nothing. -/
theorem failed (h : Lacks k n p p') {r : RegisterRecord} {err : ReconcileError}
    (hvisit : p.engine.reconcileRegister r = (.error err, p.engine)) :
    Lacks k (n + 1) (p.visitRegister r) p' := by
  refine ⟨?_, h.schedule, ?_, h.overflow⟩
  · simp only [Pass.visitRegister, hvisit, h.engine]
  · simp only [Pass.visitRegister, hvisit, h.stats, PassStats.countRegister, PassStats.addFailed,
      Nat.add_assoc]

/-- The two passes go side by side up to the visit that fails, and from there on again. -/
theorem visitRegisters_failed {rs₁ rs₂ : List RegisterRecord} {r : RegisterRecord}
    {err : ReconcileError} (h : Lacks r.key n p p') (hne₁ : ∀ r' ∈ rs₁, r'.key ≠ r.key)
    (hne₂ : ∀ r' ∈ rs₂, r'.key ≠ r.key)
    (hvisit : (Pass.visitRegisters rs₁ p).engine.reconcileRegister r =
      (.error err, (Pass.visitRegisters rs₁ p).engine)) :
    Lacks r.key (n + 1) (Pass.visitRegisters (rs₁ ++ r :: rs₂) p)
      (Pass.visitRegisters (rs₁ ++ rs₂) p') := by
  rw [Engine.visitRegisters_append, Engine.visitRegisters_append]
  exact ((h.visitRegisters rs₁ hne₁).failed hvisit).visitRegisters rs₂ hne₂

theorem visitRegistry (h : Lacks k n p p') (pool : PoolId) :
    Lacks k n (p.visitRegistry policy now pool) (p'.visitRegistry policy now pool) := by
  have hvisit := p.engine.reconcileRegistry_without k policy pool
  have hlevel : ((p.engine.reconcileRegistry policy pool).2.without k).paceLevel pool =
      (p.engine.reconcileRegistry policy pool).2.paceLevel pool := rfl
  unfold Pass.visitRegistry
  simp only [h.engine, h.schedule, h.stats, h.overflow, hvisit, hlevel,
    PassStats.countRegistry_addFailed]
  split
  · exact ⟨rfl, rfl, rfl, rfl⟩
  · split
    · exact ⟨rfl, rfl, rfl, rfl⟩
    · exact ⟨rfl, rfl, rfl, rfl⟩

theorem visitRegistries : ∀ (pools : List PoolId) {p p' : Pass}, Lacks k n p p' →
    Lacks k n (Pass.visitRegistries policy now pools p) (Pass.visitRegistries policy now pools p') ∧
      answers policy now pools p' = answers policy now pools p
  | [], _, _, h => ⟨h, rfl⟩
  | pool :: pools, p, p', h => by
    have hvisit : Lacks k n (p.visitRegistry policy now pool) (p'.visitRegistry policy now pool) :=
      h.visitRegistry pool
    have hlevel : p'.engine.paceLevel pool = p.engine.paceLevel pool := by
      rw [h.engine]
      rfl
    have hanswer : (p'.engine.reconcileRegistry policy pool).1 =
        (p.engine.reconcileRegistry policy pool).1 := by
      rw [h.engine, Engine.reconcileRegistry_without]
    simp only [Pass.visitRegistries, answers, h.schedule, hlevel, hvisit.overflow, hanswer]
    split_ifs
    · exact ⟨hvisit, rfl⟩
    · obtain ⟨hrest, hanswers⟩ := visitRegistries pools hvisit
      exact ⟨hrest, congrArg _ hanswers⟩
    · exact visitRegistries pools h

end Lacks

end Pass

namespace Engine

variable {e : Engine} {r : RegisterRecord} {err : ReconcileError}

theorem registerList_without {rs₁ rs₂ : List RegisterRecord} (hk : e.store.Keyed)
    (hlist : e.store.registerList = rs₁ ++ r :: rs₂) :
    (e.without r.key).store.registerList = rs₁ ++ rs₂ := by
  obtain ⟨hne₁, hne₂⟩ := ne_of_split hk hlist
  have hkeep : ∀ rs : List RegisterRecord, (∀ r' ∈ rs, r'.key ≠ r.key) →
      (rs.filter fun r' => r'.key ≠ r.key) = rs := by
    intro rs hne
    exact List.filter_eq_self.2 fun r' hr' => decide_eq_true (hne r' hr')
  refine (values_erase hk r.key).trans ((congrArg _ hlist).trans ?_)
  rw [List.filter_append, List.filter_cons_of_neg (by simp), hkeep rs₁ hne₁, hkeep rs₂ hne₂]

/-- A register whose visit fails is left as it is, and without it a pass comes to the same midway,
with the same answers to the other registers. -/
theorem midway_without (hs : e.Sound) (hk : e.store.Keyed)
    (hfailed : (r, .error err) ∈ e.registerAnswers) (schedule : Schedule) :
    Pass.Lacks r.key 1 (e.midway schedule) ((e.without r.key).midway schedule) ∧
      (e.midway schedule).engine.store.registers[r.key]? = some r ∧
      ∃ before after, e.registerAnswers = before ++ (r, .error err) :: after ∧
        (e.without r.key).registerAnswers = before ++ after := by
  let p : Pass := ⟨e, schedule, .zero, false⟩
  let p' : Pass := ⟨e.without r.key, schedule, .zero, false⟩
  have hp : Pass.Lacks r.key 0 p p' := ⟨rfl, rfl, rfl, rfl⟩
  obtain ⟨rs₁, rs₂, hlist, herr⟩ := visit_of_registerAnswerOf _ p hfailed
  obtain ⟨hne₁, hne₂⟩ := ne_of_split hk hlist
  obtain ⟨hstored, hanswers, hleft⟩ := visit_of_split hs hk hlist schedule rfl
  have hlist' := registerList_without hk hlist
  have hvisit : (Pass.visitRegisters rs₁ p).engine.reconcileRegister r =
      (.error err, (Pass.visitRegisters rs₁ p).engine) := failure_of_stored hstored herr.symm
  refine ⟨?_, ?_, registerAnswersOf rs₁ e, registerAnswersOf rs₂ (Pass.visitRegisters rs₁ p).engine,
    ?_, ?_⟩
  · have hlacks := hp.visitRegisters_failed hne₁ hne₂ hvisit
    rw [← hlist, ← hlist'] at hlacks
    refine ⟨hlacks.engine, ?_, hlacks.stats, hlacks.overflow⟩
    unfold midway Schedule.retain
    simp only [hlacks.engine, hlacks.schedule, p, p']
    rfl
  · rw [hleft, hvisit]
    exact hstored
  · rw [hanswers]
    simp only [registerAnswersOf, hvisit, p]
  · unfold registerAnswers
    rw [hlist']
    refine (registerAnswersOf_without _ e ?_).trans (registerAnswersOf_append rs₁ rs₂ p)
    intro r' hr'
    exact (List.mem_append.1 hr').elim (hne₁ r') (hne₂ r')

/-- The registry phases go side by side as well. -/
theorem pass_without (hs : e.Sound) (hk : e.store.Keyed)
    (hfailed : (r, .error err) ∈ e.registerAnswers) (policy : PacePolicy) (schedule : Schedule)
    (now : Millis) :
    Pass.Lacks r.key 1 (e.pass policy schedule now) ((e.without r.key).pass policy schedule now) ∧
      (e.without r.key).answers policy schedule now = e.answers policy schedule now := by
  have hmidway := (midway_without hs hk hfailed schedule).1
  have hids : ((e.without r.key).midway schedule).engine.store.registryIds =
      (e.midway schedule).engine.store.registryIds := by
    rw [hmidway.engine]
    rfl
  unfold answers
  rw [pass_eq, pass_eq, hids]
  exact hmidway.visitRegistries _

end Engine

/-- A pass without a register whose visit fails comes to the same, but for that register and the
failure that is counted; and all other visits are answered the same. -/
theorem pass_without_failed {policy : PacePolicy} {store : Store} {cap : UInt32}
    {conflicts : ConflictPolicy} {past : List (System × Event)} {s : System}
    (hstore : store.Initial)
    (run : Run policy (fun _ _ => True) (.start store cap conflicts) past s) (schedule : Schedule)
    (now : Millis) {r : RegisterRecord} {err : ReconcileError}
    (hfailed : (r, .error err) ∈ s.engine.registerAnswers) :
    let e := s.engine.without r.key
    let p := s.engine.pass policy schedule now
    let p' := e.pass policy schedule now
    s.engine.store.removeRegister r.key = .ok e.store ∧
      p'.engine = p.engine.without r.key ∧
      p.engine.store.registers[r.key]? = some r ∧
      p'.schedule = p.schedule ∧
      p.stats = { p'.stats with registersFailed := p'.stats.registersFailed + 1 } ∧
      p'.overflow = p.overflow ∧
      (∃ before after, s.engine.registerAnswers = before ++ (r, .error err) :: after ∧
        e.registerAnswers = before ++ after) ∧
      e.answers policy schedule now = s.engine.answers policy schedule now := by
  have hstart : (System.start store cap conflicts).engine.Sound :=
    Engine.sound_start store cap conflicts
  have hs : s.engine.Sound := run.sound hstart
  have hk : s.engine.store.Keyed := run.keyed hstart hstore.keyed
  obtain ⟨-, hstays, hregisters⟩ := Engine.midway_without hs hk hfailed schedule
  obtain ⟨hpass, hregistries⟩ := Engine.pass_without hs hk hfailed policy schedule now
  obtain ⟨rs₁, rs₂, hlist, -⟩ :=
    Engine.visit_of_registerAnswerOf _ ⟨s.engine, schedule, .zero, false⟩ hfailed
  have hstored : s.engine.store.registers[r.key]? = some r :=
    hk.mem_registerList.1 (hlist ▸ List.mem_append_right _ List.mem_cons_self)
  refine ⟨?_, hpass.engine, ?_, hpass.schedule, hpass.stats, hpass.overflow, hregisters,
    hregistries⟩
  · unfold Store.removeRegister
    rw [hstored]
    rfl
  · rw [Engine.registers_pass hs]
    exact hstays

/-- The register in the middle finds its pool full. -/
theorem pass_without_exhausted :
    ∃ (past : List (System × Event)) (s : System) (b : RegisterRecord) (err : ReconcileError),
      Run .standard (fun _ _ => True) (.start .empty 3 .keepExisting) past s ∧
        (b, .error err) ∈ s.engine.registerAnswers ∧
        (s.engine.pass .standard s.schedule 1).stats = ⟨2, 0, 1, 2, 0, 0, 0⟩ ∧
        ((s.engine.without b.key).pass .standard s.schedule 1).stats = ⟨2, 0, 0, 2, 0, 0, 0⟩ ∧
        ((s.engine.without b.key).pass .standard s.schedule 1).engine =
          (s.engine.pass .standard s.schedule 1).engine.without b.key := by
  let ids : PoolId := ⟨"net", "ids", rfl, rfl⟩
  let old : PoolId := ⟨"net", "old", rfl, rfl⟩
  let spec : RegistrySpec := ⟨some 1, some .firstAvailable, none, none⟩
  let b : RegisterRecord := .naming "net" "b" "ids" "b"
  let events : List Event :=
    [.declare (.register (.naming "net" "c" "old" "c")), .declare (.register b),
      .declare (.register (.naming "net" "a" "ids" "a")), .pass 0, .declare (.registry old spec),
      .declare (.registry ids spec)]
  let s : System := (System.start .empty 3 .keepExisting).after .standard events
  have hrun : Run .standard (fun _ _ => True) (.start .empty 3 .keepExisting) _ s :=
    run_after events fun _ _ => trivial
  have hfailed : (b, .error (.request (.poolExhausted ids 1))) ∈ s.engine.registerAnswers := by
    decide +kernel
  obtain ⟨-, hengine, -⟩ :=
    pass_without_failed (.inl rfl) hrun s.schedule 1 hfailed
  have hpass : (s.engine.pass .standard s.schedule 1).stats = ⟨2, 0, 1, 2, 0, 0, 0⟩ := by
    decide +kernel
  refine ⟨_, s, b, _, hrun, hfailed, hpass, ?_, hengine⟩
  decide +kernel

end IndexPools
