import IndexPools.Proofs.Mirror

/-!
# The answers of a pass

A pass visits its registers as they are stored, each after those that stand before it
(`visit_of_split`), and turns to its registries then (`Engine.midway`). It visits each registry at
most once, as it stands then, and leaves it alone afterwards (`visit_of_answer`), and unless the
pass ends early it visits every registry that is due (`exists_answer`). What it counts of registries
it counts of their answers (`stats_visitRegistries`). No deadline is recorded at level 0, in any run
with a positive cap (`Run.positive`).
-/

namespace IndexPools

namespace Pass

/-- Two passes with the same record, table, level and deadline of one pool. -/
structure SameAt (p p' : Pass) (q : PoolId) : Prop where
  engine : p.engine.SameAt p'.engine q
  deadline : p'.schedule.deadlines[q]? = p.schedule.deadlines[q]?

/-- The registries that are visited, in order, with the answers of their visits. -/
def answers (policy : PacePolicy) (now : Millis) :
    List PoolId → Pass → List (PoolId × Except ReconcileError RegistryOutcome)
  | [], _ => []
  | pool :: pools, p =>
    if p.schedule.isDue pool now (p.engine.paceLevel pool) then
      let p' := p.visitRegistry policy now pool
      (pool, (p.engine.reconcileRegistry policy pool).1) ::
        if p'.overflow then [] else answers policy now pools p'
    else answers policy now pools p

variable {policy : PacePolicy} {now : Millis} {p p' : Pass} {pool q : PoolId}
  {answer : Except ReconcileError RegistryOutcome}

theorem SameAt.refl (p : Pass) (q : PoolId) : p.SameAt p q := ⟨⟨rfl, rfl, rfl⟩, rfl⟩

theorem SameAt.trans {p₁ p₂ p₃ : Pass} (h : p₁.SameAt p₂ q) (h' : p₂.SameAt p₃ q) :
    p₁.SameAt p₃ q :=
  ⟨h.engine.trans h'.engine, h'.deadline.trans h.deadline⟩

theorem SameAt.isDue (h : p.SameAt p' q) :
    p'.schedule.isDue q now (p'.engine.paceLevel q) =
      p.schedule.isDue q now (p.engine.paceLevel q) := by
  unfold Schedule.isDue
  rw [h.deadline, h.engine.paceLevel_eq]

theorem sound_visitRegistry (hs : p.engine.Sound) (policy : PacePolicy) (now : Millis)
    (pool : PoolId) : (p.visitRegistry policy now pool).engine.Sound := by
  rw [Engine.engine_visitRegistry]
  exact (Engine.registryVisit_cases hs policy pool).sound hs

theorem sameAt_visitRegistry (hs : p.engine.Sound) (hq : pool ≠ q) :
    p.SameAt (p.visitRegistry policy now pool) q := by
  constructor
  · rw [Engine.engine_visitRegistry]
    exact (Engine.registryVisit_cases hs policy pool).sameAt hq
  · unfold visitRegistry
    dsimp only
    split
    · exact (lookup_erase _ _ _).trans (if_neg hq)
    · split
      · rfl
      · exact (lookup_insert _ _ _ _).trans (if_neg hq)

theorem sameAt_visitRegistries : ∀ (pools : List PoolId) (p : Pass), p.engine.Sound → q ∉ pools →
    p.SameAt (visitRegistries policy now pools p) q
  | [], p, _, _ => .refl p q
  | pool :: pools, p, hs, hq => by
    have hpools : q ∉ pools := List.not_mem_of_not_mem_cons hq
    have hvisit : p.SameAt (p.visitRegistry policy now pool) q :=
      sameAt_visitRegistry hs (List.ne_of_not_mem_cons hq).symm
    have hs' := sound_visitRegistry hs policy now pool
    simp only [visitRegistries]
    split_ifs
    · exact hvisit
    · exact hvisit.trans (sameAt_visitRegistries pools _ hs' hpools)
    · exact sameAt_visitRegistries pools p hs hpools

theorem mem_of_answer : ∀ {pools : List PoolId} {p : Pass},
    (pool, answer) ∈ answers policy now pools p → pool ∈ pools
  | [], _, h => nomatch h
  | q :: pools, p, h => by
    simp only [answers] at h
    split_ifs at h with hdue hlast
    · cases List.mem_singleton.1 h
      exact List.mem_cons_self
    · rcases List.mem_cons.1 h with hq | hq
      · cases hq
        exact List.mem_cons_self
      · exact List.mem_cons_of_mem _ (mem_of_answer hq)
    · exact List.mem_cons_of_mem _ (mem_of_answer h)

/-- A registry that is visited is as it was at first, and is left as its visit leaves it. -/
theorem visit_of_answer : ∀ (pools : List PoolId) (p : Pass), pools.Nodup → p.engine.Sound →
    (pool, answer) ∈ answers policy now pools p →
    ∃ p' : Pass, p'.engine.Sound ∧ p.SameAt p' pool ∧
      answer = (p'.engine.reconcileRegistry policy pool).1 ∧
      (p'.visitRegistry policy now pool).SameAt (visitRegistries policy now pools p) pool
  | [], _, _, _, h => nomatch h
  | q :: pools, p, hdistinct, hs, h => by
    obtain ⟨hnew, hrest⟩ := List.nodup_cons.1 hdistinct
    have hs' := sound_visitRegistry hs policy now q
    simp only [answers] at h
    simp only [visitRegistries]
    split_ifs at h ⊢ with hdue hlast
    · cases List.mem_singleton.1 h
      exact ⟨p, hs, .refl p pool, rfl, .refl _ pool⟩
    · rcases List.mem_cons.1 h with hq | hq
      · cases hq
        exact ⟨p, hs, .refl p pool, rfl, sameAt_visitRegistries pools _ hs' hnew⟩
      · have hne : q ≠ pool := fun e => hnew (e ▸ mem_of_answer hq)
        obtain ⟨p', hsound, hbefore, hanswer, hafter⟩ := visit_of_answer pools _ hrest hs' hq
        exact ⟨p', hsound, (sameAt_visitRegistry hs hne).trans hbefore, hanswer, hafter⟩
    · exact visit_of_answer pools p hrest hs h

/-- A pass that does not end early visits what is due. -/
theorem exists_answer : ∀ (pools : List PoolId) (p : Pass), pools.Nodup → p.engine.Sound →
    (visitRegistries policy now pools p).overflow = false → pool ∈ pools →
    p.schedule.isDue pool now (p.engine.paceLevel pool) = true →
    ∃ answer, (pool, answer) ∈ answers policy now pools p
  | [], _, _, _, _, h, _ => nomatch h
  | q :: pools, p, hdistinct, hs, hover, hmem, hdue => by
    obtain ⟨hnew, hrest⟩ := List.nodup_cons.1 hdistinct
    simp only [visitRegistries] at hover
    simp only [answers]
    by_cases hq : q = pool
    · subst hq
      rw [if_pos hdue]
      exact ⟨_, List.mem_cons_self⟩
    · have hmem' : pool ∈ pools := (List.mem_cons.1 hmem).resolve_left (Ne.symm hq)
      have hsame : p.SameAt (p.visitRegistry policy now q) pool := sameAt_visitRegistry hs hq
      split_ifs at hover ⊢ with hdueq hlast
      · exact absurd hlast (by simp [hover])
      · obtain ⟨answer, ha⟩ := exists_answer pools _ hrest (sound_visitRegistry hs policy now q)
          hover hmem' (hsame.isDue.trans hdue)
        exact ⟨answer, List.mem_cons_of_mem _ ha⟩
      · exact exists_answer pools p hrest hs hover hmem' hdue

/-- Nothing is visited but what was due at first. -/
theorem due_of_answer : ∀ (pools : List PoolId) (p : Pass), pools.Nodup → p.engine.Sound →
    (pool, answer) ∈ answers policy now pools p →
    p.schedule.isDue pool now (p.engine.paceLevel pool) = true
  | [], _, _, _, h => nomatch h
  | q :: pools, p, hdistinct, hs, h => by
    obtain ⟨hnew, hrest⟩ := List.nodup_cons.1 hdistinct
    simp only [answers] at h
    split_ifs at h with hdue hlast
    · cases List.mem_singleton.1 h
      exact hdue
    · rcases List.mem_cons.1 h with hq | hq
      · cases hq
        exact hdue
      · have hne : q ≠ pool := fun e => hnew (e ▸ mem_of_answer hq)
        rw [← (sameAt_visitRegistry hs hne).isDue]
        exact due_of_answer pools _ hrest (sound_visitRegistry hs policy now q) hq
    · exact due_of_answer pools p hrest hs h

theorem stats_visitRegistry (policy : PacePolicy) (now : Millis) (p : Pass) (pool : PoolId) :
    (p.visitRegistry policy now pool).stats =
      p.stats.countRegistry (p.engine.reconcileRegistry policy pool).1 := by
  unfold visitRegistry
  dsimp only
  split
  · rfl
  · split <;> rfl

theorem stats_visitRegistries : ∀ (pools : List PoolId) (p : Pass),
    (visitRegistries policy now pools p).stats =
      (answers policy now pools p).foldl (fun stats x => stats.countRegistry x.2) p.stats
  | [], _ => rfl
  | pool :: pools, p => by
    simp only [visitRegistries, answers]
    split_ifs with hdue hlast
    · exact stats_visitRegistry policy now p pool
    · rw [stats_visitRegistries pools, List.foldl_cons, stats_visitRegistry]
    · exact stats_visitRegistries pools p

end Pass

/-- No deadline is recorded at level 0. -/
def Schedule.Positive (s : Schedule) : Prop :=
  ∀ (q : PoolId) (d : Deadline), s.deadlines[q]? = some d → 0 < d.level.value

namespace Pass

variable {policy : PacePolicy} {now : Millis} {p : Pass} {pool : PoolId}

theorem positive_visitRegistry (hs : p.engine.Sound) (hcap : 0 < p.engine.pacer.cap)
    (hstored : ∃ record, p.engine.store.registries[pool]? = some record)
    (h : p.schedule.Positive) : (p.visitRegistry policy now pool).schedule.Positive := by
  have hlevel := ((Engine.registryVisit_cases hs policy pool).visited hs hcap hstored).2
  intro q d hd
  rcases deadlines_visitRegistry q d hd with ⟨-, hd'⟩ | ⟨-, hrequeue, hdlevel⟩
  · exact h q d hd'
  · rw [hdlevel]
    exact (hlevel hrequeue).2

theorem positive_visitRegistries : ∀ (pools : List PoolId) (p : Pass), pools.Nodup →
    p.engine.Sound → 0 < p.engine.pacer.cap →
    (∀ q ∈ pools, ∃ record, p.engine.store.registries[q]? = some record) → p.schedule.Positive →
    (visitRegistries policy now pools p).schedule.Positive
  | [], _, _, _, _, _, h => h
  | pool :: pools, p, hdistinct, hs, hcap, hstored, h => by
    obtain ⟨hnew, hrest⟩ := List.nodup_cons.1 hdistinct
    have hvisit : (p.visitRegistry policy now pool).schedule.Positive :=
      positive_visitRegistry hs hcap (hstored pool List.mem_cons_self) h
    have hcap' : 0 < (p.visitRegistry policy now pool).engine.pacer.cap := by
      rw [Engine.engine_visitRegistry, (Engine.registryVisit_cases hs policy pool).cap_eq]
      exact hcap
    have hstored' : ∀ q ∈ pools,
        ∃ record, (p.visitRegistry policy now pool).engine.store.registries[q]? = some record := by
      intro q hq
      have hne : pool ≠ q := fun e => hnew (e ▸ hq)
      have hsame : p.SameAt (p.visitRegistry policy now pool) q := sameAt_visitRegistry hs hne
      rw [hsame.engine.record]
      exact hstored q (List.mem_cons_of_mem _ hq)
    simp only [visitRegistries]
    split_ifs
    · exact hvisit
    · exact positive_visitRegistries pools _ hrest (sound_visitRegistry hs policy now pool) hcap'
        hstored' hvisit
    · exact positive_visitRegistries pools p hrest hs hcap
        (fun q hq => hstored q (List.mem_cons_of_mem _ hq)) h

end Pass

/-- Registries are counted apart from registers. -/
theorem PassStats.registers_countRegistry (stats : PassStats)
    (answer : Except ReconcileError RegistryOutcome) :
    (stats.countRegistry answer).registersAllocated = stats.registersAllocated ∧
      (stats.countRegistry answer).registersReleased = stats.registersReleased ∧
      (stats.countRegistry answer).registersFailed = stats.registersFailed := by
  rcases answer with err | (_ | _ | _) <;> exact ⟨rfl, rfl, rfl⟩

theorem PassStats.registries_countRegister (stats : PassStats)
    (answer : Except ReconcileError RegisterOutcome) :
    (stats.countRegister answer).registriesSynced = stats.registriesSynced ∧
      (stats.countRegister answer).registriesBlocked = stats.registriesBlocked ∧
      (stats.countRegister answer).registriesDeleted = stats.registriesDeleted ∧
      (stats.countRegister answer).registriesFailed = stats.registriesFailed := by
  rcases answer with err | (⟨_, _ | _⟩ | _) <;> exact ⟨rfl, rfl, rfl, rfl⟩

/-- What every step raises by one at the elements with `p` counts these. -/
theorem count_foldl {σ α : Type} {step : σ → α → σ} (count : σ → Nat) {p : α → Bool}
    (hstep : ∀ s x, count (step s x) = count s + if p x then 1 else 0) :
    ∀ (xs : List α) (s : σ), count (xs.foldl step s) = count s + xs.countP p
  | [], _ => rfl
  | x :: xs, s => by
    rw [List.foldl_cons, count_foldl count hstep xs, hstep, List.countP_cons]
    omega

namespace Engine

variable {e : Engine}

/-- A pass between its registers and its registries. -/
def midway (e : Engine) (schedule : Schedule) : Pass :=
  let p := Pass.visitRegisters e.store.registerList ⟨e, schedule, .zero, false⟩
  { p with schedule := p.schedule.retain p.engine.store }

/-- The registries that a pass visits, with the answers. -/
def answers (e : Engine) (policy : PacePolicy) (schedule : Schedule) (now : Millis) :
    List (PoolId × Except ReconcileError RegistryOutcome) :=
  Pass.answers policy now (e.midway schedule).engine.store.registryIds (e.midway schedule)

/-- The visits of registers, with their answers. -/
def registerAnswersOf : List RegisterRecord → Engine →
    List (RegisterRecord × Except ReconcileError RegisterOutcome)
  | [], _ => []
  | r :: rs, e => (r, (e.reconcileRegister r).1) :: registerAnswersOf rs (e.reconcileRegister r).2

/-- The registers that a pass visits, with the answers. -/
def registerAnswers (e : Engine) : List (RegisterRecord × Except ReconcileError RegisterOutcome) :=
  registerAnswersOf e.store.registerList e

theorem visitRegisters_append : ∀ (rs₁ rs₂ : List RegisterRecord) (p : Pass),
    Pass.visitRegisters (rs₁ ++ rs₂) p = Pass.visitRegisters rs₂ (Pass.visitRegisters rs₁ p)
  | [], _, _ => rfl
  | r :: rs₁, rs₂, p => visitRegisters_append rs₁ rs₂ (p.visitRegister r)

theorem registerAnswersOf_append : ∀ (rs₁ rs₂ : List RegisterRecord) (p : Pass),
    registerAnswersOf (rs₁ ++ rs₂) p.engine = registerAnswersOf rs₁ p.engine ++
      registerAnswersOf rs₂ (Pass.visitRegisters rs₁ p).engine
  | [], _, _ => rfl
  | r :: rs₁, rs₂, p => congrArg _ (registerAnswersOf_append rs₁ rs₂ (p.visitRegister r))

theorem visit_of_registerAnswerOf {r : RegisterRecord}
    {answer : Except ReconcileError RegisterOutcome} :
    ∀ (rs : List RegisterRecord) (p : Pass), (r, answer) ∈ registerAnswersOf rs p.engine →
      ∃ rs₁ rs₂, rs = rs₁ ++ r :: rs₂ ∧
        answer = ((Pass.visitRegisters rs₁ p).engine.reconcileRegister r).1
  | [], _, h => nomatch h
  | q :: rs, p, h => by
    rcases List.mem_cons.1 h with hq | hq
    · cases hq
      exact ⟨[], rs, rfl, rfl⟩
    · obtain ⟨rs₁, rs₂, rfl, hanswer⟩ := visit_of_registerAnswerOf rs (p.visitRegister q) hq
      exact ⟨q :: rs₁, rs₂, rfl, hanswer⟩

/-- The visits of other registers leave a register as it is. -/
theorem register_visitRegisters {rs : List RegisterRecord} {k : RegisterKey} (p : Pass)
    (hs : p.engine.Sound) (hne : ∀ r ∈ rs, r.key ≠ k) :
    (Pass.visitRegisters rs p).engine.store.registers[k]? = p.engine.store.registers[k]? := by
  refine (visitRegisters_stable_of_mem (P := fun e₁ =>
    e₁.Sound ∧ e₁.store.registers[k]? = p.engine.store.registers[k]?) rs p
    (fun e₁ r hr ⟨h₁, hsame⟩ => ?_) ⟨hs, rfl⟩).2
  have hv := registerVisit_cases h₁ r
  exact ⟨hv.sound h₁, (hv.of_ne (hne r hr).symm).trans hsame⟩

section Split

variable {rs₁ rs₂ : List RegisterRecord} {r : RegisterRecord}

theorem ne_of_split (hk : e.store.Keyed) (hlist : e.store.registerList = rs₁ ++ r :: rs₂) :
    (∀ r' ∈ rs₁, r'.key ≠ r.key) ∧ ∀ r' ∈ rs₂, r'.key ≠ r.key := by
  have hdistinct : (rs₁ ++ r :: rs₂).Pairwise fun v w => v.key ≠ w.key := hlist ▸ values_pairwise hk
  obtain ⟨-, hrest, hbefore⟩ := List.pairwise_append.1 hdistinct
  exact ⟨fun r' hr' => hbefore r' hr' r List.mem_cons_self,
    fun r' hr' => ((List.pairwise_cons.1 hrest).1 r' hr').symm⟩

/-- A register is visited as it is stored, after the registers that stand before it, and is left as
its visit leaves it. -/
theorem visit_of_split (hs : e.Sound) (hk : e.store.Keyed)
    (hlist : e.store.registerList = rs₁ ++ r :: rs₂) (schedule : Schedule) {p : Pass}
    (hp : p = Pass.visitRegisters rs₁ ⟨e, schedule, .zero, false⟩) :
    p.engine.store.registers[r.key]? = some r ∧
      e.registerAnswers = registerAnswersOf rs₁ e ++ registerAnswersOf (r :: rs₂) p.engine ∧
      (e.midway schedule).engine.store.registers[r.key]? =
        (p.engine.reconcileRegister r).2.store.registers[r.key]? := by
  let p₀ : Pass := ⟨e, schedule, .zero, false⟩
  obtain ⟨hne₁, hne₂⟩ := ne_of_split hk hlist
  have hstored : e.store.registers[r.key]? = some r :=
    hk.mem_registerList.1 (hlist ▸ List.mem_append_right _ List.mem_cons_self)
  have hsound : (Pass.visitRegisters (rs₁ ++ [r]) p₀).engine.Sound :=
    visitRegisters_stable (P := Sound) (fun _ r' h => (registerVisit_cases h r').sound h) _ p₀ hs
  rw [visitRegisters_append] at hsound
  subst hp
  refine ⟨(register_visitRegisters p₀ hs hne₁).trans hstored, ?_, ?_⟩
  · unfold registerAnswers
    rw [hlist]
    exact registerAnswersOf_append rs₁ (r :: rs₂) p₀
  · have hphase : (e.midway schedule).engine =
        (Pass.visitRegisters rs₂ ((Pass.visitRegisters rs₁ p₀).visitRegister r)).engine := by
      unfold midway
      rw [hlist, visitRegisters_append]
      rfl
    rw [hphase]
    exact register_visitRegisters _ hsound hne₂

end Split

theorem pass_eq (e : Engine) (policy : PacePolicy) (schedule : Schedule) (now : Millis) :
    e.pass policy schedule now =
      Pass.visitRegistries policy now (e.midway schedule).engine.store.registryIds
        (e.midway schedule) :=
  rfl

theorem stats_visitRegisters : ∀ (rs : List RegisterRecord) (p : Pass),
    (Pass.visitRegisters rs p).stats =
      (registerAnswersOf rs p.engine).foldl (fun stats x => stats.countRegister x.2) p.stats
  | [], _ => rfl
  | r :: rs, p => stats_visitRegisters rs (p.visitRegister r)

theorem stats_midway (e : Engine) (schedule : Schedule) :
    (e.midway schedule).stats =
      e.registerAnswers.foldl (fun stats x => stats.countRegister x.2) .zero :=
  stats_visitRegisters _ ⟨e, schedule, .zero, false⟩

/-- A counter that goes up by one with certain answers of registers is the number of these. -/
theorem count_registerAnswers (count : PassStats → Nat)
    {p : Except ReconcileError RegisterOutcome → Bool} (hzero : count .zero = 0)
    (hregister : ∀ stats answer,
      count (stats.countRegister answer) = count stats + if p answer then 1 else 0)
    (hregistry : ∀ stats answer, count (stats.countRegistry answer) = count stats)
    (e : Engine) (policy : PacePolicy) (schedule : Schedule) (now : Millis) :
    count (e.pass policy schedule now).stats = e.registerAnswers.countP fun x => p x.2 := by
  have hrest : ∀ (xs : List (PoolId × Except ReconcileError RegistryOutcome)) (stats : PassStats),
      count (xs.foldl (fun stats x => stats.countRegistry x.2) stats) =
        count stats + xs.countP fun _ => false :=
    count_foldl count fun stats x => hregistry stats x.2
  rw [pass_eq, Pass.stats_visitRegistries, hrest, List.countP_false, stats_midway,
    count_foldl count fun stats x => hregister stats x.2, hzero, Nat.zero_add]
  rfl

/-- A counter that goes up by one with certain answers of registries is the number of these. -/
theorem count_answers (count : PassStats → Nat)
    {q : Except ReconcileError RegistryOutcome → Bool} (hzero : count .zero = 0)
    (hregister : ∀ stats answer, count (stats.countRegister answer) = count stats)
    (hregistry : ∀ stats answer,
      count (stats.countRegistry answer) = count stats + if q answer then 1 else 0)
    (e : Engine) (policy : PacePolicy) (schedule : Schedule) (now : Millis) :
    count (e.pass policy schedule now).stats =
      (e.answers policy schedule now).countP fun x => q x.2 := by
  have hbefore : ∀ (xs : List (RegisterRecord × Except ReconcileError RegisterOutcome))
      (stats : PassStats), count (xs.foldl (fun stats x => stats.countRegister x.2) stats) =
        count stats + xs.countP fun _ => false :=
    count_foldl count fun stats x => hregister stats x.2
  rw [pass_eq, Pass.stats_visitRegistries, count_foldl count fun stats x => hregistry stats x.2,
    stats_midway, hbefore, List.countP_false, hzero]
  exact Nat.zero_add _

/-- What passes through the visits of registers holds midway. -/
theorem midway_stable {P : Engine → Prop} (hs : e.Sound) (schedule : Schedule) (h : P e)
    (hstep : ∀ (e₁ : Engine) (r : RegisterRecord), e₁.Sound → P e₁ → P (e₁.reconcileRegister r).2) :
    (e.midway schedule).engine.Sound ∧ P (e.midway schedule).engine :=
  visitRegisters_stable (P := fun e₁ => e₁.Sound ∧ P e₁)
    (fun e₁ r ⟨h₁, hP⟩ => ⟨(registerVisit_cases h₁ r).sound h₁, hstep e₁ r h₁ hP⟩) _
    ⟨e, schedule, .zero, false⟩ ⟨hs, h⟩

theorem sound_midway (hs : e.Sound) (schedule : Schedule) : (e.midway schedule).engine.Sound :=
  (midway_stable (P := fun _ => True) hs schedule trivial fun _ _ _ _ => trivial).1

theorem cap_midway (hs : e.Sound) (schedule : Schedule) :
    (e.midway schedule).engine.pacer.cap = e.pacer.cap :=
  (midway_stable (P := fun e₁ => e₁.pacer.cap = e.pacer.cap) hs schedule rfl fun _ r h₁ hcap =>
    ((registerVisit_cases h₁ r).cap_eq h₁).trans hcap).2

theorem registries_midway (hs : e.Sound) (schedule : Schedule) :
    (e.midway schedule).engine.store.registries = e.store.registries :=
  (midway_stable (P := fun e₁ => e₁.store.registries = e.store.registries) hs schedule rfl
    fun _ r h₁ hregistries => ((registerVisit_cases h₁ r).registries_eq h₁).trans hregistries).2

theorem mem_registryIds {s : Store} {q : PoolId} :
    q ∈ s.registryIds ↔ ∃ record, s.registries[q]? = some record :=
  Std.ExtTreeMap.mem_keys.trans mem_iff_lookup

/-- A deadline midway was one before, of a registry that the store has. -/
theorem deadline_midway {schedule : Schedule} {q : PoolId} {d : Deadline} (hs : e.Sound) :
    (e.midway schedule).schedule.deadlines[q]? = some d ↔
      schedule.deadlines[q]? = some d ∧ q ∈ e.store.registryIds := by
  have hregistries := registries_midway hs schedule
  unfold midway at hregistries ⊢
  dsimp only at hregistries ⊢
  rw [Schedule.retain, Std.ExtTreeMap.getElem?_filter', schedule_visitRegisters,
    Option.filter_eq_some_iff, hregistries, Std.ExtTreeMap.contains_iff_mem]
  exact and_congr_right' Std.ExtTreeMap.mem_keys.symm

/-- What a register phase does to a pool sets the pool's level back. -/
theorem table_or_reset_midway (hs : e.Sound) (schedule : Schedule) (q : PoolId) :
    (e.midway schedule).engine.pools.live[q]? = e.pools.live[q]? ∨
      (e.midway schedule).engine.paceLevel q = ⟨0⟩ := by
  refine (midway_stable (P := fun e₁ =>
    e₁.pools.live[q]? = e.pools.live[q]? ∨ e₁.paceLevel q = ⟨0⟩) hs schedule (.inl rfl) ?_).2
  intro e₁ r h₁ h
  obtain ⟨e₂, registers, hmoved, hw⟩ := (registerVisit_cases h₁ r).moved h₁
  rw [hw]
  rcases hmoved.sameAt_or_reset h₁ q with hsame | hreset
  · exact h.imp hsame.table.trans hsame.paceLevel_eq.trans
  · exact .inr hreset

theorem positive_pass (hs : e.Sound) (hcap : 0 < e.pacer.cap) {schedule : Schedule}
    (h : schedule.Positive) (policy : PacePolicy) (now : Millis) :
    (e.pass policy schedule now).schedule.Positive := by
  rw [pass_eq]
  refine Pass.positive_visitRegistries _ _ Std.ExtTreeMap.nodup_keys (sound_midway hs schedule)
    (cap_midway hs schedule ▸ hcap) (fun q hq => mem_registryIds.1 hq) fun q d hd => ?_
  exact h q d ((deadline_midway hs).1 hd).1

/-- A registry that a pass visits is visited as it stands midway, and is left as its visit leaves
it. -/
theorem visit_of_answer (hs : e.Sound) {policy : PacePolicy} {schedule : Schedule} {now : Millis}
    {q : PoolId} {answer : Except ReconcileError RegistryOutcome}
    (hvisited : (q, answer) ∈ e.answers policy schedule now) :
    ∃ p : Pass, p.engine.Sound ∧ (e.midway schedule).SameAt p q ∧
      answer = (p.engine.reconcileRegistry policy q).1 ∧
      (p.visitRegistry policy now q).SameAt (e.pass policy schedule now) q :=
  Pass.visit_of_answer _ _ Std.ExtTreeMap.nodup_keys (sound_midway hs schedule) hvisited

/-- A registry that a pass visits is due midway. -/
theorem due_of_answer (hs : e.Sound) {policy : PacePolicy} {schedule : Schedule} {now : Millis}
    {q : PoolId} {answer : Except ReconcileError RegistryOutcome}
    (hvisited : (q, answer) ∈ e.answers policy schedule now) :
    (e.midway schedule).schedule.isDue q now ((e.midway schedule).engine.paceLevel q) = true :=
  Pass.due_of_answer _ _ Std.ExtTreeMap.nodup_keys (sound_midway hs schedule) hvisited

/-- What holds midway and passes through the visits of registries holds after the pass. -/
theorem pass_stable {P : Engine → Prop} (hs : e.Sound) (policy : PacePolicy) (schedule : Schedule)
    (now : Millis) (h : P (e.midway schedule).engine)
    (hstep : ∀ (e₁ : Engine) (pool : PoolId), e₁.Sound → P e₁ →
      P (e₁.reconcileRegistry policy pool).2) : P (e.pass policy schedule now).engine :=
  (visitRegistries_stable (P := fun e₁ => e₁.Sound ∧ P e₁)
    (fun e₁ pool ⟨h₁, hP⟩ => ⟨(registryVisit_cases h₁ policy pool).sound h₁, hstep e₁ pool h₁ hP⟩)
    now _ _ ⟨sound_midway hs schedule, h⟩).2

/-- What is left of the registers is none when the pass turns to its registries. -/
theorem pass_rest {P : Engine → List RegisterRecord → Prop} (hs : e.Sound) (hk : e.store.Keyed)
    (policy : PacePolicy) (schedule : Schedule) (now : Millis) (h : P e e.store.registerList)
    (hregister : ∀ (e₁ : Engine) (r : RegisterRecord) (rest : List RegisterRecord),
      (∀ r' ∈ rest, r.key ≠ r'.key) → P e₁ (r :: rest) → P (e₁.reconcileRegister r).2 rest)
    (hregistry : ∀ (e₁ : Engine) (pool : PoolId), P e₁ [] →
      P (e₁.reconcileRegistry policy pool).2 []) :
    P (e.pass policy schedule now).engine [] :=
  pass_stable (P := fun e₁ => P e₁ []) hs policy schedule now
    (visitRegisters_rest hregister _ ⟨e, schedule, .zero, false⟩ (values_pairwise hk) h)
    fun e₁ pool _ => hregistry e₁ pool

theorem cap_pass (hs : e.Sound) (policy : PacePolicy) (schedule : Schedule) (now : Millis) :
    (e.pass policy schedule now).engine.pacer.cap = e.pacer.cap :=
  pass_stable (P := fun e₁ => e₁.pacer.cap = e.pacer.cap) hs policy schedule now
    (cap_midway hs schedule) fun _ pool h₁ hcap =>
      (registryVisit_cases h₁ policy pool).cap_eq.trans hcap

theorem registers_pass (hs : e.Sound) (policy : PacePolicy) (schedule : Schedule) (now : Millis) :
    (e.pass policy schedule now).engine.store.registers =
      (e.midway schedule).engine.store.registers :=
  pass_stable (P := fun e₁ => e₁.store.registers = (e.midway schedule).engine.store.registers) hs
    policy schedule now rfl fun _ pool h₁ hregisters =>
      (registryVisit_cases h₁ policy pool).registers_eq.trans hregisters

end Engine

/-- With a positive cap no run records a deadline at level 0. -/
theorem Run.positive {policy : PacePolicy} {admits : System → Event → Prop} {s₀ s : System}
    {past : List (System × Event)} (run : Run policy admits s₀ past s) (h₀ : s₀.engine.Sound)
    (hcap : 0 < s₀.engine.pacer.cap) (hpositive : s₀.schedule.Positive) :
    s.schedule.Positive := by
  refine (run.invariant (P := fun s => 0 < s.engine.pacer.cap ∧ s.schedule.Positive) h₀
    ⟨hcap, hpositive⟩ fun s event hs _ ⟨hcap, hpositive⟩ => ?_).2
  cases event with
  | declare d => exact ⟨hcap, hpositive⟩
  | correct c => exact ⟨hcap, hpositive⟩
  | call c => exact ⟨(c.cap_eq hs).symm ▸ hcap, hpositive⟩
  | pass now =>
    exact ⟨(Engine.cap_pass hs policy s.schedule now).symm ▸ hcap,
      Engine.positive_pass hs hcap hpositive policy now⟩

end IndexPools
