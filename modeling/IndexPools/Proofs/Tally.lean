import IndexPools.Proofs.Deadlines
import IndexPools.Proofs.Loaded

/-!
# What a pass counts

What a pass counts can be read off the store before and after it. Every register is visited once,
and what becomes of it follows from the answer of its visit alone (`becomes_pass`); every registry
that is due is visited once, and is gone just if the answer was so (`record_of_answer`). As a
counter goes up by one with certain answers, it is the number of the records of which that became
(`tally_of_pass`).
-/

namespace IndexPools

/-- What becomes of a register that is stored, by the answer of its visit. -/
inductive RegisterRecord.Becomes (r : RegisterRecord) :
    Except ReconcileError RegisterOutcome → Option RegisterRecord → Prop
  | moved {i : Nat} (hindex : r.index ≠ some i) :
      Becomes r (.ok (.allocated i true)) (some { r with index := some i })
  | kept {i : Nat} (hindex : r.index = some i) : Becomes r (.ok (.allocated i false)) (some r)
  | released : Becomes r (.ok .released) none
  | failed (err : ReconcileError) : Becomes r (.error err) (some r)

/-- What becomes of a registry that is stored, by the answer of its visit. -/
inductive RegistryRecord.Becomes (record : RegistryRecord) :
    Except ReconcileError RegistryOutcome → Option RegistryRecord → Prop
  | synced (status : RegistryStatus) (delay : Millis) :
      Becomes record (.ok (.synced status delay)) (some { record with status := some status })
  | blocked (held : Nat) (delay : Millis) : Becomes record (.ok (.blocked held delay)) (some record)
  | deleted : Becomes record (.ok .deleted) none
  | failed (err : ReconcileError) : Becomes record (.error err) (some record)

/-- The answer of a visit that gave a register another index. -/
def RegisterOutcome.moves : Except ReconcileError RegisterOutcome → Bool
  | .ok (.allocated _ changed) => changed
  | _ => false

def RegisterOutcome.releases : Except ReconcileError RegisterOutcome → Bool
  | .ok .released => true
  | _ => false

def RegistryOutcome.deletes : Except ReconcileError RegistryOutcome → Bool
  | .ok .deleted => true
  | _ => false

/-- What can be told from the images of a list is counted of the images. -/
theorem countP_of_map {α β : Type} {f : α → β} {p : α → Bool} {q : β → Bool} {xs : List α}
    (h : ∀ x ∈ xs, p x = q (f x)) : xs.countP p = (xs.map f).countP q := by
  rw [List.countP_map]
  exact List.countP_congr fun x hx => iff_of_eq (congrArg (· = true) (h x hx))

/-- The registries that were counted. -/
def PassStats.registries (stats : PassStats) : Nat :=
  stats.registriesSynced + stats.registriesBlocked + stats.registriesDeleted +
    stats.registriesFailed

namespace RegisterRecord.Becomes

variable {r : RegisterRecord} {answer : Except ReconcileError RegisterOutcome}
  {left : Option RegisterRecord}

theorem moves_eq (h : r.Becomes answer left) :
    RegisterOutcome.moves answer = left.any fun r' => r'.index ≠ r.index := by
  cases h with
  | moved hindex => simp [RegisterOutcome.moves, Ne.symm hindex]
  | kept | released | failed => simp [RegisterOutcome.moves]

theorem releases_eq (h : r.Becomes answer left) :
    RegisterOutcome.releases answer = decide (left = none) := by
  cases h <;> rfl

end RegisterRecord.Becomes

theorem RegistryRecord.Becomes.deletes_eq {record : RegistryRecord}
    {answer : Except ReconcileError RegistryOutcome} {left : Option RegistryRecord}
    (h : record.Becomes answer left) :
    RegistryOutcome.deletes answer = decide (left = none) := by
  cases h <;> rfl

namespace Engine

variable {e : Engine} {policy : PacePolicy} {schedule : Schedule} {now : Millis}

theorem becomes_settle {r : RegisterRecord} (h : e.store.registers[r.key]? = some r) (i : Nat) :
    r.Becomes (e.settle r i).1 (e.settle r i).2.store.registers[r.key]? := by
  rw [settle_self h, settle_of_stored h]
  by_cases hi : r.index = some i
  · have hsame : { r with index := some i } = r := by rw [← hi]
    simp only [hsame, hi, ne_eq, not_true_eq_false, decide_false]
    exact .kept hi
  · simp only [ne_eq, hi, not_false_eq_true, decide_true]
    exact .moved hi

theorem becomes_discard {r : RegisterRecord} (h : e.store.registers[r.key]? = some r) :
    r.Becomes (e.discard r).1 (e.discard r).2.store.registers[r.key]? := by
  rw [discard_self h, discard_of_stored h]
  exact .released

theorem RegisterVisit.becomes {r : RegisterRecord}
    {res : Except ReconcileError RegisterOutcome × Engine} (h : RegisterVisit e r res)
    (hstored : e.store.registers[r.key]? = some r) :
    r.Becomes res.1 res.2.store.registers[r.key]? := by
  cases h with
  | failed err => exact hstored ▸ .failed err
  | kept => exact becomes_settle hstored _
  | placed => exact becomes_settle (e := e.retable _ _) hstored _
  | idle => exact becomes_discard hstored
  | freed => exact becomes_discard (e := e.retable _ _) hstored

theorem RegistryVisit.becomes {pool : PoolId} {record : RegistryRecord}
    {res : Except ReconcileError RegistryOutcome × Engine} (h : RegistryVisit policy e pool res)
    (hrecord : e.store.registries[pool]? = some record) :
    record.Becomes res.1 res.2.store.registries[pool]? := by
  cases h with
  | missing hnone => cases hnone.symm.trans hrecord
  | unset err => exact hrecord ▸ .failed _
  | blocked => exact hrecord ▸ .blocked _ _
  | deleted =>
    have hgone : (e.removed pool).store.registries[pool]? = none :=
      (lookup_erase _ _ _).trans (if_pos rfl)
    exact hgone ▸ .deleted
  | @synced record' e' hrecord' _ _ =>
    cases hrecord'.symm.trans hrecord
    have hwritten : ((e'.mirrored pool record).nextDelay pool policy).2.store.registries[pool]? =
        some { record with status := some (e'.status pool) } :=
      (lookup_insert _ _ _ _).trans (if_pos rfl)
    exact hwritten ▸ .synced _ _

theorem map_fst_registerAnswersOf : ∀ (rs : List RegisterRecord) (e : Engine),
    (registerAnswersOf rs e).map Prod.fst = rs
  | [], _ => rfl
  | r :: rs, _ => congrArg (r :: ·) (map_fst_registerAnswersOf rs _)

theorem map_fst_registerAnswers (e : Engine) :
    e.registerAnswers.map Prod.fst = e.store.registerList :=
  map_fst_registerAnswersOf _ e

/-- After a pass each register is what the answer of its visit says. -/
theorem becomes_pass (hs : e.Sound) (hk : e.store.Keyed)
    {x : RegisterRecord × Except ReconcileError RegisterOutcome} (hx : x ∈ e.registerAnswers)
    (policy : PacePolicy) (schedule : Schedule) (now : Millis) :
    x.1.Becomes x.2 (e.pass policy schedule now).engine.store.registers[x.1.key]? := by
  obtain ⟨r, answer⟩ := x
  let p₀ : Pass := ⟨e, schedule, .zero, false⟩
  obtain ⟨rs₁, rs₂, hlist, rfl⟩ := visit_of_registerAnswerOf _ p₀ hx
  obtain ⟨hstored, -, hafter⟩ := visit_of_split hs hk hlist schedule rfl
  have hsound : (Pass.visitRegisters rs₁ p₀).engine.Sound :=
    visitRegisters_stable (P := Sound) (fun _ r' h => (registerVisit_cases h r').sound h) _ p₀ hs
  rw [registers_pass hs, hafter]
  exact (registerVisit_cases hsound r).becomes hstored

/-- After a pass each registry that was visited is what the answer of its visit says. -/
theorem record_of_answer (hs : e.Sound)
    {x : PoolId × Except ReconcileError RegistryOutcome}
    (hx : x ∈ e.answers policy schedule now) :
    ∃ record, e.store.registries[x.1]? = some record ∧
      record.Becomes x.2 (e.pass policy schedule now).engine.store.registries[x.1]? := by
  obtain ⟨q, answer⟩ := x
  obtain ⟨record, hrecord⟩ := mem_registryIds.1 (Pass.mem_of_answer hx)
  obtain ⟨p, hp, hbefore, rfl, hafter⟩ := visit_of_answer hs hx
  refine ⟨record, registries_midway hs schedule ▸ hrecord, ?_⟩
  rw [hafter.engine.record, engine_visitRegistry]
  exact (registryVisit_cases hp policy q).becomes (hbefore.engine.record.trans hrecord)

/-- A registry that a pass does not visit is left as it is. -/
theorem record_of_unvisited (hs : e.Sound) {q : PoolId}
    (hunvisited : ∀ answer, (q, answer) ∉ e.answers policy schedule now) :
    (e.pass policy schedule now).engine.store.registries[q]? = e.store.registries[q]? := by
  rw [(unvisited_pass hs hunvisited).engine.record, registries_midway hs]

end Engine

/-- A pass that does not end early visits what is due, once each. -/
theorem Pass.map_fst_answers {policy : PacePolicy} {now : Millis} :
    ∀ (pools : List PoolId) (p : Pass), pools.Nodup → p.engine.Sound →
      (visitRegistries policy now pools p).overflow = false →
      (answers policy now pools p).map Prod.fst =
        pools.filter fun q => p.schedule.isDue q now (p.engine.paceLevel q)
  | [], _, _, _, _ => rfl
  | q :: pools, p, hdistinct, hs, hover => by
    obtain ⟨hnew, hrest⟩ := List.nodup_cons.1 hdistinct
    simp only [visitRegistries] at hover
    simp only [answers, List.filter_cons]
    split_ifs at hover ⊢ with hdue hlast
    · exact absurd hlast (by simp [hover])
    · rw [List.map_cons, map_fst_answers pools _ hrest (sound_visitRegistry hs policy now q) hover]
      refine congrArg (q :: ·) (List.filter_congr fun q' hq' => ?_)
      have hne : q ≠ q' := fun heq => hnew (heq ▸ hq')
      exact (sameAt_visitRegistry hs hne).isDue
    · exact map_fst_answers pools p hrest hs hover

namespace Engine

variable {e : Engine} {policy : PacePolicy} {schedule : Schedule} {now : Millis}

/-- The registries that a pass visits if it does not end early: what is due by the schedule, at the
pace levels that the registers leave. -/
def due (e : Engine) (schedule : Schedule) (now : Millis) : List PoolId :=
  e.store.registryIds.filter fun q =>
    schedule.isDue q now ((e.midway schedule).engine.paceLevel q)

theorem map_fst_answers (hs : e.Sound) (hover : (e.pass policy schedule now).overflow = false) :
    (e.answers policy schedule now).map Prod.fst = e.due schedule now := by
  have hids : (e.midway schedule).engine.store.registryIds = e.store.registryIds := by
    unfold Store.registryIds
    rw [registries_midway hs]
  have hvisited := Pass.map_fst_answers (e.midway schedule).engine.store.registryIds
    (e.midway schedule) Std.ExtTreeMap.nodup_keys (sound_midway hs schedule) hover
  refine hvisited.trans ?_
  rw [hids]
  refine List.filter_congr fun q hq => ?_
  have hdeadline : (e.midway schedule).schedule.deadlines[q]? = schedule.deadlines[q]? :=
    Option.ext fun d => (deadline_midway hs).trans (and_iff_left hq)
  unfold Schedule.isDue
  rw [hdeadline]

theorem allocated_pass (hs : e.Sound) (hk : e.store.Keyed) :
    (e.pass policy schedule now).stats.registersAllocated = e.store.registerList.countP fun r =>
      (e.pass policy schedule now).engine.store.registers[r.key]?.any fun r' =>
        r'.index ≠ r.index := by
  rw [← map_fst_registerAnswers e,
    ← countP_of_map fun x hx => (becomes_pass hs hk hx policy schedule now).moves_eq]
  refine count_registerAnswers PassStats.registersAllocated rfl (fun stats answer => ?_)
    (fun stats answer => (stats.registers_countRegistry answer).1) e policy schedule now
  rcases answer with err | (⟨_, _ | _⟩ | _) <;> rfl

theorem released_pass (hs : e.Sound) (hk : e.store.Keyed) :
    (e.pass policy schedule now).stats.registersReleased = e.store.registerList.countP fun r =>
      (e.pass policy schedule now).engine.store.registers[r.key]? = none := by
  rw [← map_fst_registerAnswers e,
    ← countP_of_map fun x hx => (becomes_pass hs hk hx policy schedule now).releases_eq]
  refine count_registerAnswers PassStats.registersReleased rfl (fun stats answer => ?_)
    (fun stats answer => (stats.registers_countRegistry answer).2.1) e policy schedule now
  rcases answer with err | (⟨_, _ | _⟩ | _) <;> rfl

theorem failed_pass (e : Engine) (policy : PacePolicy) (schedule : Schedule) (now : Millis) :
    (e.pass policy schedule now).stats.registersFailed =
      e.registerAnswers.countP fun x => !x.2.isOk := by
  refine count_registerAnswers (p := fun answer => !answer.isOk) PassStats.registersFailed rfl
    (fun stats answer => ?_) (fun stats answer => (stats.registers_countRegistry answer).2.2)
    e policy schedule now
  rcases answer with err | (⟨_, _ | _⟩ | _) <;> rfl

/-- Each registry that is due is counted once, whatever the answer. -/
theorem visited_pass_count (hs : e.Sound)
    (hover : (e.pass policy schedule now).overflow = false) :
    (e.pass policy schedule now).stats.registries = (e.due schedule now).length := by
  have hregister : ∀ (stats : PassStats) (answer : Except ReconcileError RegisterOutcome),
      (stats.countRegister answer).registries = stats.registries := by
    intro stats answer
    obtain ⟨hsynced, hblocked, hdeleted, hfailed⟩ := stats.registries_countRegister answer
    unfold PassStats.registries
    rw [hsynced, hblocked, hdeleted, hfailed]
  have hregistry : ∀ (stats : PassStats) (answer : Except ReconcileError RegistryOutcome),
      (stats.countRegistry answer).registries = stats.registries + 1 := by
    intro stats answer
    unfold PassStats.registries
    rcases answer with err | (_ | _ | _) <;> simp only [PassStats.countRegistry] <;> omega
  rw [count_answers (q := fun _ => true) PassStats.registries rfl hregister hregistry,
    List.countP_true, ← map_fst_answers hs hover, List.length_map]

/-- Only what is due can go. -/
theorem mem_due_of_gone (hs : e.Sound) (hover : (e.pass policy schedule now).overflow = false)
    {q : PoolId} (hq : q ∈ e.store.registryIds)
    (hgone : (e.pass policy schedule now).engine.store.registries[q]? = none) :
    q ∈ e.due schedule now := by
  rw [← map_fst_answers hs hover]
  by_contra hunvisited
  obtain ⟨record, hrecord⟩ := mem_registryIds.1 hq
  have hkept := record_of_unvisited hs fun answer hanswer =>
    hunvisited (List.mem_map.2 ⟨_, hanswer, rfl⟩)
  cases hrecord.symm.trans (hkept.symm.trans hgone)

theorem deleted_pass (hs : e.Sound)
    (hover : (e.pass policy schedule now).overflow = false) :
    (e.pass policy schedule now).stats.registriesDeleted = e.store.registryIds.countP fun q =>
      (e.pass policy schedule now).engine.store.registries[q]? = none := by
  let gone : PoolId → Bool := fun q =>
    (e.pass policy schedule now).engine.store.registries[q]? = none
  have hcount : (e.pass policy schedule now).stats.registriesDeleted =
      (e.answers policy schedule now).countP fun x => RegistryOutcome.deletes x.2 := by
    refine count_answers PassStats.registriesDeleted rfl
      (fun stats answer => (stats.registries_countRegister answer).2.2.1) (fun stats answer => ?_)
      e policy schedule now
    rcases answer with err | (_ | _ | _) <;> rfl
  have hanswers : ∀ x ∈ e.answers policy schedule now,
      RegistryOutcome.deletes x.2 = gone x.1 := by
    intro x hx
    obtain ⟨record, -, hbecomes⟩ := record_of_answer hs hx
    exact hbecomes.deletes_eq
  have hgone : ∀ q ∈ e.store.registryIds, gone q = true →
      schedule.isDue q now ((e.midway schedule).engine.paceLevel q) = true := fun q hq h =>
    (List.mem_filter.1 (mem_due_of_gone hs hover hq (of_decide_eq_true h))).2
  calc (e.pass policy schedule now).stats.registriesDeleted
      = ((e.answers policy schedule now).map Prod.fst).countP gone := by
        rw [hcount, countP_of_map hanswers]
    _ = (e.due schedule now).countP gone := by rw [map_fst_answers hs hover]
    _ = e.store.registryIds.countP gone := by
        unfold due
        rw [List.countP_filter]
        refine List.countP_congr fun q hq => ?_
        rw [Bool.and_eq_true]
        exact and_iff_left_of_imp (hgone q hq)

/-- A register that is not as it was is gone, or has another index. -/
theorem register_ne_iff (hs : e.Sound) (hk : e.store.Keyed) {r : RegisterRecord}
    (hr : r ∈ e.store.registerList) :
    (e.pass policy schedule now).engine.store.registers[r.key]? ≠ some r ↔
      (∃ r', (e.pass policy schedule now).engine.store.registers[r.key]? = some r' ∧
        r'.index ≠ r.index) ∨
      (e.pass policy schedule now).engine.store.registers[r.key]? = none := by
  rcases hafter : (e.pass policy schedule now).engine.store.registers[r.key]? with _ | r'
  · simp
  · obtain ⟨r₀, hr₀, heq⟩ := (visits_pass hs hk policy schedule now).register_eq hs hafter
    cases (hk.mem_registerList.1 hr).symm.trans hr₀
    have hsame : r' = r ↔ r'.index = r.index :=
      ⟨fun h => h ▸ rfl, fun h => heq.trans (by rw [h])⟩
    simp [hsame]

theorem hasChanges_pass (hs : e.Sound) (hk : e.store.Keyed)
    (hover : (e.pass policy schedule now).overflow = false) :
    (e.pass policy schedule now).stats.hasChanges = true ↔
      (∃ r ∈ e.store.registerList,
        (e.pass policy schedule now).engine.store.registers[r.key]? ≠ some r) ∨
      ∃ q ∈ e.store.registryIds,
        (e.pass policy schedule now).engine.store.registries[q]? = none := by
  unfold PassStats.hasChanges
  rw [allocated_pass hs hk, released_pass hs hk, deleted_pass hs hover]
  simp only [Bool.or_eq_true, decide_eq_true_eq, List.countP_pos_iff, Option.any_eq_true,
    ← exists_or, ← and_or_left]
  exact or_congr_left (exists_congr fun r => and_congr_right fun hr =>
    (register_ne_iff hs hk hr).symm)

end Engine

/-- A pass that does not end early counts what it did. The registers that it counts as allocated are
those with another index, the released ones those that are gone, the failed ones those whose visit
failed; what is not counted is as it was. Of the registries each one that is due is counted once,
and as deleted just if it is gone. Nothing is added. -/
theorem tally_of_pass {policy : PacePolicy} {store : Store} {cap : UInt32}
    {conflicts : ConflictPolicy} {past : List (System × Event)} {s : System}
    (hstore : store.Initial)
    (run : Run policy (fun _ _ => True) (.start store cap conflicts) past s)
    {schedule : Schedule} {now : Millis} {p : Pass}
    (hpass : s.engine.pass policy schedule now = p) (hover : p.overflow = false) :
    let before := s.engine.store
    let after := p.engine.store
    (s.engine.registerAnswers.map Prod.fst = before.registerList ∧
      (∀ x ∈ s.engine.registerAnswers, x.1.Becomes x.2 after.registers[x.1.key]?) ∧
      (∀ k : RegisterKey, before.registers[k]? = none → after.registers[k]? = none) ∧
      p.stats.registersAllocated = before.registerList.countP (fun r =>
        after.registers[r.key]?.any fun r' => r'.index ≠ r.index) ∧
      p.stats.registersReleased = before.registerList.countP (fun r =>
        after.registers[r.key]? = none) ∧
      p.stats.registersFailed = s.engine.registerAnswers.countP fun x => !x.2.isOk) ∧
    ((s.engine.answers policy schedule now).map Prod.fst = s.engine.due schedule now ∧
      (∀ x ∈ s.engine.answers policy schedule now, ∃ record,
        before.registries[x.1]? = some record ∧ record.Becomes x.2 after.registries[x.1]?) ∧
      (∀ q ∉ s.engine.due schedule now, after.registries[q]? = before.registries[q]?) ∧
      p.stats.registriesSynced + p.stats.registriesBlocked + p.stats.registriesDeleted +
        p.stats.registriesFailed = (s.engine.due schedule now).length ∧
      p.stats.registriesDeleted = before.registryIds.countP fun q =>
        after.registries[q]? = none) ∧
    (p.stats.hasChanges = true ↔
      (∃ r ∈ before.registerList, after.registers[r.key]? ≠ some r) ∨
        ∃ q ∈ before.registryIds, after.registries[q]? = none) := by
  subst hpass
  have hstart : (System.start store cap conflicts).engine.Sound :=
    Engine.sound_start store cap conflicts
  have hs := run.sound hstart
  have hk := run.keyed hstart hstore.keyed
  have hvisited := Engine.map_fst_answers hs hover
  refine ⟨⟨Engine.map_fst_registerAnswers _, fun x hx => Engine.becomes_pass hs hk hx _ _ _,
      fun k hnone => Engine.register_none_of_pass hs hk hnone _ _ _, Engine.allocated_pass hs hk,
      Engine.released_pass hs hk, Engine.failed_pass _ _ _ _⟩,
    ⟨hvisited, fun x hx => Engine.record_of_answer hs hx, fun q hq => ?_,
      Engine.visited_pass_count hs hover, Engine.deleted_pass hs hover⟩,
    Engine.hasChanges_pass hs hk hover⟩
  · refine Engine.record_of_unvisited hs fun answer hanswer => hq ?_
    rw [← hvisited]
    exact List.mem_map.2 ⟨_, hanswer, rfl⟩

/-- One register is given a slot, for the next one none is left, and the third one goes; one of two
registries goes too. -/
theorem tally_of_pass_mixed :
    ∃ (past : List (System × Event)) (s : System) (p : Pass),
      Store.empty.Initial ∧
        Run .standard (fun _ _ => True) (.start .empty 3 .keepExisting) past s ∧
        s.engine.pass .standard s.schedule 2000 = p ∧ p.overflow = false ∧
        p.stats = ⟨1, 1, 1, 1, 0, 1, 0⟩ ∧
        (s.engine.store.registerList.countP fun r =>
          p.engine.store.registers[r.key]? = none) = 1 ∧
        ((∃ r ∈ s.engine.store.registerList, p.engine.store.registers[r.key]? ≠ some r) ∨
          ∃ q ∈ s.engine.store.registryIds, p.engine.store.registries[q]? = none) := by
  let ids : PoolId := ⟨"net", "ids", rfl, rfl⟩
  let old : PoolId := ⟨"net", "old", rfl, rfl⟩
  let spec : RegistrySpec := ⟨some 1, some .firstAvailable, none, none⟩
  let events : List Event :=
    [.declare (.registryDeleting old), .declare (.registerDeleting ⟨"net", "z"⟩),
      .declare (.register (.naming "net" "z" "ids" "c")),
      .declare (.register (.naming "net" "y" "ids" "b")),
      .declare (.register (.naming "net" "x" "ids" "a")), .pass 0,
      .declare (.registry old spec), .declare (.registry ids spec)]
  let s : System := (System.start .empty 3 .keepExisting).after .standard events
  have hrun : Run .standard (fun _ _ => True) (.start .empty 3 .keepExisting) _ s :=
    run_after events fun _ _ => trivial
  have hover : (s.engine.pass .standard s.schedule 2000).overflow = false := by decide +kernel
  have hstats : (s.engine.pass .standard s.schedule 2000).stats = ⟨1, 1, 1, 1, 0, 1, 0⟩ := by
    decide +kernel
  obtain ⟨⟨-, -, -, -, hreleased, -⟩, -, hchanges⟩ := tally_of_pass (.inl rfl) hrun rfl hover
  refine ⟨_, s, _, .inl rfl, hrun, rfl, hover, hstats, ?_, ?_⟩
  · rw [← hreleased, hstats]
  · rw [← hchanges, hstats]
    rfl

end IndexPools
