import IndexPools.Proofs.Answers

/-!
# Deadlines

A pass ends early just if a visit asks for a delay after which no deadline can be formed
(`overflow_visitRegistries`). After any other pass the registries with a deadline are those of the
store (`scheduled_iff_stored`): a registry without one is due, so that it was visited, and a visit
leaves a deadline unless the registry is gone. A deadline is the time of the last pass that visited
the registry plus the delay that this visit asked for (`Run.timed`), since whatever is not visited
keeps its deadline; so that no registry waits longer than the longest delay for its next visit
(`deadline_of_last_visit`).
-/

namespace IndexPools

namespace PacePolicy

/-- The delays that a visit can ask for. -/
def waits (policy : PacePolicy) : List Millis :=
  [policy.veryShortWait, policy.shortWait, policy.interval]

theorem delayFor_mem_waits (policy : PacePolicy) (l : PaceLevel) :
    policy.delayFor l ∈ policy.waits := by
  unfold delayFor waits
  split_ifs <;> simp

end PacePolicy

theorem Pacer.nextDelay_mem_waits (p : Pacer) (pool : PoolId) (policy : PacePolicy) :
    (p.nextDelay pool policy).1 ∈ policy.waits := by
  have hinterval : policy.interval ∈ policy.waits := by simp [PacePolicy.waits]
  unfold nextDelay
  rcases p.levels[pool]? with _ | l
  · exact hinterval
  · simp only []
    split_ifs
    · exact policy.delayFor_mem_waits ⟨l⟩
    · exact hinterval

namespace Engine

variable {e : Engine} {policy : PacePolicy} {pool : PoolId}
  {res : Except ReconcileError RegistryOutcome × Engine}

theorem RegistryVisit.delay_mem_waits (h : RegistryVisit policy e pool res) {delay : Millis}
    (hdelay : requeueAfter policy res.1 = some delay) : delay ∈ policy.waits := by
  cases h with
  | missing | unset =>
    cases hdelay
    simp [PacePolicy.waits]
  | blocked =>
    cases hdelay
    exact Pacer.nextDelay_mem_waits _ _ _
  | deleted => cases hdelay
  | synced =>
    cases hdelay
    exact Pacer.nextDelay_mem_waits _ _ _

/-- A registry stays in the store just if it is to be visited again. -/
theorem RegistryVisit.stored_iff (h : RegistryVisit policy e pool res)
    (hstored : ∃ record, e.store.registries[pool]? = some record) :
    (∃ record, res.2.store.registries[pool]? = some record) ↔
      requeueAfter policy res.1 ≠ none := by
  cases h with
  | missing | unset | blocked => exact iff_of_true hstored (Option.some_ne_none _)
  | deleted =>
    refine iff_of_false ?_ fun hsome => hsome rfl
    rintro ⟨record, hrecord⟩
    cases ((lookup_erase _ _ _).trans (if_pos rfl)).symm.trans hrecord
  | synced =>
    exact iff_of_true ⟨_, (lookup_insert _ _ _ _).trans (if_pos rfl)⟩ (Option.some_ne_none _)

end Engine

/-- The answer asks for a delay after which no deadline can be formed. -/
def Faults (policy : PacePolicy) (now : Millis) (answer : Except ReconcileError RegistryOutcome) :
    Prop :=
  ∃ delay, requeueAfter policy answer = some delay ∧ deadlineAfter? now delay = none

theorem deadlineAfter?_eq_some {now delay due : Millis} (h : deadlineAfter? now delay = some due) :
    due = now + delay := by
  unfold deadlineAfter? at h
  simp only [] at h
  split_ifs at h
  exact (Option.some.inj h).symm

namespace Pass

variable {policy : PacePolicy} {now : Millis} {p : Pass} {pool q : PoolId}

theorem overflow_visitRegistry (hp : p.overflow = false) :
    (p.visitRegistry policy now pool).overflow = true ↔
      Faults policy now (p.engine.reconcileRegistry policy pool).1 := by
  unfold visitRegistry Faults
  dsimp only
  rcases requeueAfter policy (p.engine.reconcileRegistry policy pool).1 with _ | delay
  · simp [hp]
  · rcases hafter : deadlineAfter? now delay with _ | due
    · simp [hafter]
    · simp [hafter, hp]

theorem overflow_visitRegistries : ∀ (pools : List PoolId) (p : Pass), p.overflow = false →
    ((visitRegistries policy now pools p).overflow = true ↔
      ∃ x ∈ answers policy now pools p, Faults policy now x.2)
  | [], p, hp => by simp [visitRegistries, answers, hp]
  | pool :: pools, p, hp => by
    have hvisit : (p.visitRegistry policy now pool).overflow = true ↔ _ :=
      overflow_visitRegistry hp
    simp only [visitRegistries, answers]
    split_ifs with hdue hlast
    · simp only [hlast, List.mem_singleton, exists_eq_left, true_iff]
      exact hvisit.1 hlast
    · rw [Bool.not_eq_true] at hlast
      simp only [overflow_visitRegistries pools _ hlast, List.mem_cons, or_and_right, exists_or,
        exists_eq_left, ← hvisit, hlast, Bool.false_eq_true, false_or]
    · exact overflow_visitRegistries pools p hp

/-- A visit of a registry leaves it with the deadline that its answer asks for. -/
theorem deadline_visitRegistry
    (hanswer : ¬ Faults policy now (p.engine.reconcileRegistry policy pool).1) :
    (p.visitRegistry policy now pool).schedule.deadlines[pool]? =
      (requeueAfter policy (p.engine.reconcileRegistry policy pool).1).map fun delay =>
        ⟨now + delay, (p.engine.reconcileRegistry policy pool).2.paceLevel pool⟩ := by
  unfold Faults at hanswer
  unfold visitRegistry
  dsimp only
  rcases hdelay : requeueAfter policy (p.engine.reconcileRegistry policy pool).1 with _ | delay
  · exact (lookup_erase _ _ _).trans (if_pos rfl)
  · rcases hafter : deadlineAfter? now delay with _ | due
    · exact absurd ⟨delay, hdelay, hafter⟩ hanswer
    · obtain rfl : due = now + delay := deadlineAfter?_eq_some hafter
      simp only [hafter]
      exact (lookup_insert _ _ _ _).trans (if_pos rfl)

/-- A registry that is not visited stays as it is. -/
theorem sameAt_of_unvisited : ∀ (pools : List PoolId) (p : Pass), p.engine.Sound →
    (∀ answer, (q, answer) ∉ answers policy now pools p) →
    p.SameAt (visitRegistries policy now pools p) q
  | [], p, _, _ => .refl p q
  | pool :: pools, p, hs, h => by
    simp only [answers] at h
    simp only [visitRegistries]
    split_ifs at h ⊢ with hdue hlast
    · refine sameAt_visitRegistry hs ?_
      rintro rfl
      exact h _ List.mem_cons_self
    · have hq : pool ≠ q := by
        rintro rfl
        exact h _ List.mem_cons_self
      exact (sameAt_visitRegistry hs hq).trans (sameAt_of_unvisited pools _
        (sound_visitRegistry hs policy now pool) fun a ha => h a (List.mem_cons_of_mem _ ha))
    · exact sameAt_of_unvisited pools p hs h

end Pass

namespace Engine

variable {e : Engine} {policy : PacePolicy} {schedule : Schedule} {now : Millis} {q : PoolId}
  {answer : Except ReconcileError RegistryOutcome}

theorem overflow_midway (e : Engine) (schedule : Schedule) :
    (e.midway schedule).overflow = false := by
  have hvisits : ∀ (rs : List RegisterRecord) (p : Pass),
      (Pass.visitRegisters rs p).overflow = p.overflow := by
    intro rs
    induction rs with
    | nil => exact fun p => rfl
    | cons r rs ih => exact fun p => ih (p.visitRegister r)
  exact hvisits _ ⟨e, schedule, .zero, false⟩

/-- A pass ends early just if one of its visits has no deadline. -/
theorem overflow_pass (e : Engine) (policy : PacePolicy) (schedule : Schedule) (now : Millis) :
    (e.pass policy schedule now).overflow = true ↔
      ∃ x ∈ e.answers policy schedule now, Faults policy now x.2 :=
  Pass.overflow_visitRegistries _ _ (overflow_midway e schedule)

theorem not_faults_of_answer (hover : (e.pass policy schedule now).overflow = false)
    (hvisited : (q, answer) ∈ e.answers policy schedule now) : ¬ Faults policy now answer := by
  intro hfaults
  rw [(overflow_pass e policy schedule now).2 ⟨_, hvisited, hfaults⟩] at hover
  cases hover

theorem delay_mem_of_answer (hs : e.Sound)
    (hvisited : (q, answer) ∈ e.answers policy schedule now) {delay : Millis}
    (hdelay : requeueAfter policy answer = some delay) : delay ∈ policy.waits := by
  obtain ⟨p, hp, -, rfl, -⟩ := visit_of_answer hs hvisited
  exact (registryVisit_cases hp policy q).delay_mem_waits hdelay

/-- What a registry that was visited is left with. -/
theorem visited_pass (hs : e.Sound) (hover : (e.pass policy schedule now).overflow = false)
    (hvisited : (q, answer) ∈ e.answers policy schedule now) :
    (e.pass policy schedule now).schedule.deadline? q =
        (requeueAfter policy answer).map (now + ·) ∧
      (q ∈ (e.pass policy schedule now).engine.store.registryIds ↔
        requeueAfter policy answer ≠ none) := by
  have hfaults := not_faults_of_answer hover hvisited
  have hmem : q ∈ (e.midway schedule).engine.store.registryIds := Pass.mem_of_answer hvisited
  obtain ⟨p, hp, hbefore, rfl, hlast⟩ := visit_of_answer hs hvisited
  have hv := registryVisit_cases hp policy q
  have hstored : ∃ record, p.engine.store.registries[q]? = some record := by
    rw [hbefore.engine.record]
    exact mem_registryIds.1 hmem
  constructor
  · unfold Schedule.deadline?
    rw [hlast.deadline, Pass.deadline_visitRegistry hfaults, Option.map_map]
    rfl
  · rw [mem_registryIds, hlast.engine.record, engine_visitRegistry]
    exact hv.stored_iff hstored

theorem unvisited_pass (hs : e.Sound)
    (hunvisited : ∀ answer, (q, answer) ∉ e.answers policy schedule now) :
    (e.midway schedule).SameAt (e.pass policy schedule now) q :=
  Pass.sameAt_of_unvisited _ _ (sound_midway hs schedule) hunvisited

/-- A deadline that a visit set is recorded at the level that the pass leaves. -/
theorem level_of_answer (hs : e.Sound) (hvisited : (q, answer) ∈ e.answers policy schedule now)
    (hfaults : ¬ Faults policy now answer) {d : Deadline}
    (hd : (e.pass policy schedule now).schedule.deadlines[q]? = some d) :
    d.level = (e.pass policy schedule now).engine.paceLevel q := by
  obtain ⟨p, -, -, rfl, hlast⟩ := visit_of_answer hs hvisited
  rw [hlast.deadline, Pass.deadline_visitRegistry hfaults] at hd
  obtain ⟨delay, -, rfl⟩ := Option.map_eq_some_iff.1 hd
  rw [hlast.engine.paceLevel_eq, engine_visitRegistry]

/-- A pass that does not end early visits each registry of the store that has no deadline, or whose
deadline has come. -/
theorem visited_of_due (hs : e.Sound) (hover : (e.pass policy schedule now).overflow = false)
    (hq : q ∈ e.store.registryIds) (hdue : ∀ due, schedule.deadline? q = some due → due ≤ now) :
    ∃ answer, (q, answer) ∈ e.answers policy schedule now := by
  refine Pass.exists_answer _ _ Std.ExtTreeMap.nodup_keys (sound_midway hs schedule) hover ?_ ?_
  · rw [mem_registryIds, registries_midway hs]
    exact mem_registryIds.1 hq
  · unfold Schedule.isDue
    rcases hd : (e.midway schedule).schedule.deadlines[q]? with _ | d
    · rfl
    · have hle : d.due ≤ now := by
        refine hdue d.due ?_
        unfold Schedule.deadline?
        rw [((deadline_midway hs).1 hd).1]
        rfl
      simp [hle]

/-- After a pass that does not end early, the registries with a deadline are those of the store. -/
theorem scheduled_iff_stored (hs : e.Sound)
    (hover : (e.pass policy schedule now).overflow = false) (q : PoolId) :
    (∃ due, (e.pass policy schedule now).schedule.deadline? q = some due) ↔
      q ∈ (e.pass policy schedule now).engine.store.registryIds := by
  by_cases hvisited : ∃ answer, (q, answer) ∈ e.answers policy schedule now
  · obtain ⟨answer, hvisited⟩ := hvisited
    obtain ⟨hdeadline, hstored⟩ := visited_pass hs hover hvisited
    rw [hdeadline, hstored, ← Option.isSome_iff_exists, Option.isSome_map,
      Option.isSome_iff_ne_none]
  · have hsame := unvisited_pass hs (not_exists.1 hvisited)
    have hrecord : (e.pass policy schedule now).engine.store.registries[q]? =
        e.store.registries[q]? := by
      rw [hsame.engine.record, registries_midway hs]
    unfold Schedule.deadline?
    rw [mem_registryIds, hrecord, ← mem_registryIds, hsame.deadline]
    constructor
    · rintro ⟨due, hdue⟩
      obtain ⟨d, hd, -⟩ := Option.map_eq_some_iff.1 hdue
      exact ((deadline_midway hs).1 hd).2
    · intro hq
      -- it has a deadline that is still to come, or it would have been visited
      by_contra hnone
      refine hvisited (visited_of_due hs hover hq fun due hdue => ?_)
      obtain ⟨d, hd, -⟩ := Option.map_eq_some_iff.1 hdue
      refine absurd ⟨d.due, ?_⟩ hnone
      rw [(deadline_midway hs).2 ⟨hd, hq⟩]
      rfl

end Engine

/-- The last pass of the run that visited the registry was at `now`, and the visit was answered
so. -/
inductive LastVisit (policy : PacePolicy) (q : PoolId) :
    (past : List (System × Event)) → (now : Millis) →
      (answer : Except ReconcileError RegistryOutcome) → Prop
  | visited {past : List (System × Event)} {s : System} {now : Millis}
      {answer : Except ReconcileError RegistryOutcome}
      (hvisited : (q, answer) ∈ s.engine.answers policy s.schedule now) :
      LastVisit policy q ((s, .pass now) :: past) now answer
  | before {past : List (System × Event)} {s : System} {event : Event} {now : Millis}
      {answer : Except ReconcileError RegistryOutcome} (last : LastVisit policy q past now answer)
      (hunvisited : ∀ now', event = .pass now' →
        ∀ answer', (q, answer') ∉ s.engine.answers policy s.schedule now') :
      LastVisit policy q ((s, event) :: past) now answer

theorem LastVisit.mem_past {policy : PacePolicy} {q : PoolId} {past : List (System × Event)}
    {now : Millis} {answer : Except ReconcileError RegistryOutcome}
    (h : LastVisit policy q past now answer) : ∃ s, (s, .pass now) ∈ past := by
  induction h with
  | visited => exact ⟨_, List.mem_cons_self⟩
  | before _ _ ih =>
    obtain ⟨s, hs⟩ := ih
    exact ⟨s, List.mem_cons_of_mem _ hs⟩

/-- Anything, and passes whose deadlines can all be formed. -/
def Completing (policy : PacePolicy) (s : System) : Event → Prop
  | .pass now => (s.engine.pass policy s.schedule now).overflow = false
  | .declare _ | .correct _ | .call _ => True

instance (policy : PacePolicy) (s : System) : DecidablePred (Completing policy s)
  | .pass now =>
    inferInstanceAs (Decidable ((s.engine.pass policy s.schedule now).overflow = false))
  | .declare _ | .correct _ | .call _ => .isTrue trivial

section

variable {policy : PacePolicy} {store : Store} {cap : UInt32} {conflicts : ConflictPolicy}
  {past : List (System × Event)} {s : System}

/-- Every deadline comes from the last visit of its registry. -/
theorem Run.timed (run : Run policy (Completing policy) (.start store cap conflicts) past s)
    {q : PoolId} {due : Millis} (hdue : s.schedule.deadline? q = some due) :
    ∃ now answer delay, LastVisit policy q past now answer ∧
      requeueAfter policy answer = some delay ∧ delay ∈ policy.waits ∧ due = now + delay := by
  induction run generalizing due with
  | start => simp [System.start, Schedule.empty, Schedule.deadline?] at hdue
  | @step past s before event hadmits ih =>
    have hs := before.sound (Engine.sound_start store cap conflicts)
    cases event with
    | declare | correct | call =>
      obtain ⟨t, answer, delay, hlast, hdelay⟩ := ih hdue
      exact ⟨t, answer, delay, hlast.before (fun _ h => by cases h), hdelay⟩
    | pass now =>
      by_cases hvisited : ∃ answer, (q, answer) ∈ s.engine.answers policy s.schedule now
      · obtain ⟨answer, hvisited⟩ := hvisited
        obtain ⟨hdeadline, -⟩ := Engine.visited_pass hs hadmits hvisited
        obtain ⟨delay, hdelay, rfl⟩ := Option.map_eq_some_iff.1 (hdeadline.symm.trans hdue)
        exact ⟨now, answer, delay, .visited hvisited, hdelay,
          Engine.delay_mem_of_answer hs hvisited hdelay, rfl⟩
      · have hsame := Engine.unvisited_pass hs (not_exists.1 hvisited)
        obtain ⟨d, hd, rfl⟩ := Option.map_eq_some_iff.1 hdue
        have hbefore : s.schedule.deadline? q = some d.due := by
          unfold Schedule.deadline?
          rw [((Engine.deadline_midway hs).1 (hsame.deadline.symm.trans hd)).1]
          rfl
        obtain ⟨t, answer, delay, hlast, hdelay⟩ := ih hbefore
        refine ⟨t, answer, delay, hlast.before ?_, hdelay⟩
        rintro _ ⟨⟩
        exact not_exists.1 hvisited

/-- After a pass the registries of the store are those with a deadline, and each deadline is the
time of the registry's last visit plus a wait, the short one if that visit failed; and the pass
visited every registry whose last visit lay back by the longest wait. -/
theorem deadline_of_last_visit
    (run : Run policy (Completing policy) (.start store cap conflicts) past s) {now : Millis}
    (hover : (s.engine.pass policy s.schedule now).overflow = false) :
    (∀ q, (∃ due, (s.step policy (.pass now)).schedule.deadline? q = some due) ↔
      q ∈ (s.step policy (.pass now)).engine.store.registryIds) ∧
    (∀ q due, (s.step policy (.pass now)).schedule.deadline? q = some due →
      ∃ t answer delay, LastVisit policy q ((s, .pass now) :: past) t answer ∧ due = t + delay ∧
        delay ∈ [policy.veryShortWait, policy.shortWait, policy.interval] ∧
        ∀ err, answer = .error err → delay = policy.shortWait) ∧
    ∀ q ∈ s.engine.store.registryIds,
      (∀ t answer, LastVisit policy q past t answer →
        t + max policy.veryShortWait (max policy.shortWait policy.interval) ≤ now) →
      ∃ answer, (q, answer) ∈ s.engine.answers policy s.schedule now := by
  have hs : s.engine.Sound := run.sound (Engine.sound_start store cap conflicts)
  refine ⟨Engine.scheduled_iff_stored hs hover, fun q due hdue => ?_, fun q hq hlate => ?_⟩
  · obtain ⟨t, answer, delay, hlast, hdelay, hmem, rfl⟩ := (run.step (.pass now) hover).timed hdue
    refine ⟨t, answer, delay, hlast, rfl, hmem, fun err herr => ?_⟩
    rw [herr] at hdelay
    exact (Option.some.inj hdelay).symm
  · refine Engine.visited_of_due hs hover hq fun due hdue => ?_
    obtain ⟨t, answer, delay, hlast, -, hmem, rfl⟩ := run.timed hdue
    refine le_trans (Nat.add_le_add_left ?_ t) (hlate t answer hlast)
    simp only [PacePolicy.waits, List.mem_cons, List.not_mem_nil, or_false] at hmem
    rcases hmem with rfl | rfl | rfl <;> simp

/-- The clock went back before the last pass, which left both deadlines as they were: one behind the
second visit of "net.ids", one behind the only visit of "net.bad", which has no size. A minute after
the last visit both are visited. -/
theorem deadlines_after_clock_went_back :
    ∃ (ids bad : PoolId) (past : List (System × Event)) (s : System),
      Run .standard (Completing .standard) (.start .empty 3 .keepExisting) past s ∧
        past.head?.map (·.2) = some (.pass 4000) ∧
        s.schedule.deadline? ids = some 17000 ∧ s.schedule.deadline? bad = some 15000 ∧
        (s.engine.pass .standard s.schedule 72000).overflow = false ∧
        (∃ answer, (ids, answer) ∈ s.engine.answers .standard s.schedule 72000) ∧
        (∃ answer, (bad, answer) ∈ s.engine.answers .standard s.schedule 72000) ∧
        ∃ t answer delay, LastVisit .standard bad ((s, .pass 72000) :: past) t answer ∧
          77000 = t + delay ∧ delay ∈ [1000, 5000, 60000] := by
  let ids : PoolId := ⟨"net", "ids", rfl, rfl⟩
  let bad : PoolId := ⟨"net", "bad", rfl, rfl⟩
  let start : System := .start .empty 3 .keepExisting
  let events : List Event :=
    [.pass 4000, .pass 12000, .pass 10000, .declare (.registry bad ⟨none, none, none, none⟩),
      .declare (.registry ids (.ofSize 1))]
  let s : System := start.after .standard events
  have hrun : Run .standard (Completing .standard) start (start.past .standard events) s :=
    run_after events (by decide +kernel)
  have hover : (s.engine.pass .standard s.schedule 72000).overflow = false := by decide +kernel
  obtain ⟨-, hdeadline, hvisits⟩ := deadline_of_last_visit hrun hover
  have hlate : ∀ q t answer, LastVisit .standard q (start.past .standard events) t answer →
      t + 60000 ≤ 72000 := by
    intro q t answer hlast
    obtain ⟨s', hs'⟩ := hlast.mem_past
    simp only [events, System.past, List.mem_cons, Prod.mk.injEq, Event.pass.injEq, reduceCtorEq,
      and_false, List.not_mem_nil, or_false] at hs'
    rcases hs' with ⟨-, rfl⟩ | ⟨-, rfl⟩ | ⟨-, rfl⟩ <;> decide
  obtain ⟨t, answer, delay, hlast, hdue, hdelay, -⟩ := hdeadline bad 77000 (by decide +kernel)
  exact ⟨ids, bad, _, s, hrun, rfl, by decide +kernel, by decide +kernel, hover,
    hvisits ids (by decide +kernel) (hlate ids), hvisits bad (by decide +kernel) (hlate bad),
    t, answer, delay, hlast, hdue, hdelay⟩

end

end IndexPools
