import IndexPools.Proofs.Deadlines
import IndexPools.Proofs.Rekeying

/-!
# Pace levels along histories

A deadline is recorded with the pace level that its visit left, and a level below it brings the next
visit forward. Beside the call that resets it, no call lowers the level of a pool but one that
creates the pool, places a key in it, or releases one (`Call.paced`), and so no history does
(`Trace.paced`). As a pass that returns records each of its visits, a visit that comes before its
time has such a cause behind the registry's last visit (`Run.recorded`, `cause_of_visit`). A pool
has a level at all exactly while it is live (`tracked_iff_initialized`).
-/

namespace IndexPools

namespace Engine

/-- The pool was created, a key was placed in it, or one was released from it. -/
def Stirred (e e' : Engine) (pool : PoolId) : Prop :=
  (pool ∉ e.poolIds ∧ pool ∈ e'.poolIds) ∨
    (∃ key ∈ (e'.snapshot pool).used, key ∉ (e.snapshot pool).used) ∨
    (pool ∈ e'.poolIds ∧ ∃ key ∈ (e.snapshot pool).used, key ∉ (e'.snapshot pool).used)

instance (e e' : Engine) (pool : PoolId) : Decidable (e.Stirred e' pool) :=
  inferInstanceAs (Decidable ((pool ∉ e.poolIds ∧ pool ∈ e'.poolIds) ∨
    (∃ key ∈ (e'.snapshot pool).used, key ∉ (e.snapshot pool).used) ∨
    (pool ∈ e'.poolIds ∧ ∃ key ∈ (e.snapshot pool).used, key ∉ (e'.snapshot pool).used)))

/-- The pool was stirred, or its level did not fall. -/
def Paced (e e' : Engine) (pool : PoolId) : Prop :=
  e.Stirred e' pool ∨ (e.paceLevel pool).value ≤ (e'.paceLevel pool).value

variable {e e₁ e' : Engine} {pool q : PoolId} {t : SlotTable} {i : Nat} {a : Allocation}

theorem Stirred.congr (h : e.Stirred e₁ q) (hpools : e'.pools = e₁.pools) : e.Stirred e' q := by
  unfold Stirred poolIds snapshot at h ⊢
  rwa [hpools]

theorem not_stirred_of_pools (h : e'.pools = e.pools) : ¬ e.Stirred e' q := by
  unfold Stirred poolIds snapshot
  rw [h]
  rintro (⟨hnew, hold⟩ | ⟨key, hnew, hold⟩ | ⟨-, key, hold, hnew⟩)
  · exact hnew hold
  · exact hold hnew
  · exact hnew hold

/-- A pool stays paced as long as its level does not fall thereafter. -/
theorem Paced.later (h : e.Paced e₁ q) (hpools : e'.pools = e₁.pools)
    (hle : (e₁.paceLevel q).value ≤ (e'.paceLevel q).value) : e.Paced e' q :=
  h.imp (fun hstirred => hstirred.congr hpools) fun hle' => UInt32.le_trans hle' hle

theorem paced_of_level (h : e'.paceLevel q = e.paceLevel q) : e.Paced e' q :=
  .inr (h ▸ UInt32.le_refl _)

theorem SameAt.paced (h : SameAt e e' q) : e.Paced e' q := paced_of_level h.paceLevel_eq

/-- No level is above that of a pool that is not tracked. -/
theorem le_inactive (l : UInt32) : l ≤ PaceLevel.inactive.value := by
  rw [UInt32.le_iff_toNat_le]
  have := l.toNat_lt
  have hinactive : PaceLevel.inactive.value.toNat = 4294967295 := rfl
  omega

theorem le_level_of_relevel {p : Pacer} {f : UInt32 → UInt32}
    (hlevels : ∀ q : PoolId, p.levels[q]? =
      if pool = q then e.pacer.levels[pool]?.map f else e.pacer.levels[q]?)
    (hf : ∀ l, e.pacer.levels[pool]? = some l → l ≤ f l) (q : PoolId) :
    (e.pacer.level q).value ≤ (p.level q).value := by
  unfold Pacer.level
  rw [hlevels]
  split_ifs with hq
  · rw [← hq]
    rcases hl : e.pacer.levels[pool]? with _ | l
    · exact UInt32.le_refl _
    · exact hf l hl
  · exact UInt32.le_refl _

theorem le_add_one_of_lt {l cap : UInt32} (h : l < cap) : l ≤ l + 1 := by
  rw [UInt32.le_iff_toNat_le, Pacer.toNat_add_one h]
  exact Nat.le_succ _

theorem le_level_nextDelay (e : Engine) (pool : PoolId) (policy : PacePolicy) (q : PoolId) :
    (e.paceLevel q).value ≤ ((e.nextDelay pool policy).2.paceLevel q).value := by
  refine le_level_of_relevel (fun q => Pacer.levels_nextDelay e.pacer pool q policy) ?_ q
  intro l _
  split_ifs with hlt
  · exact le_add_one_of_lt hlt
  · exact UInt32.le_refl _

theorem Sound.le_level_incrementPace (hs : e.Sound) (pool q : PoolId) :
    (e.paceLevel q).value ≤ ((e.incrementPace pool).paceLevel q).value := by
  refine le_level_of_relevel (fun q => Pacer.levels_increment e.pacer pool q) ?_ q
  intro l hl
  split_ifs
  · exact le_add_one_of_lt (UInt32.lt_of_le_of_lt (hs.capped hl) hs.below)
  · exact hs.capped hl

theorem paced_deletePool (e : Engine) (pool q : PoolId) : e.Paced (e.deletePool pool).2 q := by
  by_cases hq : pool = q
  · have huntracked : (e.deletePool pool).2.pacer.levels[q]? = none :=
      (Pacer.levels_forget _ _ _).trans (if_pos hq)
    refine .inr ?_
    rw [paceLevel_of_untracked huntracked]
    exact le_inactive _
  · exact (sameAt_deletePool hq).paced

/-- A key that was missing is placed. -/
theorem paced_put (hlive : e.pools.live[pool]? = some t) {start : Nat}
    (habsent : t.Absent a.key) (hvacant : t.vacancy start = some i) (q : PoolId) :
    e.Paced (e.retable pool (t.put i a)) q := by
  by_cases hq : pool = q
  · subst hq
    exact .inl (.inr (.inl
      ⟨a.key, mem_used_put hlive hvacant, not_mem_used_of_absent hlive habsent⟩))
  · exact (sameAt_retable hq).paced

/-- A held key is released. -/
theorem paced_vacate (hs : e.Sound) (hlive : e.pools.live[pool]? = some t)
    (hheld : t.holder? i = some a) (q : PoolId) : e.Paced (e.retable pool (t.vacate i)) q := by
  by_cases hq : pool = q
  · subst hq
    exact .inl (.inr (.inr ⟨mem_poolIds.2 ⟨_, live_retable_self⟩, a.key,
      mem_used_of_held hlive hheld, not_mem_used_vacate hs hlive hheld⟩))
  · exact (sameAt_retable hq).paced

theorem SetUp.paced (h : SetUp e pool e') (q : PoolId) : e.Paced e' q := by
  cases h with
  | kept => exact paced_of_level rfl
  | opened hnew =>
    by_cases hq : pool = q
    · subst hq
      refine .inl (.inl ⟨fun hmem => ?_, mem_poolIds.2 ⟨_, (live_opened _).trans (if_pos rfl)⟩⟩)
      obtain ⟨t', ht'⟩ := mem_poolIds.1 hmem
      cases hnew.symm.trans ht'
    · exact (sameAt_opened hq).paced

theorem Rekeyed.paced (h : Rekeyed e pool e') (hs : e.Sound) (q : PoolId) : e.Paced e' q := by
  cases h with
  | kept => exact paced_of_level rfl
  | placed hlive habsent hvacant => exact paced_put hlive habsent hvacant q
  | freed hlive hheld => exact paced_vacate hs hlive hheld q

theorem RegisterVisit.paced {r : RegisterRecord}
    {res : Except ReconcileError RegisterOutcome × Engine} (h : RegisterVisit e r res)
    (hs : e.Sound) (q : PoolId) : e.Paced res.2 q := by
  have hsettle : ∀ (e₁ : Engine) (i : Nat), e.Paced e₁ q → e.Paced (e₁.settle r i).2 q := by
    intro e₁ i h₁
    obtain ⟨registers, hw⟩ := settle_frame e₁ r i
    rw [hw]
    exact h₁.later rfl (UInt32.le_refl _)
  have hdiscard : ∀ e₁ : Engine, e.Paced e₁ q → e.Paced (e₁.discard r).2 q := by
    intro e₁ h₁
    obtain ⟨registers, hw⟩ := discard_frame e₁ r
    rw [hw]
    exact h₁.later rfl (UInt32.le_refl _)
  cases h with
  | failed => exact paced_of_level rfl
  | kept => exact hsettle e _ (paced_of_level rfl)
  | placed _ _ _ hlive habsent hvacant => exact hsettle _ _ (paced_put hlive habsent hvacant q)
  | idle => exact hdiscard e (paced_of_level rfl)
  | freed _ _ _ hlive hheld => exact hdiscard _ (paced_vacate hs hlive hheld q)

theorem RegistryVisit.paced {policy : PacePolicy}
    {res : Except ReconcileError RegistryOutcome × Engine} (h : RegistryVisit policy e pool res)
    (q : PoolId) : e.Paced res.2 q := by
  cases h with
  | missing | unset => exact paced_of_level rfl
  | blocked => exact .inr (le_level_nextDelay e pool policy q)
  | deleted => exact (paced_deletePool e pool q).later rfl (UInt32.le_refl _)
  | @synced record e' _ _ hset =>
    exact (hset.paced q).later rfl (le_level_nextDelay (e'.mirrored pool record) pool policy q)

end Engine

theorem Call.paced {e : Engine} (hs : e.Sound) {c : Call} (hreset : ∀ pool, c ≠ .resetPace pool)
    (q : PoolId) : e.Paced (c.apply e) q := by
  cases c with
  | initPool pool capacity strategy =>
    rcases Engine.initPool_cases hs pool capacity strategy with
      ⟨err, he, -⟩ | ⟨created, e', he, hset⟩
    · simp only [apply, he]
      exact Engine.paced_of_level rfl
    · simp only [apply, he]
      exact hset.paced q
  | initDeclared pool =>
    rcases Engine.initDeclared_cases hs pool with ⟨err, he, -⟩ | ⟨created, e', he, hset⟩
    · simp only [apply, he]
      exact Engine.paced_of_level rfl
    · simp only [apply, he]
      exact hset.paced q
  | deletePool pool => exact e.paced_deletePool pool q
  | register | deregister | allocate | release => exact (Call.rekeyed hs rfl).paced hs q
  | resetPace pool => exact absurd rfl (hreset pool)
  | incrementPace pool => exact .inr (hs.le_level_incrementPace pool q)
  | nextDelay pool policy => exact .inr (e.le_level_nextDelay pool policy q)
  | reconcileRegister r => exact (Engine.registerVisit_cases hs r).paced hs q
  | reconcileRegistry policy pool => exact (Engine.registryVisit_cases hs policy pool).paced q

theorem Trace.paced {e₀ e : Engine} {calls : List (Engine × Call)} (h : Trace e₀ calls e)
    (hs : e₀.Sound) (hreset : ∀ x ∈ calls, ∀ pool, x.2 ≠ .resetPace pool) (q : PoolId) :
    (∃ x ∈ calls, x.1.Stirred (x.2.apply x.1) q) ∨
      (e₀.paceLevel q).value ≤ (e.paceLevel q).value := by
  induction h with
  | start => exact .inr (UInt32.le_refl _)
  | store _ s ih => exact ih hreset
  | call before c ih =>
    obtain ⟨hc, hcalls⟩ := List.forall_mem_cons.1 hreset
    rcases ih hcalls with ⟨x, hx, hstirs⟩ | hle
    · exact .inl ⟨x, List.mem_cons_of_mem _ hx, hstirs⟩
    · rcases Call.paced (before.sound hs) hc q with hstirs | hle'
      · exact .inl ⟨_, List.mem_cons_self, hstirs⟩
      · exact .inr (UInt32.le_trans hle hle')

theorem Call.Reconciles.ne_resetPace {registers : List RegisterRecord} {c : Call}
    (h : c.Reconciles registers) (pool : PoolId) : c ≠ .resetPace pool := by
  rcases h with ⟨r, -, rfl⟩ | ⟨policy, q, rfl⟩
  · exact Call.noConfusion
  · exact Call.noConfusion

/-- Everything but that the pace of a pool is set back by itself. -/
def Unreset : Event → Prop
  | .call (.resetPace _) => False
  | _ => True

instance : DecidablePred Unreset
  | .call (.resetPace _) => .isFalse id
  | .declare _ | .correct _ | .pass _ | .call (.initPool _ _ _) | .call (.initDeclared _)
  | .call (.deletePool _) | .call (.register _) | .call (.deregister _)
  | .call (.allocate _ _ _ _) | .call (.release _ _ _ _) | .call (.incrementPace _)
  | .call (.nextDelay _ _) | .call (.reconcileRegister _) | .call (.reconcileRegistry _ _) =>
    .isTrue trivial

/-- All passes return, and no pace is set back by itself. -/
def Steady (policy : PacePolicy) (s : System) (event : Event) : Prop :=
  Completing policy s event ∧ Unreset event

instance (policy : PacePolicy) (s : System) : DecidablePred (Steady policy s) :=
  fun event => inferInstanceAs (Decidable (Completing policy s event ∧ Unreset event))

theorem ne_resetPace_of_unreset {policy : PacePolicy} {s : System} {event : Event}
    (h : Unreset event) : ∀ x ∈ s.calls policy event, ∀ pool, x.2 ≠ .resetPace pool := by
  intro x hx pool
  cases event with
  | declare | correct => cases hx
  | call c =>
    rw [List.mem_singleton.1 hx]
    rintro rfl
    exact h
  | pass now => exact (s.engine.reconciles_of_passCalls policy s.schedule now hx).ne_resetPace pool

/-- The registry's pool was stirred since the last visit of the registry. -/
inductive StirredSince (policy : PacePolicy) (q : PoolId) : (past : List (System × Event)) → Prop
  | now {past : List (System × Event)} {s : System} {event : Event}
      (hstirred : ∃ x ∈ s.calls policy event, x.1.Stirred (x.2.apply x.1) q)
      (hunvisited : ∀ now, event = .pass now →
        ∀ answer, (q, answer) ∉ s.engine.answers policy s.schedule now) :
      StirredSince policy q ((s, event) :: past)
  | before {past : List (System × Event)} {s : System} {event : Event}
      (earlier : StirredSince policy q past)
      (hunvisited : ∀ now, event = .pass now →
        ∀ answer, (q, answer) ∉ s.engine.answers policy s.schedule now) :
      StirredSince policy q ((s, event) :: past)

/-- No level falls below the one that was recorded with the deadline, unless the pool was stirred
since the visit that recorded it. -/
theorem Run.recorded {policy : PacePolicy} {q : PoolId} {past : List (System × Event)}
    {s₀ s : System} (run : Run policy (Steady policy) s₀ past s) (h₀ : s₀.engine.Sound)
    (hempty : s₀.schedule = .empty) {d : Deadline} (hd : s.schedule.deadlines[q]? = some d) :
    d.level.value ≤ (s.engine.paceLevel q).value ∨ StirredSince policy q past := by
  induction run generalizing d with
  | start => simp [hempty, Schedule.empty] at hd
  | @step past s before event hadmits ih =>
    have hs := before.sound h₀
    obtain ⟨hreturns, hunreset⟩ := hadmits
    -- what an event that does not visit the registry leaves of its deadline
    have hkept : (∀ now, event = .pass now → ∀ answer,
          (q, answer) ∉ s.engine.answers policy s.schedule now) →
        s.schedule.deadlines[q]? = some d →
        d.level.value ≤ ((s.step policy event).engine.paceLevel q).value ∨
          StirredSince policy q ((s, event) :: past) := by
      intro hunvisited hd
      rcases ih hd with hle | hstirred
      · rcases (System.trace_step policy s event).paced hs (ne_resetPace_of_unreset hunreset) q with
          hstirs | hle'
        · exact .inr (.now hstirs hunvisited)
        · exact .inl (UInt32.le_trans hle hle')
      · exact .inr (.before hstirred hunvisited)
    cases event with
    | declare | correct | call => exact hkept (fun _ h => by cases h) hd
    | pass now =>
      by_cases hvisited : ∃ answer, (q, answer) ∈ s.engine.answers policy s.schedule now
      · obtain ⟨answer, hvisited⟩ := hvisited
        rw [Engine.level_of_answer hs hvisited (Engine.not_faults_of_answer hreturns hvisited) hd]
        exact .inl (UInt32.le_refl _)
      · have hsame := Engine.unvisited_pass hs (not_exists.1 hvisited)
        refine hkept ?_ ((Engine.deadline_midway hs).1 (hsame.deadline.symm.trans hd)).1
        rintro _ ⟨⟩
        exact not_exists.1 hvisited

/-- An idle call leaves the pools as they are, and lowers no level. -/
theorem Call.Idle.pools_and_levels {c : Call} {e : Engine} (h : c.Idle e) (hs : e.Sound) :
    (c.apply e).pools = e.pools ∧
      ∀ q, (e.paceLevel q).value ≤ ((c.apply e).paceLevel q).value := by
  have hsame : ∀ {e' : Engine}, e' = e → e'.pools = e.pools ∧
      ∀ q, (e.paceLevel q).value ≤ (e'.paceLevel q).value := by
    rintro _ rfl
    exact ⟨rfl, fun q => UInt32.le_refl _⟩
  cases c with
  | initPool pool capacity strategy =>
    obtain ⟨err, herr⟩ := h
    rcases Engine.initPool_cases hs pool capacity strategy with ⟨err', he, -⟩ | ⟨created, e', he, -⟩
    · exact hsame (congrArg Prod.snd he)
    · cases (congrArg Prod.fst he).symm.trans herr
  | initDeclared pool =>
    obtain ⟨err, herr⟩ := h
    rcases Engine.initDeclared_cases hs pool with ⟨err', he, -⟩ | ⟨created, e', he, -⟩
    · exact hsame (congrArg Prod.snd he)
    · cases (congrArg Prod.fst he).symm.trans herr
  | register | allocate | deregister | release =>
    exact hsame ((Call.rekeyed hs rfl).eq_of_sameKeys hs ((Call.idle_iff_sameKeys hs rfl).1 h))
  | incrementPace pool => exact ⟨rfl, hs.le_level_incrementPace pool⟩
  | nextDelay pool policy => exact ⟨rfl, e.le_level_nextDelay pool policy⟩
  | deletePool | resetPace | reconcileRegister | reconcileRegistry => exact h.elim

theorem Schedule.isDue_of_level_le {schedule : Schedule} {q : PoolId} {now : Millis}
    {l l' : PaceLevel} (hle : l.value ≤ l'.value) (h : schedule.isDue q now l' = true) :
    schedule.isDue q now l = true := by
  unfold isDue at h ⊢
  rcases hd : schedule.deadlines[q]? with _ | d
  · rfl
  · simp only [hd, Bool.or_eq_true, decide_eq_true_eq] at h ⊢
    exact h.imp_right (UInt32.lt_of_le_of_lt hle)

/-- While all passes return and no pace is set back by itself, a registry is visited only if it has
no deadline, or its deadline has come, or its pool was stirred since its last visit, be it by a
register of the same pass. A call that finds nothing to change stirs no pool and makes no registry
due. -/
theorem cause_of_visit {policy₀ policy : PacePolicy} {store : Store} {cap : UInt32}
    {conflicts : ConflictPolicy} {past₀ past : List (System × Event)} {s₀ s : System}
    (reached : Run policy₀ (fun _ _ => True) (.start store cap conflicts) past₀ s₀)
    (run : Run policy (Steady policy) ⟨s₀.engine, .empty⟩ past s) :
    (∀ q answer now, (q, answer) ∈ s.engine.answers policy s.schedule now →
      s.schedule.deadline? q = none ∨ (∃ due ≤ now, s.schedule.deadline? q = some due) ∨
        (∃ x ∈ Engine.registerCalls s.engine.store.registerList s.engine,
          x.1.Stirred (x.2.apply x.1) q) ∨
        StirredSince policy q past) ∧
    ∀ c : Call, c.Idle s.engine → ∀ q, ¬ s.engine.Stirred (c.apply s.engine) q ∧
      ∀ now, s.schedule.isDue q now ((c.apply s.engine).paceLevel q) = true →
        s.schedule.isDue q now (s.engine.paceLevel q) = true := by
  have h₀ : s₀.engine.Sound := reached.sound (Engine.sound_start store cap conflicts)
  have hs : s.engine.Sound := run.sound h₀
  refine ⟨fun q answer now hvisited => ?_, fun c hidle q => ?_⟩
  · have hdue := Engine.due_of_answer hs hvisited
    have hstored : q ∈ s.engine.store.registryIds := by
      rw [Engine.mem_registryIds, ← Engine.registries_midway hs s.schedule,
        ← Engine.mem_registryIds]
      exact Pass.mem_of_answer hvisited
    unfold Schedule.deadline?
    rcases hd : s.schedule.deadlines[q]? with _ | d
    · exact .inl rfl
    · unfold Schedule.isDue at hdue
      rw [(Engine.deadline_midway hs).2 ⟨hd, hstored⟩] at hdue
      simp only [Bool.or_eq_true, decide_eq_true_eq] at hdue
      rcases hdue with hdue | hlevel
      · exact .inr (.inl ⟨d.due, hdue, rfl⟩)
      · rcases (s.engine.trace_midway s.schedule).paced hs
            (fun x hx => Call.Reconciles.ne_resetPace (.inl (Engine.mem_registerCalls hx))) q with
          hstirs | hle
        · exact .inr (.inr (.inl hstirs))
        · -- the level fell below the one that was recorded before this pass began
          rcases run.recorded h₀ rfl hd with hle' | hstirred
          · exact absurd (UInt32.lt_of_le_of_lt (UInt32.le_trans hle' hle) hlevel)
              (UInt32.lt_irrefl _)
          · exact .inr (.inr (.inr hstirred))
  · obtain ⟨hpools, hlevel⟩ := hidle.pools_and_levels hs
    exact ⟨Engine.not_stirred_of_pools hpools, fun now => Schedule.isDue_of_level_le (hlevel q)⟩

/-- The key "a" is placed four seconds before the deadline, which brings the visit forward although
the pace is moved on again; a second registration of the key would not. -/
theorem cause_of_early_visit :
    ∃ (ids : PoolId) (past₀ past : List (System × Event)) (s₀ s : System)
      (answer : Except ReconcileError RegistryOutcome) (again : Call),
      Run .standard (fun _ _ => True) (.start .empty 3 .reject) past₀ s₀ ∧
        Run .standard (Steady .standard) ⟨s₀.engine, .empty⟩ past s ∧
        (ids, answer) ∈ s.engine.answers .standard s.schedule 2000 ∧
        s.schedule.deadline? ids = some 6000 ∧
        StirredSince .standard ids past ∧
        again.Idle s.engine ∧ ¬ s.engine.Stirred (again.apply s.engine) ids := by
  let ids : PoolId := ⟨"net", "ids", rfl, rfl⟩
  let s₀ : System := (System.start .empty 3 .reject).after .standard
    [.call (.resetPace ids), .call (.initPool ids 2 .firstAvailable)]
  let events : List Event :=
    [.call (.incrementPace ids), .call (.allocate ids "x" "a" none), .pass 1000, .pass 0,
      .declare (.registry ids (.ofSize 2))]
  let s : System := (System.mk s₀.engine .empty).after .standard events
  have hreached : Run .standard (fun _ _ => True) (.start .empty 3 .reject) _ s₀ :=
    run_after _ fun _ _ => trivial
  have hrun : Run .standard (Steady .standard) ⟨s₀.engine, .empty⟩ _ s :=
    run_after events (by decide +kernel)
  have hvisited : (ids, .ok (.synced ⟨2, 1, 1, ["a"]⟩ 5000)) ∈
      s.engine.answers .standard s.schedule 2000 := by decide +kernel
  have hdeadline : s.schedule.deadline? ids = some 6000 := by decide +kernel
  have hidle : (Call.allocate ids "z" "a" none).Idle s.engine :=
    .inl ⟨.ownershipConflict ids "a" "x", by decide +kernel⟩
  obtain ⟨hcause, hstill⟩ := cause_of_visit hreached hrun
  refine ⟨ids, _, _, s₀, s, _, _, hreached, hrun, hvisited, hdeadline, ?_, hidle,
    (hstill _ hidle ids).1⟩
  rcases hcause ids _ 2000 hvisited with hnone | ⟨due, hdue, hsome⟩ | hregister | hsince
  · cases hdeadline.symm.trans hnone
  · cases hdeadline.symm.trans hsome
    exact absurd hdue (by decide)
  · exact absurd hregister (by decide +kernel)
  · exact hsince

/-- At every point of a run, also between two visits of a pass, a pool is tracked just if it is
set up. -/
theorem tracked_iff_initialized {policy : PacePolicy} {store : Store} {cap : UInt32}
    {conflicts : ConflictPolicy} {past : List (System × Event)} {s : System}
    (run : Run policy (fun _ _ => True) (.start store cap conflicts) past s)
    {calls : List (Engine × Call)} {e : Engine} (since : Trace s.engine calls e) (pool : PoolId) :
    e.paceLevel pool ≠ .inactive ↔ pool ∈ e.poolIds := by
  have hs : e.Sound := since.sound (run.sound (Engine.sound_start store cap conflicts))
  rw [Engine.mem_poolIds]
  rcases hlive : e.pools.live[pool]? with _ | t
  · rw [Engine.paceLevel_of_untracked (hs.untracked hlive)]
    simp
  · obtain ⟨l, hl⟩ := hs.level_of_live hlive
    -- the cap keeps a tracked level below the inactive one
    have hlt : l < PaceLevel.inactive.value := UInt32.lt_of_le_of_lt (hs.capped hl) hs.below
    rw [Engine.paceLevel_of_level hl]
    refine iff_of_true (fun heq => ?_) ⟨t, rfl⟩
    exact UInt32.lt_irrefl _ (congrArg PaceLevel.value heq ▸ hlt)

/-- Of three pools that were asked for, one was given no slot and one has no size, and neither is
tracked, whatever is asked of its pace; the third is, under the largest cap, also while the pass
goes on that follows its second set-up. -/
theorem tracked_beside_refused :
    ∃ (ids slotless sizeless : PoolId) (past : List (System × Event)) (s : System)
      (calls : List (Engine × Call)) (e : Engine),
      Run .standard (fun _ _ => True) (.start .empty 4294967295 .keepExisting) past s ∧
        Trace s.engine calls e ∧ calls.length = 2 ∧
        ids ∈ e.poolIds ∧ e.paceLevel ids ≠ .inactive ∧
        slotless ∉ e.poolIds ∧ e.paceLevel slotless = .inactive ∧
        sizeless ∉ e.poolIds ∧ e.paceLevel sizeless = .inactive := by
  let ids : PoolId := ⟨"net", "ids", rfl, rfl⟩
  let slotless : PoolId := ⟨"net", "slotless", rfl, rfl⟩
  let sizeless : PoolId := ⟨"net", "sizeless", rfl, rfl⟩
  let events : List Event :=
    [.call (.initDeclared ids), .correct (.removeRegistry slotless), .call (.deletePool ids),
      .pass 1000, .pass 0, .call (.nextDelay sizeless .standard), .call (.incrementPace sizeless),
      .call (.resetPace slotless), .call (.initPool slotless 0 .hash),
      .call (.initPool slotless 16777217 .hash),
      .declare (.registry sizeless ⟨none, none, none, none⟩),
      .declare (.registry slotless (.ofSize 0)), .declare (.registry ids (.ofSize 1))]
  let s : System := (System.start .empty 4294967295 .keepExisting).after .standard events
  have hrun : Run .standard (fun _ _ => True) (.start .empty 4294967295 .keepExisting) _ s :=
    run_after events fun _ _ => trivial
  have hsince : Trace s.engine _ _ :=
    (Trace.start.call (.reconcileRegistry .standard sizeless)).call
      (.reconcileRegistry .standard ids)
  have htracked := tracked_iff_initialized hrun hsince
  have hids : ids ∈ Engine.poolIds _ := (htracked ids).1 (by decide +kernel)
  have hslotless : slotless ∉ Engine.poolIds _ :=
    fun h => (htracked slotless).2 h (by decide +kernel)
  have hsizeless : sizeless ∉ Engine.poolIds _ :=
    fun h => (htracked sizeless).2 h (by decide +kernel)
  exact ⟨ids, slotless, sizeless, _, s, _, _, hrun, hsince, rfl, hids, (htracked ids).2 hids,
    hslotless, not_not.1 fun h => hslotless ((htracked slotless).1 h), hsizeless,
    not_not.1 fun h => hsizeless ((htracked sizeless).1 h)⟩

end IndexPools
