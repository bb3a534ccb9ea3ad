import IndexPools.Proofs.Deadlines
import IndexPools.Settings

/-!
# Waits that settings accept

Settings take any number of seconds for a wait: each of the three waits is what its variable holds,
or at most a minute where that is not set (`Settings.wait_of_ofVars`). A wait that is too long ends
a pass early, at the first visit that asks for it (`pass_ended_by_wait`). Nothing else does: if
every wait that is set fits behind the present moment, a pass comes to its end, and each registry
that is left has a deadline (`completes_of_settings`).
-/

namespace IndexPools

theorem deadlineAfter?_eq_none {now delay : Millis} :
    deadlineAfter? now delay = none ↔ lastDueSecond < (now + delay) / 1000 := by
  unfold deadlineAfter?
  simp only []
  split_ifs with h
  · simpa using h
  · simpa using h

/-- Whole seconds are counted after those of the moment itself. -/
theorem add_ofSeconds_div (now : Millis) (n : Nat) :
    (now + Millis.ofSeconds n) / 1000 = now / 1000 + n :=
  Nat.add_mul_div_right now n (by decide)

theorem exists_of_bind_ok {ε α β : Type} {x : Except ε α} {f : α → Except ε β} {b : β}
    (h : x >>= f = .ok b) : ∃ a, x = .ok a ∧ f a = .ok b := by
  rcases x with err | a
  · cases h
  · exact ⟨a, rfl, h⟩

namespace Settings

variable {vars : String → Option String} {settings : Settings}

theorem policy_of_ofVars (h : ofVars vars = .ok settings) :
    seconds vars veryShortVar PacePolicy.standard.veryShortWait
        = .ok settings.policy.veryShortWait ∧
      seconds vars shortVar PacePolicy.standard.shortWait = .ok settings.policy.shortWait ∧
      seconds vars intervalVar PacePolicy.standard.interval = .ok settings.policy.interval := by
  unfold ofVars at h
  obtain ⟨tick, -, h⟩ := exists_of_bind_ok h
  split_ifs at h with htick
  · cases h
  · obtain ⟨veryShort, hveryShort, h⟩ := exists_of_bind_ok h
    obtain ⟨short, hshort, h⟩ := exists_of_bind_ok h
    obtain ⟨interval, hinterval, h⟩ := exists_of_bind_ok h
    obtain ⟨cap, -, h⟩ := exists_of_bind_ok h
    obtain ⟨conflicts, -, h⟩ := exists_of_bind_ok h
    cases h
    exact ⟨hveryShort, hshort, hinterval⟩

/-- What is read for a wait is the number in its variable, or the default in whole seconds. -/
theorem seconds_eq_ok {key : String} {default wait : Millis}
    (h : seconds vars key default = .ok wait) :
    ∃ n, wait = .ofSeconds n ∧ (n = default / 1000 ∨
      ∃ value, vars key = some value ∧ Numeral.read maxUInt64 value = .ok n) := by
  unfold seconds number at h
  rcases hkey : vars key with _ | value
  · rw [hkey] at h
    cases h
    exact ⟨_, rfl, .inl rfl⟩
  · rw [hkey] at h
    simp only [] at h
    rcases hread : Numeral.read maxUInt64 value with fault | n
    · rw [hread] at h
      cases h
    · rw [hread] at h
      cases h
      exact ⟨n, rfl, .inr ⟨value, rfl, hread⟩⟩

/-- The variables of the three waits. -/
def waitVars : List String := [veryShortVar, shortVar, intervalVar]

theorem wait_of_ofVars (h : ofVars vars = .ok settings) {wait : Millis}
    (hwait : wait ∈ settings.policy.waits) :
    ∃ n, wait = .ofSeconds n ∧ (n ≤ 60 ∨ ∃ key ∈ waitVars, ∃ value, vars key = some value ∧
      Numeral.read maxUInt64 value = .ok n) := by
  have hread : ∀ {key : String} {default : Millis}, key ∈ waitVars → default / 1000 ≤ 60 →
      seconds vars key default = .ok wait →
      ∃ n, wait = .ofSeconds n ∧ (n ≤ 60 ∨ ∃ key ∈ waitVars, ∃ value, vars key = some value ∧
        Numeral.read maxUInt64 value = .ok n) := by
    intro key default hkey hdefault hseconds
    obtain ⟨n, hn, rfl | ⟨value, hvalue⟩⟩ := seconds_eq_ok hseconds
    · exact ⟨_, hn, .inl hdefault⟩
    · exact ⟨n, hn, .inr ⟨key, hkey, value, hvalue⟩⟩
  obtain ⟨hveryShort, hshort, hinterval⟩ := policy_of_ofVars h
  simp only [PacePolicy.waits, List.mem_cons, List.not_mem_nil, or_false] at hwait
  rcases hwait with rfl | rfl | rfl
  · exact hread (by decide) (by decide) hveryShort
  · exact hread (by decide) (by decide) hshort
  · exact hread (by decide) (by decide) hinterval

end Settings

/-- A pass under settings that were accepted ends early just if a visit asks for a wait that leads
past the last deadline, and leaves a deadline to every registry otherwise. It does not end early
where a minute, and each number of seconds that is set for a wait, fits behind the moment. -/
theorem completes_of_settings {vars : String → Option String} {settings : Settings}
    (hsettings : Settings.ofVars vars = .ok settings) {store : Store}
    {past : List (System × Event)} {s : System}
    (run : Run settings.policy (fun _ _ => True) ⟨settings.engine store, .empty⟩ past s)
    (schedule : Schedule) (now : Millis) :
    ((s.engine.pass settings.policy schedule now).overflow = true ↔
      ∃ x ∈ s.engine.answers settings.policy schedule now, ∃ delay,
        requeueAfter settings.policy x.2 = some delay ∧ lastDueSecond < (now + delay) / 1000) ∧
    ((s.engine.pass settings.policy schedule now).overflow = false →
      ∀ q ∈ (s.engine.pass settings.policy schedule now).engine.store.registryIds,
        ∃ due, (s.engine.pass settings.policy schedule now).schedule.deadline? q = some due) ∧
    (now / 1000 + 60 ≤ lastDueSecond →
      (∀ key ∈ [Settings.veryShortVar, Settings.shortVar, Settings.intervalVar], ∀ value n,
        vars key = some value → Numeral.read Settings.maxUInt64 value = .ok n →
        now / 1000 + n ≤ lastDueSecond) →
      (s.engine.pass settings.policy schedule now).overflow = false) := by
  have hs : s.engine.Sound :=
    run.sound (Engine.sound_start store settings.paceCap settings.conflicts)
  have hoverflow : (s.engine.pass settings.policy schedule now).overflow = true ↔
      ∃ x ∈ s.engine.answers settings.policy schedule now, ∃ delay,
        requeueAfter settings.policy x.2 = some delay ∧
          lastDueSecond < (now + delay) / 1000 := by
    rw [Engine.overflow_pass]
    simp only [Faults, deadlineAfter?_eq_none]
  refine ⟨hoverflow, fun hover q hq => ?_, fun hminute hfits => ?_⟩
  · exact (Engine.scheduled_iff_stored hs hover q).2 hq
  · rw [← Bool.not_eq_true, hoverflow]
    rintro ⟨⟨q, answer⟩, hvisited, delay, hdelay, hlate⟩
    obtain ⟨n, rfl, hn⟩ := Settings.wait_of_ofVars hsettings
      (Engine.delay_mem_of_answer hs hvisited hdelay)
    rw [add_ofSeconds_div] at hlate
    rcases hn with hn | ⟨key, hkey, value, hvalue, hread⟩
    · exact absurd ((Nat.add_le_add_left hn _).trans hminute) (Nat.not_le.2 hlate)
    · exact absurd (hfits key hkey value n hvalue hread) (Nat.not_le.2 hlate)

/-- The short wait is longer than the clock will ever run, and a visit that fails has its deadline
that far off. -/
theorem completes_with_endless_wait :
    ∃ (vars : String → Option String) (settings : Settings) (past : List (System × Event))
      (s : System) (bad : PoolId),
      Settings.ofVars vars = .ok settings ∧ vars Settings.shortVar = some "4611686018427387904" ∧
        Run settings.policy (fun _ _ => True) ⟨settings.engine .empty, .empty⟩ past s ∧
        (s.engine.pass settings.policy .empty 7).stats.registriesFailed = 1 ∧
        (s.engine.pass settings.policy .empty 7).overflow = false ∧
        bad ∈ (s.engine.pass settings.policy .empty 7).engine.store.registryIds ∧
        ∃ due, (s.engine.pass settings.policy .empty 7).schedule.deadline? bad = some due := by
  let vars : String → Option String := fun key =>
    if key = Settings.shortVar then some "4611686018427387904" else none
  let settings : Settings :=
    ⟨"info", none, 500, ⟨1000, .ofSeconds 4611686018427387904, 60000⟩, 3, .keepExisting⟩
  let bad : PoolId := ⟨"net", "bad", rfl, rfl⟩
  let events : List Event := [.declare (.registry bad ⟨none, none, none, none⟩)]
  have hsettings : Settings.ofVars vars = .ok settings := by decide +kernel
  have hrun : Run settings.policy (fun _ _ => True) ⟨settings.engine .empty, .empty⟩ _ _ :=
    run_after events fun _ _ => trivial
  obtain ⟨-, hentries, hcompletes⟩ := completes_of_settings hsettings hrun .empty 7
  have hread : Numeral.read Settings.maxUInt64 "4611686018427387904" = .ok 4611686018427387904 := by
    decide +kernel
  have hover := hcompletes (by decide) fun key _ value n hvalue hn => by
    obtain ⟨-, ⟨⟩⟩ := Option.ite_none_right_eq_some.1 hvalue
    cases hread.symm.trans hn
    decide
  have hbad : bad ∈ (((System.mk (settings.engine .empty) .empty).after settings.policy
      events).engine.pass settings.policy .empty 7).engine.store.registryIds := by decide +kernel
  exact ⟨vars, settings, _, _, bad, hsettings, by decide, hrun, by decide +kernel, hover, hbad,
    hentries hover bad hbad⟩

/-- A wait of 2 ^ 63 seconds is accepted, and the first visit that asks for it ends its pass. -/
theorem pass_ended_by_wait :
    ¬ ∀ (vars : String → Option String) (settings : Settings) (store : Store)
      (past : List (System × Event)) (s : System) (schedule : Schedule) (now : Millis),
      Settings.ofVars vars = .ok settings →
      Run settings.policy (fun _ _ => True) ⟨settings.engine store, .empty⟩ past s →
      now / 1000 + 60 ≤ lastDueSecond →
      (s.engine.pass settings.policy schedule now).overflow = false ∧
        ∀ q ∈ (s.engine.pass settings.policy schedule now).engine.store.registryIds,
          ∃ due, (s.engine.pass settings.policy schedule now).schedule.deadline? q = some due := by
  intro h
  let vars : String → Option String := fun key =>
    if key = Settings.veryShortVar then some "9223372036854775808" else none
  let settings : Settings :=
    ⟨"info", none, 500, ⟨.ofSeconds (2 ^ 63), 5000, 60000⟩, 3, .keepExisting⟩
  let events : List Event := [.declare (.registry ⟨"net", "ids", rfl, rfl⟩ (.ofSize 1))]
  have hsettings : Settings.ofVars vars = .ok settings := by decide +kernel
  have hrun : Run settings.policy (fun _ _ => True) ⟨settings.engine .empty, .empty⟩ _ _ :=
    run_after events fun _ _ => trivial
  have hover := (h vars settings .empty _ _ .empty 0 hsettings hrun (by decide)).1
  exact absurd hover (by decide +kernel)

end IndexPools
