import IndexPools.Proofs.Visit

/-!
# Runs

A system is an engine with the schedule of its passes. It moves on by declarations, by corrections
of what otherwise only passes write, by calls of the engine's operations, and by passes
(`System.step`). A run is a sequence of such events, each of which is admitted in the system that it
meets (`Run`). Every system of a run is sound (`Run.sound`), so that an invariant need only be shown
to pass through the events of sound systems (`Run.invariant`). Where nothing but fresh declarations
and passes are admitted (`Declaring`), an invariant of the engine need only be shown to pass through
declarations and the visits of a pass (`Run.visited`).
-/

namespace IndexPools

/-- The store after a change; a change that fails changes nothing. -/
def Store.orSame (s : Store) : Except StoreError Store → Store
  | .ok s' => s'
  | .error _ => s

namespace Store

variable (s : Store)

theorem registries_changeRegistry (id q : PoolId) (f : RegistryRecord → RegistryRecord) :
    (s.orSame (s.changeRegistry id f)).registries[q]? =
      if id = q then s.registries[id]?.map f else s.registries[q]? := by
  unfold changeRegistry
  rcases h : s.registries[id]? with _ | record
  · split_ifs with hq
    · rw [← hq]
      exact h
    · rfl
  · exact lookup_insert _ _ _ _

theorem registers_changeRegistry (id : PoolId) (f : RegistryRecord → RegistryRecord) :
    (s.orSame (s.changeRegistry id f)).registers = s.registers := by
  unfold changeRegistry
  rcases s.registries[id]? with _ | record <;> rfl

theorem registers_changeRegister (key k : RegisterKey) (f : RegisterRecord → RegisterRecord) :
    (s.orSame (s.changeRegister key f)).registers[k]? =
      if key = k then s.registers[key]?.map f else s.registers[k]? := by
  unfold changeRegister
  rcases h : s.registers[key]? with _ | r
  · split_ifs with hk
    · rw [← hk]
      exact h
    · rfl
  · exact lookup_insert _ _ _ _

theorem registries_changeRegister (key : RegisterKey) (f : RegisterRecord → RegisterRecord) :
    (s.orSame (s.changeRegister key f)).registries = s.registries := by
  unfold changeRegister
  rcases s.registers[key]? with _ | r <;> rfl

end Store

/-- A new register, which asks a registry of its namespace for a key. -/
def RegisterRecord.naming (ns name registry key : String) : RegisterRecord :=
  ⟨⟨ns, name⟩, registry, some ((∅ : Selector).insert Request.nameEntry key), none, false, none⟩

/-- The pool of the runs on fixed inputs. -/
def PoolId.netIds : PoolId := ⟨"net", "ids", rfl, rfl⟩

/-- What the authors of registries and registers do. -/
inductive Declaration where
  | registry (id : PoolId) (spec : RegistrySpec)
  | setReady (id : PoolId) (ready : Bool)
  | registryDeleting (id : PoolId)
  | register (r : RegisterRecord)
  | registerDeleting (key : RegisterKey)

def Declaration.apply (s : Store) : Declaration → Store
  | .registry id spec => s.declareRegistry id spec
  | .setReady id ready => s.orSame (s.setReady id ready)
  | .registryDeleting id => s.orSame (s.markRegistryDeleting id)
  | .register r => s.declareRegister r
  | .registerDeleting key => s.orSame (s.markRegisterDeleting key)

/-- A change of what otherwise only passes write. -/
inductive Correction where
  | setStatus (id : PoolId) (status : RegistryStatus)
  | removeRegistry (id : PoolId)
  | setIndex (key : RegisterKey) (index : Nat)
  | removeRegister (key : RegisterKey)

def Correction.apply (s : Store) : Correction → Store
  | .setStatus id status => s.orSame (s.setStatus id status)
  | .removeRegistry id => s.orSame (s.removeRegistry id)
  | .setIndex key index => s.orSame (s.setIndex key index)
  | .removeRegister key => s.orSame (s.removeRegister key)

/-- A call of one of the engine's operations that can change the engine. -/
inductive Call where
  | initPool (pool : PoolId) (capacity : Nat) (strategy : Strategy)
  | initDeclared (pool : PoolId)
  | deletePool (pool : PoolId)
  | register (r : Request)
  | deregister (r : Request)
  | allocate (pool : PoolId) (owner key : String) (tags : Option Tags)
  | release (pool : PoolId) (owner key : String) (tags : Option Tags)
  | resetPace (pool : PoolId)
  | incrementPace (pool : PoolId)
  | nextDelay (pool : PoolId) (policy : PacePolicy)
  | reconcileRegister (r : RegisterRecord)
  | reconcileRegistry (policy : PacePolicy) (pool : PoolId)

def Call.apply (e : Engine) : Call → Engine
  | .initPool pool capacity strategy => (e.initPool pool capacity strategy).2
  | .initDeclared pool => (e.initDeclared pool).2
  | .deletePool pool => (e.deletePool pool).2
  | .register r => (e.register r).2
  | .deregister r => (e.deregister r).2
  | .allocate pool owner key tags => (e.allocate pool owner key tags).2
  | .release pool owner key tags => (e.release pool owner key tags).2
  | .resetPace pool => e.resetPace pool
  | .incrementPace pool => e.incrementPace pool
  | .nextDelay pool policy => (e.nextDelay pool policy).2
  | .reconcileRegister r => (e.reconcileRegister r).2
  | .reconcileRegistry policy pool => (e.reconcileRegistry policy pool).2

/-- The pool in which a call places or releases a key. -/
def Call.keyPool? : Call → Option PoolId
  | .register r | .deregister r => some r.pool
  | .allocate pool _ _ _ | .release pool _ _ _ => some pool
  | _ => none

theorem Call.rekeyed {e : Engine} (hs : e.Sound) {c : Call} {pool : PoolId}
    (hc : c.keyPool? = some pool) : e.Rekeyed pool (c.apply e) := by
  cases c with
  | register r =>
    cases hc
    exact (Engine.register_cases hs r).rekeyed
  | allocate pool owner key tags =>
    cases hc
    exact (Engine.register_cases hs (.forKey pool owner key tags)).rekeyed
  | deregister r =>
    cases hc
    exact (Engine.deregister_cases hs r).rekeyed
  | release pool owner key tags =>
    cases hc
    exact (Engine.deregister_cases hs (.forKey pool owner key tags)).rekeyed
  | _ => cases hc

inductive Event where
  | declare (d : Declaration)
  | correct (c : Correction)
  | call (c : Call)
  | pass (now : Millis)

structure System where
  engine : Engine
  schedule : Schedule

namespace System

/-- A system without pools, in which nothing is scheduled. -/
def start (store : Store) (cap : UInt32) (conflicts : ConflictPolicy) : System :=
  ⟨.start store cap conflicts, .empty⟩

def step (policy : PacePolicy) (s : System) : Event → System
  | .declare d => { s with engine := { s.engine with store := d.apply s.engine.store } }
  | .correct c => { s with engine := { s.engine with store := c.apply s.engine.store } }
  | .call c => { s with engine := c.apply s.engine }
  | .pass now =>
    let p := s.engine.pass policy s.schedule now
    ⟨p.engine, p.schedule⟩

end System

/-- The runs from `s₀`; `past` holds the events with the systems that they met, the last first. -/
inductive Run (policy : PacePolicy) (admits : System → Event → Prop) (s₀ : System) :
    (past : List (System × Event)) → System → Prop
  | start : Run policy admits s₀ [] s₀
  | step {past : List (System × Event)} {s : System} (before : Run policy admits s₀ past s)
      (event : Event) (hadmits : admits s event) :
      Run policy admits s₀ ((s, event) :: past) (s.step policy event)

namespace Engine

variable {e : Engine}

theorem Sound.resetPace (h : e.Sound) (pool : PoolId) : (e.resetPace pool).Sound :=
  h.relevel (Pacer.cap_reset _ _) (Pacer.levels_reset _ _) fun _ _ => UInt32.zero_le

theorem Sound.incrementPace (h : e.Sound) (pool : PoolId) : (e.incrementPace pool).Sound := by
  refine h.relevel (Pacer.cap_increment _ _) (Pacer.levels_increment _ _) fun l _ => ?_
  split_ifs with hlt
  · exact UInt32.le_of_lt hlt
  · exact UInt32.le_refl _

end Engine

theorem Call.sound {e : Engine} (h : e.Sound) (c : Call) : (c.apply e).Sound := by
  cases c with
  | initPool pool c strategy => exact (Engine.moved_initPool h pool c strategy).sound h
  | initDeclared pool => exact (Engine.moved_initDeclared h pool).sound h
  | deletePool pool => exact h.deletePool
  | register | deregister | allocate | release =>
    exact ((Call.rekeyed h rfl).moved h).sound h
  | resetPace pool => exact h.resetPace pool
  | incrementPace pool => exact h.incrementPace pool
  | nextDelay pool policy => exact h.nextDelay pool policy
  | reconcileRegister r => exact (Engine.registerVisit_cases h r).sound h
  | reconcileRegistry policy pool => exact (Engine.registryVisit_cases h policy pool).sound h

theorem Call.cap_eq {e : Engine} (h : e.Sound) (c : Call) :
    (c.apply e).pacer.cap = e.pacer.cap := by
  cases c with
  | initPool pool capacity strategy => exact (Engine.moved_initPool h pool capacity strategy).cap_eq
  | initDeclared pool => exact (Engine.moved_initDeclared h pool).cap_eq
  | deletePool pool => rfl
  | register | deregister | allocate | release =>
    exact ((Call.rekeyed h rfl).moved h).cap_eq
  | resetPace pool => exact Pacer.cap_reset _ _
  | incrementPace pool => exact Pacer.cap_increment _ _
  | nextDelay pool policy => exact Pacer.cap_nextDelay _ _ _
  | reconcileRegister r => exact (Engine.registerVisit_cases h r).cap_eq h
  | reconcileRegistry policy pool => exact (Engine.registryVisit_cases h policy pool).cap_eq

theorem Call.conflicts_eq {e : Engine} (h : e.Sound) (c : Call) :
    (c.apply e).conflicts = e.conflicts := by
  cases c with
  | initPool pool capacity strategy =>
    exact (Engine.moved_initPool h pool capacity strategy).conflicts_eq
  | initDeclared pool => exact (Engine.moved_initDeclared h pool).conflicts_eq
  | register | deregister | allocate | release =>
    exact ((Call.rekeyed h rfl).moved h).conflicts_eq
  | deletePool | resetPace | incrementPace | nextDelay => rfl
  | reconcileRegister r => exact (Engine.registerVisit_cases h r).conflicts_eq h
  | reconcileRegistry policy pool =>
    exact (Engine.registryVisit_cases h policy pool).conflicts_eq

theorem System.step_sound {s : System} (h : s.engine.Sound) (policy : PacePolicy) (event : Event) :
    (s.step policy event).engine.Sound := by
  cases event with
  | declare d => exact h.store _
  | correct c => exact h.store _
  | call c => exact c.sound h
  | pass now => exact h.pass policy s.schedule now

section

variable {policy : PacePolicy} {admits : System → Event → Prop} {s₀ s : System}
  {past : List (System × Event)}

theorem Run.sound (run : Run policy admits s₀ past s) (h₀ : s₀.engine.Sound) : s.engine.Sound := by
  induction run with
  | start => exact h₀
  | step _ event _ ih => exact System.step_sound ih policy event

/-- What holds of the first system and passes through every event that a sound system admits. -/
theorem Run.invariant {P : System → Prop} (run : Run policy admits s₀ past s)
    (h₀ : s₀.engine.Sound) (hP : P s₀)
    (hstep : ∀ (s : System) (event : Event), s.engine.Sound → admits s event → P s →
      P (s.step policy event)) : P s := by
  induction run with
  | start => exact hP
  | step before event hadmits ih => exact hstep _ event (before.sound h₀) hadmits ih

end

theorem Declaration.registers_apply (d : Declaration) (s : Store) (k : RegisterKey) :
    (d.apply s).registers[k]? =
      match d with
      | .register r => if r.key = k then some r else s.registers[k]?
      | .registerDeleting key =>
        if key = k then s.registers[key]?.map fun r => { r with deleting := true }
        else s.registers[k]?
      | _ => s.registers[k]? := by
  cases d with
  | registry id spec => rfl
  | setReady id ready => exact congrArg (·[k]?) (s.registers_changeRegistry id _)
  | registryDeleting id => exact congrArg (·[k]?) (s.registers_changeRegistry id _)
  | register r => exact lookup_insert _ _ _ _
  | registerDeleting key => exact s.registers_changeRegister key k _

/-- A register after a declaration was there before, or is new, or was marked for deletion. -/
theorem Declaration.register_cases {d : Declaration} {s : Store} {k : RegisterKey}
    {r : RegisterRecord} (hr : (d.apply s).registers[k]? = some r) :
    s.registers[k]? = some r ∨ (d = .register r ∧ r.key = k) ∨
      ∃ r', s.registers[k]? = some r' ∧ r = { r' with deleting := true } := by
  rw [registers_apply] at hr
  cases d with
  | registry | setReady | registryDeleting => exact .inl hr
  | register r' =>
    simp only at hr
    split_ifs at hr with hk
    · cases hr
      exact .inr (.inl ⟨rfl, hk⟩)
    · exact .inl hr
  | registerDeleting key =>
    simp only at hr
    split_ifs at hr with hk
    · obtain ⟨r', hr', rfl⟩ := Option.map_eq_some_iff.1 hr
      exact .inr (.inr ⟨r', hk ▸ hr', rfl⟩)
    · exact .inl hr

/-- A register is declared under a free key only, and without an index. -/
def Declaration.Fresh (s : Store) : Declaration → Prop
  | .register r => s.registers[r.key]? = none ∧ r.index = none
  | _ => True

instance (s : Store) : DecidablePred (Declaration.Fresh s)
  | .register r => inferInstanceAs (Decidable (s.registers[r.key]? = none ∧ r.index = none))
  | .registry _ _ | .setReady _ _ | .registryDeleting _ | .registerDeleting _ => .isTrue trivial

theorem Declaration.keyed (d : Declaration) {s : Store} (h : s.Keyed) : (d.apply s).Keyed := by
  intro k r hr
  rcases register_cases hr with hr' | ⟨-, hk⟩ | ⟨r', hr', rfl⟩
  · exact h k r hr'
  · exact hk
  · exact h k r' hr'

theorem Store.keyed_empty : Store.empty.Keyed := by
  intro k r hr
  simp [empty] at hr

theorem Store.Keyed.changeRegister {s : Store} (h : s.Keyed) (key : RegisterKey)
    {f : RegisterRecord → RegisterRecord} (hf : ∀ r, (f r).key = r.key) :
    (s.orSame (s.changeRegister key f)).Keyed := by
  intro k r hr
  rw [Store.registers_changeRegister] at hr
  split_ifs at hr with hk
  · obtain ⟨r', hr', rfl⟩ := Option.map_eq_some_iff.1 hr
    exact (hf r').trans ((h key r' hr').trans hk)
  · exact h k r hr

theorem Store.Keyed.removeRegister {s : Store} (h : s.Keyed) (key : RegisterKey) :
    (s.orSame (s.removeRegister key)).Keyed := by
  intro k r hr
  unfold Store.removeRegister at hr
  rcases hkey : s.registers[key]? with _ | r'
  · rw [hkey] at hr
    exact h k r hr
  · rw [hkey] at hr
    simp only [Store.orSame, lookup_erase] at hr
    split_ifs at hr
    exact h k r hr

theorem Correction.keyed (c : Correction) {s : Store} (h : s.Keyed) : (c.apply s).Keyed := by
  cases c with
  | setStatus id status =>
    unfold Store.Keyed
    simp only [apply, Store.setStatus, Store.registers_changeRegistry]
    exact h
  | removeRegistry id =>
    unfold Store.Keyed
    simp only [apply, Store.removeRegistry]
    rcases s.registries[id]? with _ | record
    · exact h
    · exact h
  | setIndex key index => exact h.changeRegister key fun _ => rfl
  | removeRegister key => exact h.removeRegister key

namespace Engine

variable {e : Engine}

theorem store_settle (e : Engine) (r : RegisterRecord) (i : Nat) :
    (e.settle r i).2.store = e.store ∨
      (e.settle r i).2.store = e.store.orSame (e.store.setIndex r.key i) := by
  unfold settle
  split_ifs
  · exact .inl rfl
  · rcases e.store.setIndex r.key i with err | s
    · exact .inl rfl
    · exact .inr rfl

theorem store_discard (e : Engine) (r : RegisterRecord) :
    (e.discard r).2.store = e.store.orSame (e.store.removeRegister r.key) := by
  unfold discard
  rcases e.store.removeRegister r.key with err | s <;> rfl

theorem RegisterVisit.keyed {r : RegisterRecord}
    {res : Except ReconcileError RegisterOutcome × Engine} (h : RegisterVisit e r res)
    (hk : e.store.Keyed) : res.2.store.Keyed := by
  have hsettle : ∀ {e₁ : Engine} (i : Nat), e₁.store.Keyed → (e₁.settle r i).2.store.Keyed := by
    intro e₁ i h₁
    rcases store_settle e₁ r i with hw | hw
    · rw [hw]
      exact h₁
    · rw [hw]
      exact h₁.changeRegister r.key fun _ => rfl
  have hdiscard : ∀ {e₁ : Engine}, e₁.store.Keyed → (e₁.discard r).2.store.Keyed := by
    intro e₁ h₁
    rw [store_discard]
    exact h₁.removeRegister r.key
  cases h with
  | failed => exact hk
  | kept => exact hsettle _ hk
  | placed => exact hsettle _ hk
  | idle => exact hdiscard hk
  | freed => exact hdiscard hk

end Engine

/-- A call leaves the store as it is, unless it reconciles a record. -/
theorem Call.store_cases {e : Engine} (hs : e.Sound) (c : Call) :
    (c.apply e).store = e.store ∨ (∃ r, c = .reconcileRegister r) ∨
      ∃ policy pool, c = .reconcileRegistry policy pool := by
  cases c with
  | initPool pool capacity strategy =>
    exact .inl (Engine.moved_initPool hs pool capacity strategy).store_eq
  | initDeclared pool => exact .inl (Engine.moved_initDeclared hs pool).store_eq
  | register | deregister | allocate | release =>
    exact .inl ((Call.rekeyed hs rfl).moved hs).store_eq
  | deletePool | resetPace | incrementPace | nextDelay => exact .inl rfl
  | reconcileRegister r => exact .inr (.inl ⟨r, rfl⟩)
  | reconcileRegistry policy pool => exact .inr (.inr ⟨policy, pool, rfl⟩)

theorem Call.keyed {e : Engine} (hs : e.Sound) (hk : e.store.Keyed) (c : Call) :
    (c.apply e).store.Keyed := by
  rcases c.store_cases hs with hstore | ⟨r, rfl⟩ | ⟨policy, pool, rfl⟩
  · rw [hstore]
    exact hk
  · exact (Engine.registerVisit_cases hs r).keyed hk
  · unfold Store.Keyed
    simp only [apply, (Engine.registryVisit_cases hs policy pool).registers_eq]
    exact hk

theorem Run.keyed {policy : PacePolicy} {admits : System → Event → Prop} {s₀ s : System}
    {past : List (System × Event)} (run : Run policy admits s₀ past s) (h₀ : s₀.engine.Sound)
    (hk : s₀.engine.store.Keyed) : s.engine.store.Keyed := by
  refine run.invariant (P := fun s => s.engine.store.Keyed) h₀ hk fun s event hs _ hk => ?_
  cases event with
  | declare d => exact d.keyed hk
  | correct c => exact c.keyed hk
  | call c => exact c.keyed hs hk
  | pass now => exact (Engine.visits_pass hs hk policy s.schedule now).keyed hs hk

/-- Passes and declarations of what is new. -/
def Declaring (s : System) : Event → Prop
  | .declare d => d.Fresh s.engine.store
  | .pass _ => True
  | .correct _ | .call _ => False

instance (s : System) : DecidablePred (Declaring s)
  | .declare d => inferInstanceAs (Decidable (d.Fresh s.engine.store))
  | .pass _ => .isTrue trivial
  | .correct _ | .call _ => .isFalse id

section

variable {policy : PacePolicy} {s₀ s : System} {past : List (System × Event)}

/-- What passes through fresh declarations and through the visits of a pass. -/
theorem Run.visited {P : Engine → Prop} (run : Run policy Declaring s₀ past s)
    (h₀ : s₀.engine.Sound) (hk : s₀.engine.store.Keyed) (hP : P s₀.engine)
    (hdeclare : ∀ (e : Engine) (d : Declaration), d.Fresh e.store → P e →
      P { e with store := d.apply e.store })
    (hvisits : ∀ e e' : Engine, e.Sound → e.Visits policy e' → P e → P e') : P s.engine := by
  induction run with
  | start => exact hP
  | @step past s before event hadmits ih =>
    have hs := before.sound h₀
    cases event with
    | declare d => exact hdeclare _ d hadmits ih
    | correct c => exact hadmits.elim
    | call c => exact hadmits.elim
    | pass now =>
      exact hvisits _ _ hs (Engine.visits_pass hs (before.keyed h₀ hk) policy s.schedule now) ih

end

/-- The system after `events`, of which the last comes first. -/
def System.after (policy : PacePolicy) (s₀ : System) : (events : List Event) → System
  | [] => s₀
  | event :: events => (s₀.after policy events).step policy event

def System.past (policy : PacePolicy) (s₀ : System) : (events : List Event) → List (System × Event)
  | [] => []
  | event :: events => (s₀.after policy events, event) :: s₀.past policy events

theorem run_after {policy : PacePolicy} {admits : System → Event → Prop} {s₀ : System} :
    ∀ (events : List Event), (∀ x ∈ s₀.past policy events, admits x.1 x.2) →
      Run policy admits s₀ (s₀.past policy events) (s₀.after policy events)
  | [], _ => .start
  | event :: events, h =>
    .step (run_after events fun x hx => h x (List.mem_cons_of_mem _ hx)) event
      (h (s₀.after policy events, event) List.mem_cons_self)

end IndexPools
