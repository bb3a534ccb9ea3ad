import IndexPools.Proofs.Deadlines
import IndexPools.Proofs.Failures
import IndexPools.Proofs.Serving

/-!
# Registers that leave

A register that is marked for deletion has its key released before it goes. Its pool carries that
out if it is set up and its registry serves (`Engine.Available`), and then the register goes, also
if its key held no slot. Any other pool refuses, and the register stays as it is
(`Engine.register_of_leaving`): it outlives its registry for as long as passes find the pool like
that, and two passes take it once the registry was declared anew (`leaving_of_pass`).
-/

namespace IndexPools

/-- The register is to go, and asks the pool for a key. -/
structure RegisterRecord.Leaving (r : RegisterRecord) (pool : PoolId) : Prop where
  deleting : r.deleting = true
  pool : r.pool = .ok pool
  named : ∃ key, r.named? = some key ∧ key ≠ ""

namespace Engine

/-- Requests of the pool are carried out: its registry serves, and it is set up. -/
def Available (e : Engine) (pool : PoolId) : Prop :=
  e.store.serves pool = .ok true ∧ ∃ c, e.pools.capacity? pool = some c

/-- Why a pool that is not available refuses. -/
def refusal (e : Engine) (pool : PoolId) : RequestError :=
  match e.store.serves pool with
  | .ok false => .poolNotReady pool
  | _ => .poolNotFound pool

variable {e e' : Engine} {r : RegisterRecord} {pool : PoolId}

theorem Available.live (h : e.Available pool) : ∃ t, e.pools.live[pool]? = some t := by
  obtain ⟨-, c, hc⟩ := h
  obtain ⟨t, ht, -⟩ := Option.map_eq_some_iff.1 hc
  exact ⟨t, ht⟩

theorem isRetryable_refusal (e : Engine) (pool : PoolId) :
    (e.refusal pool).isRetryable = true := by
  unfold refusal
  split <;> rfl

/-- Where the pool is available the register goes with its key. -/
theorem reconcileRegister_of_available (hr : r.Leaving pool) (h : e.Available pool)
    (hstored : e.store.registers[r.key]? = some r) :
    (e.reconcileRegister r).1 = .ok .released ∧
      (e.reconcileRegister r).2.store.registers = e.store.registers.erase r.key := by
  obtain ⟨key, hname, hkey⟩ := hr.named
  obtain ⟨t, hlive⟩ := h.live
  have haccept : e.accept (r.ask pool) = .ok key := accept_ask h.1 hname hkey
  have hstore : (e.deregister (r.ask pool)).2.store = e.store := by
    rcases e.deregister_frame (r.ask pool) with ⟨err, hq⟩ | ⟨pools, pacer, hq⟩ <;> rw [hq]
  rw [reconcileRegister_of_accept hr.pool hr.deleting haccept hlive,
    discard_of_stored (hstore ▸ hstored)]
  exact ⟨rfl, congrArg (·.registers.erase r.key) hstore⟩

/-- Where the pool is not available the release of the key is refused. -/
theorem reconcileRegister_of_refused (hr : r.Leaving pool) (h : ¬ e.Available pool) :
    e.reconcileRegister r = (.error (.request (e.refusal pool)), e) := by
  obtain ⟨key, hname, hkey⟩ := hr.named
  have hrefused : e.deregister (r.ask pool) = (.error (e.refusal pool), e) := by
    have hpool : (r.ask pool).pool = pool := rfl
    rw [deregister_eq]
    unfold refusal
    rcases hserves : e.store.serves pool with err | _ | _
    · rw [(serves_eq_error.1 hserves).2] at hserves
      simp only [accept, hpool, hserves]
      rfl
    · simp only [accept, hpool, hserves]
    · have hlive : e.pools.live[pool]? = none := by
        by_contra hlive
        obtain ⟨t, ht⟩ := Option.ne_none_iff_exists'.1 hlive
        exact h ⟨hserves, t.capacity, by rw [PoolDirectory.capacity?, ht]; rfl⟩
      simp only [accept_ask hserves hname hkey, PoolDirectory.onPool, hpool, hlive]
  rw [reconcileRegister_eq hr.pool, if_pos hr.deleting, hrefused]

/-- A register is visited as it is stored, by an engine with the registries and the pools that there
were at first, and is left as its visit leaves it. -/
theorem visit_of_stored (hs : e.Sound) (hk : e.store.Keyed)
    (hstored : e.store.registers[r.key]? = some r) (schedule : Schedule) :
    ∃ e₁ : Engine, e₁.store.registers[r.key]? = some r ∧
      e₁.store.registries = e.store.registries ∧
      (∀ q, e₁.pools.capacity? q = e.pools.capacity? q) ∧
      (r, (e₁.reconcileRegister r).1) ∈ e.registerAnswers ∧
      (e.midway schedule).engine.store.registers[r.key]? =
        (e₁.reconcileRegister r).2.store.registers[r.key]? := by
  let p : Pass := ⟨e, schedule, .zero, false⟩
  obtain ⟨rs₁, rs₂, hlist⟩ := List.append_of_mem (hk.mem_registerList.2 hstored)
  obtain ⟨hstored', hanswers, hleft⟩ := visit_of_split hs hk hlist schedule rfl
  have hsame : (Pass.visitRegisters rs₁ p).engine.Sound ∧
      (Pass.visitRegisters rs₁ p).engine.store.registries = e.store.registries ∧
      ∀ q, (Pass.visitRegisters rs₁ p).engine.pools.capacity? q = e.pools.capacity? q := by
    refine visitRegisters_stable (P := fun e₁ => e₁.Sound ∧
      e₁.store.registries = e.store.registries ∧
      ∀ q, e₁.pools.capacity? q = e.pools.capacity? q)
      (fun e₁ r' ⟨h₁, hregistries, hpools⟩ => ?_) rs₁ p ⟨hs, rfl, fun _ => rfl⟩
    have hv := registerVisit_cases h₁ r'
    exact ⟨hv.sound h₁, (hv.registries_eq h₁).trans hregistries,
      fun q => (hv.capacity_eq q).trans (hpools q)⟩
  refine ⟨_, hstored', hsame.2.1, hsame.2.2, ?_, hleft⟩
  rw [hanswers]
  exact List.mem_append_right _ List.mem_cons_self

/-- What a pass does to a register that is to go. -/
theorem register_of_leaving (hs : e.Sound) (hk : e.store.Keyed) (hr : r.Leaving pool)
    (hstored : e.store.registers[r.key]? = some r) (policy : PacePolicy) (schedule : Schedule)
    (now : Millis) :
    (e.Available pool → (r, .ok .released) ∈ e.registerAnswers ∧
      (e.pass policy schedule now).engine.store.registers[r.key]? = none) ∧
    (¬ e.Available pool → (r, .error (.request (e.refusal pool))) ∈ e.registerAnswers ∧
      (e.pass policy schedule now).engine.store.registers[r.key]? = some r) := by
  obtain ⟨e₁, hstored₁, hregistries, hpools, hanswer, hleft⟩ :=
    visit_of_stored hs hk hstored schedule
  have hserves : e₁.store.serves pool = e.store.serves pool :=
    serves_congr (by rw [hregistries])
  have havailable : e₁.Available pool ↔ e.Available pool := by
    unfold Available
    rw [hserves, hpools]
  have hrefusal : e₁.refusal pool = e.refusal pool := by
    unfold refusal
    rw [hserves]
  rw [registers_pass hs, hleft]
  constructor
  · intro h
    obtain ⟨hreleased, herased⟩ :=
      reconcileRegister_of_available hr (havailable.2 h) hstored₁
    refine ⟨hreleased ▸ hanswer, ?_⟩
    rw [herased]
    exact (lookup_erase _ _ _).trans (if_pos rfl)
  · intro h
    have hrefused := reconcileRegister_of_refused hr (mt havailable.1 h)
    rw [hrefused, hrefusal] at hanswer
    rw [hrefused]
    exact ⟨hanswer, hstored₁⟩

section SetUp

variable {policy : PacePolicy} {schedule : Schedule} {now : Millis} {record : RegistryRecord}
  {size : Nat}

theorem initDeclared_of_size (hs : e.Sound) (hrecord : e.store.registries[pool]? = some record)
    (hsize : record.spec.size = some size) (hpos : 1 ≤ size)
    (hmax : size ≤ maxCapacity) :
    ∃ created e', e.initDeclared pool = (.ok created, e') ∧ SetUp e pool e' := by
  rcases initDeclared_cases hs pool with ⟨err, hinit, hlive⟩ | hset
  · let strategy : Strategy := record.spec.strategy.getD .hash
    have hcreate : SlotTable.create size strategy = .ok ⟨Array.replicate size .unused, 0, strategy⟩ :=
      SlotTable.create_eq_ok.2 ⟨hpos, hmax, rfl⟩
    have hcontains : e.pools.contains pool = false := by
      simp [PoolDirectory.contains, Std.ExtTreeMap.contains_eq_isSome_getElem?, hlive]
    have hregistry : e.store.registry pool = .ok record := by
      simp only [Store.registry, hrecord]
    have hstrategy : e.store.strategy pool = .ok strategy := by
      rw [Store.strategy, hregistry]
      rfl
    simp only [initDeclared, hcontains, Store.size, hregistry, hsize, hstrategy, initPool,
      PoolDirectory.init, hlive, hcreate, Bool.false_eq_true, if_false] at hinit
    cases hinit
  · exact hset

/-- The visit of a registry that stays and declares a size that tables can have. -/
theorem live_of_visit (hs : e.Sound) (hrecord : e.store.registries[pool]? = some record)
    (hstays : record.deleting = false) (hsize : record.spec.size = some size) (hpos : 1 ≤ size)
    (hmax : size ≤ maxCapacity) (policy : PacePolicy) :
    ∃ t, (e.reconcileRegistry policy pool).2.pools.live[pool]? = some t := by
  obtain ⟨created, e', hinit, hset⟩ := initDeclared_of_size hs hrecord hsize hpos hmax
  have hrecord' : e'.store.registries[pool]? = some record := by
    rw [hset.moved.store_eq, hrecord]
  have hvisit : (e.reconcileRegistry policy pool).2 =
      ((e'.mirrored pool record).nextDelay pool policy).2 := by
    unfold reconcileRegistry Store.registry
    simp only [hrecord, hstays, hinit, mirrorStatus_of_stored hrecord']
    rfl
  rw [hvisit]
  cases hset with
  | kept hlive => exact ⟨_, hlive⟩
  | opened => exact ⟨_, (live_opened pool).trans (if_pos rfl)⟩

/-- A pass that does not end early makes the pool of a registry available that serves and is due. -/
theorem available_of_pass (hs : e.Sound) (hrecord : e.store.registries[pool]? = some record)
    (hserves : record.serves = true) (hstays : record.deleting = false)
    (hsize : record.spec.size = some size) (hpos : 1 ≤ size) (hmax : size ≤ maxCapacity)
    (hdue : ∀ due, schedule.deadline? pool = some due → due ≤ now)
    (hover : (e.pass policy schedule now).overflow = false) :
    (e.pass policy schedule now).engine.Available pool := by
  obtain ⟨answer, hvisited⟩ :=
    visited_of_due hs hover (mem_registryIds.2 ⟨record, hrecord⟩) hdue
  obtain ⟨p, hp, hbefore, -, hafter⟩ := visit_of_answer hs hvisited
  have hrecord' : p.engine.store.registries[pool]? = some record := by
    rw [hbefore.engine.record, registries_midway hs, hrecord]
  obtain ⟨t, hlive⟩ := live_of_visit hp hrecord' hstays hsize hpos hmax policy
  have hkept : ∀ record', p.engine.store.registries[pool]? = some record' →
      record'.deleting = false := by
    intro record' h
    cases hrecord'.symm.trans h
    exact hstays
  obtain ⟨status, hstatus⟩ := (registryVisit_cases hp policy pool).record_eq hkept pool
  have htable := hafter.engine.table
  have hstored := hafter.engine.record
  rw [engine_visitRegistry] at htable hstored
  constructor
  · simp only [Store.serves, Store.registry, hstored, hstatus, hrecord', Option.map_some]
    exact congrArg Except.ok hserves
  · exact ⟨t.capacity, by rw [PoolDirectory.capacity?, htable, hlive]; rfl⟩

/-- A pass leaves no deadline of a registry that is not stored. -/
theorem stored_of_deadline (hs : e.Sound) {q : PoolId} {d : Deadline}
    (hd : (e.pass policy schedule now).schedule.deadlines[q]? = some d) :
    q ∈ (e.pass policy schedule now).engine.store.registryIds := by
  rw [mem_registryIds]
  by_cases hvisited : ∃ answer, (q, answer) ∈ e.answers policy schedule now
  · obtain ⟨answer, hvisited⟩ := hvisited
    have hmem : q ∈ (e.midway schedule).engine.store.registryIds := Pass.mem_of_answer hvisited
    obtain ⟨p, hp, hbefore, -, hafter⟩ := visit_of_answer hs hvisited
    have hstored : ∃ record, p.engine.store.registries[q]? = some record := by
      rw [hbefore.engine.record]
      exact mem_registryIds.1 hmem
    rw [hafter.engine.record, engine_visitRegistry,
      (registryVisit_cases hp policy q).stored_iff hstored]
    intro hgone
    have hremoved : (p.visitRegistry policy now q).schedule = p.schedule.remove q := by
      unfold Pass.visitRegistry
      simp only [hgone]
    rw [hafter.deadline, hremoved] at hd
    cases ((lookup_erase _ _ _).trans (if_pos rfl)).symm.trans hd
  · have hsame := unvisited_pass hs (not_exists.1 hvisited)
    rw [hsame.engine.record, registries_midway hs, ← mem_registryIds]
    rw [hsame.deadline] at hd
    exact ((deadline_midway hs).1 hd).2

end SetUp

/-- Once a pass made the pool available a register that is to go goes in the next, at the latest. -/
theorem gone_of_available (hs : e.Sound) (hk : e.store.Keyed) (hr : r.Leaving pool)
    (hstored : e.store.registers[r.key]? = some r) {policy : PacePolicy} {schedule : Schedule}
    {now : Millis} (h : (e.pass policy schedule now).engine.Available pool) (schedule' : Schedule)
    (now' : Millis) :
    ((e.pass policy schedule now).engine.pass policy schedule' now').engine.store.registers[r.key]?
      = none := by
  have hs' := hs.pass policy schedule now
  have hk' := (visits_pass hs hk policy schedule now).keyed hs hk
  obtain ⟨hgoes, hstays⟩ := register_of_leaving hs hk hr hstored policy schedule now
  by_cases hfirst : e.Available pool
  · exact register_none_of_pass hs' hk' (hgoes hfirst).2 policy schedule' now'
  · exact ((register_of_leaving hs' hk' hr (hstays hfirst).2 policy schedule' now').1 h).2

end Engine

/-- Passes that find the pool not available, and declarations that do not write the register anew. -/
def Withholding (key : RegisterKey) (pool : PoolId) (s : System) : Event → Prop
  | .pass _ => ¬ s.engine.Available pool
  | .declare (.register r) => r.key ≠ key
  | .declare _ => True
  | .correct _ | .call _ => False

/-- A register that is to go stays as long as its pool is not available when passes begin. -/
theorem Run.withheld {policy : PacePolicy} {r : RegisterRecord} {pool : PoolId} {s₀ s : System}
    {past : List (System × Event)} (run : Run policy (Withholding r.key pool) s₀ past s)
    (h₀ : s₀.engine.Sound) (hk : s₀.engine.store.Keyed) (hr : r.Leaving pool)
    (hstored : s₀.engine.store.registers[r.key]? = some r) :
    s.engine.store.registers[r.key]? = some r := by
  induction run with
  | start => exact hstored
  | @step past s before event hadmits ih =>
    have hs := before.sound h₀
    have hks := before.keyed h₀ hk
    cases event with
    | correct | call => exact hadmits.elim
    | pass now =>
      exact ((Engine.register_of_leaving hs hks hr ih policy s.schedule now).2 hadmits).2
    | declare d =>
      refine (d.registers_apply s.engine.store r.key).trans ?_
      cases d with
      | registry | setReady | registryDeleting => exact ih
      | register r' => exact (if_neg hadmits).trans ih
      | registerDeleting key =>
        dsimp only
        split_ifs with hkey
        · rw [hkey, ih, Option.map_some, ← hr.deleting]
        · exact ih

/-- Passes and declarations, also of what was declared before. -/
def Authored (_ : System) : Event → Prop
  | .declare _ | .pass _ => True
  | .correct _ | .call _ => False

instance (s : System) : DecidablePred (Authored s)
  | .declare _ | .pass _ => .isTrue trivial
  | .correct _ | .call _ => .isFalse id

section

variable {policy : PacePolicy} {store : Store} {cap : UInt32} {conflicts : ConflictPolicy}
  {past : List (System × Event)} {s : System}

/-- Nothing is scheduled but what is declared. -/
theorem Run.scheduled (run : Run policy Authored (.start store cap conflicts) past s) {q : PoolId}
    {d : Deadline} (hd : s.schedule.deadlines[q]? = some d) :
    q ∈ s.engine.store.registryIds := by
  induction run generalizing d with
  | start => simp [System.start, Schedule.empty] at hd
  | @step past s before event hadmits ih =>
    have hs := before.sound (Engine.sound_start store cap conflicts)
    cases event with
    | correct | call => exact hadmits.elim
    | pass now => exact Engine.stored_of_deadline hs hd
    | declare dl =>
      obtain ⟨record, hrecord⟩ := Engine.mem_registryIds.1 (ih hd)
      obtain ⟨record', hrecord', -⟩ := dl.registry_kept hrecord
      exact Engine.mem_registryIds.2 ⟨record', hrecord'⟩

/-- A registry of which nothing was left has its pool available after one pass, once it was declared
anew. -/
theorem Run.available_of_declared
    (run : Run policy Authored (.start store cap conflicts) past s) {pool : PoolId}
    {spec : RegistrySpec} {size : Nat} {now : Millis}
    (hmissing : s.engine.store.registries[pool]? = none) (hsize : spec.size = some size)
    (hpos : 1 ≤ size) (hmax : size ≤ maxCapacity) (henabled : spec.isEnabled = true) :
    let s₁ := s.step policy (.declare (.registry pool spec))
    (s₁.engine.pass policy s₁.schedule now).overflow = false →
      (s₁.engine.pass policy s₁.schedule now).engine.Available pool := by
  intro s₁ hover
  have run₁ : Run policy Authored (.start store cap conflicts) _ s₁ :=
    run.step (.declare (.registry pool spec)) trivial
  have hrecord : s₁.engine.store.registries[pool]? = some (.declare pool spec) := by
    have hdeclared : s₁.engine.store = s.engine.store.declareRegistry pool spec := rfl
    rw [hdeclared, Store.declareRegistry, hmissing]
    exact (lookup_insert _ _ _ _).trans (if_pos rfl)
  have hdue : ∀ due, s₁.schedule.deadline? pool = some due → due ≤ now := by
    intro due hdue
    obtain ⟨d, hd, -⟩ := Option.map_eq_some_iff.1 hdue
    obtain ⟨record, hrecord⟩ := Engine.mem_registryIds.1 (run.scheduled hd)
    cases hmissing.symm.trans hrecord
  exact Engine.available_of_pass (run₁.sound (Engine.sound_start store cap conflicts)) hrecord
    henabled rfl hsize hpos hmax hdue hover

/-- A register that is to go goes in the first pass that begins with its pool available. It stays as
it is in any other, and two passes take it once its registry, of which nothing was left, was
declared anew. -/
theorem leaving_of_pass (hstore : store.Initial)
    (run : Run policy Authored (.start store cap conflicts) past s) {r : RegisterRecord}
    {pool : PoolId} {key : String} (hr : r ∈ s.engine.store.registerList)
    (hleaves : r.deleting = true) (hpool : r.pool = .ok pool) (hname : r.named? = some key)
    (hkey : key ≠ "") (now : Millis) :
    (s.engine.Available pool → (r, .ok .released) ∈ s.engine.registerAnswers ∧
      (s.engine.pass policy s.schedule now).engine.store.registers[r.key]? = none) ∧
    (¬ s.engine.Available pool →
      (r, .error (.request (s.engine.refusal pool))) ∈ s.engine.registerAnswers ∧
      (s.engine.refusal pool).isRetryable = true ∧
      (s.engine.pass policy s.schedule now).engine.store.registers[r.key]? = some r) ∧
    (∀ past' s', Run policy (Withholding r.key pool) s past' s' →
      s'.engine.store.registers[r.key]? = some r) ∧
    (s.engine.store.registries[pool]? = none →
      ∀ (spec : RegistrySpec) (size : Nat), spec.size = some size → 1 ≤ size →
        size ≤ maxCapacity → spec.isEnabled = true →
      let s₁ := s.step policy (.declare (.registry pool spec))
      let s₂ := s₁.step policy (.pass now)
      (s₁.engine.pass policy s₁.schedule now).overflow = false →
        ∀ now', (s₂.engine.pass policy s₂.schedule now').engine.store.registers[r.key]? = none) := by
  have hstart : (System.start store cap conflicts).engine.Sound :=
    Engine.sound_start store cap conflicts
  have hs : s.engine.Sound := run.sound hstart
  have hk : s.engine.store.Keyed := run.keyed hstart hstore.keyed
  have hstored : s.engine.store.registers[r.key]? = some r := hk.mem_registerList.1 hr
  have hleaving : r.Leaving pool := ⟨hleaves, hpool, key, hname, hkey⟩
  obtain ⟨hgoes, hstays⟩ :=
    Engine.register_of_leaving hs hk hleaving hstored policy s.schedule now
  refine ⟨hgoes, fun h => ⟨(hstays h).1, s.engine.isRetryable_refusal pool, (hstays h).2⟩,
    fun past' s' run' => run'.withheld hs hk hleaving hstored, ?_⟩
  intro hmissing spec size hsize hpos hmax henabled s₁ s₂ hover now'
  have run₁ : Run policy Authored (.start store cap conflicts) _ s₁ :=
    run.step (.declare (.registry pool spec)) trivial
  have hs₁ : s₁.engine.Sound := run₁.sound hstart
  have hk₁ : s₁.engine.store.Keyed := run₁.keyed hstart hstore.keyed
  have havailable : s₂.engine.Available pool :=
    run.available_of_declared hmissing hsize hpos hmax henabled hover
  exact Engine.gone_of_available hs₁ hk₁ hleaving hstored havailable s₂.schedule now'

end

namespace Stranded

def document : String :=
  "[[registry]]\nnamespace = \"net\"\nname = \"ids\"\nsize = 1\n\n[[register]]\nnamespace = \"net\"\n"
    ++ "name = \"x\"\nregistry = \"ids\"\n[register.selector]\nname = \"a\"\n"

def pool : PoolId := .netIds

def register : RegisterRecord := .naming "net" "x" "ids" "a"

def store : Store := (Store.empty.declareRegistry pool (.ofSize 1)).declareRegister register

/-- The registry goes before its pool is set up, and the register after it. -/
def events : List Event :=
  [.declare (.registerDeleting ⟨"net", "x"⟩), .pass 0, .declare (.registryDeleting pool)]

def system : System := (System.start store 3 .keepExisting).after .standard events

/-- The registry is declared anew, and its pool is set up. -/
def returned : System :=
  system.after .standard [.pass 1, .declare (.registry pool (.ofSize 1))]

theorem load_document : Manifest.load document = .ok store := by
  decide +kernel

end Stranded

/-- A register that outlived its registry stays in a pass, and goes once the registry is back. -/
theorem leaving_after_return :
    ∃ (past : List (System × Event)) (r : RegisterRecord),
      Run .standard Authored (.start Stranded.store 3 .keepExisting) past Stranded.system ∧
        Stranded.system.engine.store.registries[Stranded.pool]? = none ∧
        r ∈ Stranded.system.engine.store.registerList ∧
        (r, .error (.request (Stranded.system.engine.refusal Stranded.pool))) ∈
          Stranded.system.engine.registerAnswers ∧
        Stranded.returned.engine.Available Stranded.pool ∧
        (Stranded.returned.engine.pass .standard Stranded.returned.schedule
          2).engine.store.registers[r.key]? = none := by
  have hrun : Run .standard Authored (.start Stranded.store 3 .keepExisting) _ Stranded.system :=
    run_after Stranded.events (by decide +kernel)
  have hmissing : Stranded.system.engine.store.registries[Stranded.pool]? = none := by
    decide +kernel
  have hmem : { Stranded.register with deleting := true } ∈
      Stranded.system.engine.store.registerList := by decide +kernel
  have hrefused : ¬ Stranded.system.engine.Available Stranded.pool :=
    fun h => absurd h.1 (by decide +kernel)
  obtain ⟨-, hstays, -, hreturn⟩ := leaving_of_pass (.inr ⟨_, Stranded.load_document⟩) hrun hmem
    rfl rfl (lookup_insert _ _ _ _) (by decide) 1
  refine ⟨_, _, hrun, hmissing, hmem, (hstays hrefused).1,
    ⟨by decide +kernel, 1, by decide +kernel⟩, ?_⟩
  exact hreturn hmissing (.ofSize 1) 1 rfl (by decide) (by decide) rfl (by decide +kernel) 2

theorem stranded_after_deletion :
    ¬ ∀ (policy : PacePolicy) (document : String) (store : Store) (cap : UInt32)
      (conflicts : ConflictPolicy) (past : List (System × Event)) (s : System)
      (r : RegisterRecord) (pool : PoolId) (key : String) (now : Millis),
      Manifest.load document = .ok store →
      Run policy Authored (.start store cap conflicts) past s →
      r ∈ s.engine.store.registerList → r.deleting = true → r.pool = .ok pool →
      r.named? = some key → key ≠ "" →
      (s.engine.store.registries[pool]? = none ∨ s.engine.pools.live[pool]? = none) →
      (s.engine.pass policy s.schedule now).engine.store.registers[r.key]? = none := by
  intro h
  have hrun : Run .standard Authored (.start Stranded.store 3 .keepExisting) _ Stranded.system :=
    run_after Stranded.events (by decide +kernel)
  have hmem : { Stranded.register with deleting := true } ∈
      Stranded.system.engine.store.registerList := by decide +kernel
  have hgone := h .standard _ _ _ _ _ _ _ Stranded.pool "a" 1 Stranded.load_document hrun hmem rfl
    rfl (lookup_insert _ _ _ _) (by decide) (.inl (by decide +kernel))
  have hstays : (Stranded.system.engine.pass .standard Stranded.system.schedule
      1).engine.store.registers[Stranded.register.key]? ≠ none := by decide +kernel
  exact hstays hgone

end IndexPools
