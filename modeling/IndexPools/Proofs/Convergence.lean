import IndexPools.Proofs.Deletion
import IndexPools.Proofs.Serving
import IndexPools.Proofs.Undercut

/-!
# Convergence

Two passes settle an engine whose pools have room for all keys that lay claim to their slots
(`settled_after_two_passes`). The first takes out every register that is to go, but may come to a
register before the slot is free that it needs, or give a key the slot that another lost to a shared
release (`Clearing`). After it no more is held than there is room for, and nothing is released any
longer; so the second gives every register its index, and takes none away (`Settling`). From then on
a register is found at its index, and its visit changes nothing (`reconcileRegister_eq_self`).
-/

namespace IndexPools

/-- The keys that are named for the pool by the registers that are marked for deletion, or by the
others. -/
def Store.keysOf (s : Store) (pool : PoolId) (deleting : Bool) : List String :=
  s.registerList.filterMap fun r =>
    if r.pool.toOption = some pool ∧ r.deleting = deleting then r.named? else none

theorem Store.mem_keysOf {s : Store} {pool : PoolId} {deleting : Bool} {key : String} :
    key ∈ s.keysOf pool deleting ↔
      ∃ r ∈ s.registerList, r.pool = .ok pool ∧ r.deleting = deleting ∧ r.named? = some key := by
  unfold Store.keysOf
  simp only [List.mem_filterMap, RegisterRecord.toOption_pool, Option.ite_none_right_eq_some,
    and_assoc]

namespace Engine

/-- The keys that lay claim to the slots of a pool: those that are asked for, and those that the
pool holds and no register is about to release. -/
def demand (e : Engine) (pool : PoolId) : List String :=
  (e.store.keysOf pool false ++
    (e.snapshot pool).used.filter fun key => key ∉ e.store.keysOf pool true).eraseDups

/-- No registry is to go, every register can be served, and no pool has fewer slots than keys that
lay claim to them. -/
structure Satisfiable (e : Engine) : Prop where
  conflicts : e.conflicts = .keepExisting
  standing : ∀ record ∈ e.store.registries.values, record.deleting = false
  served : ∀ r ∈ e.store.registerList, ∃ pool key, r.pool = .ok pool ∧ r.named? = some key ∧
    key ≠ "" ∧ e.store.serves pool = .ok true ∧ pool ∈ e.pools.live
  room : ∀ x ∈ e.pools.live.toList, (e.demand x.1).length ≤ x.2.capacity

variable {wanted : PoolId → List String} {e e' : Engine} {r : RegisterRecord} {pool : PoolId}
  {rest : List RegisterRecord} {policy : PacePolicy}

/-- The registers in `rest` are yet to be visited. They are all that are to go, and what is held
beyond `wanted` they release. -/
structure Clearing (wanted : PoolId → List String) (e : Engine) (rest : List RegisterRecord) : Prop
    extends Serving wanted e where
  stored : ∀ r ∈ rest, e.store.registers[r.key]? = some r
  leaving : ∀ r : RegisterRecord, e.store.registers[r.key]? = some r → r.deleting = true → r ∈ rest
  held : ∀ (pool : PoolId) (i : Nat) (a : Allocation), e.Holds pool i a → a.key ∈ wanted pool ∨
    ∃ r ∈ rest, r.deleting = true ∧ r.pool = .ok pool ∧ r.named? = some a.key

namespace Clearing

theorem visit (h : e.Clearing wanted (r :: rest)) (hnew : ∀ r' ∈ rest, r.key ≠ r'.key) :
    (e.reconcileRegister r).2.Clearing wanted rest := by
  have hr := h.stored r List.mem_cons_self
  have hv := registerVisit_cases h.sound r
  obtain ⟨pool, key, hasks⟩ := h.asks r hr
  obtain ⟨t, hlive, -⟩ := hasks.live
  have hgone := fun hleaves =>
    visit_leaving h.sound hr hasks.pool_eq hleaves hasks.accept hlive
  refine ⟨h.toServing.register hr, fun r' hr' => ?_, fun r' hr' hleaves => ?_,
    fun q i a ha => ?_⟩
  · rw [hv.of_ne (hnew r' hr').symm]
    exact h.stored r' (List.mem_cons_of_mem _ hr')
  · by_cases hk : r'.key = r.key
    · -- what is left of `r` stays, or it would be gone
      rw [hk] at hr'
      have hleaves' : r.deleting = true := by
        rw [hv.of_stored hr hr'] at hleaves
        exact hleaves
      rw [(hgone hleaves').1, lookup_erase, if_pos rfl] at hr'
      cases hr'
    · rw [hv.of_ne hk] at hr'
      refine (List.mem_cons.1 (h.leaving r' hr' hleaves)).resolve_left ?_
      rintro rfl
      exact hk rfl
  · rcases hv.of_holds h.sound ha with hbefore | ⟨hstays, hpool, haccept⟩
    · rcases h.held q i a hbefore with hwanted | ⟨r', hr', hleaves, hpool, hname⟩
      · exact .inl hwanted
      · refine .inr ⟨r', (List.mem_cons.1 hr').resolve_left ?_, hleaves, hpool, hname⟩
        rintro rfl
        cases hasks.pool_eq.symm.trans hpool
        cases hasks.named.symm.trans hname
        exact ((hgone hleaves).2.2 i a ha).2 rfl
    · cases hasks.pool_eq.symm.trans hpool
      cases hasks.accept.symm.trans haccept
      exact .inl (hasks.counted hstays)

theorem registry (h : e.Clearing wanted []) (policy : PacePolicy) (pool : PoolId) :
    (e.reconcileRegistry policy pool).2.Clearing wanted [] := by
  have hv := registryVisit_cases h.sound policy pool
  refine ⟨h.toServing.registry policy pool, by simp, fun r hr => ?_, fun q i a ha => ?_⟩
  · rw [hv.registers_eq] at hr
    exact h.leaving r hr
  · exact h.held q i a ((hv.holds_iff h.sound).1 ha)

/-- Once nothing is left to be cleared, the visit of any register clears nothing. -/
theorem visit_stored (h : e.Clearing wanted []) (hr : e.store.registers[r.key]? = some r) :
    (e.reconcileRegister r).2.Clearing wanted [] := by
  refine visit ⟨h.toServing, ?_, fun r' hr' hleaves => ?_, fun q i a ha => ?_⟩ (by simp)
  · simpa using hr
  · exact List.mem_cons_of_mem _ (h.leaving r' hr' hleaves)
  · exact (h.held q i a ha).imp_right fun ⟨r', hr', _⟩ => absurd hr' (List.not_mem_nil)

theorem stays (h : e.Clearing wanted []) (hr : e.store.registers[r.key]? = some r) :
    r.deleting = false := by
  rcases hd : r.deleting with _ | _
  · rfl
  · cases h.leaving r hr hd

/-- Once nothing is left to be cleared, every register is given an index. -/
theorem answered (h : e.Clearing wanted []) (hr : e.store.registers[r.key]? = some r) :
    ∃ i changed, (e.reconcileRegister r).1 = .ok (.allocated i changed) := by
  obtain ⟨pool, key, hasks⟩ := h.asks r hr
  obtain ⟨t, hlive, hroom⟩ := hasks.live
  have hregister : ∃ i e', e.register (r.ask pool) = (.ok i, e') ∧ e'.store = e.store := by
    rcases t.held_or_absent key with ⟨i, a, hi, rfl⟩ | habsent
    · refine ⟨i, e, (register_of_held h.sound hasks.accept hlive hi).trans ?_, rfl⟩
      simp [h.conflicts]
    · have hkeys : ∀ i a, t.holder? i = some a → a.key ∈ wanted pool := fun i a hi =>
        (h.held pool i a ⟨t, hlive, hi⟩).resolve_right (by simp)
      have hfree := (h.sound.tables hlive).allocated_lt hkeys (hasks.counted (h.stays hr)) habsent
        hroom
      obtain ⟨i, hi⟩ := (h.sound.tables hlive).exists_vacancy hfree (t.home keyDigest key)
      exact ⟨i, _, register_of_absent h.sound hasks.accept hlive habsent hi, rfl⟩
  obtain ⟨i, e', hi, hstore⟩ := hregister
  have hr' : e'.store.registers[r.key]? = some r := hstore ▸ hr
  have hstays : ¬ r.deleting = true := by simp [h.stays hr]
  refine ⟨i, r.index ≠ some i, ?_⟩
  rw [reconcileRegister_eq hasks.pool_eq, if_neg hstays, hi]
  exact congrArg Prod.fst (settle_of_stored hr' i)

end Clearing

/-- Nothing is left to be cleared, and the registers that are not in `rest` have their indices. -/
structure Settling (wanted : PoolId → List String) (e : Engine) (rest : List RegisterRecord) : Prop
    extends Clearing wanted e [] where
  unvisited : ∀ r ∈ rest, e.store.registers[r.key]? = some r
  truthful : ∀ r : RegisterRecord, e.store.registers[r.key]? = some r → r ∈ rest ∨ e.Truthful r

namespace Settling

theorem visit (h : e.Settling wanted (r :: rest)) (hnew : ∀ r' ∈ rest, r.key ≠ r'.key) :
    (e.reconcileRegister r).2.Settling wanted rest := by
  have hr := h.unvisited r List.mem_cons_self
  have hv := registerVisit_cases h.sound r
  refine ⟨h.toClearing.visit_stored hr, fun r' hr' => ?_, fun r' hr' => ?_⟩
  · rw [hv.of_ne (hnew r' hr').symm]
    exact h.unvisited r' (List.mem_cons_of_mem _ hr')
  · by_cases hk : r'.key = r.key
    · rw [hk] at hr'
      obtain ⟨i, changed, hanswer⟩ := h.answered hr
      refine .inr ((hv.truthful_self hr hr').resolve_left ?_)
      rintro ⟨err, herr⟩
      rw [herr] at hanswer
      cases hanswer
    · rw [hv.of_ne hk] at hr'
      rcases h.truthful r' hr' with hmem | ht
      · refine .inl ((List.mem_cons.1 hmem).resolve_left ?_)
        rintro rfl
        exact hk rfl
      · -- no key is released any more
        refine .inr ((hv.truthful h.sound hr ht).resolve_right ?_)
        rintro ⟨hleaves, -⟩
        cases (h.stays hr).symm.trans hleaves

theorem registry (h : e.Settling wanted []) (policy : PacePolicy) (pool : PoolId) :
    (e.reconcileRegistry policy pool).2.Settling wanted [] := by
  have hv := registryVisit_cases h.sound policy pool
  refine ⟨h.toClearing.registry policy pool, by simp, fun r hr => ?_⟩
  rw [hv.registers_eq] at hr
  refine (h.truthful r hr).imp_right fun ht => ht.of_holds fun _ _ _ => (hv.holds_iff h.sound).2

/-- A settled register is found at its index. -/
theorem reconcileRegister_eq_self (h : e.Settling wanted [])
    (hr : e.store.registers[r.key]? = some r) :
    ∃ i, e.reconcileRegister r = (.ok (.allocated i false), e) := by
  obtain ⟨pool, i, a, hpool, hindex, ⟨t, hlive, hi⟩, hname⟩ :=
    (h.truthful r hr).resolve_left (by simp)
  obtain ⟨pool', key, hasks⟩ := h.asks r hr
  cases hpool.symm.trans hasks.pool_eq
  cases hname.symm.trans hasks.named
  have hregister := register_of_held h.sound hasks.accept hlive hi
  have hstays : ¬ r.deleting = true := by simp [h.stays hr]
  refine ⟨i, ?_⟩
  rw [reconcileRegister_eq hpool, if_neg hstays, hregister]
  simp [h.conflicts, settle, hindex]

end Settling

theorem Satisfiable.clearing (h : e.Satisfiable) (hs : e.Sound) (hk : e.store.Keyed) :
    e.Clearing e.demand e.store.registerList := by
  refine ⟨⟨hs, hk, h.conflicts, fun pool record hrecord => ?_, fun r hr => ?_⟩,
    fun _ => hk.mem_registerList.1, fun _ hr _ => hk.mem_registerList.2 hr, ?_⟩
  · exact h.standing record (mem_values.2 ⟨pool, hrecord⟩)
  · obtain ⟨pool, key, hpool, hname, hkey, hserves, hlive⟩ :=
      h.served r (hk.mem_registerList.2 hr)
    obtain ⟨t, ht⟩ := mem_iff_lookup.1 hlive
    have hroom := h.room (pool, t) (Std.ExtTreeMap.mem_toList_iff_getElem?_eq_some.2 ht)
    refine ⟨pool, key, hpool, hname, hkey, hserves, ⟨t.capacity, ?_, hroom⟩, fun hstays => ?_⟩
    · exact congrArg (Option.map SlotTable.capacity) ht
    · refine List.mem_eraseDups.2 (List.mem_append_left _ (Store.mem_keysOf.2 ?_))
      exact ⟨r, hk.mem_registerList.2 hr, hpool, hstays, hname⟩
  · rintro pool i a ⟨t, hlive, hi⟩
    have hused : a.key ∈ (e.snapshot pool).used := by
      unfold snapshot PoolDirectory.snapshot
      rw [hlive]
      exact List.mem_map.2 ⟨(i, a), SlotTable.mem_entries.2 hi, rfl⟩
    by_cases hleaving : a.key ∈ e.store.keysOf pool true
    · obtain ⟨r, hr, hpool, hleaves, hname⟩ := Store.mem_keysOf.1 hleaving
      exact .inr ⟨r, hr, hleaves, hpool, hname⟩
    · refine .inl (List.mem_eraseDups.2 (List.mem_append_right _ ?_))
      exact List.mem_filter.2 ⟨hused, by simpa using hleaving⟩

theorem Clearing.pass (h : e.Clearing wanted e.store.registerList) (policy : PacePolicy)
    (schedule : Schedule) (now : Millis) :
    (e.pass policy schedule now).engine.Clearing wanted [] :=
  pass_rest (P := fun e rest => e.Clearing wanted rest) h.sound h.keyed policy schedule now h
    (fun _ _ _ hnew h => h.visit hnew) fun _ pool h => h.registry policy pool

theorem Clearing.settling (h : e.Clearing wanted []) :
    e.Settling wanted e.store.registerList :=
  ⟨h, fun _ => h.keyed.mem_registerList.1, fun _ hr => .inl (h.keyed.mem_registerList.2 hr)⟩

theorem Settling.settled (h : e.Settling wanted e.store.registerList) (policy : PacePolicy)
    (schedule : Schedule) (now : Millis) :
    (e.pass policy schedule now).engine.Settling wanted [] :=
  pass_rest (P := fun e rest => e.Settling wanted rest) h.sound h.keyed policy schedule now h
    (fun _ _ _ hnew h => h.visit hnew) fun _ pool h => h.registry policy pool

theorem RegisterVisit.register_stays {res : Except ReconcileError RegisterOutcome × Engine}
    (h : RegisterVisit e r res) (hr : e.store.registers[r.key]? = some r)
    (hstays : r.deleting = false) : ∃ r', res.2.store.registers[r.key]? = some r' := by
  cases h with
  | failed => exact ⟨r, hr⟩
  | kept => exact ⟨_, settle_self hr _⟩
  | placed => exact ⟨_, settle_self (e := e.retable _ _) hr _⟩
  | idle _ hleaves | freed _ hleaves => cases hstays.symm.trans hleaves

/-- A register that is not marked for deletion stays through the visits of a pass. -/
theorem Visits.register_stays (h : Visits policy e e') (hs : e.Sound)
    (hr : e.store.registers[r.key]? = some r) (hstays : r.deleting = false) :
    ∃ i, e'.store.registers[r.key]? = some { r with index := i } := by
  have hthere : ∃ r', e'.store.registers[r.key]? = some r' := by
    induction h with
    | start => exact ⟨r, hr⟩
    | @register e' r' before hread hstored ih =>
      have hv := registerVisit_cases (before.sound hs) r'
      by_cases hk : r.key = r'.key
      · rw [hk] at hr ⊢
        cases hread.symm.trans hr
        exact hv.register_stays hstored hstays
      · rw [hv.of_ne hk]
        exact ih
    | registry before pool ih =>
      rw [(registryVisit_cases (before.sound hs) policy pool).registers_eq]
      exact ih
  obtain ⟨r', hr'⟩ := hthere
  obtain ⟨r₀, hr₀, heq⟩ := h.register_eq hs hr'
  cases hr.symm.trans hr₀
  exact ⟨r'.index, heq ▸ hr'⟩

theorem Settling.visitRegisters_eq_self : ∀ (rs : List RegisterRecord) (p : Pass),
    p.engine.Settling wanted [] → (∀ r ∈ rs, p.engine.store.registers[r.key]? = some r) →
    Pass.visitRegisters rs p = p
  | [], _, _, _ => rfl
  | r :: rs, p, h, hstored => by
    obtain ⟨i, hvisit⟩ := h.reconcileRegister_eq_self (hstored r List.mem_cons_self)
    have hp : p.visitRegister r = p := by
      unfold Pass.visitRegister
      rw [hvisit]
      rfl
    rw [Pass.visitRegisters, hp]
    exact visitRegisters_eq_self rs p h fun r' hr' => hstored r' (List.mem_cons_of_mem _ hr')

theorem Settling.midway_eq (h : e.Settling wanted []) (schedule : Schedule) :
    e.midway schedule = ⟨e, schedule.retain e.store, .zero, false⟩ := by
  unfold midway
  rw [visitRegisters_eq_self _ ⟨e, schedule, .zero, false⟩ h fun _ => h.keyed.mem_registerList.1]

end Engine

theorem PassStats.hasChanges_countRegistries :
    ∀ (xs : List (PoolId × Except ReconcileError RegistryOutcome)) (stats : PassStats),
      (∀ x ∈ xs, x.2 ≠ .ok .deleted) →
        (xs.foldl (fun stats x => stats.countRegistry x.2) stats).hasChanges = stats.hasChanges
  | [], _, _ => rfl
  | x :: xs, stats, h => by
    have hx : (stats.countRegistry x.2).hasChanges = stats.hasChanges := by
      rcases hanswer : x.2 with err | (_ | _ | _)
      · rfl
      · rfl
      · rfl
      · exact absurd hanswer (h x List.mem_cons_self)
    have hxs := hasChanges_countRegistries xs (stats.countRegistry x.2)
      fun y hy => h y (List.mem_cons_of_mem _ hy)
    exact hxs.trans hx

namespace Engine

variable {wanted : PoolId → List String} {e : Engine} {policy : PacePolicy} {schedule : Schedule}
  {now : Millis}

theorem not_deleted_of_answer (hs : e.Sound)
    (hstays : ∀ (pool : PoolId) (record : RegistryRecord),
      e.store.registries[pool]? = some record → record.deleting = false)
    {x : PoolId × Except ReconcileError RegistryOutcome}
    (hx : x ∈ e.answers policy schedule now) : x.2 ≠ .ok .deleted := by
  obtain ⟨p, hp, hbefore, hanswer, -⟩ := visit_of_answer hs hx
  have hrecords := hbefore.engine.record
  rw [registries_midway hs] at hrecords
  have hv := registryVisit_cases hp policy x.1
  rw [hanswer]
  intro hdeleted
  generalize p.engine.reconcileRegistry policy x.1 = res at hv hdeleted
  cases hv with
  | missing | unset | blocked | synced => cases hdeleted
  | deleted hrecord hleaves =>
    cases hleaves.symm.trans (hstays _ _ (hrecords.symm.trans hrecord))

/-- The pass changed no register and no table, and counts no change; a pool that was set up in it
is empty. -/
structure Undisturbed (e : Engine) (p : Pass) : Prop where
  registers : p.engine.store.registers = e.store.registers
  tables : ∀ (q : PoolId) (t : SlotTable),
    e.pools.live[q]? = some t → p.engine.pools.live[q]? = some t
  opened : ∀ (q : PoolId) (t : SlotTable),
    e.pools.live[q]? = none → p.engine.pools.live[q]? = some t → t.entries = []
  stats : p.stats.hasChanges = false

/-- A pass over settled registers leaves them settled, and undisturbed. -/
theorem Settling.pass (h : e.Settling wanted []) (policy : PacePolicy) (schedule : Schedule)
    (now : Millis) :
    (e.pass policy schedule now).engine.Settling wanted [] ∧
      e.Undisturbed (e.pass policy schedule now) := by
  have hmidway := h.midway_eq schedule
  have hengine : (e.midway schedule).engine = e := by rw [hmidway]
  obtain ⟨hsettled, hlive, hholds⟩ := pass_stable (P := fun e₁ => e₁.Settling wanted [] ∧
      (∀ (q : PoolId) (t : SlotTable), e.pools.live[q]? = some t → e₁.pools.live[q]? = some t) ∧
      ∀ (q : PoolId) (i : Nat) (a : Allocation), e₁.Holds q i a → e.Holds q i a)
    h.sound policy schedule now
    (hengine.symm ▸ ⟨h, fun _ _ ht => ht, fun _ _ _ ha => ha⟩)
    fun e₁ pool h₁ ⟨hsettled, hlive, hholds⟩ => by
      have hv := registryVisit_cases h₁ policy pool
      exact ⟨hsettled.registry policy pool,
        fun q t ht => hv.live_kept (hsettled.standing pool) (hlive q t ht),
        fun q i a ha => hholds q i a ((hv.holds_iff h₁).1 ha)⟩
  refine ⟨hsettled, ?_, hlive, fun q t hnone ht => ?_, ?_⟩
  · rw [registers_pass h.sound, hengine]
  · refine List.eq_nil_iff_forall_not_mem.2 fun ⟨i, a⟩ hentry => ?_
    exact not_holds_of_none hnone (hholds q i a ⟨t, ht, SlotTable.mem_entries.1 hentry⟩)
  · rw [pass_eq, Pass.stats_visitRegistries, PassStats.hasChanges_countRegistries, hmidway]
    · rfl
    · exact fun x hx => not_deleted_of_answer h.sound h.standing hx

/-- The engines that passes lead to, each pass on any schedule and at any time. -/
inductive Passes (policy : PacePolicy) (e : Engine) : Engine → Prop
  | start : Passes policy e e
  | pass {e' : Engine} (before : Passes policy e e') (schedule : Schedule) (now : Millis) :
      Passes policy e (e'.pass policy schedule now).engine

theorem Passes.settling {e' : Engine} (passes : Passes policy e e') (h : e.Settling wanted []) :
    e'.Settling wanted [] := by
  induction passes with
  | start => exact h
  | pass _ schedule now ih => exact (ih.pass policy schedule now).1

end Engine

/-- Two passes settle an engine whose demand can be met: no register is left that is to go, those
that stay are there with the indices at which their keys are held, and no pass after that changes a
register or a table, or counts a change. -/
theorem settled_after_two_passes {policy : PacePolicy} {store : Store} {cap : UInt32}
    {conflicts : ConflictPolicy} {past : List (System × Event)} {s : System}
    (hstore : store.Initial)
    (run : Run policy (fun _ _ => True) (.start store cap conflicts) past s)
    (hsatisfiable : s.engine.Satisfiable) {schedule₁ schedule₂ : Schedule} {now₁ now₂ : Millis}
    {p₁ p₂ : Pass} (h₁ : s.engine.pass policy schedule₁ now₁ = p₁)
    (h₂ : p₁.engine.pass policy schedule₂ now₂ = p₂) :
    (∀ r ∈ s.engine.store.registerList, r.deleting = false →
      ∃ i, { r with index := i } ∈ p₂.engine.store.registerList) ∧
    (∀ r ∈ p₂.engine.store.registerList, r.deleting = false ∧ p₂.engine.Truthful r) ∧
    ∀ e, p₂.engine.Passes policy e → ∀ (schedule : Schedule) (now : Millis),
      e.Undisturbed (e.pass policy schedule now) := by
  have hstart : (System.start store cap conflicts).engine.Sound :=
    Engine.sound_start store cap conflicts
  have hs := run.sound hstart
  have hk := run.keyed hstart hstore.keyed
  subst h₁ h₂
  have hclearing := (hsatisfiable.clearing hs hk).pass policy schedule₁ now₁
  have hsettled := hclearing.settling.settled policy schedule₂ now₂
  have hvisits₁ := Engine.visits_pass hs hk policy schedule₁ now₁
  have hvisits₂ := Engine.visits_pass hclearing.sound hclearing.keyed policy schedule₂ now₂
  refine ⟨fun r hr hstays => ?_, fun r hr => ?_, ?_⟩
  · obtain ⟨i₁, hr₁⟩ := hvisits₁.register_stays hs (hk.mem_registerList.1 hr) hstays
    obtain ⟨i₂, hr₂⟩ := hvisits₂.register_stays (r := { r with index := i₁ }) hclearing.sound hr₁
      hstays
    exact ⟨i₂, mem_values.2 ⟨r.key, hr₂⟩⟩
  · rw [hsettled.keyed.mem_registerList] at hr
    exact ⟨hsettled.stays hr, (hsettled.truthful r hr).resolve_left (by simp)⟩
  · exact fun e passes schedule now => ((passes.settling hsettled).pass policy schedule now).2

namespace Reshuffle

def ids : PoolId := .netIds

def register (name key : String) : RegisterRecord := .naming "net" name "ids" key

/-- The pool is full, and "x" and "y" are to leave it. "aa" asks before they do, and the key of "a"
goes with "b", which shares it. -/
def events : List Event :=
  [.declare (.register (register "aa" "late")), .declare (.register (register "c" "fresh")),
    .declare (.registerDeleting ⟨"net", "b"⟩), .declare (.registerDeleting ⟨"net", "x"⟩),
    .declare (.registerDeleting ⟨"net", "y"⟩), .pass 1,
    .declare (.register (register "a" "shared")), .declare (.register (register "b" "shared")),
    .declare (.register (register "x" "old")), .declare (.register (register "y" "older")), .pass 0,
    .declare (.registry ids ⟨some 3, some .firstAvailable, none, none⟩)]

end Reshuffle

/-- In the first pass "aa" finds no slot, and "c" takes the one that "a" loses; the second gives the
two that are left their indices. -/
theorem settled_after_reshuffle :
    ∃ (past : List (System × Event)) (s : System) (p₁ p₂ : Pass),
      Store.empty.Initial ∧
        Run .standard (fun _ _ => True) (.start .empty 3 .keepExisting) past s ∧
        s.engine.Satisfiable ∧ s.engine.pass .standard s.schedule 2 = p₁ ∧
        p₁.engine.pass .standard p₁.schedule 3 = p₂ ∧ p₁.stats.registersFailed = 1 ∧
        (p₁.engine.store.registerList.map fun r => (r.key.name, r.index)) =
          [("a", some 0), ("aa", none), ("c", some 0)] ∧
        (p₂.engine.store.registerList.map fun r => (r.key.name, r.index)) =
          [("a", some 1), ("aa", some 2), ("c", some 0)] ∧
        (∀ r ∈ p₂.engine.store.registerList, r.deleting = false ∧ p₂.engine.Truthful r) ∧
        p₂.engine.Undisturbed (p₂.engine.pass .standard .empty 60000) := by
  let s : System := (System.start .empty 3 .keepExisting).after .standard Reshuffle.events
  let p₁ : Pass := s.engine.pass .standard s.schedule 2
  let p₂ : Pass := p₁.engine.pass .standard p₁.schedule 3
  have hrun : Run .standard (fun _ _ => True) (.start .empty 3 .keepExisting) _ s :=
    run_after Reshuffle.events fun _ _ => trivial
  have hregisters : ∀ r ∈ s.engine.store.registerList,
      r.pool = .ok Reshuffle.ids ∧ r.named? ≠ none ∧ r.named? ≠ some "" := by decide +kernel
  have hsatisfiable : s.engine.Satisfiable := by
    refine ⟨by decide +kernel, by decide +kernel, fun r hr => ?_, by decide +kernel⟩
    obtain ⟨hpool, hnone, hempty⟩ := hregisters r hr
    obtain ⟨key, hkey⟩ := Option.ne_none_iff_exists'.1 hnone
    exact ⟨Reshuffle.ids, key, hpool, hkey, fun h => hempty (h ▸ hkey), by decide +kernel,
      by decide +kernel⟩
  have h₁ : s.engine.pass .standard s.schedule 2 = p₁ := rfl
  have h₂ : p₁.engine.pass .standard p₁.schedule 3 = p₂ := rfl
  obtain ⟨-, htruthful, hquiet⟩ :=
    settled_after_two_passes (.inl rfl) hrun hsatisfiable h₁ h₂
  exact ⟨_, s, p₁, p₂, .inl rfl, hrun, hsatisfiable, h₁, h₂, by decide +kernel, by decide +kernel,
    by decide +kernel, htruthful, hquiet _ .start .empty 60000⟩

end IndexPools
