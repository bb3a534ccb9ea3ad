import IndexPools.Engine.Pass
import IndexPools.Proofs.Standing

/-!
# Visits

What the reconciliation of one record can come to, with the engine after it: of a register in
`registerVisit_cases`, of a registry in `registryVisit_cases`. A pass is a sequence of such visits
(`visits_pass`), so that what no visit breaks holds after a pass if it held before. A visit of a
register writes no other register's record, and a visit of a registry writes no register's; so each
register is visited as it was when the pass began.
-/

namespace IndexPools

/-- The key that a selector names, be it empty. -/
def Request.named? (q : Request) : Option String := q.selector.bind fun s => s[Request.nameEntry]?

theorem Request.key_eq_ok {q : Request} {key : String} :
    q.key = .ok key ↔ q.named? = some key ∧ key ≠ "" := by
  unfold Request.key named?
  rcases q.selector with _ | s
  · simp
  · rcases hname : s[nameEntry]? with _ | k
    · simp [hname]
    · simp only [hname, Option.bind_some, Option.some.injEq]
      split_ifs with hempty
      · simp [hempty]
      · simp only [Except.ok.injEq]
        exact ⟨fun h => ⟨h, h ▸ hempty⟩, And.left⟩

/-- Every register stands under its own key. -/
def Store.Keyed (s : Store) : Prop :=
  ∀ (k : RegisterKey) (r : RegisterRecord), s.registers[k]? = some r → r.key = k

theorem Store.Keyed.mem_registerList {s : Store} (h : s.Keyed) {r : RegisterRecord} :
    r ∈ s.registerList ↔ s.registers[r.key]? = some r := by
  refine ⟨fun hr => ?_, fun hr => mem_values.2 ⟨r.key, hr⟩⟩
  obtain ⟨k, hk⟩ := mem_values.1 hr
  rwa [h k r hk]

namespace RegisterRecord

def named? (r : RegisterRecord) : Option String := r.selector.bind fun s => s[Request.nameEntry]?

/-- What the register asks of a pool. -/
def ask (r : RegisterRecord) (pool : PoolId) : Request := ⟨pool, r.key.name, r.selector, r.tags⟩

theorem toOption_pool {r : RegisterRecord} {pool : PoolId} :
    r.pool.toOption = some pool ↔ r.pool = .ok pool := by
  rcases r.pool with err | q <;> simp [Except.toOption]

theorem request_eq_ok {r : RegisterRecord} {pool : PoolId} (h : r.pool = .ok pool) :
    r.request = .ok (r.ask pool) := by
  unfold request
  rw [h]
  rfl

end RegisterRecord

namespace Engine

variable {e : Engine}

theorem key_of_accept {q : Request} {key : String} (h : e.accept q = .ok key) :
    q.key = .ok key := by
  unfold accept at h
  split at h
  · cases h
  · cases h
  · rcases hk : q.key with fault | k
    · rw [hk] at h
      cases h
    · rw [hk] at h
      cases h
      rfl

theorem named_of_key {q : Request} {key : String} (h : q.key = .ok key) :
    q.named? = some key :=
  (Request.key_eq_ok.1 h).1

theorem named_of_accept {q : Request} {key : String} (h : e.accept q = .ok key) :
    q.named? = some key :=
  named_of_key (key_of_accept h)

theorem serves_eq_error {s : Store} {pool : PoolId} {err : StoreError} :
    s.serves pool = .error err ↔
      s.registries[pool]? = none ∧ err = .registryNotFound pool := by
  unfold Store.serves Store.registry
  rcases s.registries[pool]? with _ | record
  · simp [Except.map, eq_comm]
  · simp [Except.map]

theorem serves_congr {e' : Engine} {pool : PoolId}
    (h : e'.store.registries[pool]? = e.store.registries[pool]?) :
    e'.store.serves pool = e.store.serves pool := by
  unfold Store.serves Store.registry
  rw [h]

/-- What a register asks of a pool that serves is accepted if it names a key. -/
theorem accept_ask {r : RegisterRecord} {pool : PoolId} {key : String}
    (hserves : e.store.serves pool = .ok true) (hname : r.named? = some key) (hkey : key ≠ "") :
    e.accept (r.ask pool) = .ok key := by
  have hk : (r.ask pool).key = .ok key := Request.key_eq_ok.2 ⟨hname, hkey⟩
  have hpool : (r.ask pool).pool = pool := rfl
  simp only [accept, hpool, hserves, hk]
  rfl

/-- The end of a register's visit, once the register's key holds slot `i`. -/
def settle (e : Engine) (r : RegisterRecord) (i : Nat) :
    Except ReconcileError RegisterOutcome × Engine :=
  if r.index = some i then (.ok (.allocated i false), e)
  else
    match e.store.setIndex r.key i with
    | .error err => (.error (.store err), e)
    | .ok store => (.ok (.allocated i true), { e with store })

/-- The end of a register's visit, once the register's key was released. -/
def discard (e : Engine) (r : RegisterRecord) : Except ReconcileError RegisterOutcome × Engine :=
  match e.store.removeRegister r.key with
  | .error err => (.error (.store err), e)
  | .ok store => (.ok .released, { e with store })

theorem reconcileRegister_eq {r : RegisterRecord} {pool : PoolId} (h : r.pool = .ok pool) :
    e.reconcileRegister r =
      if r.deleting then
        match e.deregister (r.ask pool) with
        | (.error err, e') => (.error (.request err), e')
        | (.ok (), e') => e'.discard r
      else
        match e.register (r.ask pool) with
        | (.error err, e') => (.error (.request err), e')
        | (.ok i, e') => e'.settle r i := by
  unfold reconcileRegister
  rw [RegisterRecord.request_eq_ok h]
  rfl

/-- A register that is to go is discarded once the release of its key was accepted. -/
theorem reconcileRegister_of_accept {r : RegisterRecord} {pool : PoolId} {key : String}
    {t : SlotTable} (hpool : r.pool = .ok pool) (hleaves : r.deleting = true)
    (haccept : e.accept (r.ask pool) = .ok key) (hlive : e.pools.live[pool]? = some t) :
    e.reconcileRegister r = (e.deregister (r.ask pool)).2.discard r := by
  have hok : (e.deregister (r.ask pool)).1 = .ok () := deregister_of_accept haccept hlive
  rw [reconcileRegister_eq hpool, if_pos hleaves]
  generalize e.deregister (r.ask pool) = res at hok ⊢
  obtain ⟨answer, e'⟩ := res
  cases hok
  rfl

inductive RegisterVisit (e : Engine) (r : RegisterRecord) :
    Except ReconcileError RegisterOutcome × Engine → Prop
  | failed (err : ReconcileError) : RegisterVisit e r (.error err, e)
  | kept {pool : PoolId} {key : String} {t : SlotTable} {i : Nat} {a : Allocation}
      (hpool : r.pool = .ok pool) (hstays : r.deleting = false)
      (haccept : e.accept (r.ask pool) = .ok key) (hlive : e.pools.live[pool]? = some t)
      (hheld : t.holder? i = some a) (hkey : a.key = key) : RegisterVisit e r (e.settle r i)
  | placed {pool : PoolId} {key : String} {t : SlotTable} {i : Nat}
      (hpool : r.pool = .ok pool) (hstays : r.deleting = false)
      (haccept : e.accept (r.ask pool) = .ok key) (hlive : e.pools.live[pool]? = some t)
      (habsent : t.Absent key) (hvacant : t.vacancy (t.home keyDigest key) = some i) :
      RegisterVisit e r ((e.retable pool (t.put i ⟨key, r.key.name, r.tags⟩)).settle r i)
  | idle {pool : PoolId} {key : String} {t : SlotTable}
      (hpool : r.pool = .ok pool) (hleaves : r.deleting = true)
      (haccept : e.accept (r.ask pool) = .ok key) (hlive : e.pools.live[pool]? = some t)
      (habsent : t.Absent key) : RegisterVisit e r (e.discard r)
  | freed {pool : PoolId} {key : String} {t : SlotTable} {i : Nat} {a : Allocation}
      (hpool : r.pool = .ok pool) (hleaves : r.deleting = true)
      (haccept : e.accept (r.ask pool) = .ok key) (hlive : e.pools.live[pool]? = some t)
      (hheld : t.holder? i = some a) (hkey : a.key = key) :
      RegisterVisit e r ((e.retable pool (t.vacate i)).discard r)

theorem registerVisit_cases (h : e.Sound) (r : RegisterRecord) :
    RegisterVisit e r (e.reconcileRegister r) := by
  unfold reconcileRegister RegisterRecord.request
  rcases hpool : r.pool with err | pool
  · exact .failed _
  · simp only []
    by_cases hd : r.deleting = true
    · rw [if_pos hd]
      have hcases := deregister_cases h (r.ask pool)
      unfold RegisterRecord.ask at hcases
      generalize hq : e.deregister ⟨pool, r.key.name, r.selector, r.tags⟩ = res at hcases
      cases hcases with
      | refused err => exact .failed _
      | idle haccept hlive habsent => exact .idle hpool hd haccept hlive habsent
      | freed haccept hlive hheld hkey => exact .freed hpool hd haccept hlive hheld hkey
    · rw [if_neg hd]
      have hcases := register_cases h (r.ask pool)
      unfold RegisterRecord.ask at hcases
      generalize hq : e.register ⟨pool, r.key.name, r.selector, r.tags⟩ = res at hcases
      rw [Bool.not_eq_true] at hd
      cases hcases with
      | refused err => exact .failed _
      | kept haccept hlive hheld hkey => exact .kept hpool hd haccept hlive hheld hkey
      | placed haccept hlive habsent hvacant =>
        exact .placed hpool hd haccept hlive habsent hvacant

theorem settle_of_stored {r : RegisterRecord} (h : e.store.registers[r.key]? = some r) (i : Nat) :
    e.settle r i =
      (.ok (.allocated i (r.index ≠ some i)),
        { e with store := e.store.declareRegister { r with index := some i } }) := by
  unfold settle
  split_ifs with hi
  · have hsame : e.store.declareRegister { r with index := some i } = e.store := by
      simp only [Store.declareRegister, ← hi]
      rw [insert_of_lookup h]
    rw [hsame, hi]
    simp
  · simp [Store.setIndex, Store.changeRegister, h, hi, Store.declareRegister]

theorem discard_of_stored {r : RegisterRecord} (h : e.store.registers[r.key]? = some r) :
    e.discard r =
      (.ok .released,
        { e with store := { e.store with registers := e.store.registers.erase r.key } }) := by
  simp [discard, Store.removeRegister, h]

theorem settle_self {r : RegisterRecord} (h : e.store.registers[r.key]? = some r) (i : Nat) :
    (e.settle r i).2.store.registers[r.key]? = some { r with index := some i } := by
  rw [settle_of_stored h]
  exact (lookup_insert _ _ _ _).trans (if_pos rfl)

theorem discard_self {r : RegisterRecord} (h : e.store.registers[r.key]? = some r) :
    (e.discard r).2.store.registers[r.key]? = none := by
  rw [discard_of_stored h]
  exact (lookup_erase _ _ _).trans (if_pos rfl)

/-- The end of a register's visit writes registers only. -/
theorem settle_frame (e : Engine) (r : RegisterRecord) (i : Nat) :
    ∃ registers, (e.settle r i).2 = { e with store := { e.store with registers } } := by
  unfold settle Store.setIndex Store.changeRegister
  split_ifs
  · exact ⟨_, rfl⟩
  · rcases e.store.registers[r.key]? with _ | r'
    · exact ⟨_, rfl⟩
    · exact ⟨_, rfl⟩

theorem discard_frame (e : Engine) (r : RegisterRecord) :
    ∃ registers, (e.discard r).2 = { e with store := { e.store with registers } } := by
  unfold discard Store.removeRegister
  rcases e.store.registers[r.key]? with _ | r'
  · exact ⟨_, rfl⟩
  · exact ⟨_, rfl⟩

theorem settle_of_ne {r : RegisterRecord} {k : RegisterKey} (hk : k ≠ r.key) (i : Nat) :
    (e.settle r i).2.store.registers[k]? = e.store.registers[k]? := by
  unfold settle Store.setIndex Store.changeRegister
  split_ifs
  · rfl
  · rcases e.store.registers[r.key]? with _ | r'
    · rfl
    · exact (lookup_insert _ _ _ _).trans (if_neg fun e' => hk e'.symm)

theorem discard_of_ne {r : RegisterRecord} {k : RegisterKey} (hk : k ≠ r.key) :
    (e.discard r).2.store.registers[k]? = e.store.registers[k]? := by
  unfold discard Store.removeRegister
  rcases e.store.registers[r.key]? with _ | r'
  · rfl
  · exact (lookup_erase _ _ _).trans (if_neg fun e' => hk e'.symm)

section Register

variable {r : RegisterRecord} {res : Except ReconcileError RegisterOutcome × Engine}

theorem RegisterVisit.of_ne (h : RegisterVisit e r res) {k : RegisterKey} (hk : k ≠ r.key) :
    res.2.store.registers[k]? = e.store.registers[k]? := by
  cases h with
  | failed => rfl
  | kept => exact settle_of_ne hk _
  | placed => exact settle_of_ne hk _
  | idle => exact discard_of_ne hk
  | freed => exact discard_of_ne hk

/-- Beside what it does to its pool, the visit of a register writes registers only. -/
theorem RegisterVisit.frame (h : RegisterVisit e r res) (hs : e.Sound) :
    ∃ e' registers, Moved e e' ∧ (∀ q, r.pool ≠ .ok q → SameAt e e' q) ∧
      res.2 = { e' with store := { e'.store with registers } } := by
  have hretable : ∀ {pool : PoolId} {t₀ t : SlotTable}, r.pool = .ok pool →
      e.pools.live[pool]? = some t₀ → t.Sound keyDigest → Moved e (e.retable pool t) ∧
        ∀ q, r.pool ≠ .ok q → SameAt e (e.retable pool t) q := by
    intro pool t₀ t hpool hlive ht
    refine ⟨.retabled hlive ht, fun q hq => sameAt_retable ?_⟩
    rintro rfl
    exact hq hpool
  have hkept : Moved e e ∧ ∀ q, r.pool ≠ .ok q → SameAt e e q :=
    ⟨.same, fun _ _ => ⟨rfl, rfl, rfl⟩⟩
  cases h with
  | failed => exact ⟨e, e.store.registers, hkept.1, hkept.2, rfl⟩
  | kept =>
    obtain ⟨registers, hw⟩ := settle_frame e r _
    exact ⟨e, registers, hkept.1, hkept.2, hw⟩
  | @placed pool key t i hpool _ _ hlive habsent hvacant =>
    have ht : (t.put i ⟨key, r.key.name, r.tags⟩).Sound keyDigest :=
      (hs.tables hlive).put habsent hvacant
    obtain ⟨hmoved, hsame⟩ := hretable hpool hlive ht
    obtain ⟨registers, hw⟩ := settle_frame (e.retable pool _) r i
    exact ⟨_, registers, hmoved, hsame, hw⟩
  | idle =>
    obtain ⟨registers, hw⟩ := discard_frame e r
    exact ⟨e, registers, hkept.1, hkept.2, hw⟩
  | @freed pool _ t i _ hpool _ _ hlive hheld =>
    obtain ⟨hmoved, hsame⟩ := hretable hpool hlive ((hs.tables hlive).vacate hheld)
    obtain ⟨registers, hw⟩ := discard_frame (e.retable pool (t.vacate i)) r
    exact ⟨_, registers, hmoved, hsame, hw⟩

theorem RegisterVisit.moved (h : RegisterVisit e r res) (hs : e.Sound) :
    ∃ e' registers, Moved e e' ∧ res.2 = { e' with store := { e'.store with registers } } := by
  obtain ⟨e', registers, hmoved, -, hw⟩ := h.frame hs
  exact ⟨e', registers, hmoved, hw⟩

/-- The visit of a register concerns no pool but the register's own. -/
theorem RegisterVisit.sameAt (h : RegisterVisit e r res) (hs : e.Sound) {q : PoolId}
    (hq : r.pool ≠ .ok q) : SameAt e res.2 q := by
  obtain ⟨e', registers, -, hsame, hw⟩ := h.frame hs
  obtain ⟨hrecord, htable, hlevel⟩ := hsame q hq
  rw [hw]
  exact ⟨hrecord, htable, hlevel⟩

theorem RegisterVisit.sound (h : RegisterVisit e r res) (hs : e.Sound) : res.2.Sound := by
  obtain ⟨e', registers, hmoved, hw⟩ := h.moved hs
  rw [hw]
  exact (hmoved.sound hs).store _

theorem RegisterVisit.cap_eq (h : RegisterVisit e r res) (hs : e.Sound) :
    res.2.pacer.cap = e.pacer.cap := by
  obtain ⟨e', registers, hmoved, hw⟩ := h.moved hs
  rw [hw]
  exact hmoved.cap_eq

theorem RegisterVisit.conflicts_eq (h : RegisterVisit e r res) (hs : e.Sound) :
    res.2.conflicts = e.conflicts := by
  obtain ⟨e', registers, hmoved, hw⟩ := h.moved hs
  rw [hw]
  exact hmoved.conflicts_eq

theorem RegisterVisit.registries_eq (h : RegisterVisit e r res) (hs : e.Sound) :
    res.2.store.registries = e.store.registries := by
  obtain ⟨e', registers, hmoved, hw⟩ := h.moved hs
  rw [hw, ← hmoved.store_eq]

/-- A register that is visited as it is stored stays under its key or goes, and at most its index
changes. -/
theorem RegisterVisit.of_stored (h : RegisterVisit e r res)
    (hstored : e.store.registers[r.key]? = some r) {r' : RegisterRecord}
    (hr' : res.2.store.registers[r.key]? = some r') : r' = { r with index := r'.index } := by
  have hsettle : ∀ {i : Nat}, some { r with index := some i } = some r' →
      r' = { r with index := r'.index } := by
    intro i h
    rw [← Option.some.inj h]
  cases h with
  | failed => rw [hstored] at hr'; cases hr'; rfl
  | kept => exact hsettle ((settle_self hstored _).symm.trans hr')
  | placed => exact hsettle ((settle_self (e := e.retable _ _) hstored _).symm.trans hr')
  | idle => cases (discard_self hstored).symm.trans hr'
  | freed => cases (discard_self (e := e.retable _ _) hstored).symm.trans hr'

end Register

/-- The engine after a pool's status was written into the pool's record. -/
def mirrored (e : Engine) (pool : PoolId) (record : RegistryRecord) : Engine :=
  { e with
    store :=
      { e.store with
        registries :=
          e.store.registries.insert pool { record with status := some (e.status pool) } } }

/-- The engine after a pool went with its record. -/
def removed (e : Engine) (pool : PoolId) : Engine :=
  { (e.deletePool pool).2 with
    store := { e.store with registries := e.store.registries.erase pool } }

inductive RegistryVisit (policy : PacePolicy) (e : Engine) (pool : PoolId) :
    Except ReconcileError RegistryOutcome × Engine → Prop
  | missing (hrecord : e.store.registries[pool]? = none) :
      RegistryVisit policy e pool (.error (.store (.registryNotFound pool)), e)
  | unset {record : RegistryRecord} (err : RequestError)
      (hrecord : e.store.registries[pool]? = some record) (hstays : record.deleting = false)
      (hlive : e.pools.live[pool]? = none) :
      RegistryVisit policy e pool (.error (.request err), e)
  | blocked {record : RegistryRecord} {t : SlotTable}
      (hrecord : e.store.registries[pool]? = some record) (hleaves : record.deleting = true)
      (hlive : e.pools.live[pool]? = some t) (hheld : 0 < t.allocated) :
      RegistryVisit policy e pool
        (.ok (.blocked t.allocated (e.nextDelay pool policy).1), (e.nextDelay pool policy).2)
  | deleted {record : RegistryRecord}
      (hrecord : e.store.registries[pool]? = some record) (hleaves : record.deleting = true)
      (hempty : ∀ t, e.pools.live[pool]? = some t → t.allocated = 0) :
      RegistryVisit policy e pool (.ok .deleted, e.removed pool)
  | synced {record : RegistryRecord} {e' : Engine}
      (hrecord : e.store.registries[pool]? = some record) (hstays : record.deleting = false)
      (hset : SetUp e pool e') :
      RegistryVisit policy e pool
        (.ok (.synced (e'.status pool) (e'.nextDelay pool policy).1),
          ((e'.mirrored pool record).nextDelay pool policy).2)

theorem mirrorStatus_of_stored {pool : PoolId} {record : RegistryRecord}
    (h : e.store.registries[pool]? = some record) :
    e.mirrorStatus pool record.status = .ok (e.mirrored pool record) := by
  unfold mirrorStatus mirrored
  split_ifs with hs
  · rw [← hs, insert_of_lookup h]
  · simp [Store.setStatus, Store.changeRegistry, h]

theorem registryVisit_cases (h : e.Sound) (policy : PacePolicy) (pool : PoolId) :
    RegistryVisit policy e pool (e.reconcileRegistry policy pool) := by
  unfold reconcileRegistry Store.registry
  rcases hrecord : e.store.registries[pool]? with _ | record
  · exact .missing hrecord
  · simp only []
    by_cases hd : record.deleting = true
    · rw [if_pos hd]
      have hstore : (e.deletePool pool).2.store = e.store := rfl
      simp only [finishDeletion, snapshot, PoolDirectory.snapshot, hstore, Store.removeRegistry,
        hrecord]
      rcases hlive : e.pools.live[pool]? with _ | t
      · exact .deleted hrecord hd fun t ht => by rw [hlive] at ht; cases ht
      · by_cases ha : 0 < t.allocated
        · have ha' : 0 < t.snapshot.allocated := ha
          rw [if_pos ha']
          exact .blocked hrecord hd hlive ha
        · have ha' : ¬ 0 < t.snapshot.allocated := ha
          rw [if_neg ha']
          refine .deleted hrecord hd fun t' ht' => ?_
          rw [hlive] at ht'
          cases ht'
          omega
    · rw [if_neg hd]
      rw [Bool.not_eq_true] at hd
      rcases initDeclared_cases h pool with ⟨err, hinit, hlive⟩ | ⟨created, e', hinit, hset⟩
      · rw [hinit]
        exact .unset err hrecord hd hlive
      · rw [hinit]
        have hrecord' : e'.store.registries[pool]? = some record := by
          rw [hset.moved.store_eq, hrecord]
        simp only [mirrorStatus_of_stored hrecord']
        exact .synced hrecord hd hset

theorem RegistryVisit.sameAt {policy : PacePolicy} {pool q : PoolId}
    {res : Except ReconcileError RegistryOutcome × Engine} (h : RegistryVisit policy e pool res)
    (hq : pool ≠ q) : SameAt e res.2 q := by
  cases h with
  | missing | unset => exact ⟨rfl, rfl, rfl⟩
  | blocked => exact sameAt_nextDelay hq policy
  | deleted =>
    obtain ⟨-, htable, hlevel⟩ := sameAt_deletePool (e := e) hq
    exact ⟨(lookup_erase _ _ _).trans (if_neg hq), htable, hlevel⟩
  | @synced record e' _ _ hset =>
    have hset' : SameAt e e' q := hset.sameAt hq
    exact ⟨((lookup_insert _ _ _ _).trans (if_neg hq)).trans hset'.record, hset'.table,
      (sameAt_nextDelay (e := e'.mirrored pool record) hq policy).level.trans hset'.level⟩

theorem RegistryVisit.cap_eq {policy : PacePolicy} {pool : PoolId}
    {res : Except ReconcileError RegistryOutcome × Engine} (h : RegistryVisit policy e pool res) :
    res.2.pacer.cap = e.pacer.cap := by
  cases h with
  | missing | unset | deleted => rfl
  | blocked => exact Pacer.cap_nextDelay _ _ _
  | synced _ _ hset => exact (Pacer.cap_nextDelay _ _ _).trans hset.moved.cap_eq

theorem RegistryVisit.conflicts_eq {policy : PacePolicy} {pool : PoolId}
    {res : Except ReconcileError RegistryOutcome × Engine} (h : RegistryVisit policy e pool res) :
    res.2.conflicts = e.conflicts := by
  cases h with
  | missing | unset | blocked | deleted => rfl
  | synced _ _ hset => exact hset.moved.conflicts_eq

theorem RegistryVisit.registers_eq {policy : PacePolicy} {pool : PoolId}
    {res : Except ReconcileError RegistryOutcome × Engine} (h : RegistryVisit policy e pool res) :
    res.2.store.registers = e.store.registers := by
  cases h with
  | missing | unset | blocked | deleted => rfl
  | synced _ _ hset =>
    rw [← hset.moved.store_eq]
    rfl

theorem RegistryVisit.sound {policy : PacePolicy} {pool : PoolId}
    {res : Except ReconcileError RegistryOutcome × Engine} (h : RegistryVisit policy e pool res)
    (hs : e.Sound) : res.2.Sound := by
  cases h with
  | missing | unset => exact hs
  | blocked => exact hs.nextDelay pool policy
  | deleted => exact hs.deletePool.store _
  | synced _ _ hset => exact ((hset.moved.sound hs).store _).nextDelay pool policy

/-- What no visit of the listed registers breaks. -/
theorem visitRegisters_stable_of_mem {P : Engine → Prop} :
    ∀ (rs : List RegisterRecord) (p : Pass),
      (∀ (e : Engine), ∀ r ∈ rs, P e → P (e.reconcileRegister r).2) → P p.engine →
        P (Pass.visitRegisters rs p).engine
  | [], _, _, h => h
  | r :: rs, p, hstep, h =>
    visitRegisters_stable_of_mem rs (p.visitRegister r)
      (fun e r' hr' => hstep e r' (List.mem_cons_of_mem _ hr'))
      (hstep p.engine r List.mem_cons_self h)

theorem visitRegisters_stable {P : Engine → Prop}
    (hstep : ∀ (e : Engine) (r : RegisterRecord), P e → P (e.reconcileRegister r).2)
    (rs : List RegisterRecord) (p : Pass) (h : P p.engine) :
    P (Pass.visitRegisters rs p).engine :=
  visitRegisters_stable_of_mem rs p (fun e r _ => hstep e r) h

/-- What holds of the registers that are yet to be visited, and passes from each to those after it,
holds of none in the end. -/
theorem visitRegisters_rest {P : Engine → List RegisterRecord → Prop}
    (hstep : ∀ (e : Engine) (r : RegisterRecord) (rest : List RegisterRecord),
      (∀ r' ∈ rest, r.key ≠ r'.key) → P e (r :: rest) → P (e.reconcileRegister r).2 rest) :
    ∀ (rest : List RegisterRecord) (p : Pass), rest.Pairwise (fun r r' => r.key ≠ r'.key) →
      P p.engine rest → P (Pass.visitRegisters rest p).engine []
  | [], _, _, h => h
  | r :: rest, p, hdistinct, h => by
    obtain ⟨hnew, hrest⟩ := List.pairwise_cons.1 hdistinct
    exact visitRegisters_rest hstep rest (p.visitRegister r) hrest (hstep p.engine r rest hnew h)

theorem schedule_visitRegisters : ∀ (rs : List RegisterRecord) (p : Pass),
    (Pass.visitRegisters rs p).schedule = p.schedule
  | [], _ => rfl
  | r :: rs, p => schedule_visitRegisters rs (p.visitRegister r)

theorem engine_visitRegistry (policy : PacePolicy) (now : Millis) (p : Pass) (pool : PoolId) :
    (p.visitRegistry policy now pool).engine = (p.engine.reconcileRegistry policy pool).2 := by
  unfold Pass.visitRegistry
  dsimp only
  split
  · rfl
  · split <;> rfl

theorem visitRegistries_stable {policy : PacePolicy} {P : Engine → Prop}
    (hstep : ∀ (e : Engine) (pool : PoolId), P e → P (e.reconcileRegistry policy pool).2)
    (now : Millis) :
    ∀ (pools : List PoolId) (p : Pass), P p.engine →
      P (Pass.visitRegistries policy now pools p).engine
  | [], _, h => h
  | pool :: pools, p, h => by
    have hvisit : P (p.visitRegistry policy now pool).engine := by
      rw [engine_visitRegistry]
      exact hstep p.engine pool h
    simp only [Pass.visitRegistries]
    split_ifs
    · exact hvisit
    · exact visitRegistries_stable hstep now pools _ hvisit
    · exact visitRegistries_stable hstep now pools p h

theorem Sound.pass (h : e.Sound) (policy : PacePolicy) (schedule : Schedule) (now : Millis) :
    (e.pass policy schedule now).engine.Sound :=
  visitRegistries_stable (P := Sound)
    (fun _ pool he => (registryVisit_cases he policy pool).sound he) now _ _
    (visitRegisters_stable (P := Sound) (fun _ r he => (registerVisit_cases he r).sound he) _
      ⟨e, schedule, .zero, false⟩ h)

/-- What the visits of a pass can lead to; a register is visited as it was when the pass began. -/
inductive Visits (policy : PacePolicy) (e : Engine) : Engine → Prop
  | start : Visits policy e e
  | register {e' : Engine} {r : RegisterRecord} (before : Visits policy e e')
      (hread : e.store.registers[r.key]? = some r)
      (hstored : e'.store.registers[r.key]? = some r) :
      Visits policy e (e'.reconcileRegister r).2
  | registry {e' : Engine} (before : Visits policy e e') (pool : PoolId) :
      Visits policy e (e'.reconcileRegistry policy pool).2

theorem Visits.sound {policy : PacePolicy} {e' : Engine} (h : Visits policy e e') (hs : e.Sound) :
    e'.Sound := by
  induction h with
  | start => exact hs
  | register _ _ _ ih => exact (registerVisit_cases ih _).sound ih
  | registry _ pool ih => exact (registryVisit_cases ih policy pool).sound ih

/-- A pass adds no register, and gives those that stay at most another index. -/
theorem Visits.register_eq {policy : PacePolicy} {e' : Engine} (h : Visits policy e e')
    (hs : e.Sound) {k : RegisterKey} {r' : RegisterRecord}
    (hr' : e'.store.registers[k]? = some r') :
    ∃ r, e.store.registers[k]? = some r ∧ r' = { r with index := r'.index } := by
  induction h generalizing r' with
  | start => exact ⟨r', hr', rfl⟩
  | @register e' r before hread hstored ih =>
    have hv := registerVisit_cases (before.sound hs) r
    by_cases hk : k = r.key
    · rw [hk] at hr' ⊢
      exact ⟨r, hread, hv.of_stored hstored hr'⟩
    · rw [hv.of_ne hk] at hr'
      exact ih hr'
  | registry before pool ih =>
    rw [(registryVisit_cases (before.sound hs) policy pool).registers_eq] at hr'
    exact ih hr'

theorem Visits.keyed {policy : PacePolicy} {e' : Engine} (h : Visits policy e e') (hs : e.Sound)
    (hk : e.store.Keyed) : e'.store.Keyed := by
  intro k r' hr'
  obtain ⟨r, hr, hrr'⟩ := h.register_eq hs hr'
  rw [hrr']
  exact hk k r hr

theorem visits_registers {policy : PacePolicy} (hs : e.Sound) :
    ∀ (rs : List RegisterRecord) (p : Pass), rs.Pairwise (fun r r' => r.key ≠ r'.key) →
      (∀ r ∈ rs, e.store.registers[r.key]? = some r) →
      (∀ r ∈ rs, p.engine.store.registers[r.key]? = some r) → Visits policy e p.engine →
      Visits policy e (Pass.visitRegisters rs p).engine
  | [], _, _, _, _, h => h
  | r :: rs, p, hdistinct, hread, hstored, h => by
    obtain ⟨hr, hrest⟩ := List.pairwise_cons.1 hdistinct
    refine visits_registers hs rs (p.visitRegister r) hrest
      (fun r' hr' => hread r' (List.mem_cons_of_mem _ hr')) (fun r' hr' => ?_)
      (h.register (hread r List.mem_cons_self) (hstored r List.mem_cons_self))
    exact ((registerVisit_cases (h.sound hs) r).of_ne fun e' => hr r' hr' e'.symm).trans
      (hstored r' (List.mem_cons_of_mem _ hr'))

/-- A pass is a sequence of visits, of registers as they are stored and then of registries. -/
theorem visits_pass (hs : e.Sound) (hk : e.store.Keyed) (policy : PacePolicy) (schedule : Schedule)
    (now : Millis) : Visits policy e (e.pass policy schedule now).engine := by
  have hread : ∀ r ∈ e.store.registerList, e.store.registers[r.key]? = some r :=
    fun _ => hk.mem_registerList.1
  exact visitRegistries_stable (P := Visits policy e) (fun _ pool h => h.registry pool) now _ _
    (visits_registers hs _ ⟨e, schedule, .zero, false⟩ (values_pairwise hk) hread hread .start)

/-- A pass adds no register. -/
theorem register_none_of_pass (hs : e.Sound) (hk : e.store.Keyed) {k : RegisterKey}
    (hnone : e.store.registers[k]? = none) (policy : PacePolicy) (schedule : Schedule)
    (now : Millis) : (e.pass policy schedule now).engine.store.registers[k]? = none := by
  rcases hafter : (e.pass policy schedule now).engine.store.registers[k]? with _ | r'
  · rfl
  · obtain ⟨r, hr, -⟩ := (visits_pass hs hk policy schedule now).register_eq hs hafter
    cases hnone.symm.trans hr

end Engine

end IndexPools
