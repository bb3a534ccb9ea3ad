import IndexPools.Proofs.Run
import Mathlib.Data.List.Nodup

/-!
# Registers that can be served

A register can be served if it names a key, if the pool that it refers to serves, and if that pool
has room for all keys that are wanted of it (`Engine.Asks`). No visit takes that from any register,
be it the visit of a register or of a registry that stays (`Engine.Serving`). Room is enough in a
sound table: as long as it holds none but wanted keys, a wanted key that is missing finds a slot
(`Sound.allocated_lt`).
-/

namespace IndexPools

namespace SlotTable

variable {hash : String → UInt64} {t : SlotTable}

theorem entries_nodup (t : SlotTable) : t.entries.Nodup := by
  rw [entries_eq]
  refine List.nodup_range.filterMap fun i j x hi hj => ?_
  obtain ⟨a, -, rfl⟩ := Option.map_eq_some_iff.1 hi
  obtain ⟨b, -, hb⟩ := Option.map_eq_some_iff.1 hj
  exact (congrArg Prod.fst hb).symm

theorem Sound.keys_nodup (h : t.Sound hash) : (t.entries.map fun x => x.2.key).Nodup := by
  refine t.entries_nodup.map_on fun x hx y hy hkey => ?_
  have hi := mem_entries.1 hx
  have hj := mem_entries.1 hy
  have hij := h.distinct hi hj hkey
  rw [hij, hj] at hi
  exact Prod.ext hij (Option.some.inj hi).symm

/-- If the keys that a table holds are some of `keys`, which it could hold all, and one of these is
missing, the table is not full. -/
theorem Sound.allocated_lt (h : t.Sound hash) {keys : List String} {key : String}
    (hkeys : ∀ i a, t.holder? i = some a → a.key ∈ keys) (hkey : key ∈ keys)
    (habsent : t.Absent key) (hroom : keys.length ≤ t.capacity) : t.allocated < t.capacity := by
  have hnodup : (key :: t.entries.map fun x => x.2.key).Nodup := by
    refine List.nodup_cons.2 ⟨fun hmem => ?_, h.keys_nodup⟩
    obtain ⟨⟨i, a⟩, hentry, hk⟩ := List.mem_map.1 hmem
    exact habsent i a (mem_entries.1 hentry) hk
  have hsub : (key :: t.entries.map fun x => x.2.key) ⊆ keys := by
    refine List.cons_subset.2 ⟨hkey, fun k hk => ?_⟩
    obtain ⟨⟨i, a⟩, hentry, rfl⟩ := List.mem_map.1 hk
    exact hkeys i a (mem_entries.1 hentry)
  have hlength := hnodup.length_le_of_subset hsub
  rw [List.length_cons, List.length_map, h.length_entries] at hlength
  omega

end SlotTable

namespace Engine

/-- The register asks a pool that serves for `key`, and the pool has room for all of `wanted`. -/
structure Asks (wanted : List String) (e : Engine) (r : RegisterRecord) (pool : PoolId)
    (key : String) : Prop where
  pool_eq : r.pool = .ok pool
  named : r.named? = some key
  nonempty : key ≠ ""
  serves : e.store.serves pool = .ok true
  room : ∃ c, e.pools.capacity? pool = some c ∧ wanted.length ≤ c
  counted : r.deleting = false → key ∈ wanted

/-- What no pass changes while it serves the registers: `wanted` are the keys for whose slots there
is room in each pool. -/
structure Serving (wanted : PoolId → List String) (e : Engine) : Prop where
  sound : e.Sound
  keyed : e.store.Keyed
  conflicts : e.conflicts = .keepExisting
  standing : ∀ (pool : PoolId) (record : RegistryRecord),
    e.store.registries[pool]? = some record → record.deleting = false
  asks : ∀ r, e.store.registers[r.key]? = some r → ∃ pool key, e.Asks (wanted pool) r pool key

variable {wanted : PoolId → List String} {e e' : Engine} {r : RegisterRecord} {pool : PoolId}
  {key : String} {policy : PacePolicy}

theorem Asks.accept {keys : List String} (h : e.Asks keys r pool key) :
    e.accept (r.ask pool) = .ok key :=
  accept_ask h.serves h.named h.nonempty

theorem Asks.live {keys : List String} (h : e.Asks keys r pool key) :
    ∃ t, e.pools.live[pool]? = some t ∧ keys.length ≤ t.capacity := by
  obtain ⟨c, hc, hle⟩ := h.room
  obtain ⟨t, ht, rfl⟩ := Option.map_eq_some_iff.1 hc
  exact ⟨t, ht, hle⟩

theorem capacity_retable {t₀ t : SlotTable} (hlive : e.pools.live[pool]? = some t₀)
    (hcap : t.capacity = t₀.capacity) (q : PoolId) :
    (e.retable pool t).pools.capacity? q = e.pools.capacity? q := by
  unfold PoolDirectory.capacity?
  rw [live_retable]
  split_ifs with hq
  · rw [← hq, hlive, Option.map_some, Option.map_some, hcap]
  · rfl

theorem capacity_settle (e : Engine) (r : RegisterRecord) (i : Nat) (q : PoolId) :
    (e.settle r i).2.pools.capacity? q = e.pools.capacity? q := by
  obtain ⟨registers, hw⟩ := settle_frame e r i
  rw [hw]

theorem capacity_discard (e : Engine) (r : RegisterRecord) (q : PoolId) :
    (e.discard r).2.pools.capacity? q = e.pools.capacity? q := by
  obtain ⟨registers, hw⟩ := discard_frame e r
  rw [hw]

/-- No capacity changes in the visit of a register. -/
theorem RegisterVisit.capacity_eq {res : Except ReconcileError RegisterOutcome × Engine}
    (h : RegisterVisit e r res) (q : PoolId) :
    res.2.pools.capacity? q = e.pools.capacity? q := by
  cases h with
  | failed => rfl
  | kept => exact capacity_settle _ _ _ _
  | placed _ _ _ hlive =>
    exact (capacity_settle _ _ _ _).trans (capacity_retable hlive (SlotTable.capacity_put _ _ _) q)
  | idle => exact capacity_discard _ _ _
  | freed _ _ _ hlive =>
    exact (capacity_discard _ _ _).trans
      (capacity_retable hlive (SlotTable.capacity_vacate _ _) q)

/-- The visit of a registry that stays leaves every live table as it is. -/
theorem RegistryVisit.live_kept {res : Except ReconcileError RegistryOutcome × Engine}
    (h : RegistryVisit policy e pool res)
    (hstays : ∀ record, e.store.registries[pool]? = some record → record.deleting = false)
    {q : PoolId} {t : SlotTable} (ht : e.pools.live[q]? = some t) :
    res.2.pools.live[q]? = some t := by
  cases h with
  | missing | unset | blocked => exact ht
  | deleted hrecord hleaves => cases hleaves.symm.trans (hstays _ hrecord)
  | synced _ _ hset =>
    cases hset with
    | kept => exact ht
    | opened hnew =>
      refine (live_opened q).trans ((if_neg ?_).trans ht)
      rintro rfl
      cases hnew.symm.trans ht

/-- The visit of a registry that stays changes at most its record's status. -/
theorem RegistryVisit.record_eq {res : Except ReconcileError RegistryOutcome × Engine}
    (h : RegistryVisit policy e pool res)
    (hstays : ∀ record, e.store.registries[pool]? = some record → record.deleting = false)
    (q : PoolId) : ∃ status : RegistryRecord → Option RegistryStatus,
      res.2.store.registries[q]? =
        e.store.registries[q]?.map fun record => { record with status := status record } := by
  have hsame : e.store.registries[q]? =
      e.store.registries[q]?.map fun record => { record with status := record.status } :=
    Option.map_id'.symm
  cases h with
  | missing | unset | blocked => exact ⟨_, hsame⟩
  | deleted hrecord hleaves => cases hleaves.symm.trans (hstays _ hrecord)
  | @synced record e' hrecord _ hset =>
    have hw : ((e'.mirrored pool record).nextDelay pool policy).2.store.registries[q]? =
        if pool = q then some { record with status := some (e'.status pool) }
        else e'.store.registries[q]? := lookup_insert _ _ _ _
    rw [hset.moved.store_eq] at hw
    by_cases hq : pool = q
    · refine ⟨fun _ => some (e'.status pool), ?_⟩
      rw [hw, if_pos hq, ← hq, hrecord]
      rfl
    · exact ⟨_, (hw.trans (if_neg hq)).trans hsame⟩

namespace Serving

/-- A visit that changes of registries the status alone, of registers the index alone, and no
capacity, goes on serving. -/
theorem visit (h : e.Serving wanted) (hs : e'.Sound) (hk : e'.store.Keyed)
    (hconflicts : e'.conflicts = e.conflicts)
    (hrecord : ∀ q : PoolId, ∃ status : RegistryRecord → Option RegistryStatus,
      e'.store.registries[q]? =
        e.store.registries[q]?.map fun record => { record with status := status record })
    (hcap : ∀ q c, e.pools.capacity? q = some c → e'.pools.capacity? q = some c)
    (hregister : ∀ r' : RegisterRecord, e'.store.registers[r'.key]? = some r' →
      ∃ r : RegisterRecord, e.store.registers[r.key]? = some r ∧
        r' = { r with index := r'.index }) : e'.Serving wanted := by
  refine ⟨hs, hk, hconflicts.trans h.conflicts, fun q record hq => ?_, fun r' hr' => ?_⟩
  · obtain ⟨status, heq⟩ := hrecord q
    obtain ⟨record₀, hq₀, rfl⟩ := Option.map_eq_some_iff.1 (heq.symm.trans hq)
    exact h.standing q record₀ hq₀
  · obtain ⟨r, hr, heq⟩ := hregister r' hr'
    obtain ⟨pool, key, hpool, hname, hkey, hserves, ⟨c, hc, hle⟩, hcounted⟩ := h.asks r hr
    have hserves' : e'.store.serves pool = .ok true := by
      obtain ⟨status, hstatus⟩ := hrecord pool
      rw [← hserves]
      unfold Store.serves Store.registry
      rw [hstatus]
      rcases e.store.registries[pool]? with _ | record <;> rfl
    rw [heq]
    exact ⟨pool, key, hpool, hname, hkey, hserves', ⟨c, hcap pool c hc, hle⟩, hcounted⟩

theorem register (h : e.Serving wanted) (hstored : e.store.registers[r.key]? = some r) :
    (e.reconcileRegister r).2.Serving wanted := by
  have hv := registerVisit_cases h.sound r
  refine h.visit (hv.sound h.sound) (hv.keyed h.keyed) (hv.conflicts_eq h.sound)
    (fun q => ⟨RegistryRecord.status, ?_⟩) (fun q c hc => (hv.capacity_eq q).trans hc)
    fun r' hr' => ?_
  · rw [hv.registries_eq h.sound]
    exact Option.map_id'.symm
  · by_cases hk : r'.key = r.key
    · rw [hk] at hr'
      exact ⟨r, hstored, hv.of_stored hstored hr'⟩
    · rw [hv.of_ne hk] at hr'
      exact ⟨r', hr', rfl⟩

theorem registry (h : e.Serving wanted) (policy : PacePolicy) (pool : PoolId) :
    (e.reconcileRegistry policy pool).2.Serving wanted := by
  have hv := registryVisit_cases h.sound policy pool
  have hkeyed : (e.reconcileRegistry policy pool).2.store.Keyed := by
    unfold Store.Keyed
    rw [hv.registers_eq]
    exact h.keyed
  refine h.visit (hv.sound h.sound) hkeyed hv.conflicts_eq (hv.record_eq (h.standing pool))
    (fun q c hc => ?_) fun r' hr' => ⟨r', hv.registers_eq ▸ hr', rfl⟩
  obtain ⟨t, ht, rfl⟩ := Option.map_eq_some_iff.1 hc
  exact Option.map_eq_some_iff.2 ⟨t, hv.live_kept (h.standing pool) ht, rfl⟩

end Serving

end Engine

end IndexPools
