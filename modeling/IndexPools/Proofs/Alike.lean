import IndexPools.Proofs.Run

/-!
# Engines that are alike

Two engines are alike for a pool if they have the same table, level, record and registers of it, the
same cap and the same policy on conflicts (`Engine.Alike`). Every operation on the pool is answered
the same by engines that are alike, and leaves them so (`Engine.Agree`); whatever else the engines
hold is not looked at. A register belongs to the pool that it refers to, and which pool that is for
a mere key is told by a map `home`.
-/

namespace IndexPools

namespace Store

/-- Two stores with the same record and the same registers of one pool. -/
structure Alike (home : RegisterKey → Option PoolId) (q : PoolId) (s s' : Store) : Prop where
  record : s'.registries[q]? = s.registries[q]?
  registers : ∀ k, home k = some q → s'.registers[k]? = s.registers[k]?

/-- Two changes that fail for the same cause, or lead to stores that are alike. -/
inductive Matched (home : RegisterKey → Option PoolId) (q : PoolId) :
    Except StoreError Store → Except StoreError Store → Prop
  | failed (err : StoreError) : Matched home q (.error err) (.error err)
  | changed {s s' : Store} (h : s.Alike home q s') : Matched home q (.ok s) (.ok s')

variable {home : RegisterKey → Option PoolId} {q id : PoolId} {key : RegisterKey} {s s' : Store}

theorem Matched.answer {x x' : Except StoreError Store} (h : Matched home q x x') :
    (x'.map fun _ => ()) = x.map fun _ => () := by
  cases h <;> rfl

theorem Matched.cases {x x' : Except StoreError Store} (h : Matched home q x x') :
    (∃ err, x = .error err ∧ x' = .error err) ∨
      ∃ s s', x = .ok s ∧ x' = .ok s' ∧ s.Alike home q s' := by
  cases h with
  | failed err => exact .inl ⟨err, rfl, rfl⟩
  | changed h => exact .inr ⟨_, _, rfl, rfl, h⟩

theorem Matched.orSame {x x' : Except StoreError Store} (h : Matched home q x x')
    (hs : s.Alike home q s') : (s.orSame x).Alike home q (s'.orSame x') := by
  cases h with
  | failed => exact hs
  | changed h => exact h

namespace Alike

theorem of_common {s₁ : Store} (h₁ : s.Alike home q s₁) (h : s.Alike home q s') :
    s₁.Alike home q s' :=
  ⟨h.record.trans h₁.record.symm, fun k hk => (h.registers k hk).trans (h₁.registers k hk).symm⟩

theorem changeRegistry (h : s.Alike home q s') (f : RegistryRecord → RegistryRecord) :
    Matched home q (s.changeRegistry q f) (s'.changeRegistry q f) := by
  unfold Store.changeRegistry
  rw [h.record]
  rcases s.registries[q]? with _ | record
  · exact .failed _
  · refine .changed ⟨?_, h.registers⟩
    rw [lookup_insert, lookup_insert, h.record]

theorem removeRegistry (h : s.Alike home q s') :
    Matched home q (s.removeRegistry q) (s'.removeRegistry q) := by
  unfold Store.removeRegistry
  rw [h.record]
  rcases s.registries[q]? with _ | record
  · exact .failed _
  · refine .changed ⟨?_, h.registers⟩
    rw [lookup_erase, lookup_erase, h.record]

theorem declareRegistry (h : s.Alike home q s') (spec : RegistrySpec) :
    (s.declareRegistry q spec).Alike home q (s'.declareRegistry q spec) := by
  refine ⟨?_, h.registers⟩
  unfold Store.declareRegistry
  rw [lookup_insert, lookup_insert, h.record]

theorem changeRegister (h : s.Alike home q s') (hkey : home key = some q)
    (f : RegisterRecord → RegisterRecord) :
    Matched home q (s.changeRegister key f) (s'.changeRegister key f) := by
  unfold Store.changeRegister
  rw [h.registers key hkey]
  rcases s.registers[key]? with _ | r
  · exact .failed _
  · refine .changed ⟨h.record, fun k hk => ?_⟩
    rw [lookup_insert, lookup_insert, h.registers k hk]

theorem removeRegister (h : s.Alike home q s') (hkey : home key = some q) :
    Matched home q (s.removeRegister key) (s'.removeRegister key) := by
  unfold Store.removeRegister
  rw [h.registers key hkey]
  rcases s.registers[key]? with _ | r
  · exact .failed _
  · refine .changed ⟨h.record, fun k hk => ?_⟩
    rw [lookup_erase, lookup_erase, h.registers k hk]

theorem declareRegister (h : s.Alike home q s') (r : RegisterRecord) :
    (s.declareRegister r).Alike home q (s'.declareRegister r) := by
  refine ⟨h.record, fun k hk => ?_⟩
  unfold Store.declareRegister
  rw [lookup_insert, lookup_insert, h.registers k hk]

theorem registry (h : s.Alike home q s') : s'.registry q = s.registry q := by
  unfold Store.registry
  rw [h.record]

theorem size (h : s.Alike home q s') : s'.size q = s.size q := by
  unfold Store.size
  rw [h.registry]

theorem strategy (h : s.Alike home q s') : s'.strategy q = s.strategy q := by
  unfold Store.strategy
  rw [h.registry]

end Alike

section Elsewhere

theorem alike_changeRegistry (hid : id ≠ q) (f : RegistryRecord → RegistryRecord) :
    s.Alike home q (s.orSame (s.changeRegistry id f)) :=
  ⟨by rw [registries_changeRegistry, if_neg hid], fun _ _ => by rw [registers_changeRegistry]⟩

theorem alike_removeRegistry (hid : id ≠ q) :
    s.Alike home q (s.orSame (s.removeRegistry id)) := by
  unfold removeRegistry
  rcases s.registries[id]? with _ | record
  · exact ⟨rfl, fun _ _ => rfl⟩
  · exact ⟨(lookup_erase _ _ _).trans (if_neg hid), fun _ _ => rfl⟩

theorem alike_declareRegistry (hid : id ≠ q) (spec : RegistrySpec) :
    s.Alike home q (s.declareRegistry id spec) :=
  ⟨(lookup_insert _ _ _ _).trans (if_neg hid), fun _ _ => rfl⟩

theorem ne_of_home {k : RegisterKey} (hkey : home key ≠ some q) (hk : home k = some q) :
    key ≠ k := by
  rintro rfl
  exact hkey hk

theorem alike_changeRegister (hkey : home key ≠ some q) (f : RegisterRecord → RegisterRecord) :
    s.Alike home q (s.orSame (s.changeRegister key f)) :=
  ⟨by rw [registries_changeRegister],
    fun _ hk => by rw [registers_changeRegister, if_neg (ne_of_home hkey hk)]⟩

theorem alike_removeRegister (hkey : home key ≠ some q) :
    s.Alike home q (s.orSame (s.removeRegister key)) := by
  unfold removeRegister
  rcases s.registers[key]? with _ | r
  · exact ⟨rfl, fun _ _ => rfl⟩
  · exact ⟨rfl, fun _ hk => (lookup_erase _ _ _).trans (if_neg (ne_of_home hkey hk))⟩

theorem alike_declareRegister {r : RegisterRecord} (hkey : home r.key ≠ some q) :
    s.Alike home q (s.declareRegister r) :=
  ⟨rfl, fun _ hk => (lookup_insert _ _ _ _).trans (if_neg (ne_of_home hkey hk))⟩

end Elsewhere

end Store

namespace Engine

/-- Two engines that no action on the pool can tell apart. -/
structure Alike (home : RegisterKey → Option PoolId) (q : PoolId) (e e' : Engine) : Prop where
  store : e.store.Alike home q e'.store
  table : e'.pools.live[q]? = e.pools.live[q]?
  level : e'.pacer.levels[q]? = e.pacer.levels[q]?
  cap : e'.pacer.cap = e.pacer.cap
  conflicts : e'.conflicts = e.conflicts

/-- The same answer, and engines that are alike. -/
structure Agree {α : Type} (home : RegisterKey → Option PoolId) (q : PoolId)
    (x x' : α × Engine) : Prop where
  answer : x'.1 = x.1
  engine : x.2.Alike home q x'.2

variable {home : RegisterKey → Option PoolId} {q : PoolId} {e e' : Engine}

theorem Agree.cases {α : Type} {x x' : α × Engine} (h : Agree home q x x') :
    ∃ a e₁ e₁', x = (a, e₁) ∧ x' = (a, e₁') ∧ e₁.Alike home q e₁' :=
  ⟨x.1, x.2, x'.2, rfl, Prod.ext h.answer rfl, h.engine⟩

namespace Alike

theorem refl (e : Engine) : e.Alike home q e :=
  ⟨⟨rfl, fun _ _ => rfl⟩, rfl, rfl, rfl, rfl⟩

theorem of_common {e₁ : Engine} (h₁ : e.Alike home q e₁) (h : e.Alike home q e') :
    e₁.Alike home q e' :=
  ⟨h₁.store.of_common h.store, h.table.trans h₁.table.symm, h.level.trans h₁.level.symm,
    h.cap.trans h₁.cap.symm, h.conflicts.trans h₁.conflicts.symm⟩

theorem restore (h : e.Alike home q e') {s s' : Store} (hs : s.Alike home q s') :
    { e with store := s }.Alike home q { e' with store := s' } :=
  ⟨hs, h.table, h.level, h.cap, h.conflicts⟩

theorem repace (h : e.Alike home q e') {p p' : Pacer} (hlevel : p'.levels[q]? = p.levels[q]?)
    (hcap : p'.cap = p.cap) : { e with pacer := p }.Alike home q { e' with pacer := p' } :=
  ⟨h.store, h.table, hlevel, hcap, h.conflicts⟩

theorem track (h : e.Alike home q e') : { e with pacer := e.pacer.track q }.Alike home q
    { e' with pacer := e'.pacer.track q } :=
  h.repace (by rw [Pacer.levels_track, Pacer.levels_track, h.level])
    (by rw [Pacer.cap_track, Pacer.cap_track, h.cap])

theorem resetPace (h : e.Alike home q e') : (e.resetPace q).Alike home q (e'.resetPace q) :=
  h.repace (by rw [Pacer.levels_reset, Pacer.levels_reset, h.level])
    (by rw [Pacer.cap_reset, Pacer.cap_reset, h.cap])

theorem incrementPace (h : e.Alike home q e') :
    (e.incrementPace q).Alike home q (e'.incrementPace q) :=
  h.repace (by rw [Pacer.levels_increment, Pacer.levels_increment, h.level, h.cap])
    (by rw [Pacer.cap_increment, Pacer.cap_increment, h.cap])

theorem nextDelay (h : e.Alike home q e') (policy : PacePolicy) :
    Agree home q (e.nextDelay q policy) (e'.nextDelay q policy) := by
  refine ⟨?_, h.repace ?_ ?_⟩
  · unfold Engine.nextDelay Pacer.nextDelay
    rw [h.level, h.cap]
    rcases e.pacer.levels[q]? with _ | l
    · rfl
    · dsimp only
      split_ifs <;> rfl
  · rw [Pacer.levels_nextDelay, Pacer.levels_nextDelay, h.level, h.cap]
  · rw [Pacer.cap_nextDelay, Pacer.cap_nextDelay, h.cap]

/-- The same table is put in place. -/
theorem put (h : e.Alike home q e') (t : SlotTable) :
    { e with pools := { e.pools with live := e.pools.live.insert q t } }.Alike home q
      { e' with pools := { e'.pools with live := e'.pools.live.insert q t } } :=
  ⟨h.store, by rw [lookup_insert, lookup_insert, h.table], h.level, h.cap, h.conflicts⟩

theorem deletePool (h : e.Alike home q e') :
    Agree home q (e.deletePool q) (e'.deletePool q) := by
  refine ⟨?_, h.store, ?_, ?_, h.cap, h.conflicts⟩
  · unfold Engine.deletePool PoolDirectory.delete
    rw [h.table]
    rcases e.pools.live[q]? with _ | t <;> rfl
  · rw [live_deletePool, live_deletePool, h.table]
  · show (e'.pacer.forget q).levels[q]? = (e.pacer.forget q).levels[q]?
    rw [Pacer.levels_forget, Pacer.levels_forget, if_pos rfl, if_pos rfl]

theorem snapshot (h : e.Alike home q e') : e'.snapshot q = e.snapshot q := by
  unfold Engine.snapshot PoolDirectory.snapshot
  rw [h.table]

theorem status (h : e.Alike home q e') : e'.status q = e.status q := by
  unfold Engine.status
  rw [h.table]

theorem paceLevel (h : e.Alike home q e') : e'.paceLevel q = e.paceLevel q := by
  unfold Engine.paceLevel Pacer.level
  rw [h.level]

theorem initPool (h : e.Alike home q e') (capacity : Nat) (strategy : Strategy) :
    Agree home q (e.initPool q capacity strategy) (e'.initPool q capacity strategy) := by
  unfold Engine.initPool PoolDirectory.init
  rw [h.table]
  rcases e.pools.live[q]? with _ | t
  · rcases SlotTable.create capacity strategy with err | t
    · exact ⟨rfl, h⟩
    · exact ⟨rfl, (h.put t).track⟩
  · exact ⟨rfl, h.track⟩

theorem initDeclared (h : e.Alike home q e') :
    Agree home q (e.initDeclared q) (e'.initDeclared q) := by
  unfold Engine.initDeclared PoolDirectory.contains
  simp only [Std.ExtTreeMap.contains_eq_isSome_getElem?, h.table, h.store.size, h.store.strategy]
  split_ifs
  · exact ⟨rfl, h.track⟩
  · rcases e.store.size q with err | capacity
    · exact ⟨rfl, h⟩
    · rcases e.store.strategy q with err | strategy
      · exact ⟨rfl, h⟩
      · exact h.initPool capacity strategy

theorem accept {r : Request} (h : e.Alike home r.pool e') : e'.accept r = e.accept r := by
  unfold Engine.accept
  rw [serves_congr h.store.record]

theorem register {r : Request} (h : e.Alike home q e') (hpool : r.pool = q) :
    Agree home q (e.register r) (e'.register r) := by
  subst hpool
  rw [Engine.register_eq, Engine.register_eq]
  unfold PoolDirectory.onPool
  rw [h.accept, h.table]
  rcases e.accept r with err | key
  · exact ⟨rfl, h⟩
  · rcases e.pools.live[r.pool]? with _ | t
    · exact ⟨rfl, h⟩
    · dsimp only
      rcases t.insert keyDigest key r.owner r.tags with ⟨err | ⟨i, outcome⟩, t'⟩
      · exact ⟨rfl, h⟩
      · rcases outcome with _ | _ | ⟨owner, tags⟩
        · exact ⟨rfl, (h.put t').resetPace⟩
        · exact ⟨rfl, h⟩
        · dsimp only
          rw [h.conflicts]
          rcases e.conflicts with _ | _
          · exact ⟨rfl, h⟩
          · exact ⟨rfl, h⟩

theorem deregister {r : Request} (h : e.Alike home q e') (hpool : r.pool = q) :
    Agree home q (e.deregister r) (e'.deregister r) := by
  subst hpool
  rw [Engine.deregister_eq, Engine.deregister_eq]
  unfold PoolDirectory.onPool
  rw [h.accept, h.table]
  rcases e.accept r with err | key
  · exact ⟨rfl, h⟩
  · rcases e.pools.live[r.pool]? with _ | t
    · exact ⟨rfl, h⟩
    · dsimp only
      rcases t.delete keyDigest key with ⟨_ | a, t'⟩
      · exact ⟨rfl, h⟩
      · exact ⟨rfl, (h.put t').resetPace⟩

theorem settle {r : RegisterRecord} (h : e.Alike home q e') (hkey : home r.key = some q) (i : Nat) :
    Agree home q (e.settle r i) (e'.settle r i) := by
  unfold Engine.settle Store.setIndex
  split_ifs
  · exact ⟨rfl, h⟩
  · rcases (h.store.changeRegister hkey fun r => { r with index := some i }).cases with
      ⟨err, hx, hx'⟩ | ⟨s, s', hx, hx', hs⟩
    · rw [hx, hx']
      exact ⟨rfl, h⟩
    · rw [hx, hx']
      exact ⟨rfl, h.restore hs⟩

theorem discard {r : RegisterRecord} (h : e.Alike home q e') (hkey : home r.key = some q) :
    Agree home q (e.discard r) (e'.discard r) := by
  unfold Engine.discard
  rcases (h.store.removeRegister hkey).cases with ⟨err, hx, hx'⟩ | ⟨s, s', hx, hx', hs⟩
  · rw [hx, hx']
    exact ⟨rfl, h⟩
  · rw [hx, hx']
    exact ⟨rfl, h.restore hs⟩

theorem reconcileRegister {r : RegisterRecord} (h : e.Alike home q e') (hpool : r.pool = .ok q)
    (hkey : home r.key = some q) :
    Agree home q (e.reconcileRegister r) (e'.reconcileRegister r) := by
  rw [reconcileRegister_eq hpool, reconcileRegister_eq hpool]
  split_ifs
  · obtain ⟨err | _, e₁, e₁', hx, hx', h₁⟩ :=
      (h.deregister (r := r.ask q) rfl).cases
    · rw [hx, hx']
      exact ⟨rfl, h₁⟩
    · rw [hx, hx']
      exact h₁.discard hkey
  · obtain ⟨err | i, e₁, e₁', hx, hx', h₁⟩ :=
      (h.register (r := r.ask q) rfl).cases
    · rw [hx, hx']
      exact ⟨rfl, h₁⟩
    · rw [hx, hx']
      exact h₁.settle hkey i

theorem finishDeletion (h : e.Alike home q e') (policy : PacePolicy) :
    Agree home q (e.finishDeletion policy q) (e'.finishDeletion policy q) := by
  have hdelay := h.nextDelay policy
  have hdelete := h.deletePool.engine
  unfold Engine.finishDeletion
  rw [h.snapshot]
  dsimp only
  split_ifs
  · exact ⟨by rw [hdelay.answer], hdelay.engine⟩
  · rcases hdelete.store.removeRegistry.cases with ⟨err, hx, hx'⟩ | ⟨s, s', hx, hx', hs⟩
    · rw [hx, hx']
      exact ⟨rfl, hdelete⟩
    · rw [hx, hx']
      exact ⟨rfl, hdelete.restore hs⟩

theorem mirrorStatus (h : e.Alike home q e') (recorded : Option RegistryStatus) :
    (∃ err, e.mirrorStatus q recorded = .error err ∧ e'.mirrorStatus q recorded = .error err) ∨
      ∃ e₁ e₁', e.mirrorStatus q recorded = .ok e₁ ∧ e'.mirrorStatus q recorded = .ok e₁' ∧
        e₁.Alike home q e₁' := by
  unfold Engine.mirrorStatus Store.setStatus
  rw [h.status]
  split_ifs
  · exact .inr ⟨e, e', rfl, rfl, h⟩
  · rcases (h.store.changeRegistry fun r => { r with status := some (e.status q) }).cases with
      ⟨err, hx, hx'⟩ | ⟨s, s', hx, hx', hs⟩
    · rw [hx, hx']
      exact .inl ⟨err, rfl, rfl⟩
    · rw [hx, hx']
      exact .inr ⟨_, _, rfl, rfl, h.restore hs⟩

theorem reconcileRegistry (h : e.Alike home q e') (policy : PacePolicy) :
    Agree home q (e.reconcileRegistry policy q) (e'.reconcileRegistry policy q) := by
  unfold Engine.reconcileRegistry
  rw [h.store.registry]
  rcases e.store.registry q with err | record
  · exact ⟨rfl, h⟩
  · dsimp only
    split_ifs
    · exact h.finishDeletion policy
    · obtain ⟨err | created, e₁, e₁', hx, hx', h₁⟩ := h.initDeclared.cases
      · rw [hx, hx']
        exact ⟨rfl, h₁⟩
      · rw [hx, hx']
        dsimp only
        rcases h₁.mirrorStatus record.status with ⟨err, hy, hy'⟩ | ⟨e₂, e₂', hy, hy', h₂⟩
        · rw [hy, hy']
          exact ⟨rfl, h₁⟩
        · rw [hy, hy']
          have hdelay := h₂.nextDelay policy
          dsimp only
          exact ⟨by rw [h₂.status, hdelay.answer], hdelay.engine⟩

end Alike

end Engine

end IndexPools
