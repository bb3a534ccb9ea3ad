import IndexPools.Proofs.Chain
import IndexPools.Proofs.Placing

/-!
# What stands in every engine

In a sound engine each live table is sound, the pools that are tracked are those that are live, and
no tracked level lies above the cap, which lies below the inactive level (`Engine.Sound`). An
operation on keys or pools leaves the engine as it was, or gives a live pool another table and sets
its level back (`Engine.retable`), or sets a pool up (`Engine.opened`), which is all that can be
said of it without its key (`Engine.Moved`). Deleting a pool and asking for its delay are the other
moves. Each keeps the engine sound, and concerns one pool only (`Engine.SameAt`). What an operation
came to is told by `register_cases`, `deregister_cases` and `initDeclared_cases`, and without its
answer by `Engine.Rekeyed` and `Engine.SetUp`.
-/

namespace IndexPools

namespace Pacer

variable (p : Pacer) (pool q : PoolId)

theorem levels_track :
    (p.track pool).levels[q]? =
      if pool = q then some (p.levels[pool]?.getD 0) else p.levels[q]? := by
  unfold track
  rcases h : p.levels[pool]? with _ | l
  · exact lookup_insert _ _ _ _
  · split_ifs with e
    · rw [← e, h]
      rfl
    · rfl

theorem levels_forget :
    (p.forget pool).levels[q]? = if pool = q then none else p.levels[q]? :=
  lookup_erase _ _ _

theorem levels_reset :
    (p.reset pool).levels[q]? =
      if pool = q then p.levels[pool]?.map fun _ => 0 else p.levels[q]? := by
  unfold reset
  rcases h : p.levels[pool]? with _ | l
  · split_ifs with e
    · rw [← e, h]
      rfl
    · rfl
  · exact lookup_insert _ _ _ _

theorem levels_increment :
    (p.increment pool).levels[q]? =
      if pool = q then p.levels[pool]?.map fun l => if l + 1 < p.cap then l + 1 else p.cap
      else p.levels[q]? := by
  unfold increment
  rcases h : p.levels[pool]? with _ | l
  · split_ifs with e
    · rw [← e, h]
      rfl
    · rfl
  · exact lookup_insert _ _ _ _

theorem levels_nextDelay (policy : PacePolicy) :
    (p.nextDelay pool policy).2.levels[q]? =
      if pool = q then p.levels[pool]?.map fun l => if l < p.cap then l + 1 else l
      else p.levels[q]? := by
  unfold nextDelay
  rcases h : p.levels[pool]? with _ | l
  · split_ifs with e
    · rw [← e, h]
      rfl
    · rfl
  · by_cases hl : l < p.cap
    · simp only [if_pos hl, lookup_insert, Option.map_some]
    · simp only [if_neg hl, Option.map_some]
      split_ifs with e
      · rw [← e, h]
      · rfl

@[simp] theorem cap_track : (p.track pool).cap = p.cap := by
  unfold track
  split <;> rfl

@[simp] theorem cap_reset : (p.reset pool).cap = p.cap := by
  unfold reset
  split <;> rfl

@[simp] theorem cap_increment : (p.increment pool).cap = p.cap := by
  unfold increment
  split <;> rfl

@[simp] theorem cap_nextDelay (policy : PacePolicy) : (p.nextDelay pool policy).2.cap = p.cap := by
  unfold nextDelay
  split
  · split <;> rfl
  · rfl

theorem level_of_some {p : Pacer} {pool : PoolId} {l : UInt32}
    (h : p.levels[pool]? = some l) : p.level pool = ⟨l⟩ := by
  unfold level
  rw [h]

theorem level_of_none {p : Pacer} {pool : PoolId} (h : p.levels[pool]? = none) :
    p.level pool = .inactive := by
  unfold level
  rw [h]

/-- A level below another one can be added to. -/
theorem toNat_add_one {l l' : UInt32} (h : l < l') : (l + 1).toNat = l.toNat + 1 := by
  rw [UInt32.lt_iff_toNat_lt] at h
  have := l'.toNat_lt
  rw [UInt32.toNat_add]
  simp only [UInt32.reduceToNat]
  omega

theorem cap_pos {cap : UInt32} (h : 1 ≤ cap) : 0 < (withCap cap).cap := by
  have hpos : 0 < cap := UInt32.lt_of_lt_of_le (by decide) h
  unfold withCap
  split_ifs
  · exact hpos
  · decide

end Pacer

namespace Engine

structure Sound (e : Engine) : Prop where
  tables : ∀ {pool : PoolId} {t : SlotTable}, e.pools.live[pool]? = some t → t.Sound keyDigest
  tracked : ∀ pool : PoolId, e.pacer.levels[pool]?.isSome = e.pools.live[pool]?.isSome
  capped : ∀ {pool : PoolId} {l : UInt32}, e.pacer.levels[pool]? = some l → l ≤ e.pacer.cap
  below : e.pacer.cap < PaceLevel.inactive.value

/-- The engine after the table of a live pool became `t`. -/
def retable (e : Engine) (pool : PoolId) (t : SlotTable) : Engine :=
  { e with
    pools := { e.pools with live := e.pools.live.insert pool t }
    pacer := e.pacer.reset pool }

/-- The engine after a pool was set up with the table `t`. -/
def opened (e : Engine) (pool : PoolId) (t : SlotTable) : Engine :=
  { e with
    pools := { e.pools with live := e.pools.live.insert pool t }
    pacer := e.pacer.track pool }

variable {e : Engine} {pool : PoolId} {t : SlotTable}

theorem live_retable (q : PoolId) :
    (e.retable pool t).pools.live[q]? = if pool = q then some t else e.pools.live[q]? :=
  lookup_insert _ _ _ _

theorem live_retable_self : (e.retable pool t).pools.live[pool]? = some t :=
  (live_retable pool).trans (if_pos rfl)

theorem live_opened (q : PoolId) :
    (e.opened pool t).pools.live[q]? = if pool = q then some t else e.pools.live[q]? :=
  lookup_insert _ _ _ _

theorem live_deletePool (q : PoolId) :
    (e.deletePool pool).2.pools.live[q]? = if pool = q then none else e.pools.live[q]? := by
  simp only [deletePool, PoolDirectory.delete]
  rcases h : e.pools.live[pool]? with _ | t
  · split_ifs with e
    · rw [← e, h]
    · rfl
  · exact lookup_erase _ _ _

theorem sound_start (store : Store) (cap : UInt32) (conflicts : ConflictPolicy) :
    (start store cap conflicts).Sound := by
  refine ⟨?_, ?_, ?_, Pacer.cap_lt_inactive cap⟩
  · intro pool t h
    simp [start, PoolDirectory.empty] at h
  · intro pool
    simp [start, PoolDirectory.empty, Pacer.withCap]
  · intro pool l h
    simp [start, Pacer.withCap] at h

namespace Sound

/-- The store has no part in the soundness of an engine. -/
theorem store (h : e.Sound) (s : Store) : { e with store := s }.Sound :=
  ⟨h.tables, h.tracked, h.capped, h.below⟩

/-- Levels may move up to the cap. -/
theorem relevel (h : e.Sound) {p : Pacer} {f : UInt32 → UInt32} (hcap : p.cap = e.pacer.cap)
    (hlevels : ∀ q : PoolId, p.levels[q]? =
      if pool = q then e.pacer.levels[pool]?.map f else e.pacer.levels[q]?)
    (hf : ∀ l, l ≤ e.pacer.cap → f l ≤ e.pacer.cap) : { e with pacer := p }.Sound := by
  refine ⟨h.tables, fun q => ?_, fun {q l} hq => ?_, hcap ▸ h.below⟩
  · rw [← h.tracked q, hlevels]
    split_ifs with e'
    · rw [Option.isSome_map, e']
    · rfl
  · rw [hcap]
    rw [hlevels] at hq
    split_ifs at hq
    · obtain ⟨l₀, hl₀, rfl⟩ := Option.map_eq_some_iff.1 hq
      exact hf l₀ (h.capped hl₀)
    · exact h.capped hq

theorem retable (h : e.Sound) {t₀ : SlotTable} (hlive : e.pools.live[pool]? = some t₀)
    (ht : t.Sound keyDigest) : (e.retable pool t).Sound := by
  have hput : { e with
      pools := { e.pools with live := e.pools.live.insert pool t } }.Sound := by
    refine ⟨fun {q t'} hq => ?_, fun q => ?_, h.capped, h.below⟩
    · rw [lookup_insert] at hq
      split_ifs at hq
      · cases hq
        exact ht
      · exact h.tables hq
    · rw [lookup_insert, h.tracked]
      split_ifs with e'
      · rw [← e', hlive]
        rfl
      · rfl
  exact hput.relevel (Pacer.cap_reset _ _) (Pacer.levels_reset _ _) fun _ _ => UInt32.zero_le

theorem opened (h : e.Sound) (ht : t.Sound keyDigest) : (e.opened pool t).Sound := by
  refine ⟨?_, ?_, ?_, ?_⟩
  · intro q t' hq
    rw [live_opened] at hq
    split_ifs at hq
    · cases hq
      exact ht
    · exact h.tables hq
  · intro q
    rw [live_opened]
    simp only [Engine.opened, Pacer.levels_track]
    split_ifs
    · rfl
    · exact h.tracked q
  · intro q l hq
    simp only [Engine.opened, Pacer.levels_track, Pacer.cap_track] at hq ⊢
    split_ifs at hq
    · rcases hl : e.pacer.levels[pool]? with _ | l'
      · rw [hl] at hq
        cases hq
        exact UInt32.zero_le
      · rw [hl] at hq
        cases hq
        exact h.capped hl
    · exact h.capped hq
  · simpa [Engine.opened] using h.below

theorem deletePool (h : e.Sound) : (e.deletePool pool).2.Sound := by
  refine ⟨?_, ?_, ?_, h.below⟩
  · intro q t' hq
    rw [live_deletePool] at hq
    split_ifs at hq
    exact h.tables hq
  · intro q
    rw [live_deletePool]
    simp only [Engine.deletePool, Pacer.levels_forget]
    split_ifs
    · rfl
    · exact h.tracked q
  · intro q l hq
    simp only [Engine.deletePool, Pacer.levels_forget] at hq
    split_ifs at hq
    exact h.capped hq

theorem level_of_live (h : e.Sound) (hlive : e.pools.live[pool]? = some t) :
    ∃ l, e.pacer.levels[pool]? = some l := by
  have htracked := h.tracked pool
  rwa [hlive, Option.isSome_some, Option.isSome_iff_exists] at htracked

theorem untracked (h : e.Sound) (hlive : e.pools.live[pool]? = none) :
    e.pacer.levels[pool]? = none := by
  have htracked := h.tracked pool
  rwa [hlive, Option.isSome_none, Option.isSome_eq_false_iff, Option.isNone_iff_eq_none] at htracked

theorem nextDelay (h : e.Sound) (pool : PoolId) (policy : PacePolicy) :
    (e.nextDelay pool policy).2.Sound := by
  refine h.relevel (Pacer.cap_nextDelay _ _ _)
    (fun q => Pacer.levels_nextDelay e.pacer pool q policy) fun l hle => ?_
  split_ifs with hlt
  · rw [UInt32.le_iff_toNat_le, Pacer.toNat_add_one hlt]
    exact UInt32.lt_iff_toNat_lt.1 hlt
  · exact hle

end Sound

/-- Two engines with the same record, table and level of one pool. -/
structure SameAt (e e' : Engine) (q : PoolId) : Prop where
  record : e'.store.registries[q]? = e.store.registries[q]?
  table : e'.pools.live[q]? = e.pools.live[q]?
  level : e'.pacer.levels[q]? = e.pacer.levels[q]?

theorem SameAt.trans {e₁ e₂ e₃ : Engine} {q : PoolId} (h : SameAt e₁ e₂ q)
    (h' : SameAt e₂ e₃ q) : SameAt e₁ e₃ q :=
  ⟨h'.record.trans h.record, h'.table.trans h.table, h'.level.trans h.level⟩

theorem SameAt.paceLevel_eq {e e' : Engine} {q : PoolId} (h : SameAt e e' q) :
    e'.paceLevel q = e.paceLevel q := by
  unfold paceLevel Pacer.level
  rw [h.level]

section Elsewhere

variable {q : PoolId} (hq : pool ≠ q)

include hq

theorem sameAt_retable : SameAt e (e.retable pool t) q :=
  ⟨rfl, (live_retable q).trans (if_neg hq), (Pacer.levels_reset _ _ _).trans (if_neg hq)⟩

theorem sameAt_opened : SameAt e (e.opened pool t) q :=
  ⟨rfl, (live_opened q).trans (if_neg hq), (Pacer.levels_track _ _ _).trans (if_neg hq)⟩

theorem sameAt_deletePool : SameAt e (e.deletePool pool).2 q :=
  ⟨rfl, (live_deletePool q).trans (if_neg hq), (Pacer.levels_forget _ _ _).trans (if_neg hq)⟩

theorem sameAt_nextDelay (policy : PacePolicy) : SameAt e (e.nextDelay pool policy).2 q :=
  ⟨rfl, rfl, (Pacer.levels_nextDelay _ _ _ _).trans (if_neg hq)⟩

end Elsewhere

theorem paceLevel_of_level {l : UInt32} (h : e.pacer.levels[pool]? = some l) :
    e.paceLevel pool = ⟨l⟩ :=
  Pacer.level_of_some h

theorem paceLevel_of_untracked (h : e.pacer.levels[pool]? = none) :
    e.paceLevel pool = .inactive :=
  Pacer.level_of_none h

/-- A pool is visited again soon after a key of it was placed or released. -/
theorem paceLevel_retable (h : e.Sound) {t₀ : SlotTable} (hlive : e.pools.live[pool]? = some t₀) :
    (e.retable pool t).paceLevel pool = ⟨0⟩ := by
  obtain ⟨l, hl⟩ := h.level_of_live hlive
  refine paceLevel_of_level ((Pacer.levels_reset _ _ _).trans ?_)
  rw [if_pos rfl, hl]
  rfl

theorem paceLevel_opened (h : e.Sound) (hnew : e.pools.live[pool]? = none) :
    (e.opened pool t).paceLevel pool = ⟨0⟩ := by
  refine paceLevel_of_level ((Pacer.levels_track _ _ _).trans ?_)
  rw [if_pos rfl, h.untracked hnew]
  rfl

/-- What the registration of a key can come to. -/
inductive Registered (e : Engine) (r : Request) : Except RequestError Nat × Engine → Prop
  | refused (err : RequestError) : Registered e r (.error err, e)
  | kept {key : String} {t : SlotTable} {i : Nat} {a : Allocation} (haccept : e.accept r = .ok key)
      (hlive : e.pools.live[r.pool]? = some t) (hheld : t.holder? i = some a) (hkey : a.key = key) :
      Registered e r (.ok i, e)
  | placed {key : String} {t : SlotTable} {i : Nat} (haccept : e.accept r = .ok key)
      (hlive : e.pools.live[r.pool]? = some t) (habsent : t.Absent key)
      (hvacant : t.vacancy (t.home keyDigest key) = some i) :
      Registered e r (.ok i, e.retable r.pool (t.put i ⟨key, r.owner, r.tags⟩))

theorem register_cases (h : e.Sound) (r : Request) : Registered e r (e.register r) := by
  rw [register_eq]
  rcases haccept : e.accept r with err | key
  · exact .refused err
  · simp only [PoolDirectory.onPool]
    rcases hlive : e.pools.live[r.pool]? with _ | t
    · exact .refused _
    · have ht := h.tables hlive
      rcases t.held_or_absent key with ⟨i, a, hi, rfl⟩ | hk
      · simp only [SlotTable.insert_of_held ht hi]
        split_ifs with hsame
        · exact .kept haccept hlive hi rfl
        · rcases e.conflicts
          · exact .kept haccept hlive hi rfl
          · exact .refused _
      · simp only [SlotTable.insert_of_absent ht.pos hk]
        rcases hv : t.vacancy (t.home keyDigest key) with _ | i
        · exact .refused _
        · exact .placed haccept hlive hk hv

/-- What the release of a key can come to. -/
inductive Deregistered (e : Engine) (r : Request) : Except RequestError Unit × Engine → Prop
  | refused (err : RequestError) : Deregistered e r (.error err, e)
  | idle {key : String} {t : SlotTable} (haccept : e.accept r = .ok key)
      (hlive : e.pools.live[r.pool]? = some t) (habsent : t.Absent key) :
      Deregistered e r (.ok (), e)
  | freed {key : String} {t : SlotTable} {i : Nat} {a : Allocation} (haccept : e.accept r = .ok key)
      (hlive : e.pools.live[r.pool]? = some t) (hheld : t.holder? i = some a) (hkey : a.key = key) :
      Deregistered e r (.ok (), e.retable r.pool (t.vacate i))

theorem deregister_cases (h : e.Sound) (r : Request) : Deregistered e r (e.deregister r) := by
  rw [deregister_eq]
  rcases haccept : e.accept r with err | key
  · exact .refused err
  · simp only [PoolDirectory.onPool]
    rcases hlive : e.pools.live[r.pool]? with _ | t
    · exact .refused _
    · have ht := h.tables hlive
      rcases t.held_or_absent key with ⟨i, a, hi, rfl⟩ | hk
      · simp only [SlotTable.delete_of_held ht hi]
        exact .freed haccept hlive hi rfl
      · simp only [SlotTable.delete_of_absent ht.pos hk]
        exact .idle haccept hlive hk

/-- What an operation on the keys of a pool can come to. -/
inductive Rekeyed (e : Engine) (pool : PoolId) : Engine → Prop
  | kept : Rekeyed e pool e
  | placed {t : SlotTable} {i : Nat} {a : Allocation} (hlive : e.pools.live[pool]? = some t)
      (habsent : t.Absent a.key) (hvacant : t.vacancy (t.home keyDigest a.key) = some i) :
      Rekeyed e pool (e.retable pool (t.put i a))
  | freed {t : SlotTable} {i : Nat} {a : Allocation} (hlive : e.pools.live[pool]? = some t)
      (hheld : t.holder? i = some a) : Rekeyed e pool (e.retable pool (t.vacate i))

theorem Registered.rekeyed {r : Request} {e' : Engine} {answer : Except RequestError Nat}
    (h : Registered e r (answer, e')) : Rekeyed e r.pool e' := by
  cases h with
  | refused | kept => exact .kept
  | placed _ hlive habsent hvacant => exact .placed hlive habsent hvacant

theorem Deregistered.rekeyed {r : Request} {e' : Engine} {answer : Except RequestError Unit}
    (h : Deregistered e r (answer, e')) : Rekeyed e r.pool e' := by
  cases h with
  | refused | idle => exact .kept
  | freed _ hlive hheld => exact .freed hlive hheld

/-- A held key is answered with its slot, unless conflicts are refused and another holder has it. -/
theorem register_of_held (h : e.Sound) {r : Request} {t : SlotTable} {i : Nat} {a : Allocation}
    (haccept : e.accept r = .ok a.key) (hlive : e.pools.live[r.pool]? = some t)
    (hheld : t.holder? i = some a) :
    e.register r =
      (if e.conflicts = .reject ∧ ¬ (a.owner = r.owner ∧ a.tags = r.tags) then
        .error (.ownershipConflict r.pool a.key a.owner)
      else .ok i, e) := by
  rw [register_eq]
  rw [haccept]
  simp only [PoolDirectory.onPool, hlive, SlotTable.insert_of_held (h.tables hlive) hheld]
  by_cases hsame : a.owner = r.owner ∧ a.tags = r.tags
  · simp [hsame]
  · rcases hc : e.conflicts <;> simp [hsame]

/-- A key that is missing takes the first vacant slot. -/
theorem register_of_absent (h : e.Sound) {r : Request} {t : SlotTable} {key : String} {i : Nat}
    (haccept : e.accept r = .ok key) (hlive : e.pools.live[r.pool]? = some t)
    (habsent : t.Absent key) (hvacant : t.vacancy (t.home keyDigest key) = some i) :
    e.register r = (.ok i, e.retable r.pool (t.put i ⟨key, r.owner, r.tags⟩)) := by
  rw [register_eq]
  rw [haccept]
  simp only [PoolDirectory.onPool, hlive, SlotTable.insert_of_absent (h.tables hlive).pos habsent,
    hvacant]
  rfl

/-- An accepted release of a live pool's key succeeds. -/
theorem deregister_of_accept {r : Request} {t : SlotTable} {key : String}
    (haccept : e.accept r = .ok key) (hlive : e.pools.live[r.pool]? = some t) :
    (e.deregister r).1 = .ok () := by
  rw [deregister_eq]
  rw [haccept]
  simp only [PoolDirectory.onPool, hlive]
  rcases (t.delete keyDigest key).1 with _ | a <;> rfl

/-- The release of a key that is missing changes nothing. -/
theorem deregister_of_absent (h : e.Sound) {r : Request} {t : SlotTable} {key : String}
    (haccept : e.accept r = .ok key) (hlive : e.pools.live[r.pool]? = some t)
    (habsent : t.Absent key) : e.deregister r = (.ok (), e) := by
  rw [deregister_eq]
  rw [haccept]
  simp only [PoolDirectory.onPool, hlive, SlotTable.delete_of_absent (h.tables hlive).pos habsent]

/-- A pool that is live after it was asked for: as it was, or new and empty. -/
inductive SetUp (e : Engine) (pool : PoolId) : Engine → Prop
  | kept {t : SlotTable} (hlive : e.pools.live[pool]? = some t) : SetUp e pool e
  | opened {c : Nat} {strategy : Strategy} {t : SlotTable} (hnew : e.pools.live[pool]? = none)
      (hcreate : SlotTable.create c strategy = .ok t) : SetUp e pool (e.opened pool t)

theorem track_of_live (h : e.Sound) (hlive : e.pools.live[pool]? = some t) :
    e.pacer.track pool = e.pacer := by
  obtain ⟨l, hl⟩ := h.level_of_live hlive
  unfold Pacer.track
  rw [hl]

theorem initPool_cases (h : e.Sound) (pool : PoolId) (c : Nat) (strategy : Strategy) :
    (∃ err, e.initPool pool c strategy = (.error err, e) ∧ e.pools.live[pool]? = none) ∨
      ∃ created e', e.initPool pool c strategy = (.ok created, e') ∧ SetUp e pool e' := by
  simp only [initPool, PoolDirectory.init]
  rcases hlive : e.pools.live[pool]? with _ | t
  · rcases hcreate : SlotTable.create c strategy with err | t
    · exact .inl ⟨_, rfl, rfl⟩
    · exact .inr ⟨_, _, rfl, .opened hlive hcreate⟩
  · simp only [track_of_live h hlive]
    exact .inr ⟨_, _, rfl, .kept hlive⟩

theorem initDeclared_cases (h : e.Sound) (pool : PoolId) :
    (∃ err, e.initDeclared pool = (.error err, e) ∧ e.pools.live[pool]? = none) ∨
      ∃ created e', e.initDeclared pool = (.ok created, e') ∧ SetUp e pool e' := by
  unfold initDeclared
  rcases hlive : e.pools.live[pool]? with _ | t
  · have hnot : e.pools.contains pool = false := by
      simp [PoolDirectory.contains, Std.ExtTreeMap.contains_eq_isSome_getElem?, hlive]
    rw [hnot, if_neg Bool.false_ne_true]
    rcases e.store.size pool with err | c
    · exact .inl ⟨_, rfl, rfl⟩
    · rcases e.store.strategy pool with err | strategy
      · exact .inl ⟨_, rfl, rfl⟩
      · have hinit := initPool_cases h pool c strategy
        rwa [hlive] at hinit
  · have hcontains : e.pools.contains pool = true := by
      simp [PoolDirectory.contains, Std.ExtTreeMap.contains_eq_isSome_getElem?, hlive]
    rw [hcontains, if_pos rfl, track_of_live h hlive]
    exact .inr ⟨_, _, rfl, .kept hlive⟩

/-- One engine after another when nothing but a key was placed or released, or a pool set up. -/
inductive Moved (e : Engine) : Engine → Prop
  | same : Moved e e
  | retabled {pool : PoolId} {t₀ t : SlotTable} (hlive : e.pools.live[pool]? = some t₀)
      (ht : t.Sound keyDigest) : Moved e (e.retable pool t)
  | opened {pool : PoolId} {c : Nat} {strategy : Strategy} {t : SlotTable}
      (hnew : e.pools.live[pool]? = none) (hcreate : SlotTable.create c strategy = .ok t) :
      Moved e (e.opened pool t)

section Moves

variable {e' : Engine}

theorem Moved.sound (h : Moved e e') (hs : e.Sound) : e'.Sound := by
  cases h with
  | same => exact hs
  | retabled hlive ht => exact hs.retable hlive ht
  | opened _ hcreate => exact hs.opened (SlotTable.sound_of_create hcreate).1

theorem Moved.store_eq (h : Moved e e') : e'.store = e.store := by
  cases h <;> rfl

theorem Moved.cap_eq (h : Moved e e') : e'.pacer.cap = e.pacer.cap := by
  cases h with
  | same => rfl
  | retabled => exact Pacer.cap_reset _ _
  | opened => exact Pacer.cap_track _ _

theorem Moved.conflicts_eq (h : Moved e e') : e'.conflicts = e.conflicts := by
  cases h <;> rfl

/-- A pool that moved has its level set back. -/
theorem Moved.sameAt_or_reset (h : Moved e e') (hs : e.Sound) (q : PoolId) :
    SameAt e e' q ∨ e'.paceLevel q = ⟨0⟩ := by
  cases h with
  | same => exact .inl ⟨rfl, rfl, rfl⟩
  | @retabled pool _ _ hlive =>
    by_cases hq : pool = q
    · exact .inr (hq ▸ paceLevel_retable hs hlive)
    · exact .inl (sameAt_retable hq)
  | @opened pool _ _ _ hnew =>
    by_cases hq : pool = q
    · exact .inr (hq ▸ paceLevel_opened hs hnew)
    · exact .inl (sameAt_opened hq)

theorem SetUp.moved (h : SetUp e pool e') : Moved e e' := by
  cases h with
  | kept => exact .same
  | opened hnew hcreate => exact .opened hnew hcreate

theorem SetUp.sameAt {q : PoolId} (h : SetUp e pool e') (hq : pool ≠ q) : SameAt e e' q := by
  cases h with
  | kept => exact ⟨rfl, rfl, rfl⟩
  | opened => exact sameAt_opened hq

theorem Rekeyed.moved (h : Rekeyed e pool e') (hs : e.Sound) : Moved e e' := by
  cases h with
  | kept => exact .same
  | placed hlive habsent hvacant => exact .retabled hlive ((hs.tables hlive).put habsent hvacant)
  | freed hlive hheld => exact .retabled hlive ((hs.tables hlive).vacate hheld)

theorem Rekeyed.sameAt {q : PoolId} (h : Rekeyed e pool e') (hq : pool ≠ q) : SameAt e e' q := by
  cases h with
  | kept => exact ⟨rfl, rfl, rfl⟩
  | placed | freed => exact sameAt_retable hq

theorem moved_initPool (hs : e.Sound) (pool : PoolId) (c : Nat) (strategy : Strategy) :
    Moved e (e.initPool pool c strategy).2 := by
  rcases initPool_cases hs pool c strategy with ⟨err, he, -⟩ | ⟨created, e', he, hset⟩
  · rw [he]
    exact .same
  · rw [he]
    exact hset.moved

theorem moved_initDeclared (hs : e.Sound) (pool : PoolId) : Moved e (e.initDeclared pool).2 := by
  rcases initDeclared_cases hs pool with ⟨err, he, -⟩ | ⟨created, e', he, hset⟩
  · rw [he]
    exact .same
  · rw [he]
    exact hset.moved

theorem sameAt_initPool {q : PoolId} (hs : e.Sound) (hq : pool ≠ q) (c : Nat)
    (strategy : Strategy) : SameAt e (e.initPool pool c strategy).2 q := by
  rcases initPool_cases hs pool c strategy with ⟨err, he, -⟩ | ⟨created, e', he, hset⟩
  · rw [he]
    exact ⟨rfl, rfl, rfl⟩
  · rw [he]
    exact hset.sameAt hq

theorem sameAt_initDeclared {q : PoolId} (hs : e.Sound) (hq : pool ≠ q) :
    SameAt e (e.initDeclared pool).2 q := by
  rcases initDeclared_cases hs pool with ⟨err, he, -⟩ | ⟨created, e', he, hset⟩
  · rw [he]
    exact ⟨rfl, rfl, rfl⟩
  · rw [he]
    exact hset.sameAt hq

end Moves

end Engine

end IndexPools
