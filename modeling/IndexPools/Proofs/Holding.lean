import IndexPools.Proofs.Visit

/-!
# Held keys

Which keys the live pools of an engine hold, and at which indices (`Engine.Holds`). Placing a key
adds one allocation (`holds_put`), releasing one takes it away (`holds_vacate`), and no visit of a
registry adds or takes any (`RegistryVisit.holds_iff`): a pool is set up without keys, and deleted
only once it has none.
-/

namespace IndexPools

namespace Engine

/-- A live pool's table has the allocation at the index. -/
def Holds (e : Engine) (pool : PoolId) (i : Nat) (a : Allocation) : Prop :=
  ∃ t, e.pools.live[pool]? = some t ∧ t.holder? i = some a

variable {e : Engine} {pool q : PoolId} {t : SlotTable} {i j : Nat} {a b : Allocation}

theorem holds_of_live (h : e.pools.live[pool]? = some t) :
    e.Holds pool i a ↔ t.holder? i = some a := by
  constructor
  · rintro ⟨t', ht', hi⟩
    cases h.symm.trans ht'
    exact hi
  · exact fun hi => ⟨t, h, hi⟩

theorem mem_poolIds : pool ∈ e.poolIds ↔ ∃ t, e.pools.live[pool]? = some t :=
  Std.ExtTreeMap.mem_keys.trans mem_iff_lookup

/-- The keys that a pool lists are those that it holds. -/
theorem mem_used {key : String} :
    key ∈ (e.snapshot pool).used ↔ ∃ i a, e.Holds pool i a ∧ a.key = key := by
  unfold snapshot PoolDirectory.snapshot
  rcases hlive : e.pools.live[pool]? with _ | t
  · refine iff_of_false List.not_mem_nil ?_
    rintro ⟨i, a, ⟨t, ht, -⟩, -⟩
    cases hlive.symm.trans ht
  · simp only [SlotTable.snapshot, List.mem_map, Prod.exists, SlotTable.mem_entries,
      holds_of_live hlive]

theorem not_holds_of_none (h : e.pools.live[pool]? = none) : ¬ e.Holds pool i a := by
  rintro ⟨t, ht, -⟩
  rw [h] at ht
  cases ht

theorem Sound.holds_inj (hs : e.Sound) (hi : e.Holds pool i a) (hj : e.Holds pool j b)
    (hkey : a.key = b.key) : i = j := by
  obtain ⟨t, ht, hi⟩ := hi
  rw [holds_of_live ht] at hj
  exact (hs.tables ht).distinct hi hj hkey

/-- Two allocations at one index of one pool are the same. -/
theorem Holds.unique (hi : e.Holds pool i a) (hj : e.Holds pool i b) : a = b := by
  obtain ⟨t, ht, hi⟩ := hi
  rw [holds_of_live ht, hi] at hj
  exact Option.some.inj hj

theorem holds_retable : (e.retable pool t).Holds q j b ↔
    if pool = q then t.holder? j = some b else e.Holds q j b := by
  unfold Holds
  simp only [live_retable]
  split_ifs with hq
  · simp
  · rfl

theorem holds_put (hlive : e.pools.live[pool]? = some t) {start : Nat}
    (hv : t.vacancy start = some i) : (e.retable pool (t.put i a)).Holds q j b ↔
      (pool = q ∧ j = i ∧ b = a) ∨ e.Holds q j b := by
  obtain ⟨hi, hnone⟩ := SlotTable.lt_of_vacancy hv
  rw [holds_retable, SlotTable.holder?_put hi]
  split_ifs with hq hj
  · rw [← hq, holds_of_live hlive, hj, hnone]
    simp [eq_comm]
  · rw [← hq, holds_of_live hlive]
    simp [hj]
  · simp [hq]

theorem holds_vacate (hs : e.Sound) (hlive : e.pools.live[pool]? = some t)
    (hheld : t.holder? i = some a) : (e.retable pool (t.vacate i)).Holds q j b ↔
      e.Holds q j b ∧ ¬ (pool = q ∧ j = i) := by
  rw [holds_retable, SlotTable.holder?_vacate (hs.tables hlive) hheld]
  split_ifs with hq hj
  · simp [hq, hj]
  · rw [← hq, holds_of_live hlive]
    simp [hj]
  · simp [hq]

theorem not_mem_used_of_absent {key : String} (hlive : e.pools.live[pool]? = some t)
    (habsent : t.Absent key) : key ∉ (e.snapshot pool).used := by
  rw [mem_used]
  rintro ⟨j, b, hb, hkey⟩
  exact habsent j b ((holds_of_live hlive).1 hb) hkey

theorem mem_used_of_held (hlive : e.pools.live[pool]? = some t) (hheld : t.holder? i = some a) :
    a.key ∈ (e.snapshot pool).used :=
  mem_used.2 ⟨i, a, (holds_of_live hlive).2 hheld, rfl⟩

theorem mem_used_put (hlive : e.pools.live[pool]? = some t) {start : Nat}
    (hv : t.vacancy start = some i) : a.key ∈ ((e.retable pool (t.put i a)).snapshot pool).used :=
  mem_used.2 ⟨i, a, (holds_put hlive hv).2 (.inl ⟨rfl, rfl, rfl⟩), rfl⟩

theorem not_mem_used_vacate (hs : e.Sound) (hlive : e.pools.live[pool]? = some t)
    (hheld : t.holder? i = some a) :
    a.key ∉ ((e.retable pool (t.vacate i)).snapshot pool).used := by
  rw [mem_used]
  rintro ⟨j, b, hb, hkey⟩
  obtain ⟨hb, hne⟩ := (holds_vacate hs hlive hheld).1 hb
  exact hne ⟨rfl, hs.holds_inj hb ((holds_of_live hlive).2 hheld) hkey⟩

theorem holds_opened {c : Nat} {strategy : Strategy} (hnew : e.pools.live[pool]? = none)
    (hcreate : SlotTable.create c strategy = .ok t) :
    (e.opened pool t).Holds q j b ↔ e.Holds q j b := by
  have hempty : t.Sound keyDigest ∧ ∀ i, t.holder? i = none := SlotTable.sound_of_create hcreate
  by_cases hq : pool = q
  · rw [← hq, holds_of_live ((live_opened pool).trans (if_pos rfl)), hempty.2]
    simp [not_holds_of_none hnew]
  · unfold Holds
    rw [live_opened, if_neg hq]

theorem holds_deletePool (hs : e.Sound)
    (hempty : ∀ t, e.pools.live[pool]? = some t → t.allocated = 0) :
    (e.deletePool pool).2.Holds q j b ↔ e.Holds q j b := by
  by_cases hq : pool = q
  · rw [← hq]
    refine ⟨fun h => absurd h (not_holds_of_none ((live_deletePool pool).trans (if_pos rfl))), ?_⟩
    rintro ⟨t, ht, hj⟩
    rw [(hs.tables ht).holder?_of_empty (hempty t ht)] at hj
    cases hj
  · unfold Holds
    rw [live_deletePool, if_neg hq]

theorem holds_settle {r : RegisterRecord} : (e.settle r i).2.Holds q j b ↔ e.Holds q j b := by
  obtain ⟨registers, hw⟩ := settle_frame e r i
  rw [hw]
  rfl

theorem holds_discard {r : RegisterRecord} : (e.discard r).2.Holds q j b ↔ e.Holds q j b := by
  obtain ⟨registers, hw⟩ := discard_frame e r
  rw [hw]
  rfl

/-- The visit of a register leaves an allocation in its slot, or releases it by its key. -/
theorem RegisterVisit.holds {r : RegisterRecord}
    {res : Except ReconcileError RegisterOutcome × Engine} (h : RegisterVisit e r res)
    (hs : e.Sound) (hb : e.Holds q j b) : res.2.Holds q j b ∨
      (r.deleting = true ∧ r.pool = .ok q ∧ e.accept (r.ask q) = .ok b.key) := by
  cases h with
  | failed => exact .inl hb
  | kept => exact .inl (holds_settle.2 hb)
  | placed _ _ _ hlive _ hvacant =>
    exact .inl (holds_settle.2 ((holds_put hlive hvacant).2 (.inr hb)))
  | idle => exact .inl (holds_discard.2 hb)
  | @freed pool key t i a hpool hleaves haccept hlive hheld hkey =>
    by_cases hsame : pool = q ∧ j = i
    · obtain ⟨rfl, rfl⟩ := hsame
      rw [holds_of_live hlive, hheld] at hb
      cases hb
      exact .inr ⟨hleaves, hpool, hkey ▸ haccept⟩
    · exact .inl (holds_discard.2 ((holds_vacate hs hlive hheld).2 ⟨hb, hsame⟩))

/-- The visit of a register adds no allocation but of the register's own key. -/
theorem RegisterVisit.of_holds {r : RegisterRecord}
    {res : Except ReconcileError RegisterOutcome × Engine} (h : RegisterVisit e r res)
    (hs : e.Sound) (hb : res.2.Holds q j b) : e.Holds q j b ∨
      (r.deleting = false ∧ r.pool = .ok q ∧ e.accept (r.ask q) = .ok b.key) := by
  cases h with
  | failed => exact .inl hb
  | kept => exact .inl (holds_settle.1 hb)
  | placed hpool hstays haccept hlive _ hvacant =>
    rcases (holds_put hlive hvacant).1 (holds_settle.1 hb) with ⟨rfl, -, rfl⟩ | hb
    · exact .inr ⟨hstays, hpool, haccept⟩
    · exact .inl hb
  | idle => exact .inl (holds_discard.1 hb)
  | freed _ _ _ hlive hheld =>
    exact .inl ((holds_vacate hs hlive hheld).1 (holds_discard.1 hb)).1

theorem SetUp.holds_iff {e' : Engine} (h : SetUp e pool e') : e'.Holds q j b ↔ e.Holds q j b := by
  cases h with
  | kept => rfl
  | opened hnew hcreate => exact holds_opened hnew hcreate

theorem RegistryVisit.holds_iff {policy : PacePolicy}
    {res : Except ReconcileError RegistryOutcome × Engine} (h : RegistryVisit policy e pool res)
    (hs : e.Sound) : res.2.Holds q j b ↔ e.Holds q j b := by
  cases h with
  | missing | unset | blocked => rfl
  | deleted _ _ hempty => exact holds_deletePool hs hempty
  | synced _ _ hset => exact hset.holds_iff

end Engine

end IndexPools
