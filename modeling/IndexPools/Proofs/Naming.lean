import IndexPools.Proofs.Handles
import IndexPools.Proofs.Placing

/-!
# Handles as names

The directory that an engine works on has no cells and no addresses: its handles name a table by a
pool and a count. It is the view of tables in cells under which each cell has a name of its own
(`Shows`). Setting up a pool takes a new name and a new cell (`Shows.opened`), deleting it renames
no cell (`Shows.delete`), and what is written to a cell is written under its name
(`Shows.replace`). So whoever keeps handles and asks for what they lead to is given the same replies
by both (`replies_eq`). An engine does nothing else with its directory.
-/

namespace IndexPools

namespace PoolDirectory

variable {α : Type} {d : PoolDirectory} {h h' : Handle} {pool q : PoolId} {t : SlotTable}

/-- The handle's table is retired, or it is the one of the live pool. -/
def Knows (d : PoolDirectory) (h : Handle) : Prop :=
  d.isStale h = true ∨ d.handle? h.pool = some h

/-- The directory after the handle's table became `t`. -/
def replace (d : PoolDirectory) (h : Handle) (t : SlotTable) : PoolDirectory :=
  if d.isStale h then
    { d with retired := d.retired.insert h.pool ((d.retiredOf h.pool).set h.lifetime t) }
  else { d with live := d.live.insert h.pool t }

theorem Knows.current (hk : d.Knows h) (hfresh : d.isStale h = false) :
    d.handle? h.pool = some h :=
  hk.resolve_left (by simp [hfresh])

theorem current_eq (hh : d.handle? h.pool = some h) :
    h.lifetime = (d.retiredOf h.pool).length :=
  congrArg Handle.lifetime (handle?_eq_some.1 hh).1

theorem Knows.le (hk : d.Knows h) : h.lifetime ≤ (d.retiredOf h.pool).length := by
  rcases hk with hstale | hh
  · exact (isStale_iff.1 hstale).le
  · exact (current_eq hh).le

theorem retiredOf_insert (live : Std.ExtTreeMap PoolId SlotTable) (ts : List SlotTable) :
    (⟨live, d.retired.insert pool ts⟩ : PoolDirectory).retiredOf q =
      if pool = q then ts else d.retiredOf q := by
  unfold retiredOf
  simp only [Std.ExtTreeMap.getD_eq_getD_getElem?, lookup_insert]
  split_ifs <;> rfl

theorem retiredOf_replace : (d.replace h t).retiredOf q =
    if d.isStale h = true ∧ h.pool = q then (d.retiredOf q).set h.lifetime t
    else d.retiredOf q := by
  unfold replace
  by_cases hstale : d.isStale h = true
  · rw [if_pos hstale, retiredOf_insert]
    by_cases hq : h.pool = q
    · rw [if_pos hq, if_pos ⟨hstale, hq⟩, hq]
    · rw [if_neg hq, if_neg fun hboth => hq hboth.2]
  · rw [if_neg hstale, if_neg fun hboth => hstale hboth.1]
    rfl

theorem length_retiredOf_replace (d : PoolDirectory) (h : Handle) (t : SlotTable) (q : PoolId) :
    ((d.replace h t).retiredOf q).length = (d.retiredOf q).length := by
  rw [retiredOf_replace]
  split_ifs
  · exact List.length_set
  · rfl

theorem isStale_replace (d : PoolDirectory) (h : Handle) (t : SlotTable) (h' : Handle) :
    (d.replace h t).isStale h' = d.isStale h' := by
  unfold isStale
  rw [length_retiredOf_replace]

theorem live_replace : (d.replace h t).live[q]? =
    if d.isStale h = false ∧ h.pool = q then some t else d.live[q]? := by
  unfold replace
  by_cases hstale : d.isStale h = true
  · rw [if_pos hstale, if_neg fun hboth => Bool.eq_false_iff.1 hboth.1 hstale]
  · rw [if_neg hstale]
    refine (lookup_insert _ _ _ _).trans (if_congr ?_ rfl rfl)
    rw [Bool.eq_false_iff]
    exact (and_iff_right hstale).symm

theorem isStale_eq_false : d.isStale h = false ↔ (d.retiredOf h.pool).length ≤ h.lifetime := by
  rw [← Bool.not_eq_true, isStale_iff, Nat.not_lt]

/-- What is written through a handle is read through that handle only. -/
theorem table?_replace (hle : h.lifetime ≤ (d.retiredOf h.pool).length)
    (hle' : h'.lifetime ≤ (d.retiredOf h'.pool).length) :
    (d.replace h t).table? h' = if h = h' then some t else d.table? h' := by
  obtain ⟨pool, n⟩ := h
  obtain ⟨pool', n'⟩ := h'
  unfold table?
  rw [isStale_replace, live_replace, retiredOf_replace]
  by_cases hstale' : d.isStale ⟨pool', n'⟩ = true
  · rw [if_pos hstale', if_pos hstale']
    by_cases hsame : (⟨pool, n⟩ : Handle) = ⟨pool', n'⟩
    · cases hsame
      rw [if_pos rfl, if_pos ⟨hstale', rfl⟩, List.getElem?_set_self (isStale_iff.1 hstale')]
    · rw [if_neg hsame]
      split_ifs with hboth
      · obtain ⟨-, rfl⟩ := hboth
        exact List.getElem?_set_ne fun hn => hsame (congrArg (Handle.mk pool) hn)
      · rfl
  · rw [if_neg hstale', if_neg hstale']
    rw [Bool.not_eq_true] at hstale'
    refine if_congr ⟨?_, ?_⟩ rfl rfl
    · -- all retired tables are counted for a live one
      rintro ⟨hfresh, rfl⟩
      have hn := hle.antisymm (isStale_eq_false.1 hfresh)
      exact congrArg (Handle.mk pool) (hn.trans (hle'.antisymm (isStale_eq_false.1 hstale')).symm)
    · rintro ⟨⟩
      exact ⟨hstale', rfl⟩

/-- To run a function on a handle's table is to read the table and to replace it. -/
theorem onHandle_eq (d : PoolDirectory) (h : Handle) (f : SlotTable → α × SlotTable) :
    d.onHandle h f = (d.table? h).map fun t => ((f t).1, d.replace h (f t).2) := by
  unfold onHandle table? replace
  by_cases hstale : d.isStale h = true
  · simp only [if_pos hstale]
    rcases (d.retiredOf h.pool)[h.lifetime]? with _ | t <;> rfl
  · simp only [if_neg hstale, onPool]
    rcases d.live[h.pool]? with _ | t <;> rfl

theorem handle?_replace (hk : d.Knows h) (t : SlotTable) (q : PoolId) :
    (d.replace h t).handle? q = d.handle? q := by
  rw [handle?_eq, handle?_eq, length_retiredOf_replace, live_replace]
  split_ifs with hboth
  · obtain ⟨hfresh, rfl⟩ := hboth
    obtain ⟨t', hlive⟩ := (handle?_eq_some.1 (hk.current hfresh)).2
    rw [hlive]
    rfl
  · rfl

theorem init_of_some (hlive : d.live[pool]? = some t) (capacity : Nat) (strategy : Strategy) :
    d.init pool capacity strategy = (.ok false, d) := by
  unfold init
  simp only [hlive]

theorem init_of_error (hnew : d.live[pool]? = none) {capacity : Nat} {strategy : Strategy}
    {err : AllocError} (hcreate : SlotTable.create capacity strategy = .error err) :
    d.init pool capacity strategy = (.error err, d) := by
  unfold init
  simp only [hnew, hcreate]

/-- The handle that the pool is given next. -/
def next (d : PoolDirectory) (pool : PoolId) : Handle := ⟨pool, (d.retiredOf pool).length⟩

theorem isStale_next (d : PoolDirectory) (pool : PoolId) : d.isStale (d.next pool) = false := by
  simp [isStale, next]

theorem init_of_create (hnew : d.live[pool]? = none) {capacity : Nat} {strategy : Strategy}
    (hcreate : SlotTable.create capacity strategy = .ok t) :
    d.init pool capacity strategy = (.ok true, d.replace (d.next pool) t) := by
  unfold init replace
  simp only [hnew, hcreate, isStale_next, Bool.false_eq_true, if_false]
  rfl

/-- A pool that is set up is given its next handle. -/
theorem handle?_opened : (d.replace (d.next pool) t).handle? q =
    if pool = q then some (d.next pool) else d.handle? q := by
  rw [handle?_eq, handle?_eq, length_retiredOf_replace, live_replace, isStale_next]
  by_cases hq : pool = q
  · rw [if_pos ⟨rfl, hq⟩, if_pos hq, ← hq]
    rfl
  · rw [if_neg fun hboth => hq hboth.2, if_neg hq]

theorem not_knows_next (hnew : d.handle? pool = none) : ¬ d.Knows (d.next pool) := by
  rintro (hstale | hh)
  · rw [isStale_next] at hstale
    cases hstale
  · cases hnew.symm.trans hh

theorem delete_of_some (hlive : d.live[pool]? = some t) : d.delete pool =
    (true, ⟨d.live.erase pool, d.retired.insert pool (d.retiredOf pool ++ [t])⟩) := by
  unfold delete
  rw [hlive]

theorem delete_of_none (hnew : d.live[pool]? = none) : d.delete pool = (false, d) := by
  unfold delete
  rw [hnew]

theorem retiredOf_delete (hlive : d.live[pool]? = some t) (q : PoolId) :
    (d.delete pool).2.retiredOf q =
      if pool = q then d.retiredOf pool ++ [t] else d.retiredOf q := by
  rw [delete_of_some hlive]
  exact retiredOf_insert _ _

theorem live_delete (hlive : d.live[pool]? = some t) (q : PoolId) :
    (d.delete pool).2.live[q]? = if pool = q then none else d.live[q]? := by
  rw [delete_of_some hlive]
  exact lookup_erase _ _ _

theorem handle?_delete : (d.delete pool).2.handle? q = if pool = q then none else d.handle? q := by
  rcases hlive : d.live[pool]? with _ | t
  · rw [delete_of_none hlive]
    split_ifs with hq
    · exact hq ▸ handle?_eq_none.2 hlive
    · rfl
  · rw [handle?_eq, handle?_eq, live_delete hlive, retiredOf_delete hlive]
    split_ifs <;> rfl

/-- Deleting a pool makes its handle stale. -/
theorem isStale_delete (hk : d.Knows h) : (d.delete pool).2.isStale h = true ↔
    d.isStale h = true ∨ d.handle? pool = some h := by
  rcases hlive : d.live[pool]? with _ | t
  · rw [delete_of_none hlive, handle?_eq_none.2 hlive]
    simp
  · rw [isStale_iff, isStale_iff, retiredOf_delete hlive]
    split_ifs with hq
    · subst hq
      rw [List.length_append, List.length_singleton, Nat.lt_succ_iff]
      refine iff_of_true hk.le ?_
      exact hk.le.lt_or_eq.imp_right fun heq =>
        handle?_eq_some.2 ⟨congrArg (Handle.mk h.pool) heq, t, hlive⟩
    · refine (or_iff_left fun hh => hq ?_).symm
      exact (congrArg Handle.pool (handle?_eq_some.1 hh).1).symm

/-- Deleting a pool takes no table away from its handle. -/
theorem table?_delete (hk : d.Knows h) : (d.delete pool).2.table? h = d.table? h := by
  rcases hlive : d.live[pool]? with _ | t
  · rw [delete_of_none hlive]
  · unfold table?
    rw [live_delete hlive, retiredOf_delete hlive]
    by_cases hq : pool = h.pool
    · subst hq
      have hstale : d.isStale h = true ∨ d.handle? h.pool = some h →
          (d.delete h.pool).2.isStale h = true := (isStale_delete hk).2
      rw [if_pos rfl]
      by_cases hold : d.isStale h = true
      · rw [if_pos hold, if_pos (hstale (.inl hold)),
          List.getElem?_append_left (isStale_iff.1 hold)]
      · have hh := hk.current (Bool.eq_false_iff.2 hold)
        rw [if_neg hold, if_pos (hstale (.inr hh)), current_eq hh, List.getElem?_concat_length,
          hlive]
    · rw [if_neg hq, if_neg hq]
      refine if_congr ?_ rfl rfl
      rw [isStale_delete hk]
      refine or_iff_left fun hh => hq ?_
      exact (congrArg Handle.pool (handle?_eq_some.1 hh).1).symm

end PoolDirectory

theorem rel_cases {α β : Type} {r : α → β → Prop} {x : Option α} {y : Option β}
    (h : Option.Rel r x y) : x = none ∧ y = none ∨ ∃ a b, x = some a ∧ y = some b ∧ r a b := by
  cases h with
  | none => exact .inl ⟨rfl, rfl⟩
  | some h => exact .inr ⟨_, _, rfl, rfl, h⟩

theorem rel_isSome {α β : Type} {r : α → β → Prop} {x : Option α} {y : Option β}
    (h : Option.Rel r x y) : x.isSome = y.isSome := by
  cases h with
  | none | some => rfl

section Shows

variable {α : Type} {d : SharedTables} {names : Array Handle} {v : PoolDirectory} {a b : Address}
  {h x : Handle} {pool : PoolId}

/-- Cell `a` is named `h`. -/
def Named (names : Array Handle) (a : Address) (h : Handle) : Prop := names[a]? = some h

theorem named_push : Named (names.push x) a h ↔ a = names.size ∧ x = h ∨ Named names a h := by
  unfold Named
  rw [Array.getElem?_push]
  split_ifs with ha
  · simp [ha]
  · simp [ha]

/-- The directory `v` is the view of `d` in which the cells have these names. -/
structure Shows (d : SharedTables) (names : Array Handle) (v : PoolDirectory) : Prop where
  size : names.size = d.cells.size
  known : ∀ {a : Address} {h : Handle}, Named names a h → v.Knows h
  injective : ∀ {a b : Address} {h : Handle}, Named names a h → Named names b h → a = b
  table : ∀ {a : Address} {h : Handle}, Named names a h → v.table? h = d.table? a
  retired : ∀ {a : Address} {h : Handle}, Named names a h → v.isStale h = d.isRetired a
  fetch : ∀ pool, Option.Rel (Named names) (d.fetch? pool) (v.handle? pool)

theorem Shows.empty : Shows .empty #[] .empty where
  size := rfl
  known h := by cases h
  injective h := by cases h
  table h := by cases h
  retired h := by cases h
  fetch _ := .none

namespace Shows

variable (s : Shows d names v)
include s

theorem lt_size (ha : Named names a h) : a < d.cells.size :=
  s.size ▸ (Array.getElem?_eq_some_iff.1 ha).1

theorem fetch_iff (ha : Named names a h) : v.handle? pool = some h ↔ d.fetch? pool = some a := by
  rcases rel_cases (s.fetch pool) with ⟨hfetch, hh⟩ | ⟨b, h', hfetch, hh, hb⟩
  · simp [hfetch, hh]
  · rw [hfetch, hh, Option.some.injEq, Option.some.injEq]
    constructor
    · rintro rfl
      exact s.injective hb ha
    · rintro rfl
      exact Option.some.inj (hb.symm.trans ha)

theorem handle?_eq_none (hnew : d.fetch? pool = none) : v.handle? pool = none := by
  rcases rel_cases (s.fetch pool) with ⟨-, hh⟩ | ⟨a, h, hfetch, -⟩
  · exact hh
  · cases hnew.symm.trans hfetch

/-- The view has the table of each pool. -/
theorem live (pool : PoolId) : v.live[pool]? = (d.fetch? pool).bind d.table? := by
  rcases rel_cases (s.fetch pool) with ⟨hfetch, hh⟩ | ⟨a, h, hfetch, hh, ha⟩
  · rw [hfetch, PoolDirectory.handle?_eq_none.1 hh]
    rfl
  · rw [hfetch, ← (PoolDirectory.fresh_of_handle? hh).2.2, s.table ha]
    rfl

/-- A pool that is set up takes a new cell, which its next handle is the name of. -/
theorem opened (hnew : d.fetch? pool = none) (t : SlotTable) :
    Shows (d.opened pool t) (names.push (v.next pool)) (v.replace (v.next pool) t) where
  size := by
    unfold SharedTables.opened
    rw [Array.size_push, Array.size_push, s.size]
  known {a h} ha := by
    rcases named_push.1 ha with ⟨-, rfl⟩ | ha
    · exact .inr (PoolDirectory.handle?_opened.trans (if_pos rfl))
    · refine (s.known ha).imp (PoolDirectory.isStale_replace _ _ _ _).trans fun hh => ?_
      rw [PoolDirectory.handle?_opened, if_neg, hh]
      rintro rfl
      cases (s.handle?_eq_none hnew).symm.trans hh
  injective {a b h} ha hb := by
    have hunknown := PoolDirectory.not_knows_next (s.handle?_eq_none hnew)
    rcases named_push.1 ha with ⟨rfl, rfl⟩ | ha
    · rcases named_push.1 hb with ⟨rfl, -⟩ | hb
      · rfl
      · exact absurd (s.known hb) hunknown
    · rcases named_push.1 hb with ⟨-, rfl⟩ | hb
      · exact absurd (s.known ha) hunknown
      · exact s.injective ha hb
  table {a h} ha := by
    unfold SharedTables.table?
    rw [SharedTables.cells_opened]
    rcases named_push.1 ha with ⟨rfl, rfl⟩ | ha
    · rw [PoolDirectory.table?_replace le_rfl le_rfl, if_pos rfl, if_pos s.size]
      rfl
    · rw [PoolDirectory.table?_replace le_rfl (s.known ha).le, if_neg, if_neg (s.lt_size ha).ne]
      · exact s.table ha
      · rintro rfl
        exact PoolDirectory.not_knows_next (s.handle?_eq_none hnew) (s.known ha)
  retired {a h} ha := by
    unfold SharedTables.isRetired
    rw [SharedTables.cells_opened, PoolDirectory.isStale_replace]
    rcases named_push.1 ha with ⟨rfl, rfl⟩ | ha
    · rw [PoolDirectory.isStale_next, if_pos s.size]
      rfl
    · rw [if_neg (s.lt_size ha).ne]
      exact s.retired ha
  fetch q := by
    rw [SharedTables.fetch?_opened, PoolDirectory.handle?_opened]
    split_ifs
    · exact .some (named_push.2 (.inl ⟨s.size.symm, rfl⟩))
    · rcases rel_cases (s.fetch q) with ⟨hfetch, hh⟩ | ⟨a, h, hfetch, hh, ha⟩
      · rw [hfetch, hh]
        exact .none
      · rw [hfetch, hh]
        exact .some (named_push.2 (.inr ha))

/-- Deleting a pool renames no cell. -/
theorem delete (pool : PoolId) : Shows (d.delete pool).2 names (v.delete pool).2 where
  size := by rw [SharedTables.size_delete, s.size]
  known {a h} ha := by
    have hk := s.known ha
    unfold PoolDirectory.Knows
    rw [PoolDirectory.isStale_delete hk, PoolDirectory.handle?_delete]
    rcases hk with hstale | hh
    · exact .inl (.inl hstale)
    · by_cases hpool : pool = h.pool
      · exact .inl (.inr (hpool ▸ hh))
      · exact .inr ((if_neg hpool).trans hh)
  injective := s.injective
  table ha := by
    rw [PoolDirectory.table?_delete (s.known ha), SharedTables.table?_delete, s.table ha]
  retired {a h} ha := by
    rw [Bool.eq_iff_iff, PoolDirectory.isStale_delete (s.known ha),
      SharedTables.isRetired_delete (s.lt_size ha), s.retired ha, s.fetch_iff ha]
  fetch q := by
    rw [SharedTables.fetch?_delete, PoolDirectory.handle?_delete]
    split_ifs
    · exact .none
    · exact s.fetch q

/-- A table is replaced under the name of its cell. -/
theorem replace (ha : Named names a h) {t : SlotTable} (ht : d.table? a = some t) (t' : SlotTable) :
    Shows (d.replace a t') names (v.replace h t') where
  size := s.size.trans Array.size_modify.symm
  known {b h'} hb := by
    unfold PoolDirectory.Knows
    rw [PoolDirectory.isStale_replace, PoolDirectory.handle?_replace (s.known ha)]
    exact s.known hb
  injective := s.injective
  table {b h'} hb := by
    rw [PoolDirectory.table?_replace (s.known ha).le (s.known hb).le,
      SharedTables.table?_replace ht, s.table hb]
    refine if_congr ⟨?_, ?_⟩ rfl rfl
    · rintro rfl
      exact s.injective ha hb
    · rintro rfl
      exact Option.some.inj (ha.symm.trans hb)
  retired hb := by
    rw [PoolDirectory.isStale_replace, SharedTables.isRetired_replace, s.retired hb]
  fetch q := by
    rw [PoolDirectory.handle?_replace (s.known ha)]
    exact s.fetch q

/-- What is run on a table answers alike, and is seen in the view. -/
theorem onTable (ha : Named names a h) (f : SlotTable → α × SlotTable) :
    Option.Rel (fun r r' => r.1 = r'.1 ∧ Shows r.2 names r'.2) (d.onTable a f) (v.onHandle h f) := by
  rw [SharedTables.onTable_eq, PoolDirectory.onHandle_eq, s.table ha]
  rcases ht : d.table? a with _ | t
  · exact .none
  · exact .some ⟨rfl, s.replace ha ht _⟩

theorem onFresh (ha : Named names a h) (f : SlotTable → α × SlotTable) :
    Option.Rel (fun r r' => r.1 = r'.1 ∧ Shows r.2 names r'.2) (d.onFresh a f) (v.onFresh h f) := by
  unfold SharedTables.onFresh PoolDirectory.onFresh
  rw [s.retired ha]
  split_ifs
  · exact .none
  · exact s.onTable ha f

/-- Both set up a pool, or both refuse to. The cells that were there keep their names. -/
theorem init (pool : PoolId) (capacity : Nat) (strategy : Strategy) :
    (d.init pool capacity strategy).1 = (v.init pool capacity strategy).1 ∧
      ∃ names', (∀ {a h}, Named names a h → Named names' a h) ∧
        Shows (d.init pool capacity strategy).2 names' (v.init pool capacity strategy).2 := by
  rcases rel_cases (s.fetch pool) with ⟨hfetch, hh⟩ | ⟨a, h, hfetch, hh, -⟩
  · have hlive := PoolDirectory.handle?_eq_none.1 hh
    rcases hcreate : SlotTable.create capacity strategy with err | t
    · rw [SharedTables.init_of_error hfetch hcreate, PoolDirectory.init_of_error hlive hcreate]
      exact ⟨rfl, names, id, s⟩
    · rw [SharedTables.init_of_create hfetch hcreate, PoolDirectory.init_of_create hlive hcreate]
      exact ⟨rfl, _, fun ha => named_push.2 (.inr ha), s.opened hfetch t⟩
  · obtain ⟨t, hlive⟩ := (PoolDirectory.handle?_eq_some.1 hh).2
    rw [SharedTables.init_of_entered hfetch, PoolDirectory.init_of_some hlive]
    exact ⟨rfl, names, id, s⟩

theorem delete_fst (pool : PoolId) : (d.delete pool).1 = (v.delete pool).1 := by
  rcases rel_cases (s.fetch pool) with ⟨hfetch, hh⟩ | ⟨a, h, hfetch, hh, -⟩
  · rw [PoolDirectory.delete_of_none (PoolDirectory.handle?_eq_none.1 hh)]
    simp only [SharedTables.delete, hfetch]
  · obtain ⟨t, hlive⟩ := (PoolDirectory.handle?_eq_some.1 hh).2
    rw [PoolDirectory.delete_of_some hlive]
    simp only [SharedTables.delete, hfetch]

theorem mem_iff (pool : PoolId) : pool ∈ d.entered ↔ pool ∈ v.live := by
  rw [mem_iff_lookup, mem_iff_lookup]
  rcases rel_cases (s.fetch pool) with ⟨hfetch, hh⟩ | ⟨a, h, hfetch, hh, -⟩
  · refine iff_of_false ?_ ?_
    · rintro ⟨a, ha⟩
      cases hfetch.symm.trans ha
    · rintro ⟨t, ht⟩
      cases (PoolDirectory.handle?_eq_none.1 hh).symm.trans ht
  · exact iff_of_true ⟨a, hfetch⟩ (PoolDirectory.handle?_eq_some.1 hh).2

/-- What is asked about the pools is answered alike. -/
theorem asked : d.ids = v.ids ∧ d.size = v.size ∧ ∀ pool, d.contains pool = v.contains pool ∧
    d.capacity? pool = v.capacity? pool ∧ d.snapshot pool = v.snapshot pool := by
  have hkeys : d.entered.keys = v.live.keys := keys_congr s.mem_iff
  refine ⟨hkeys, ?_, fun pool => ⟨?_, ?_, ?_⟩⟩
  · unfold SharedTables.size PoolDirectory.size
    rw [← Std.ExtTreeMap.length_keys, hkeys, Std.ExtTreeMap.length_keys]
  · rw [Bool.eq_iff_iff]
    exact s.mem_iff pool
  · unfold SharedTables.capacity? PoolDirectory.capacity?
    rw [s.live]
  · unfold SharedTables.snapshot PoolDirectory.snapshot
    rcases ht : (d.fetch? pool).bind d.table? with _ | t
    · simp only [s.live, ht]
    · simp only [s.live, ht]

end Shows

end Shows

/-- What can be asked of a directory by someone who keeps handles under names of their own. The
functions that are run on tables are arbitrary. -/
inductive NamedCall (α : Type) where
  | init (pool : PoolId) (capacity : Nat) (strategy : Strategy)
  | delete (pool : PoolId)
  | keep (name : String) (pool : PoolId)
  | ask (pool : PoolId)
  | list
  | check (name : String)
  | write (name : String) (f : SlotTable → α × SlotTable)
  | act (name : String) (f : SlotTable → α × SlotTable)

inductive NamedReply (α : Type) where
  | setUp (answer : Except AllocError Bool)
  | done (answer : Bool)
  | pool (there : Bool) (capacity : Option Nat) (listing : Snapshot)
  | pools (ids : List PoolId) (size : Nat)
  | retired (answer : Option Bool)
  | ran (answer : Option α)

/-- The operations of a directory `δ` with handles `η`. -/
structure Directory (α δ η : Type) where
  empty : δ
  init : δ → PoolId → Nat → Strategy → Except AllocError Bool × δ
  delete : δ → PoolId → Bool × δ
  fetch? : δ → PoolId → Option η
  contains : δ → PoolId → Bool
  capacity? : δ → PoolId → Option Nat
  snapshot : δ → PoolId → Snapshot
  ids : δ → List PoolId
  size : δ → Nat
  isRetired : δ → η → Bool
  onTable : δ → η → (SlotTable → α × SlotTable) → Option (α × δ)
  onFresh : δ → η → (SlotTable → α × SlotTable) → Option (α × δ)

/-- A directory, and the handles that are kept. -/
structure Desk (δ η : Type) where
  tables : δ
  kept : String → Option η

namespace Directory

variable {α δ η : Type}

def ran (s : Desk δ η) : Option (α × δ) → NamedReply α × Desk δ η
  | none => (.ran none, s)
  | some r => (.ran (some r.1), { s with tables := r.2 })

def reply (D : Directory α δ η) (s : Desk δ η) : NamedCall α → NamedReply α × Desk δ η
  | .init pool capacity strategy =>
    let r := D.init s.tables pool capacity strategy
    (.setUp r.1, { s with tables := r.2 })
  | .delete pool =>
    let r := D.delete s.tables pool
    (.done r.1, { s with tables := r.2 })
  | .keep name pool =>
    let r := D.fetch? s.tables pool
    (.done r.isSome, { s with kept := Function.update s.kept name r })
  | .ask pool =>
    (.pool (D.contains s.tables pool) (D.capacity? s.tables pool) (D.snapshot s.tables pool), s)
  | .list => (.pools (D.ids s.tables) (D.size s.tables), s)
  | .check name => (.retired ((s.kept name).map (D.isRetired s.tables)), s)
  | .write name f => ran s ((s.kept name).bind fun h => D.onTable s.tables h f)
  | .act name f => ran s ((s.kept name).bind fun h => D.onFresh s.tables h f)

/-- The replies to one call after the other. -/
def replies (D : Directory α δ η) : Desk δ η → List (NamedCall α) → List (NamedReply α)
  | _, [] => []
  | s, c :: calls =>
    let r := D.reply s c
    r.1 :: D.replies r.2 calls

def run (D : Directory α δ η) (calls : List (NamedCall α)) : List (NamedReply α) :=
  D.replies ⟨D.empty, fun _ => none⟩ calls

/-- Tables in cells, with addresses for handles. -/
def shared (α : Type) : Directory α SharedTables Address where
  empty := .empty
  init := SharedTables.init
  delete := SharedTables.delete
  fetch? := SharedTables.fetch?
  contains := SharedTables.contains
  capacity? := SharedTables.capacity?
  snapshot := SharedTables.snapshot
  ids := SharedTables.ids
  size := SharedTables.size
  isRetired := SharedTables.isRetired
  onTable := SharedTables.onTable
  onFresh := SharedTables.onFresh

/-- The directory that an engine works on. -/
def counted (α : Type) : Directory α PoolDirectory Handle where
  empty := .empty
  init := PoolDirectory.init
  delete := PoolDirectory.delete
  fetch? := PoolDirectory.handle?
  contains := PoolDirectory.contains
  capacity? := PoolDirectory.capacity?
  snapshot := PoolDirectory.snapshot
  ids := PoolDirectory.ids
  size := PoolDirectory.size
  isRetired := PoolDirectory.isStale
  onTable := PoolDirectory.onHandle
  onFresh := PoolDirectory.onFresh

end Directory

section Desk

variable {α : Type} {names : Array Handle} {s : Desk SharedTables Address}
  {s' : Desk PoolDirectory Handle}

/-- The same handles are kept, up to the names of the cells. -/
structure Desk.Shows (s : Desk SharedTables Address) (names : Array Handle)
    (s' : Desk PoolDirectory Handle) : Prop where
  tables : IndexPools.Shows s.tables names s'.tables
  kept : ∀ name, Option.Rel (Named names) (s.kept name) (s'.kept name)

/-- What is run through a kept handle is answered alike. -/
theorem Desk.Shows.ran (h : s.Shows names s') (name : String)
    {run : Address → Option (α × SharedTables)} {run' : Handle → Option (α × PoolDirectory)}
    (hrun : ∀ {a x}, Named names a x → Option.Rel
      (fun r r' => r.1 = r'.1 ∧ IndexPools.Shows r.2 names r'.2) (run a) (run' x)) :
    (Directory.ran s ((s.kept name).bind run)).1 =
        (Directory.ran s' ((s'.kept name).bind run')).1 ∧
      (Directory.ran s ((s.kept name).bind run)).2.Shows names
        (Directory.ran s' ((s'.kept name).bind run')).2 := by
  rcases rel_cases (h.kept name) with ⟨hs, hs'⟩ | ⟨a, x, hs, hs', hx⟩
  · rw [hs, hs']
    exact ⟨rfl, h⟩
  · rw [hs, hs', Option.bind_some, Option.bind_some]
    rcases rel_cases (hrun hx) with ⟨hr, hr'⟩ | ⟨r, r', hr, hr', hanswer, hshows⟩
    · rw [hr, hr']
      exact ⟨rfl, h⟩
    · rw [hr, hr']
      exact ⟨congrArg (fun y => NamedReply.ran (some y)) hanswer, hshows, h.kept⟩

/-- One call is answered alike, and leaves what is alike. -/
theorem Desk.Shows.reply (h : s.Shows names s') (c : NamedCall α) :
    ((Directory.shared α).reply s c).1 = ((Directory.counted α).reply s' c).1 ∧
      ∃ names', ((Directory.shared α).reply s c).2.Shows names'
        ((Directory.counted α).reply s' c).2 := by
  cases c with
  | init pool capacity strategy =>
    obtain ⟨hanswer, names', hnames, hshows⟩ := h.tables.init pool capacity strategy
    refine ⟨congrArg NamedReply.setUp hanswer, names', hshows, fun name => ?_⟩
    rcases rel_cases (h.kept name) with ⟨hs, hs'⟩ | ⟨a, x, hs, hs', hx⟩
    · exact hs ▸ hs' ▸ .none
    · exact hs ▸ hs' ▸ .some (hnames hx)
  | delete pool =>
    exact ⟨congrArg NamedReply.done (h.tables.delete_fst pool), names, h.tables.delete pool, h.kept⟩
  | keep name pool =>
    have hfetch := h.tables.fetch pool
    refine ⟨congrArg NamedReply.done (rel_isSome hfetch), names, h.tables, fun name' => ?_⟩
    by_cases hname : name' = name
    · subst hname
      simpa [Directory.reply, Directory.shared, Directory.counted] using hfetch
    · simpa [Directory.reply, hname] using h.kept name'
  | ask pool =>
    obtain ⟨hcontains, hcapacity, hsnapshot⟩ := h.tables.asked.2.2 pool
    refine ⟨?_, names, h⟩
    simp only [Directory.reply, Directory.shared, Directory.counted, hcontains, hcapacity, hsnapshot]
  | list =>
    obtain ⟨hids, hsize, -⟩ := h.tables.asked
    refine ⟨?_, names, h⟩
    simp only [Directory.reply, Directory.shared, Directory.counted, hids, hsize]
  | check name =>
    refine ⟨congrArg NamedReply.retired ?_, names, h⟩
    rcases rel_cases (h.kept name) with ⟨hs, hs'⟩ | ⟨a, x, hs, hs', hx⟩
    · rw [hs, hs']
      rfl
    · rw [hs, hs']
      exact congrArg some (h.tables.retired hx).symm
  | write name f =>
    obtain ⟨hanswer, hshows⟩ := h.ran name fun hx => h.tables.onTable hx f
    exact ⟨hanswer, names, hshows⟩
  | act name f =>
    obtain ⟨hanswer, hshows⟩ := h.ran name fun hx => h.tables.onFresh hx f
    exact ⟨hanswer, names, hshows⟩

theorem Desk.Shows.replies (h : s.Shows names s') (calls : List (NamedCall α)) :
    (Directory.shared α).replies s calls = (Directory.counted α).replies s' calls := by
  induction calls generalizing s s' names with
  | nil => rfl
  | cons c calls ih =>
    obtain ⟨hanswer, names', hshows⟩ := h.reply c
    exact congrArg₂ List.cons hanswer (ih hshows)

/-- Whoever keeps handles cannot tell tables in cells from tables that are counted: whatever they ask
and run, one call after the other, they are given the same replies. -/
theorem replies_eq (calls : List (NamedCall α)) :
    (Directory.shared α).run calls = (Directory.counted α).run calls :=
  Desk.Shows.replies ⟨.empty, fun _ => .none⟩ calls

end Desk

end IndexPools
