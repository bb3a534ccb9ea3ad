import IndexPools.SharedTables
import IndexPools.Proofs.Chain
import IndexPools.Proofs.Lookup

/-!
# Handles

A pool is entered with the address of a cell of its own, which is not retired
(`SharedTables.Sound`). A handle that was fetched is the address that its pool is entered with, until
the pool is deleted, and then its cell is retired for good (`Fetched.stays`). So two handles are the
same address just if they were fetched from one pool in one lifetime of it (`Fetched.eq_iff`), a pool
that is set up takes an address that no handle has, and no write through a retired handle reaches a
pool (`handles_of_dealings`).
-/

namespace IndexPools

namespace SharedTables

variable {α : Type} {d : SharedTables} {a b : Address} {pool q : PoolId} {t : SlotTable}

/-- Each pool that is entered has a cell for itself alone, which is not retired. -/
structure Sound (d : SharedTables) : Prop where
  fresh : ∀ {pool : PoolId} {a : Address}, d.fetch? pool = some a →
    ∃ t, d.cells[a]? = some ⟨t, false⟩
  distinct : ∀ {p q : PoolId} {a : Address}, d.fetch? p = some a → d.fetch? q = some a → p = q

/-- The tables after the one in cell `a` became `t`. -/
def replace (d : SharedTables) (a : Address) (t : SlotTable) : SharedTables :=
  { d with cells := d.cells.modify a fun c => { c with table := t } }

theorem table?_eq_some : d.table? a = some t ↔ ∃ retired, d.cells[a]? = some ⟨t, retired⟩ := by
  unfold table?
  rw [Option.map_eq_some_iff]
  exact ⟨fun ⟨⟨_, retired⟩, hc, ht⟩ => ⟨retired, ht ▸ hc⟩, fun ⟨retired, hc⟩ => ⟨_, hc, rfl⟩⟩

/-- To run a function on a table is to read the table and to replace it. -/
theorem onTable_eq (d : SharedTables) (a : Address) (f : SlotTable → α × SlotTable) :
    d.onTable a f = (d.table? a).map fun t => ((f t).1, d.replace a (f t).2) := by
  unfold onTable
  rcases d.table? a with _ | t <;> rfl

/-- What is written to a cell is read from that cell only. -/
theorem table?_replace (ht : d.table? a = some t) (t' : SlotTable) (b : Address) :
    (d.replace a t').table? b = if a = b then some t' else d.table? b := by
  obtain ⟨retired, hc⟩ := table?_eq_some.1 ht
  unfold replace table?
  rw [Array.getElem?_modify]
  split_ifs with hab
  · rw [← hab, hc]
    rfl
  · rfl

theorem isRetired_replace (d : SharedTables) (a : Address) (t : SlotTable) (b : Address) :
    (d.replace a t).isRetired b = d.isRetired b := by
  unfold replace isRetired
  rw [Array.getElem?_modify]
  split_ifs
  · rcases d.cells[b]? with _ | c <;> rfl
  · rfl

theorem contains_eq (d : SharedTables) (pool : PoolId) :
    d.contains pool = (d.fetch? pool).isSome :=
  Std.ExtTreeMap.contains_eq_isSome_getElem?

theorem init_of_entered (hentered : d.fetch? pool = some a) (capacity : Nat) (strategy : Strategy) :
    d.init pool capacity strategy = (.ok false, d) := by
  unfold init
  rw [contains_eq, hentered]
  rfl

theorem init_of_error (hnew : d.fetch? pool = none) {capacity : Nat} {strategy : Strategy}
    {err : AllocError} (hcreate : SlotTable.create capacity strategy = .error err) :
    d.init pool capacity strategy = (.error err, d) := by
  unfold init
  rw [contains_eq, hnew, hcreate]
  rfl

/-- The tables after `pool` was entered with the new table `t`. -/
def opened (d : SharedTables) (pool : PoolId) (t : SlotTable) : SharedTables :=
  { cells := d.cells.push ⟨t, false⟩
    entered := d.entered.insert pool d.cells.size }

theorem init_of_create (hnew : d.fetch? pool = none) {capacity : Nat} {strategy : Strategy}
    (hcreate : SlotTable.create capacity strategy = .ok t) :
    d.init pool capacity strategy = (.ok true, d.opened pool t) := by
  unfold init
  rw [contains_eq, hnew, hcreate]
  rfl

theorem fetch?_opened :
    (d.opened pool t).fetch? q = if pool = q then some d.cells.size else d.fetch? q :=
  lookup_insert _ _ _ _

theorem cells_opened : (d.opened pool t).cells[a]? =
    if a = d.cells.size then some ⟨t, false⟩ else d.cells[a]? :=
  Array.getElem?_push

theorem fetch?_delete : (d.delete pool).2.fetch? q = if pool = q then none else d.fetch? q := by
  unfold delete
  rcases hentered : d.fetch? pool with _ | a
  · split_ifs with hq
    · rw [← hq]
      exact hentered
    · rfl
  · exact lookup_erase _ _ _

/-- Deleting a pool leaves all tables as they are, and retires its own. -/
theorem cells_delete : (d.delete pool).2.cells[a]? =
    if d.fetch? pool = some a then d.cells[a]?.map fun c => { c with retired := true }
    else d.cells[a]? := by
  unfold delete
  rcases d.fetch? pool with _ | b
  · rfl
  · simp only [Option.some.injEq]
    exact Array.getElem?_modify

theorem size_delete : (d.delete pool).2.cells.size = d.cells.size := by
  unfold delete
  rcases d.fetch? pool with _ | a
  · rfl
  · exact Array.size_modify

theorem table?_delete (d : SharedTables) (pool : PoolId) (a : Address) :
    (d.delete pool).2.table? a = d.table? a := by
  unfold table?
  rw [cells_delete]
  split_ifs
  · rcases d.cells[a]? with _ | c <;> rfl
  · rfl

theorem isRetired_delete (ha : a < d.cells.size) : (d.delete pool).2.isRetired a = true ↔
    d.isRetired a = true ∨ d.fetch? pool = some a := by
  unfold isRetired
  rw [cells_delete]
  split_ifs with hentered
  · simp [hentered, Array.getElem?_eq_getElem ha]
  · simp [hentered]

theorem sound_empty : empty.Sound where
  fresh h := by simp [fetch?, empty] at h
  distinct h := by simp [fetch?, empty] at h

namespace Sound

variable (h : d.Sound)
include h

theorem lt_size (hentered : d.fetch? pool = some a) : a < d.cells.size := by
  obtain ⟨t, hc⟩ := h.fresh hentered
  exact (Array.getElem?_eq_some_iff.1 hc).1

/-- The table of a pool that is entered is not retired. -/
theorem not_retired (hentered : d.fetch? pool = some a) :
    d.isRetired a = false ∧ ∃ t, d.table? a = some t := by
  obtain ⟨t, hc⟩ := h.fresh hentered
  exact ⟨by simp [isRetired, hc], t, table?_eq_some.2 ⟨false, hc⟩⟩

theorem opened (pool : PoolId) (t : SlotTable) : (d.opened pool t).Sound where
  fresh {q a} hentered := by
    rw [fetch?_opened] at hentered
    split_ifs at hentered
    · cases hentered
      exact ⟨t, cells_opened.trans (if_pos rfl)⟩
    · rw [cells_opened, if_neg (h.lt_size hentered).ne]
      exact h.fresh hentered
  distinct {p q a} hp hq := by
    rw [fetch?_opened] at hp hq
    -- the new address lies behind all that pools are entered with
    split_ifs at hp hq with hpool hpool'
    · exact hpool.symm.trans hpool'
    · cases hp
      exact absurd (h.lt_size hq) (lt_irrefl _)
    · cases hq
      exact absurd (h.lt_size hp) (lt_irrefl _)
    · exact h.distinct hp hq

theorem delete (pool : PoolId) : (d.delete pool).2.Sound where
  fresh {q a} hentered := by
    rw [fetch?_delete] at hentered
    split_ifs at hentered with hq
    rw [cells_delete, if_neg fun hpool => hq (h.distinct hpool hentered)]
    exact h.fresh hentered
  distinct {p q a} hp hq := by
    rw [fetch?_delete] at hp hq
    split_ifs at hp hq
    exact h.distinct hp hq

theorem replace (a : Address) (t : SlotTable) : (d.replace a t).Sound where
  fresh {q b} hentered := by
    obtain ⟨t', hc⟩ := h.fresh hentered
    unfold SharedTables.replace
    rw [Array.getElem?_modify, hc]
    split_ifs
    · exact ⟨t, rfl⟩
    · exact ⟨t', rfl⟩
  distinct hp hq := h.distinct hp hq

end Sound

end SharedTables

/-- The operations on pools, and on the tables that handles lead to. -/
inductive DirectoryCall where
  | init (pool : PoolId) (capacity : Nat) (strategy : Strategy)
  | delete (pool : PoolId)
  | fetch (pool : PoolId)
  | ask (pool : PoolId)
  | insert (a : Address) (key owner : String) (tags : Option Tags)
  | remove (a : Address) (key : String)
deriving DecidableEq

section

variable (hash : String → UInt64)

namespace DirectoryCall

/-- The tables after the call; to fetch a handle, or to ask whether a pool is set up, for its keys or
its capacity, changes nothing. -/
def apply (d : SharedTables) : DirectoryCall → SharedTables
  | .init pool capacity strategy => (d.init pool capacity strategy).2
  | .delete pool => (d.delete pool).2
  | .fetch _ | .ask _ => d
  | .insert a key owner tags =>
    ((d.onTable a fun t => t.insert hash key owner tags).map Prod.snd).getD d
  | .remove a key => ((d.onTable a fun t => t.delete hash key).map Prod.snd).getD d

/-- The handle that the call writes through, with what it makes of the table. -/
def write? : DirectoryCall → Option (Address × (SlotTable → SlotTable))
  | .insert a key owner tags => some (a, fun t => (t.insert hash key owner tags).2)
  | .remove a key => some (a, fun t => (t.delete hash key).2)
  | .init _ _ _ | .delete _ | .fetch _ | .ask _ => none

end DirectoryCall

/-- The histories of a directory: the calls with the tables that they met, the last first. -/
inductive Dealings : (past : List (SharedTables × DirectoryCall)) → SharedTables → Prop
  | start : Dealings [] .empty
  | call {past : List (SharedTables × DirectoryCall)} {d : SharedTables}
      (before : Dealings past d) (c : DirectoryCall) : Dealings ((d, c) :: past) (c.apply hash d)

end

/-- The handle was fetched from the pool right before the calls `since`. -/
def Fetched (a : Address) (pool : PoolId) (past since : List (SharedTables × DirectoryCall)) :
    Prop :=
  ∃ d earlier, past = since ++ (d, .fetch pool) :: earlier ∧ d.fetch? pool = some a

section

variable {hash : String → UInt64} {d : SharedTables} {a a₁ a₂ : Address} {pool p q : PoolId}
  {past since later between : List (SharedTables × DirectoryCall)} {c : DirectoryCall}
  {f : SlotTable → SlotTable}

namespace DirectoryCall

/-- A write through a handle replaces the handle's table, if there is one. -/
theorem apply_of_write (hwrite : c.write? hash = some (a, f)) :
    c.apply hash d = ((d.table? a).map fun t => d.replace a (f t)).getD d := by
  cases c with
  | insert => cases hwrite; simp only [apply, SharedTables.onTable_eq, Option.map_map]; rfl
  | remove => cases hwrite; simp only [apply, SharedTables.onTable_eq, Option.map_map]; rfl
  | init | delete | fetch | ask => cases hwrite

/-- What a call can do: nothing, or to set a pool up, to delete one, or to replace a table. -/
theorem apply_cases (hash : String → UInt64) (d : SharedTables) (c : DirectoryCall) :
    c.apply hash d = d ∨
      (∃ pool t, d.fetch? pool = none ∧ c.apply hash d = d.opened pool t) ∨
      (∃ pool, c = .delete pool ∧ c.apply hash d = (d.delete pool).2) ∨
      ∃ a t, c.apply hash d = d.replace a t := by
  have hwrites : ∀ {a f}, c.write? hash = some (a, f) →
      c.apply hash d = d ∨ ∃ a t, c.apply hash d = d.replace a t := by
    intro a f hwrite
    rw [apply_of_write hwrite]
    rcases d.table? a with _ | t
    · exact .inl rfl
    · exact .inr ⟨a, f t, rfl⟩
  cases c with
  | init pool capacity strategy =>
    rcases hnew : d.fetch? pool with _ | a
    · rcases hcreate : SlotTable.create capacity strategy with err | t
      · exact .inl (congrArg Prod.snd (SharedTables.init_of_error hnew hcreate))
      · exact .inr (.inl ⟨pool, t, hnew, congrArg Prod.snd (SharedTables.init_of_create hnew hcreate)⟩)
    · exact .inl (congrArg Prod.snd (SharedTables.init_of_entered hnew capacity strategy))
  | delete pool => exact .inr (.inr (.inl ⟨pool, rfl, rfl⟩))
  | fetch | ask => exact .inl rfl
  | insert => exact (hwrites rfl).imp_right fun hreplace => .inr (.inr hreplace)
  | remove => exact (hwrites rfl).imp_right fun hreplace => .inr (.inr hreplace)

theorem capacity_of_write (hwrite : c.write? hash = some (a, f)) (t : SlotTable) :
    (f t).capacity = t.capacity := by
  cases c with
  | insert => cases hwrite; exact t.capacity_insert hash _ _ _
  | remove => cases hwrite; exact t.capacity_delete hash _
  | init | delete | fetch | ask => cases hwrite

end DirectoryCall

theorem SharedTables.Sound.apply (h : d.Sound) (c : DirectoryCall) : (c.apply hash d).Sound := by
  rcases c.apply_cases hash d with hsame | ⟨pool, t, -, hopened⟩ | ⟨pool, -, hdeleted⟩ |
    ⟨a, t, hreplaced⟩
  · rwa [hsame]
  · exact hopened ▸ h.opened pool t
  · exact hdeleted ▸ h.delete pool
  · exact hreplaced ▸ h.replace a t

theorem Dealings.sound (dealings : Dealings hash past d) : d.Sound := by
  induction dealings with
  | start => exact SharedTables.sound_empty
  | call _ c ih => exact ih.apply c

theorem Dealings.suffix : ∀ {later past : List (SharedTables × DirectoryCall)} {d : SharedTables},
    Dealings hash (later ++ past) d → ∃ d', Dealings hash past d'
  | [], _, d, dealings => ⟨d, dealings⟩
  | _ :: _, _, _, .call before _ => before.suffix

namespace DirectoryCall

/-- No cell is given up. -/
theorem size_le (hash : String → UInt64) (d : SharedTables) (c : DirectoryCall) :
    d.cells.size ≤ (c.apply hash d).cells.size := by
  rcases c.apply_cases hash d with hsame | ⟨pool, t, -, hopened⟩ | ⟨pool, -, hdeleted⟩ |
    ⟨a, t, hreplaced⟩
  · rw [hsame]
  · rw [hopened, SharedTables.opened, Array.size_push]
    exact Nat.le_succ _
  · rw [hdeleted, SharedTables.size_delete]
  · rw [hreplaced, SharedTables.replace, Array.size_modify]

/-- A call that deletes no pool retires no table, and leaves every pool where it is entered. -/
theorem apply_of_ne (hash : String → UInt64) (pool : PoolId) (hc : ∀ q, c ≠ .delete q)
    (ha : a < d.cells.size) : (c.apply hash d).isRetired a = d.isRetired a ∧
      (d.fetch? pool = some a → (c.apply hash d).fetch? pool = some a) := by
  rcases c.apply_cases hash d with hsame | ⟨q, t, hnew, hopened⟩ | ⟨q, hdelete, -⟩ |
    ⟨b, t, hreplaced⟩
  · rw [hsame]
    exact ⟨rfl, id⟩
  · rw [hopened]
    refine ⟨?_, fun hentered => ?_⟩
    · unfold SharedTables.isRetired
      rw [SharedTables.cells_opened, if_neg ha.ne]
    · rw [SharedTables.fetch?_opened, if_neg]
      · exact hentered
      · rintro rfl
        cases hnew.symm.trans hentered
  · exact absurd hdelete (hc q)
  · rw [hreplaced]
    exact ⟨SharedTables.isRetired_replace _ _ _ _, id⟩

end DirectoryCall

/-- The cell of a fetched handle stays, and is retired just by the deletion of the pool. Until then
the pool is entered with the handle. -/
theorem Fetched.stays (hf : Fetched a pool past since) (dealings : Dealings hash past d) :
    a < d.cells.size ∧ (d.isRetired a = true ↔ ∃ x ∈ since, x.2 = .delete pool) ∧
      (d.isRetired a = false → d.fetch? pool = some a) := by
  obtain ⟨d₀, earlier, rfl, hh⟩ := hf
  induction since generalizing d with
  | nil =>
    cases dealings with
    | call before =>
      have hs := before.sound
      refine ⟨hs.lt_size hh, ?_, fun _ => hh⟩
      simpa [DirectoryCall.apply] using (hs.not_retired hh).1
  | cons x since ih =>
    cases dealings with
    | @call _ d before c =>
      obtain ⟨ha, hretired, hentered⟩ := ih before
      refine ⟨ha.trans_le (c.size_le hash d), ?_⟩
      simp only [List.mem_cons, exists_eq_or_imp, ← hretired]
      by_cases hc : ∃ q, c = .delete q
      · obtain ⟨q, rfl⟩ := hc
        have hiff : ((d.delete q).2.isRetired a = true ↔ _) := SharedTables.isRetired_delete ha
        simp only [DirectoryCall.apply, DirectoryCall.delete.injEq]
        by_cases hq : q = pool
        · have hnow : (d.delete q).2.isRetired a = true := by
            rw [hiff, ← Bool.not_eq_false, hq]
            exact or_iff_not_imp_left.2 fun h => hentered (not_not.1 h)
          exact ⟨iff_of_true hnow (.inl hq), fun hfresh => absurd hnow (by simp [hfresh])⟩
        · -- another pool is entered with another address
          have hother : d.fetch? q ≠ some a := by
            intro hq'
            have hfresh := (before.sound.not_retired hq').1
            exact hq (before.sound.distinct hq' (hentered hfresh))
          rw [SharedTables.fetch?_delete, if_neg hq, ← Bool.not_eq_true, hiff]
          simp only [hother, or_false, hq, false_or, true_and]
          exact fun h => hentered (Bool.not_eq_true _ ▸ h)
      · rw [not_exists] at hc
        obtain ⟨hsame, hkept⟩ := DirectoryCall.apply_of_ne hash pool hc ha
        rw [hsame]
        exact ⟨by simp [hc], fun hfresh => hkept (hentered hfresh)⟩

/-- Two handles are the same just if they were fetched from one pool in one lifetime of it. -/
theorem Fetched.eq_iff (h₂ : Fetched a₂ q past later) (h₁ : Fetched a₁ p past (later ++ between))
    (dealings : Dealings hash past d) : a₁ = a₂ ↔ p = q ∧ ∀ x ∈ between, x.2 ≠ .delete p := by
  obtain ⟨d₂, earlier, rfl, hh₂⟩ := h₂
  obtain ⟨d₁, earlier₁, hpast, hh₁⟩ := h₁
  rw [List.append_assoc] at hpast
  obtain ⟨d', dealings'⟩ := dealings.suffix
  cases dealings' with
  | call before =>
    -- what the second fetch found tells whether the first handle was retired by then
    obtain ⟨-, hretired, hentered⟩ := Fetched.stays
      ⟨d₁, earlier₁, List.append_cancel_left hpast, hh₁⟩ (before.call (.fetch q))
    obtain ⟨hfresh, -⟩ := before.sound.not_retired hh₂
    constructor
    · rintro rfl
      refine ⟨before.sound.distinct (hentered hfresh) hh₂, fun x hx hdelete => ?_⟩
      exact Bool.eq_false_iff.1 hfresh (hretired.2 ⟨x, hx, hdelete⟩)
    · rintro ⟨rfl, hkept⟩
      have hfresh₁ : d₂.isRetired a₁ = false :=
        Bool.eq_false_iff.2 fun h => by
          obtain ⟨x, hx, hdelete⟩ := hretired.1 h
          exact hkept x hx hdelete
      exact Option.some.inj ((hentered hfresh₁).symm.trans hh₂)

/-- A write changes the table of its handle alone. A pool that is entered with the handle lists what
is in that table then, every other pool what it listed before, and no capacity changes. -/
theorem SharedTables.write {t : SlotTable} (ht : d.table? a = some t)
    (hwrite : c.write? hash = some (a, f)) :
    (∀ b, (c.apply hash d).table? b = if a = b then some (f t) else d.table? b) ∧
      (∀ q, (c.apply hash d).capacity? q = d.capacity? q) ∧
      ∀ q, (c.apply hash d).snapshot q =
        if d.fetch? q = some a then (f t).snapshot else d.snapshot q := by
  rw [DirectoryCall.apply_of_write hwrite, ht]
  have htables : ∀ b, (d.replace a (f t)).table? b = if a = b then some (f t) else d.table? b :=
    table?_replace ht (f t)
  have hfetch : ∀ q, (d.replace a (f t)).fetch? q = d.fetch? q := fun _ => rfl
  simp only [Option.map_some, Option.getD_some]
  refine ⟨htables, fun q => ?_, fun q => ?_⟩
  · unfold capacity?
    rw [hfetch]
    rcases d.fetch? q with _ | b
    · rfl
    · simp only [Option.bind_some, htables]
      split_ifs with hb
      · rw [← hb, ht, Option.map_some, Option.map_some, DirectoryCall.capacity_of_write hwrite]
      · rfl
  · unfold snapshot
    rw [hfetch]
    rcases d.fetch? q with _ | b
    · rfl
    · simp only [Option.bind_some, htables, Option.some.injEq, eq_comm (a := a)]
      split_ifs <;> rfl

/-- After any history of a directory, a kept handle is retired just if its pool was deleted since it
was fetched, and the handle that a pool is entered with is not. What is written through a handle
changes its table alone, and so the listing of its pool alone, and of none if it is retired. Two
handles are one address just if they were fetched from one pool in one lifetime of it. Setting up a
pool that is entered, or with what a table refuses, changes nothing, and a pool that is not entered,
as after its deletion, is entered with an empty table as it is asked for, at an address that no
handle has. -/
theorem handles_of_dealings (dealings : Dealings hash past d) :
    (∀ a pool since, Fetched a pool past since →
      (d.isRetired a = true ↔ ∃ x ∈ since, x.2 = .delete pool) ∧
      ∀ (c : DirectoryCall) f, c.write? hash = some (a, f) → ∃ t, d.table? a = some t ∧
        (∀ b, (c.apply hash d).table? b = if a = b then some (f t) else d.table? b) ∧
        (∀ q, (c.apply hash d).capacity? q = d.capacity? q) ∧
        ∀ q, (c.apply hash d).snapshot q =
          if d.isRetired a = false ∧ pool = q then (f t).snapshot else d.snapshot q) ∧
    (∀ pool a, d.fetch? pool = some a → d.isRetired a = false ∧ ∃ t, d.table? a = some t) ∧
    (∀ a₁ a₂ p q later between, Fetched a₂ q past later → Fetched a₁ p past (later ++ between) →
      (a₁ = a₂ ↔ p = q ∧ ∀ x ∈ between, x.2 ≠ .delete p)) ∧
    ∀ pool capacity strategy,
      (∀ a, d.fetch? pool = some a → d.init pool capacity strategy = (.ok false, d)) ∧
      (∀ err, (d.init pool capacity strategy).1 = .error err →
        (d.init pool capacity strategy).2 = d) ∧
      (d.delete pool).2.fetch? pool = none ∧
      (d.fetch? pool = none → 1 ≤ capacity → capacity ≤ maxCapacity →
        ∃ d' a t, d.init pool capacity strategy = (.ok true, d') ∧
          d'.fetch? pool = some a ∧ (∀ q, q ≠ pool → d'.fetch? q = d.fetch? q) ∧
          d'.cells[a]? = some ⟨t, false⟩ ∧ (∀ b, b ≠ a → d'.cells[b]? = d.cells[b]?) ∧
          (∀ b q since, Fetched b q past since → b ≠ a) ∧
          t.capacity = capacity ∧ t.strategy = strategy ∧ t.snapshot = ⟨0, []⟩) := by
  have hs := dealings.sound
  refine ⟨fun a pool since hf => ?_, fun pool a => hs.not_retired,
    fun a₁ a₂ p q later between h₂ h₁ => h₂.eq_iff h₁ dealings, fun pool capacity strategy =>
      ⟨fun a ha => SharedTables.init_of_entered ha capacity strategy, fun err herr => ?_,
        SharedTables.fetch?_delete.trans (if_pos rfl), fun hnew hpos hmax => ?_⟩⟩
  · obtain ⟨ha, hretired, hentered⟩ := hf.stays dealings
    refine ⟨hretired, fun c f hwrite => ?_⟩
    obtain ⟨⟨t, retired⟩, hc⟩ : ∃ c, d.cells[a]? = some c := ⟨_, Array.getElem?_eq_getElem ha⟩
    have ht := SharedTables.table?_eq_some.2 ⟨retired, hc⟩
    obtain ⟨htables, hcapacity, hsnapshot⟩ := SharedTables.write ht hwrite
    refine ⟨t, ht, htables, hcapacity, fun q => (hsnapshot q).trans (if_congr ?_ rfl rfl)⟩
    -- the pool that a handle is entered for is the one that it was fetched from
    constructor
    · intro hq
      obtain ⟨hfresh, -⟩ := hs.not_retired hq
      exact ⟨hfresh, hs.distinct (hentered hfresh) hq⟩
    · rintro ⟨hfresh, rfl⟩
      exact hentered hfresh
  · rcases hfetch : d.fetch? pool with _ | a
    · rcases hcreate : SlotTable.create capacity strategy with err' | t
      · rw [SharedTables.init_of_error hfetch hcreate]
      · rw [SharedTables.init_of_create hfetch hcreate] at herr
        cases herr
    · rw [SharedTables.init_of_entered hfetch]
  · have hcreate : SlotTable.create capacity strategy =
        .ok ⟨Array.replicate capacity .unused, 0, strategy⟩ :=
      SlotTable.create_eq_ok.2 ⟨hpos, hmax, rfl⟩
    have hempty := (SlotTable.sound_of_create hcreate : SlotTable.Sound hash _ ∧ _).1.length_entries
    refine ⟨_, d.cells.size, _, SharedTables.init_of_create hnew hcreate,
      SharedTables.fetch?_opened.trans (if_pos rfl),
      fun q hq => SharedTables.fetch?_opened.trans (if_neg hq.symm),
      SharedTables.cells_opened.trans (if_pos rfl),
      fun b hb => SharedTables.cells_opened.trans (if_neg hb),
      fun b q since hf => (hf.stays dealings).1.ne, SlotTable.capacity_of_create hcreate, rfl, ?_⟩
    unfold SlotTable.snapshot
    rw [List.eq_nil_of_length_eq_zero hempty, List.map_nil]

/-- A handle that was kept over the deletion of its pool goes on writing to the table that it was
fetched for, and the pool that was set up anew lists nothing of it. -/
theorem apart_after_second_setup :
    ∃ (hash : String → UInt64) (ids : PoolId) (d : SharedTables) (old new : Address)
      (past later between : List (SharedTables × DirectoryCall)),
      Dealings hash past d ∧ Fetched new ids past later ∧ Fetched old ids past (later ++ between) ∧
        d.isRetired old = true ∧ d.isRetired new = false ∧ old ≠ new ∧
        d.snapshot ids = ⟨1, ["c"]⟩ ∧
        ((DirectoryCall.insert old "b" "x" none).apply hash d).snapshot ids = ⟨1, ["c"]⟩ ∧
        (((DirectoryCall.insert old "b" "x" none).apply hash d).table? old).map SlotTable.snapshot =
          some ⟨2, ["a", "b"]⟩ ∧
        ((DirectoryCall.insert new "b" "x" none).apply hash d).snapshot ids = ⟨2, ["b", "c"]⟩ ∧
        d.init ids 0 .hash = (.ok false, d) := by
  let hash : String → UInt64 := fun key => if key = "c" then 2 else 5
  let ids : PoolId := ⟨"net", "ids", rfl, rfl⟩
  let d₁ : SharedTables := (DirectoryCall.init ids 2 .firstAvailable).apply hash .empty
  let d₂ : SharedTables := (DirectoryCall.insert 0 "a" "x" none).apply hash d₁
  let d₃ : SharedTables := (DirectoryCall.delete ids).apply hash d₂
  let d₄ : SharedTables := (DirectoryCall.init ids 3 .hash).apply hash d₃
  let d : SharedTables := (DirectoryCall.insert 1 "c" "x" none).apply hash d₄
  let later : List (SharedTables × DirectoryCall) := [(d₄, .insert 1 "c" "x" none)]
  let between : List (SharedTables × DirectoryCall) :=
    [(d₄, .fetch ids), (d₃, .init ids 3 .hash), (d₂, .delete ids), (d₁, .insert 0 "a" "x" none)]
  let past : List (SharedTables × DirectoryCall) :=
    later ++ between ++ [(d₁, .fetch ids), (.empty, .init ids 2 .firstAvailable)]
  have dealings : Dealings hash past d :=
    ((((((Dealings.start.call (.init ids 2 .firstAvailable)).call (.fetch ids)).call
      (.insert 0 "a" "x" none)).call (.delete ids)).call (.init ids 3 .hash)).call
      (.fetch ids)).call (.insert 1 "c" "x" none)
  have hnew : Fetched 1 ids past later := ⟨d₄, _, rfl, by decide +kernel⟩
  have hold : Fetched 0 ids past (later ++ between) := ⟨d₁, _, rfl, by decide +kernel⟩
  have hdelete : (d₂, .delete ids) ∈ between := by decide +kernel
  have hlisting : d.snapshot ids = ⟨1, ["c"]⟩ := by decide +kernel
  have hentered : d.fetch? ids = some 1 := by decide +kernel
  obtain ⟨hwrites, hregistered, hsame, hsetup⟩ := handles_of_dealings dealings
  obtain ⟨hretired_iff, hwrite⟩ := hwrites 0 ids _ hold
  have hretired : d.isRetired 0 = true :=
    hretired_iff.2 ⟨_, List.mem_append_right later hdelete, rfl⟩
  have hapart : (0 : Address) ≠ 1 := fun h =>
    ((hsame 0 1 ids ids later between hnew hold).1 h).2 _ hdelete rfl
  obtain ⟨t, -, -, -, hsnapshot⟩ := hwrite (.insert 0 "b" "x" none) _ rfl
  refine ⟨hash, ids, d, 0, 1, past, later, between, dealings, hnew, hold, hretired,
    (hregistered ids 1 hentered).1, hapart, hlisting, ?_, by decide +kernel, by decide +kernel,
    (hsetup ids 0 .hash).1 1 hentered⟩
  rw [hsnapshot ids, if_neg fun hboth => Bool.eq_false_iff.1 hboth.1 hretired, hlisting]

end

end IndexPools
