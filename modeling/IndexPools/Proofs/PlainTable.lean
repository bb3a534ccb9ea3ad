import IndexPools.Proofs.Chain

/-!
# The plain table

A plain table keeps what each slot holds and nothing else: no slot is remembered as released, and
nothing is cleared when the last key leaves (`PlainTable`). It looks for a key in every slot, and
gives a new key the first free slot from the key's home on. Whatever is asked of a new table, in
whatever order, it answers as the plain one does (`answers_eq_plain`): each single answer agrees,
and what the table holds afterwards is what the plain table holds (`answer_plain`).
-/

namespace IndexPools

inductive TableCall where
  | insert (key owner : String) (tags : Option Tags)
  | delete (key : String)
  | get (key : String)
  | iter
  | snapshot
  | allocated
  | available

inductive TableAnswer where
  | placed (result : Except AllocError Placement)
  | removed (allocation : Option Allocation)
  | found (holder : Option (Nat × Allocation))
  | entries (held : List (Nat × Allocation))
  | snapshot (s : Snapshot)
  | count (n : Nat)

/-- The answers of a table to a list of calls, in order. -/
def replay {σ : Type} (answer : σ → TableCall → TableAnswer × σ) :
    σ → List TableCall → List TableAnswer
  | _, [] => []
  | s, call :: calls => (answer s call).1 :: replay answer (answer s call).2 calls

structure PlainTable where
  cells : Array (Option Allocation)
  strategy : Strategy

namespace PlainTable

def create (capacity : Nat) (strategy : Strategy) : PlainTable :=
  ⟨Array.replicate capacity none, strategy⟩

def capacity (p : PlainTable) : Nat := p.cells.size

def entries (p : PlainTable) : List (Nat × Allocation) :=
  (List.range p.capacity).filterMap fun i => p.cells[i]?.join.map fun a => (i, a)

def find? (p : PlainTable) (key : String) : Option (Nat × Allocation) :=
  p.entries.find? fun e => e.2.key = key

theorem cells_ext {cells cells' : Array (Option Allocation)} (hs : cells.size = cells'.size)
    (h : ∀ i : Nat, cells[i]?.join = cells'[i]?.join) : cells = cells' := by
  refine Array.ext hs fun i hi hi' => ?_
  have := h i
  rwa [Array.getElem?_eq_getElem hi, Array.getElem?_eq_getElem hi', Option.join_some,
    Option.join_some] at this

/-- The first free slot in the order `home`, `home + 1`, ... around the table. -/
def free? (p : PlainTable) (home : Nat) : Option Nat :=
  ((List.range p.capacity).map fun d => (home + d) % p.capacity).find? fun i =>
    p.cells[i]?.join.isNone

/-- With slot 0 as home, the first free slot is the lowest. -/
theorem lowest_of_free? {p : PlainTable} {i : Nat} (h : p.free? 0 = some i) :
    p.cells[i]?.join = none ∧ ∀ j < i, p.cells[j]?.join.isSome := by
  obtain ⟨d, hd, hi, hnone, hbefore⟩ := SlotTable.firstAround_eq_some h
  rw [Nat.zero_add, Nat.mod_eq_of_lt hd] at hi
  subst hi
  refine ⟨Option.isNone_iff_eq_none.1 hnone, fun j hj => ?_⟩
  have := hbefore j hj
  rw [Nat.zero_add, Nat.mod_eq_of_lt (by omega)] at this
  simpa using this

def snapshot (p : PlainTable) : Snapshot :=
  ⟨p.entries.length, p.entries.map fun e => e.2.key⟩

section Hash

variable (hash : String → UInt64)

def home (p : PlainTable) (key : String) : Nat :=
  match p.strategy with
  | .hash => (hash key).toNat % p.capacity
  | .firstAvailable => 0

def insert (p : PlainTable) (key owner : String) (tags : Option Tags) :
    Except AllocError Placement × PlainTable :=
  match p.find? key with
  | some (i, a) =>
    (.ok ⟨i, if a.owner = owner ∧ a.tags = tags then .existing else .conflict a.owner a.tags⟩, p)
  | none =>
    match p.free? (p.home hash key) with
    | some i =>
      (.ok ⟨i, .inserted⟩,
        { p with cells := p.cells.setIfInBounds i (some ⟨key, owner, tags⟩) })
    | none => (.error (.exhausted p.capacity), p)

def delete (p : PlainTable) (key : String) : Option Allocation × PlainTable :=
  match p.find? key with
  | some (i, a) => (some a, { p with cells := p.cells.setIfInBounds i none })
  | none => (none, p)

def answer (p : PlainTable) : TableCall → TableAnswer × PlainTable
  | .insert key owner tags => (p.insert hash key owner tags).map .placed id
  | .delete key => (p.delete key).map .removed id
  | .get key => (.found (p.find? key), p)
  | .iter => (.entries p.entries, p)
  | .snapshot => (.snapshot p.snapshot, p)
  | .allocated => (.count p.entries.length, p)
  | .available => (.count (p.capacity - p.entries.length), p)

end Hash

end PlainTable

namespace SlotTable

variable (hash : String → UInt64)

def answer (t : SlotTable) : TableCall → TableAnswer × SlotTable
  | .insert key owner tags => (t.insert hash key owner tags).map .placed id
  | .delete key => (t.delete hash key).map .removed id
  | .get key => (.found (t.get? hash key), t)
  | .iter => (.entries t.entries, t)
  | .snapshot => (.snapshot t.snapshot, t)
  | .allocated => (.count t.allocated, t)
  | .available => (.count t.available, t)

/-- What the slots hold, and nothing else. -/
def plain (t : SlotTable) : PlainTable := ⟨t.slots.map Slot.allocation?, t.strategy⟩

@[simp] theorem capacity_plain (t : SlotTable) : t.plain.capacity = t.capacity := by
  simp [plain, PlainTable.capacity, capacity]

theorem cell_plain (t : SlotTable) (i : Nat) : t.plain.cells[i]?.join = t.holder? i := by
  simp only [plain, Array.getElem?_map, holder?]
  rcases t.slots[i]? with _ | s <;> rfl

theorem entries_plain (t : SlotTable) : t.plain.entries = t.entries := by
  rw [entries_eq, PlainTable.entries]
  simp only [cell_plain, capacity_plain]

theorem free?_plain (t : SlotTable) (home : Nat) : t.plain.free? home = t.vacancy home := by
  unfold PlainTable.free? vacancy firstAround
  simp only [cell_plain, capacity_plain]

theorem home_plain (t : SlotTable) (key : String) :
    t.plain.home hash key = t.home hash key := by
  unfold PlainTable.home home
  rw [capacity_plain]
  rfl

theorem plain_put (t : SlotTable) (i : Nat) (a : Allocation) :
    (t.put i a).plain = { t.plain with cells := t.plain.cells.setIfInBounds i (some a) } := by
  simp [plain, put, Slot.allocation?]

variable {hash} {t : SlotTable}

/-- Slots that are cleared with the last key held nothing before. -/
theorem plain_vacate (h : t.Sound hash) {i : Nat} {a : Allocation} (hi : t.holder? i = some a) :
    (t.vacate i).plain = { t.plain with cells := t.plain.cells.setIfInBounds i none } := by
  have hlt : i < t.plain.cells.size := by
    simpa [plain, capacity] using lt_capacity_of_holder hi
  have hsize : (t.vacate i).plain.cells.size = t.plain.cells.size := by
    simpa [plain, capacity] using capacity_vacate t i
  have hcells : (t.vacate i).plain.cells = t.plain.cells.setIfInBounds i none := by
    refine PlainTable.cells_ext (by simpa using hsize) fun j => ?_
    rw [cell_plain, holder?_vacate h hi, ← cell_plain t j, Array.getElem?_setIfInBounds]
    by_cases e : i = j
    · subst e
      simp [hlt]
    · simp [e, Ne.symm e]
  rw [← hcells]
  rfl

theorem find?_of_held (h : t.Sound hash) {i : Nat} {a : Allocation} (hi : t.holder? i = some a) :
    t.plain.find? a.key = some (i, a) := by
  unfold PlainTable.find?
  rw [entries_plain]
  rcases hf : t.entries.find? (fun e => e.2.key = a.key) with _ | ⟨j, b⟩
  · have := List.find?_eq_none.1 hf _ (mem_entries.2 hi)
    simp at this
  · have hj := mem_entries.1 (List.mem_of_find?_eq_some hf)
    have hk : b.key = a.key := by simpa using List.find?_some hf
    obtain rfl := h.distinct hj hi hk
    rw [hi] at hj
    cases hj
    exact hf

theorem find?_of_absent {key : String} (hk : t.Absent key) : t.plain.find? key = none := by
  unfold PlainTable.find?
  rw [entries_plain, List.find?_eq_none]
  rintro ⟨i, a⟩ hm
  simpa using hk i a (mem_entries.1 hm)

theorem insert_plain (h : t.Sound hash) (key owner : String) (tags : Option Tags) :
    (t.plain.insert hash key owner tags).1 = (t.insert hash key owner tags).1 ∧
      (t.plain.insert hash key owner tags).2 = (t.insert hash key owner tags).2.plain ∧
      (t.insert hash key owner tags).2.Sound hash := by
  unfold PlainTable.insert
  rcases t.held_or_absent key with ⟨i, a, hi, rfl⟩ | hk
  · rw [find?_of_held h hi, insert_of_held h hi]
    exact ⟨rfl, rfl, h⟩
  · rw [find?_of_absent hk, insert_of_absent h.pos hk, home_plain, free?_plain]
    rcases hv : t.vacancy (t.home hash key) with _ | i
    · exact ⟨by simp, rfl, h⟩
    · exact ⟨rfl, (plain_put t i _).symm, h.put hk hv⟩

theorem delete_plain (h : t.Sound hash) (key : String) :
    (t.plain.delete key).1 = (t.delete hash key).1 ∧
      (t.plain.delete key).2 = (t.delete hash key).2.plain ∧ (t.delete hash key).2.Sound hash := by
  unfold PlainTable.delete
  rcases t.held_or_absent key with ⟨i, a, hi, rfl⟩ | hk
  · rw [find?_of_held h hi, delete_of_held h hi]
    exact ⟨rfl, (plain_vacate h hi).symm, h.vacate hi⟩
  · rw [find?_of_absent hk, delete_of_absent h.pos hk]
    exact ⟨rfl, rfl, h⟩

theorem get?_plain (h : t.Sound hash) (key : String) : t.plain.find? key = t.get? hash key := by
  rcases t.held_or_absent key with ⟨i, a, hi, rfl⟩ | hk
  · rw [find?_of_held h hi, get?_of_held h hi]
  · rw [find?_of_absent hk, get?_of_absent h.pos hk]

theorem snapshot_plain (h : t.Sound hash) : t.plain.snapshot = t.snapshot := by
  unfold PlainTable.snapshot snapshot
  rw [entries_plain, h.length_entries]

/-- A sound table and its plain counterpart answer a call alike, and stay counterparts. -/
theorem answer_plain (h : t.Sound hash) (call : TableCall) :
    (t.answer hash call).1 = (t.plain.answer hash call).1 ∧
      (t.answer hash call).2.plain = (t.plain.answer hash call).2 ∧
      (t.answer hash call).2.Sound hash := by
  cases call with
  | insert key owner tags =>
    obtain ⟨hanswer, hplain, hsound⟩ := insert_plain h key owner tags
    exact ⟨congrArg TableAnswer.placed hanswer.symm, hplain.symm, hsound⟩
  | delete key =>
    obtain ⟨hanswer, hplain, hsound⟩ := delete_plain h key
    exact ⟨congrArg TableAnswer.removed hanswer.symm, hplain.symm, hsound⟩
  | get key => exact ⟨congrArg TableAnswer.found (get?_plain h key).symm, rfl, h⟩
  | iter => exact ⟨congrArg TableAnswer.entries (entries_plain t).symm, rfl, h⟩
  | snapshot => exact ⟨congrArg TableAnswer.snapshot (snapshot_plain h).symm, rfl, h⟩
  | allocated =>
    refine ⟨?_, rfl, h⟩
    simp only [answer, PlainTable.answer, entries_plain, h.length_entries]
  | available =>
    refine ⟨?_, rfl, h⟩
    simp only [answer, PlainTable.answer, entries_plain, h.length_entries, capacity_plain,
      available]

theorem replay_plain : ∀ (calls : List TableCall) {t : SlotTable}, t.Sound hash →
    replay (answer hash) t calls = replay (PlainTable.answer hash) t.plain calls
  | [], _, _ => rfl
  | call :: calls, t, h => by
    obtain ⟨hanswer, hplain, hsound⟩ := answer_plain h call
    rw [replay, replay, hanswer, ← hplain, replay_plain calls hsound]

theorem plain_of_create {c : Nat} {strategy : Strategy} {t : SlotTable}
    (h : create c strategy = .ok t) : t.plain = PlainTable.create c strategy := by
  unfold create at h
  split_ifs at h
  cases h
  simp [plain, PlainTable.create, Slot.allocation?]

end SlotTable

/-- A new table answers every sequence of calls as the plain table does, whatever the hash, and
under the `first-available` strategy the plain table gives a new key its lowest free slot. -/
theorem answers_eq_plain (hash : String → UInt64) (c : Nat) (strategy : Strategy) (hpos : 1 ≤ c)
    (hmax : c ≤ maxCapacity) (calls : List TableCall) :
    (∃ t, SlotTable.create c strategy = .ok t ∧
      replay (SlotTable.answer hash) t calls =
        replay (PlainTable.answer hash) (PlainTable.create c strategy) calls) ∧
      ∀ (p : PlainTable) (key : String) (i : Nat), p.strategy = .firstAvailable →
        p.free? (p.home hash key) = some i →
        p.cells[i]?.join = none ∧ ∀ j < i, p.cells[j]?.join.isSome := by
  constructor
  · have hcreate : ∃ t, SlotTable.create c strategy = .ok t := by
      unfold SlotTable.create
      rw [if_neg (by omega), if_neg (by omega)]
      exact ⟨_, rfl⟩
    obtain ⟨t, ht⟩ := hcreate
    refine ⟨t, ht, ?_⟩
    rw [SlotTable.replay_plain calls (SlotTable.sound_of_create ht).1,
      SlotTable.plain_of_create ht]
  · intro p key i hs hf
    unfold PlainTable.home at hf
    rw [hs] at hf
    exact PlainTable.lowest_of_free? hf

/-- Three keys with one home: "b" and "c" wrap around, "b" is found behind the slot that "a" left,
"d" takes that slot, and a table of three is full. -/
theorem answers_eq_plain_colliding :
    (1 ≤ 3 ∧ 3 ≤ maxCapacity) ∧ ∃ t, SlotTable.create 3 .hash = .ok t ∧
      replay (SlotTable.answer fun _ => 2) t
        [.insert "a" "x" none, .insert "b" "x" none, .insert "c" "y" none, .delete "a",
          .insert "b" "x" none, .insert "d" "z" none, .insert "e" "z" none,
          .insert "c" "z" none, .snapshot] =
        [.placed (.ok ⟨2, .inserted⟩), .placed (.ok ⟨0, .inserted⟩), .placed (.ok ⟨1, .inserted⟩),
          .removed (some ⟨"a", "x", none⟩), .placed (.ok ⟨0, .existing⟩),
          .placed (.ok ⟨2, .inserted⟩), .placed (.error (.exhausted 3)),
          .placed (.ok ⟨1, .conflict "y" none⟩), .snapshot ⟨3, ["b", "c", "d"]⟩] := by
  obtain ⟨t, ht, hanswers⟩ := (answers_eq_plain (fun _ => 2) 3 .hash (by decide) (by decide)
    [.insert "a" "x" none, .insert "b" "x" none, .insert "c" "y" none, .delete "a",
      .insert "b" "x" none, .insert "d" "z" none, .insert "e" "z" none,
      .insert "c" "z" none, .snapshot]).1
  exact ⟨by decide, t, ht, hanswers.trans rfl⟩

end IndexPools
