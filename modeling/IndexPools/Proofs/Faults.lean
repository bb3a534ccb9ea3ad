import IndexPools.Proofs.PlainTable

/-!
# What a table does not run into

The operations of a table are written here with a guard at each point where they rely on what the
table holds: the search looks at no slot beyond the table, the slot where a key was found holds it,
the count of held slots goes neither below 0 nor above the largest capacity, and there are no more
held slots than slots (`Fault`). On a sound table no guard is met, and the guarded operations are
the operations themselves (`guarded_of_sound`). As a call leaves a sound table sound, so it is along
every sequence of calls to a new table (`guardedAll_of_sound`, `table_of_calls`).
-/

namespace IndexPools

/-- What the operations on a table rely on never to meet: an index beyond the table, a slot that was
found and holds nothing, and a count below 0 or above the largest capacity. -/
inductive Fault where
  | outside (i : Nat)
  | notHeld (i : Nat)
  | belowZero
  | aboveMax
deriving DecidableEq

/-- Where the search for a key ends, without what is there. -/
inductive Spot where
  | found (i : Nat)
  | vacant (i : Nat)
  | full
deriving DecidableEq

def Probe.spot : Probe → Spot
  | .found i _ => .found i
  | .vacant i => .vacant i
  | .full => .full

namespace SlotTable

/-- The search at the given distances from the home slot. -/
def seek (slots : Array Slot) (key : String) (home : Nat) :
    (distances : List Nat) → (reusable : Option Nat) → Except Fault Spot
  | [], some j => .ok (.vacant j)
  | [], none => .ok .full
  | d :: ds, reusable =>
    let i := (home + d) % slots.size
    match slots[i]? with
    | none => .error (.outside i)
    | some .unused => .ok (.vacant (reusable.getD i))
    | some .released => seek slots key home ds (reusable.or (some i))
    | some (.held a) => if a.key = key then .ok (.found i) else seek slots key home ds reusable

/-- The allocation in a slot that is relied on to hold one. -/
def heldAt (t : SlotTable) (i : Nat) : Except Fault Allocation :=
  match t.slots[i]? with
  | none => .error (.outside i)
  | some (.held a) => .ok a
  | some _ => .error (.notHeld i)

def guardedAvailable (t : SlotTable) : Except Fault Nat :=
  if t.capacity < t.allocated then .error .belowZero else .ok (t.capacity - t.allocated)

section Hash

variable (hash : String → UInt64)

def guardedProbe (t : SlotTable) (key : String) : Except Fault Spot :=
  seek t.slots key (t.home hash key) (List.range t.capacity) none

def guardedInsert (t : SlotTable) (key owner : String) (tags : Option Tags) :
    Except Fault (Except AllocError Placement × SlotTable) := do
  match ← t.guardedProbe hash key with
  | .found i =>
    let a ← t.heldAt i
    if a.owner = owner ∧ a.tags = tags then .ok (.ok ⟨i, .existing⟩, t)
    else .ok (.ok ⟨i, .conflict a.owner a.tags⟩, t)
  | .vacant i =>
    if t.capacity ≤ i then .error (.outside i)
    else if maxCapacity ≤ t.allocated then .error .aboveMax
    else .ok (.ok ⟨i, .inserted⟩, t.put i ⟨key, owner, tags⟩)
  | .full => .ok (.error (.exhausted t.capacity), t)

def guardedDelete (t : SlotTable) (key : String) :
    Except Fault (Option Allocation × SlotTable) := do
  match ← t.guardedProbe hash key with
  | .found i =>
    let a ← t.heldAt i
    if t.allocated = 0 then .error .belowZero else .ok (some a, t.vacate i)
  | _ => .ok (none, t)

def guardedGet (t : SlotTable) (key : String) : Except Fault (Option (Nat × Allocation)) := do
  match ← t.guardedProbe hash key with
  | .found i => return some (i, ← t.heldAt i)
  | _ => return none

def guarded (t : SlotTable) : TableCall → Except Fault (TableAnswer × SlotTable)
  | .insert key owner tags => return (← t.guardedInsert hash key owner tags).map .placed id
  | .delete key => return (← t.guardedDelete hash key).map .removed id
  | .get key => return (.found (← t.guardedGet hash key), t)
  | .available => return (.count (← t.guardedAvailable), t)
  | call => .ok (t.answer hash call)

/-- The answers to a list of calls, in order, and the table after them, as long as no guard is
met. -/
def guardedAll : SlotTable → List TableCall → Except Fault (List TableAnswer × SlotTable)
  | t, [] => .ok ([], t)
  | t, call :: calls => do
    let (answer, t') ← t.guarded hash call
    let (answers, t'') ← guardedAll t' calls
    return (answer :: answers, t'')

/-- The table after a list of calls. -/
def after (t : SlotTable) (calls : List TableCall) : SlotTable :=
  calls.foldl (fun t call => (t.answer hash call).2) t

variable {hash} {t : SlotTable}

theorem seek_range' {slots : Array Slot} {key : String} {home : Nat} (hpos : 0 < slots.size) :
    ∀ (left d : Nat) (reusable : Option Nat),
      seek slots key home (List.range' d left) reusable =
        .ok (walk slots key left ((home + d) % slots.size) reusable).spot
  | 0, d, reusable => by rcases reusable with _ | j <;> rfl
  | left + 1, d, reusable => by
    have hi : (home + d) % slots.size < slots.size := Nat.mod_lt _ hpos
    have ih : ∀ r, seek slots key home (List.range' (d + 1) left) r =
        .ok (walk slots key left (((home + d) % slots.size + 1) % slots.size) r).spot := by
      intro r
      rw [seek_range' hpos left (d + 1) r, Nat.mod_add_mod, Nat.add_assoc]
    rw [List.range'_succ, seek, walk]
    rcases hs : slots[(home + d) % slots.size]? with _ | s
    · rw [Array.getElem?_eq_getElem hi] at hs
      cases hs
    · rcases s with _ | _ | a
      · rfl
      · exact ih _
      · simp only [ih]
        split_ifs <;> rfl

theorem guardedProbe_eq (hpos : 0 < t.capacity) (key : String) :
    t.guardedProbe hash key = .ok (t.probe hash key).spot := by
  have hhome : t.home hash key % t.slots.size = t.home hash key :=
    Nat.mod_eq_of_lt (home_lt hash hpos key)
  unfold guardedProbe
  rw [List.range_eq_range', seek_range' hpos, Nat.add_zero, hhome]
  rfl

theorem heldAt_of_held {i : Nat} {a : Allocation} (hi : t.holder? i = some a) :
    t.heldAt i = .ok a := by
  unfold heldAt
  rw [holder?_eq_some.1 hi]

/-- A key that is put into a vacant slot does not lift the count above the largest capacity. -/
theorem Sound.allocated_lt_max (h : t.Sound hash) {a : Allocation} (hk : t.Absent a.key) {i : Nat}
    (hv : t.vacancy (t.home hash a.key) = some i) : t.allocated < maxCapacity := by
  have hle : t.allocated + 1 ≤ (t.put i a).capacity := (h.put hk hv).allocated_le
  rw [capacity_put] at hle
  exact Nat.lt_of_lt_of_le hle h.bounded

/-- While a key is held the count is not 0. -/
theorem Sound.allocated_ne_zero (h : t.Sound hash) {i : Nat} {a : Allocation}
    (hi : t.holder? i = some a) : t.allocated ≠ 0 := by
  intro hzero
  rw [h.holder?_of_empty hzero] at hi
  cases hi

theorem guardedInsert_of_sound (h : t.Sound hash) (key owner : String) (tags : Option Tags) :
    t.guardedInsert hash key owner tags = .ok (t.insert hash key owner tags) := by
  unfold guardedInsert
  rw [guardedProbe_eq h.pos]
  rcases t.held_or_absent key with ⟨i, a, hi, rfl⟩ | hk
  · rw [probe_of_held h hi, insert_of_held h hi]
    simp only [bind, Except.bind, Probe.spot, heldAt_of_held hi]
    split_ifs <;> rfl
  · rw [probe_of_absent h.pos hk, insert_of_absent h.pos hk]
    rcases hv : t.vacancy (t.home hash key) with _ | i
    · rfl
    · have hlt := (lt_of_vacancy hv).1
      have hroom := h.allocated_lt_max (a := ⟨key, owner, tags⟩) hk hv
      simp only [bind, Except.bind, Probe.spot, if_neg (Nat.not_le.2 hlt),
        if_neg (Nat.not_le.2 hroom)]

theorem guardedDelete_of_sound (h : t.Sound hash) (key : String) :
    t.guardedDelete hash key = .ok (t.delete hash key) := by
  unfold guardedDelete
  rw [guardedProbe_eq h.pos]
  rcases t.held_or_absent key with ⟨i, a, hi, rfl⟩ | hk
  · rw [probe_of_held h hi, delete_of_held h hi]
    simp only [bind, Except.bind, Probe.spot, heldAt_of_held hi, if_neg (h.allocated_ne_zero hi)]
  · rw [probe_of_absent h.pos hk, delete_of_absent h.pos hk]
    rcases t.vacancy (t.home hash key) with _ | i <;> rfl

theorem guardedGet_of_sound (h : t.Sound hash) (key : String) :
    t.guardedGet hash key = .ok (t.get? hash key) := by
  unfold guardedGet
  rw [guardedProbe_eq h.pos]
  rcases t.held_or_absent key with ⟨i, a, hi, rfl⟩ | hk
  · rw [probe_of_held h hi, get?_of_held h hi]
    simp only [bind, Except.bind, Probe.spot, heldAt_of_held hi, pure, Except.pure]
  · rw [probe_of_absent h.pos hk, get?_of_absent h.pos hk]
    rcases t.vacancy (t.home hash key) with _ | i <;> rfl

theorem guardedAvailable_of_sound (h : t.Sound hash) : t.guardedAvailable = .ok t.available :=
  if_neg (Nat.not_lt.2 h.allocated_le)

/-- No call to a sound table meets a guard. -/
theorem guarded_of_sound (h : t.Sound hash) (call : TableCall) :
    t.guarded hash call = .ok (t.answer hash call) := by
  cases call with
  | insert key owner tags =>
    simp only [guarded, guardedInsert_of_sound h]
    rfl
  | delete key =>
    simp only [guarded, guardedDelete_of_sound h]
    rfl
  | get key =>
    simp only [guarded, guardedGet_of_sound h]
    rfl
  | available =>
    simp only [guarded, guardedAvailable_of_sound h]
    rfl
  | iter | snapshot | allocated => rfl

theorem Sound.answer (h : t.Sound hash) (call : TableCall) : (t.answer hash call).2.Sound hash :=
  (answer_plain h call).2.2

theorem capacity_answer (t : SlotTable) (call : TableCall) :
    (t.answer hash call).2.capacity = t.capacity := by
  cases call with
  | insert key owner tags => exact capacity_insert hash t key owner tags
  | delete key => exact capacity_delete hash t key
  | get | iter | snapshot | allocated | available => rfl

theorem Sound.after : ∀ (calls : List TableCall) {t : SlotTable}, t.Sound hash →
    (t.after hash calls).Sound hash
  | [], _, h => h
  | call :: calls, _, h => Sound.after calls (h.answer call)

theorem capacity_after : ∀ (calls : List TableCall) (t : SlotTable),
    (t.after hash calls).capacity = t.capacity
  | [], _ => rfl
  | call :: calls, t => (capacity_after calls _).trans (capacity_answer t call)

/-- No guard is met along any sequence of calls to a sound table. -/
theorem guardedAll_of_sound : ∀ (calls : List TableCall) {t : SlotTable}, t.Sound hash →
    t.guardedAll hash calls = .ok (replay (SlotTable.answer hash) t calls, t.after hash calls)
  | [], _, _ => rfl
  | call :: calls, t, h => by
    unfold guardedAll
    rw [guarded_of_sound h]
    simp only [bind, Except.bind, guardedAll_of_sound calls (h.answer call)]
    rfl

end Hash

end SlotTable

/-- Whatever is asked of a new table, in whatever order, the table stays sound and of its size, and
no guard is met on the way. -/
theorem table_of_calls (hash : String → UInt64) {c : Nat} (strategy : Strategy) (hpos : 1 ≤ c)
    (hmax : c ≤ maxCapacity) (calls : List TableCall) :
    ∃ t₀, SlotTable.create c strategy = .ok t₀ ∧
      (t₀.after hash calls).capacity = c ∧
      (t₀.after hash calls).Sound hash ∧
      (t₀.after hash calls).allocated ≤ c ∧
      t₀.guardedAll hash calls =
        .ok (replay (SlotTable.answer hash) t₀ calls, t₀.after hash calls) := by
  obtain ⟨t₀, hcreate⟩ : ∃ t₀, SlotTable.create c strategy = .ok t₀ :=
    ⟨_, SlotTable.create_eq_ok.2 ⟨hpos, hmax, rfl⟩⟩
  have hcap : (t₀.after hash calls).capacity = c :=
    (SlotTable.capacity_after calls t₀).trans (SlotTable.capacity_of_create hcreate)
  have hnew : t₀.Sound hash := (SlotTable.sound_of_create hcreate).1
  have hsound := hnew.after calls
  exact ⟨t₀, hcreate, hcap, hsound, hcap ▸ hsound.allocated_le,
    SlotTable.guardedAll_of_sound calls hnew⟩

/-- Two keys have slot 2 of 3 as their home, so the second one goes around to slot 0. It is found
there over the slot that the first one leaves behind. -/
theorem table_of_calls_around :
    let hash : String → UInt64 := fun _ => 2
    let calls := [.insert "a" "x" none, .insert "b" "y" none, .delete "a"]
    let t : SlotTable := ⟨#[.held ⟨"b", "y", none⟩, .unused, .released], 1, .hash⟩
    t.Sound hash ∧
      ∃ t₀, SlotTable.create 3 .hash = .ok t₀ ∧ t₀.after hash calls = t ∧
        t₀.guardedAll hash calls = .ok (replay (SlotTable.answer hash) t₀ calls, t) := by
  intro hash calls t
  obtain ⟨t₀, hcreate, -, hsound, -, hall⟩ :=
    table_of_calls hash .hash (show 1 ≤ 3 by decide) (by decide) calls
  obtain ⟨-, -, rfl⟩ := SlotTable.create_eq_ok.1 hcreate
  have hafter : (⟨Array.replicate 3 .unused, 0, .hash⟩ : SlotTable).after hash calls = t := by
    decide +kernel
  rw [hafter] at hsound hall
  exact ⟨hsound, _, hcreate, hafter, hall⟩

end IndexPools
