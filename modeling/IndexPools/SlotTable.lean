import Std.Data.ExtTreeMap

/-!
# Slot tables

A table of fixed capacity gives each key at most one slot, whose number is the key's index. A key
is looked for from its home slot onward, around the table once, until a slot that was never used
(`SlotTable.probe`). A released slot does not end the search, and the first one passed is the slot
that a new key takes. When the last key leaves, no search depends on a released slot any more, and
every slot is unused again. The home slot under hash placement comes from a hash function that the
operations take as an argument, so that what holds of a table holds for every such function.
-/

namespace IndexPools

/-- The largest number of slots of one table. -/
def maxCapacity : Nat := 16777216

inductive AllocError where
  | zeroCapacity
  | capacityTooLarge (requested : Nat)
  | exhausted (capacity : Nat)
deriving DecidableEq, Repr

def AllocError.message : AllocError → String
  | .zeroCapacity => "capacity must be greater than zero"
  | .capacityTooLarge requested =>
    "capacity " ++ toString requested ++ " exceeds the maximum of " ++ toString maxCapacity
  | .exhausted capacity =>
    "pool exhausted: all " ++ toString capacity ++ " slots are allocated"

/-- How a key's home slot is chosen: by a hash of the key, or slot 0 for every key. -/
inductive Strategy where
  | hash
  | firstAvailable
deriving DecidableEq, Repr

def Strategy.name : Strategy → String
  | .hash => "hash"
  | .firstAvailable => "first-available"

def Strategy.ofName? (s : String) : Option Strategy :=
  if s = "hash" then some .hash
  else if s = "first-available" then some .firstAvailable
  else none

/-- Tags identify who asked; they take no part in placement. -/
abbrev Tags := Std.ExtTreeMap String String

structure Allocation where
  key : String
  owner : String
  tags : Option Tags
deriving DecidableEq

inductive Slot where
  | unused
  | released
  | held (allocation : Allocation)
deriving DecidableEq

def Slot.allocation? : Slot → Option Allocation
  | .held a => some a
  | _ => none

structure SlotTable where
  slots : Array Slot
  allocated : Nat
  strategy : Strategy
deriving DecidableEq

/-- What an insertion did: a new key took a slot, or the key was held already, by the same owner
under the same tags or by another holder, who keeps it. -/
inductive Outcome where
  | inserted
  | existing
  | conflict (owner : String) (tags : Option Tags)
deriving DecidableEq

structure Placement where
  index : Nat
  outcome : Outcome
deriving DecidableEq

def Placement.isNew (p : Placement) : Bool :=
  match p.outcome with
  | .inserted => true
  | _ => false

def Placement.isConflict (p : Placement) : Bool :=
  match p.outcome with
  | .conflict _ _ => true
  | _ => false

/-- The keys of a table, in the order of their indices, at one moment. -/
structure Snapshot where
  allocated : Nat
  used : List String
deriving DecidableEq

namespace Snapshot

def empty : Snapshot := ⟨0, []⟩

def isEmpty (s : Snapshot) : Bool := s.allocated == 0

def contains (s : Snapshot) (key : String) : Bool := s.used.contains key

end Snapshot

/-- Where the search for a key ends. -/
inductive Probe where
  | found (index : Nat) (holder : Allocation)
  | vacant (index : Nat)
  | full
deriving DecidableEq

namespace SlotTable

def create (capacity : Nat) (strategy : Strategy) : Except AllocError SlotTable :=
  if capacity = 0 then .error .zeroCapacity
  else if maxCapacity < capacity then .error (.capacityTooLarge capacity)
  else .ok ⟨Array.replicate capacity .unused, 0, strategy⟩

def capacity (t : SlotTable) : Nat := t.slots.size

def available (t : SlotTable) : Nat := t.capacity - t.allocated

/-- Walks `left` slots on from slot `i`; `reusable` is the first released slot passed so far. -/
def walk (slots : Array Slot) (key : String) : (left i : Nat) → (reusable : Option Nat) → Probe
  | 0, _, some j => .vacant j
  | 0, _, none => .full
  | left + 1, i, reusable =>
    match slots[i]? with
    | some (.held a) =>
      if a.key = key then .found i a else walk slots key left ((i + 1) % slots.size) reusable
    | some .released => walk slots key left ((i + 1) % slots.size) (reusable.or (some i))
    | _ => .vacant (reusable.getD i)

section Placement

variable (hash : String → UInt64)

def home (t : SlotTable) (key : String) : Nat :=
  match t.strategy with
  | .hash => (hash key).toNat % t.capacity
  | .firstAvailable => 0

def probe (t : SlotTable) (key : String) : Probe :=
  walk t.slots key t.capacity (t.home hash key) none

/-- A held key keeps its slot and its holder, whoever asks. -/
def insert (t : SlotTable) (key owner : String) (tags : Option Tags) :
    Except AllocError Placement × SlotTable :=
  match t.probe hash key with
  | .found i a =>
    if a.owner = owner ∧ a.tags = tags then (.ok ⟨i, .existing⟩, t)
    else (.ok ⟨i, .conflict a.owner a.tags⟩, t)
  | .vacant i =>
    (.ok ⟨i, .inserted⟩,
      { t with
        slots := t.slots.setIfInBounds i (.held ⟨key, owner, tags⟩)
        allocated := t.allocated + 1 })
  | .full => (.error (.exhausted t.capacity), t)

/-- The slot is released whoever holds the key. -/
def delete (t : SlotTable) (key : String) : Option Allocation × SlotTable :=
  match t.probe hash key with
  | .found i a =>
    let slots :=
      if t.allocated - 1 = 0 then Array.replicate t.capacity .unused
      else t.slots.setIfInBounds i .released
    (some a, { t with slots, allocated := t.allocated - 1 })
  | _ => (none, t)

def get? (t : SlotTable) (key : String) : Option (Nat × Allocation) :=
  match t.probe hash key with
  | .found i a => some (i, a)
  | _ => none

end Placement

/-- The held slots below `n`, in order, before `tail`. -/
def entriesBelow (slots : Array Slot) : (n : Nat) → (tail : List (Nat × Allocation)) →
    List (Nat × Allocation)
  | 0, tail => tail
  | n + 1, tail =>
    match slots[n]? with
    | some (.held a) => entriesBelow slots n ((n, a) :: tail)
    | _ => entriesBelow slots n tail

/-- The held slots in the order of their indices. -/
def entries (t : SlotTable) : List (Nat × Allocation) :=
  entriesBelow t.slots t.capacity []

def snapshot (t : SlotTable) : Snapshot :=
  ⟨t.allocated, t.entries.map fun e => e.2.key⟩

end SlotTable

end IndexPools
