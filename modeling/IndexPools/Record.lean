import IndexPools.Request

/-!
# Declared records

A registry declares a pool: its size and placement, and flags that hold requests back. It also
carries the pool's occupancy as it was last mirrored. A register asks for the index of one key out
of a registry of its own namespace (`RegisterRecord.request`), and carries the index that it was
given last.
-/

namespace IndexPools

inductive AdminState where
  | enable
  | disable
deriving DecidableEq, Repr

def AdminState.name : AdminState → String
  | .enable => "enable"
  | .disable => "disable"

def AdminState.ofName? (s : String) : Option AdminState :=
  if s = "enable" then some .enable
  else if s = "disable" then some .disable
  else none

structure RegistrySpec where
  size : Option Nat
  strategy : Option Strategy
  adminState : Option AdminState
  description : Option String
deriving DecidableEq

namespace RegistrySpec

def ofSize (size : Nat) : RegistrySpec := ⟨some size, none, none, none⟩

/-- Only an explicit `disable` disables. -/
def isEnabled (s : RegistrySpec) : Bool := s.adminState != some .disable

end RegistrySpec

/-- A pool's occupancy as it is mirrored into the pool's registry. -/
structure RegistryStatus where
  total : Nat
  allocated : Nat
  available : Nat
  used : List String
deriving DecidableEq

namespace RegistryStatus

/-- The status of a pool that is not set up. -/
def zero : RegistryStatus := ⟨0, 0, 0, []⟩

def initial (total : Nat) : RegistryStatus := ⟨total, 0, total, []⟩

/-- More keys than slots leave nothing available. -/
def ofSnapshot (total : Nat) (s : Snapshot) : RegistryStatus :=
  ⟨total, s.allocated, total - s.allocated, s.used⟩

end RegistryStatus

structure RegistryRecord where
  id : PoolId
  spec : RegistrySpec
  ready : Bool
  deleting : Bool
  status : Option RegistryStatus
deriving DecidableEq

def RegistryRecord.declare (id : PoolId) (spec : RegistrySpec) : RegistryRecord :=
  ⟨id, spec, true, false, none⟩

/-- A registry that is ready and not disabled serves requests. -/
def RegistryRecord.serves (r : RegistryRecord) : Bool := r.ready && r.spec.isEnabled

structure RegisterKey where
  ns : String
  name : String
deriving DecidableEq

namespace RegisterKey

def text (k : RegisterKey) : String := k.ns ++ "/" ++ k.name

instance : Ord RegisterKey where
  compare := compareLex (compareOn RegisterKey.ns) (compareOn RegisterKey.name)

instance : Std.TransOrd RegisterKey :=
  inferInstanceAs
    (Std.TransCmp (compareLex (compareOn RegisterKey.ns) (compareOn RegisterKey.name)))

instance : Std.LawfulEqOrd RegisterKey where
  eq_of_compare {a b} h := by
    have h' : (compare a.ns b.ns).then (compare a.name b.name) = .eq := h
    rw [Ordering.then_eq_eq] at h'
    obtain ⟨hs, hn⟩ := h'
    cases a
    cases b
    simp_all

end RegisterKey

structure RegisterRecord where
  key : RegisterKey
  registry : String
  selector : Option Selector
  tags : Option Tags
  deleting : Bool
  index : Option Nat
deriving DecidableEq

namespace RegisterRecord

/-- The registry is one of the register's own namespace. -/
def pool (r : RegisterRecord) : Except IdError PoolId :=
  PoolId.make r.key.ns r.registry

/-- The register asks in its own name. -/
def request (r : RegisterRecord) : Except IdError Request :=
  match r.pool with
  | .error e => .error e
  | .ok pool => .ok ⟨pool, r.key.name, r.selector, r.tags⟩

end RegisterRecord

end IndexPools
