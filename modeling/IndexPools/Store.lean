import IndexPools.Record

/-!
# The store of declarations

Registries are held in the order of their identities and registers in the order of their keys.
Declaring a registry again changes its specification alone: flags and status stay
(`Store.declareRegistry`). Declaring a register again replaces the whole record. An operation that
names a record that is not there fails and changes nothing.
-/

namespace IndexPools

inductive StoreError where
  | registryNotFound (id : PoolId)
  | registerNotFound (key : RegisterKey)
  | missingSize (id : PoolId)
deriving DecidableEq

def StoreError.message : StoreError → String
  | .registryNotFound id => "registry not found: " ++ id.text
  | .registerNotFound key => "register not found: " ++ key.text
  | .missingSize id => "registry " ++ id.text ++ " does not declare a size"

structure Store where
  registries : Std.ExtTreeMap PoolId RegistryRecord
  registers : Std.ExtTreeMap RegisterKey RegisterRecord
deriving DecidableEq

namespace Store

def empty : Store := ⟨∅, ∅⟩

def registry (s : Store) (id : PoolId) : Except StoreError RegistryRecord :=
  match s.registries[id]? with
  | some r => .ok r
  | none => .error (.registryNotFound id)

def registryIds (s : Store) : List PoolId := s.registries.keys

def registerList (s : Store) : List RegisterRecord := s.registers.values

def size (s : Store) (id : PoolId) : Except StoreError Nat :=
  match s.registry id with
  | .error e => .error e
  | .ok r =>
    match r.spec.size with
    | some n => .ok n
    | none => .error (.missingSize id)

def serves (s : Store) (id : PoolId) : Except StoreError Bool :=
  (s.registry id).map RegistryRecord.serves

def strategy (s : Store) (id : PoolId) : Except StoreError Strategy :=
  (s.registry id).map fun r => r.spec.strategy.getD .hash

def declareRegistry (s : Store) (id : PoolId) (spec : RegistrySpec) : Store :=
  let record :=
    match s.registries[id]? with
    | some r => { r with spec }
    | none => .declare id spec
  { s with registries := s.registries.insert id record }

def changeRegistry (s : Store) (id : PoolId) (f : RegistryRecord → RegistryRecord) :
    Except StoreError Store :=
  match s.registries[id]? with
  | some r => .ok { s with registries := s.registries.insert id (f r) }
  | none => .error (.registryNotFound id)

def setReady (s : Store) (id : PoolId) (ready : Bool) : Except StoreError Store :=
  s.changeRegistry id fun r => { r with ready }

def markRegistryDeleting (s : Store) (id : PoolId) : Except StoreError Store :=
  s.changeRegistry id fun r => { r with deleting := true }

def setStatus (s : Store) (id : PoolId) (status : RegistryStatus) : Except StoreError Store :=
  s.changeRegistry id fun r => { r with status := some status }

def removeRegistry (s : Store) (id : PoolId) : Except StoreError Store :=
  match s.registries[id]? with
  | some _ => .ok { s with registries := s.registries.erase id }
  | none => .error (.registryNotFound id)

def declareRegister (s : Store) (r : RegisterRecord) : Store :=
  { s with registers := s.registers.insert r.key r }

def register? (s : Store) (key : RegisterKey) : Option RegisterRecord := s.registers[key]?

def changeRegister (s : Store) (key : RegisterKey) (f : RegisterRecord → RegisterRecord) :
    Except StoreError Store :=
  match s.registers[key]? with
  | some r => .ok { s with registers := s.registers.insert key (f r) }
  | none => .error (.registerNotFound key)

def markRegisterDeleting (s : Store) (key : RegisterKey) : Except StoreError Store :=
  s.changeRegister key fun r => { r with deleting := true }

def setIndex (s : Store) (key : RegisterKey) (index : Nat) : Except StoreError Store :=
  s.changeRegister key fun r => { r with index := some index }

def removeRegister (s : Store) (key : RegisterKey) : Except StoreError Store :=
  match s.registers[key]? with
  | some _ => .ok { s with registers := s.registers.erase key }
  | none => .error (.registerNotFound key)

end Store

end IndexPools
