import IndexPools.Codec
import IndexPools.Store
import IndexPools.Toml.Reader

/-!
# Manifests

A manifest lists registries and registers that a store starts with. It is a TOML document whose
tables `registry` and `register` have an entry for each record; unknown keys are ignored
(`Manifest.read?`). The store is filled in the order of the manifest, registries first
(`Manifest.store`): an identity must be well formed, and must not occur before.
-/

namespace IndexPools

structure RegistryEntry where
  ns : String
  name : String
  ready : Bool
  spec : RegistrySpec
deriving DecidableEq

structure RegisterEntry where
  ns : String
  name : String
  registry : String
  selector : Option Selector
  tags : Option Tags
deriving DecidableEq

structure Manifest where
  registries : List RegistryEntry
  registers : List RegisterEntry
deriving DecidableEq

/-- Why the file of a manifest gives no text. -/
inductive ReadFault where
  | notFound
  | notText
  | other (message : String)
deriving DecidableEq, Repr

def ReadFault.message : ReadFault → String
  | .notFound => "No such file or directory (os error 2)"
  | .notText => "stream did not contain valid UTF-8"
  | .other message => message

inductive ManifestError where
  | unreadable (path : String) (fault : ReadFault)
  | malformed
  | badId (error : IdError)
  | duplicateRegistry (id : PoolId)
  | duplicateRegister (key : RegisterKey)
deriving DecidableEq

namespace ManifestError

def message : ManifestError → String
  | .unreadable path fault => "failed to read manifest " ++ path ++ ": " ++ fault.message
  | .malformed => "invalid manifest TOML"
  | .badId error => "invalid registry identity: " ++ error.message
  | .duplicateRegistry id => "duplicate registry in manifest: " ++ id.text
  | .duplicateRegister key => "duplicate register in manifest: " ++ key.text

/-- What is said first of a manifest that was loaded from a file. -/
def context (path : String) : String := "failed to load manifest " ++ path

end ManifestError

namespace Value

mutual

/-- Every whole number in the value lies between two bounds, and no number is bad. -/
def numbersWithin (low high : Int) : Value → Bool
  | .integer n => low ≤ n && n ≤ high
  | .badNumber => false
  | .list items => itemsWithin low high items
  | .table entries => entriesWithin low high entries
  | _ => true

def itemsWithin (low high : Int) : List Value → Bool
  | [] => true
  | v :: vs => v.numbersWithin low high && itemsWithin low high vs

def entriesWithin (low high : Int) : List (String × Value) → Bool
  | [] => true
  | (_, v) :: es => v.numbersWithin low high && entriesWithin low high es

end

/-- A table without entries. -/
def isEmptyTable : Value → Bool
  | .table [] => true
  | _ => false

/-- The name of the one entry that a date or time has when it is read as a table. -/
def momentEntry : String := "$__toml_private_datetime"

/-- A table from texts to texts, as a manifest writes it. -/
def manifestMap? : Value → Option (Std.ExtTreeMap String String)
  | .moment s => some ((∅ : Std.ExtTreeMap String String).insert momentEntry s)
  | v => v.textMap?

end Value

namespace RegistryEntry

/-- Every whole number must fit 64 bits, under unknown keys too. -/
def ofValue? : Value → Option RegistryEntry
  | .table fields => do
    if Value.entriesWithin (-Int.pow 2 63) (Int.pow 2 64 - 1) fields then
      return {
        ns := ← Fields.required fields "namespace" Value.text?
        name := ← Fields.required fields "name" Value.text?
        ready := (← Fields.optional fields "ready" Value.boolean?).getD true
        spec := ← RegistrySpec.ofFields? Value.isEmptyTable fields }
    else none
  | _ => none

end RegistryEntry

namespace RegisterEntry

def names : List String := ["namespace", "name", "registry", "selector", "source-tag"]

def ofFields? (fields : Fields) : Option RegisterEntry := do
  return {
    ns := ← fields.required "namespace" Value.text?
    name := ← fields.required "name" Value.text?
    registry := ← fields.required "registry" Value.text?
    selector := ← fields.optional "selector" Value.manifestMap?
    tags := ← fields.optional "source-tag" Value.manifestMap? }

/-- A table of the fields, whose whole numbers fit 128 bits under unknown keys too, or a list that
begins with the fields in order. -/
def ofValue? : Value → Option RegisterEntry
  | .table fields =>
    if Value.entriesWithin (-Int.pow 2 127) (Int.pow 2 128 - 1) fields then ofFields? fields else none
  | .list items => if items.length < names.length then none else ofFields? (names.zip items)
  | _ => none

def key (e : RegisterEntry) : RegisterKey := ⟨e.ns, e.name⟩

def record (e : RegisterEntry) : RegisterRecord where
  key := e.key
  registry := e.registry
  selector := e.selector
  tags := e.tags
  deleting := false
  index := none

end RegisterEntry

namespace Manifest

def ofValue? : Value → Option Manifest
  | .table fields => do
    let entries := fun name => (Fields.optional fields name Value.list?).map (·.getD [])
    let others := fields.filter fun e => e.1 ≠ "registry" && e.1 ≠ "register"
    if Value.entriesWithin (-Int.pow 2 127) (Int.pow 2 128 - 1) others then
      return {
        registries := ← (← entries "registry").mapM RegistryEntry.ofValue?
        registers := ← (← entries "register").mapM RegisterEntry.ofValue? }
    else none
  | _ => none

def read? (document : String) : Option Manifest :=
  (Toml.read? document).bind ofValue?

def addRegistry (s : Store) (e : RegistryEntry) : Except ManifestError Store :=
  match PoolId.make e.ns e.name with
  | .error err => .error (.badId err)
  | .ok id =>
    match s.registries[id]? with
    | some _ => .error (.duplicateRegistry id)
    | none =>
      let record := { RegistryRecord.declare id e.spec with ready := e.ready }
      .ok { s with registries := s.registries.insert id record }

/-- The registry that the register names need not exist, but its identity is checked. -/
def addRegister (s : Store) (e : RegisterEntry) : Except ManifestError Store :=
  match e.record.pool with
  | .error err => .error (.badId err)
  | .ok _ =>
    match s.registers[e.key]? with
    | some _ => .error (.duplicateRegister e.key)
    | none => .ok (s.declareRegister e.record)

def addRegistries : Store → List RegistryEntry → Except ManifestError Store
  | s, [] => .ok s
  | s, e :: es =>
    match addRegistry s e with
    | .error err => .error err
    | .ok s => addRegistries s es

def addRegisters : Store → List RegisterEntry → Except ManifestError Store
  | s, [] => .ok s
  | s, e :: es =>
    match addRegister s e with
    | .error err => .error err
    | .ok s => addRegisters s es

/-- The store that a manifest describes, or the fault of its first faulty entry. -/
def store (m : Manifest) : Except ManifestError Store :=
  match addRegistries .empty m.registries with
  | .error err => .error err
  | .ok s => addRegisters s m.registers

/-- The store that the text of a manifest describes. -/
def load (document : String) : Except ManifestError Store :=
  match read? document with
  | none => .error .malformed
  | some m => m.store

/-- The store that a file describes, given the bytes that were read from it. -/
def loadFile (path : String) (content : Except ReadFault ByteArray) : Except ManifestError Store :=
  match content with
  | .error fault => .error (.unreadable path fault)
  | .ok bytes =>
    match String.fromUTF8? bytes with
    | none => .error (.unreadable path .notText)
    | some document => load document

end Manifest

end IndexPools
