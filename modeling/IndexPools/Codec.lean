import IndexPools.Record
import IndexPools.Value

/-!
# Records as values

How pool identities, records and their parts are exchanged as values. A record is a table of its
fields, of which unknown ones are ignored, or the list of its fields in order; what is optional may
be absent or null, and is written as null. A pool identity is its text, so that reading what was
written gives it back (`PoolId.ofValue_toValue`).
-/

namespace IndexPools

/-- Why a value is no record: it has the wrong shape, or holds a text that is no identity. -/
inductive CodecError where
  | shape
  | badId (error : IdError)
deriving DecidableEq

/-- The fields of a record that is written as a table, or as a list in the order of `names`. -/
def Value.fields? (names : List String) : Value → Option Fields
  | .table entries => some entries
  | .list items => if items.length = names.length then some (names.zip items) else none
  | _ => none

namespace PoolId

def toValue (id : PoolId) : Value := .text id.text

def ofValue : Value → Except CodecError PoolId
  | .text s => (parse s).mapError .badId
  | _ => .error .shape

theorem ofValue_toValue (id : PoolId) : ofValue id.toValue = .ok id := by
  unfold ofValue toValue
  simp only [parse_text]
  rfl

end PoolId

namespace Strategy

def toValue (s : Strategy) : Value := .text s.name

def ofValue? (isUnit : Value → Bool) (v : Value) : Option Strategy :=
  (v.alternative? isUnit).bind ofName?

end Strategy

namespace AdminState

def toValue (s : AdminState) : Value := .text s.name

def ofValue? (isUnit : Value → Bool) (v : Value) : Option AdminState :=
  (v.alternative? isUnit).bind ofName?

end AdminState

namespace Allocation

def toValue (a : Allocation) : Value :=
  .table [("key", .text a.key), ("owner", .text a.owner), ("tags", .ofOption .ofTextMap a.tags)]

def ofValue? (v : Value) : Option Allocation := do
  let fields ← v.fields? ["key", "owner", "tags"]
  return {
    key := ← fields.required "key" Value.text?
    owner := ← fields.required "owner" Value.text?
    tags := ← fields.optional "tags" Value.textMap? }

end Allocation

namespace Snapshot

def toValue (s : Snapshot) : Value :=
  .table [("allocated", .integer s.allocated), ("used", .list (s.used.map .text))]

def ofValue? (v : Value) : Option Snapshot := do
  let fields ← v.fields? ["allocated", "used"]
  return {
    allocated := ← fields.required "allocated" Value.word?
    used := ← fields.required "used" Value.texts? }

end Snapshot

namespace RegistrySpec

def toValue (s : RegistrySpec) : Value :=
  .table [
    ("size", .ofOption (fun n : Nat => .integer n) s.size),
    ("allocation-strategy", .ofOption Strategy.toValue s.strategy),
    ("admin-state", .ofOption AdminState.toValue s.adminState),
    ("description", .ofOption .text s.description)]

def ofFields? (isUnit : Value → Bool) (fields : Fields) : Option RegistrySpec := do
  return {
    size := ← fields.optional "size" Value.word?
    strategy := ← fields.optional "allocation-strategy" (Strategy.ofValue? isUnit)
    adminState := ← fields.optional "admin-state" (AdminState.ofValue? isUnit)
    description := ← fields.optional "description" Value.text? }

def ofValue? (v : Value) : Option RegistrySpec :=
  (v.fields? ["size", "allocation-strategy", "admin-state", "description"]).bind
    (ofFields? Value.isNull)

end RegistrySpec

namespace RegistryStatus

def toValue (s : RegistryStatus) : Value :=
  .table [
    ("total", .integer s.total),
    ("allocated", .integer s.allocated),
    ("available", .integer s.available),
    ("used", .list (s.used.map .text))]

def ofValue? (v : Value) : Option RegistryStatus := do
  let fields ← v.fields? ["total", "allocated", "available", "used"]
  return {
    total := ← fields.required "total" Value.word?
    allocated := ← fields.required "allocated" Value.word?
    available := ← fields.required "available" Value.word?
    used := ← fields.required "used" Value.texts? }

end RegistryStatus

namespace RegisterKey

def toValue (k : RegisterKey) : Value :=
  .table [("namespace", .text k.ns), ("name", .text k.name)]

def ofValue? (v : Value) : Option RegisterKey := do
  let fields ← v.fields? ["namespace", "name"]
  return {
    ns := ← fields.required "namespace" Value.text?
    name := ← fields.required "name" Value.text? }

end RegisterKey

end IndexPools
