import IndexPools.PoolId
import IndexPools.SlotTable

/-!
# Requests

A request asks for a key in a pool on behalf of an owner. The key stands in the request's selector
under the entry `name`, and must not be empty (`Request.key`).
-/

namespace IndexPools

abbrev Selector := Std.ExtTreeMap String String

structure Request where
  pool : PoolId
  owner : String
  selector : Option Selector
  tags : Option Tags
deriving DecidableEq

/-- Why a selector names no key. -/
inductive SelectorFault where
  | missing
  | emptyName
  | noName
deriving DecidableEq, Repr

def SelectorFault.text : SelectorFault → String
  | .missing => "request has no selector"
  | .emptyName => "selector name is empty"
  | .noName => "selector does not contain a name"

namespace Request

/-- The selector's entry that holds the key. -/
def nameEntry : String := "name"

def forKey (pool : PoolId) (owner key : String) (tags : Option Tags) : Request where
  pool
  owner
  selector := some ((∅ : Selector).insert nameEntry key)
  tags

def key (r : Request) : Except SelectorFault String :=
  match r.selector with
  | none => .error .missing
  | some s =>
    match s[nameEntry]? with
    | none => .error .noName
    | some k => if k = "" then .error .emptyName else .ok k

end Request

end IndexPools
