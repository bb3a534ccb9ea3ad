import Std.Data.ExtTreeMap

/-!
# Values

What a text of nested data says before it is given a meaning: the values of a manifest, and those
that records are exchanged as. A number that is not whole has no place in any record, so its digits
are not kept; a date or time keeps its text. A bad number is refused where it is looked at, and only
there.
-/

namespace IndexPools

inductive Value where
  | null
  | boolean (b : Bool)
  | integer (n : Int)
  | decimal
  /-- What is written like a number and is none that can be held. -/
  | badNumber
  | text (s : String)
  | moment (s : String)
  | list (items : List Value)
  | table (entries : List (String × Value))
deriving Inhabited

/-- Named values; a name is looked up from the front. -/
abbrev Fields := List (String × Value)

namespace Value

def text? : Value → Option String
  | .text s => some s
  | _ => none

def boolean? : Value → Option Bool
  | .boolean b => some b
  | _ => none

/-- A whole number of 32 bits without a sign. -/
def word? : Value → Option Nat
  | .integer n => if 0 ≤ n ∧ n ≤ 4294967295 then some n.toNat else none
  | _ => none

def list? : Value → Option (List Value)
  | .list items => some items
  | _ => none

def texts? (v : Value) : Option (List String) :=
  v.list?.bind fun items => items.mapM text?

/-- A table from texts to texts. -/
def textMap? : Value → Option (Std.ExtTreeMap String String)
  | .table entries =>
    let pairs := entries.mapM fun (name, v) => v.text?.map fun s => (name, s)
    pairs.map fun l => Std.ExtTreeMap.ofList l
  | _ => none

def ofTextMap (m : Std.ExtTreeMap String String) : Value :=
  .table (m.toList.map fun e => (e.1, .text e.2))

/-- The null value stands for an absent one. -/
def ofOption {α : Type} (f : α → Value) : Option α → Value
  | none => .null
  | some a => f a

/-- The name of one of several alternatives without content: alone, or as the one entry of a table
with a value that `isUnit` takes for no content. -/
def alternative? (isUnit : Value → Bool) : Value → Option String
  | .text s => some s
  | .table [(s, v)] => if isUnit v then some s else none
  | _ => none

def isNull : Value → Bool
  | .null => true
  | _ => false

end Value

namespace Fields

def get? (fields : Fields) (name : String) : Option Value :=
  (fields.find? fun e => e.1 = name).map Prod.snd

def required {α : Type} (fields : Fields) (name : String) (read : Value → Option α) : Option α :=
  (fields.get? name).bind read

/-- A field that is absent or null is read as `none`. -/
def optional {α : Type} (fields : Fields) (name : String) (read : Value → Option α) :
    Option (Option α) :=
  match fields.get? name with
  | none => some none
  | some .null => some none
  | some v => (read v).map some

end Fields

end IndexPools
