import IndexPools.Value

/-!
# TOML documents

A document is a tree of tables that grows statement by statement. What may still be added to a table
depends on how it came about (`Toml.Origin`): a table that a header named is defined once, a table
that dotted keys made takes more dotted keys but no header, and a table that only lies on the way to
another one is open to both. Values, with the lists and tables written inside them, are closed.
-/

namespace IndexPools

namespace Toml

/-- How a table came about. -/
inductive Origin where
  /-- Named by a header. -/
  | header
  /-- On the way to a table that a header names. -/
  | implied
  /-- On the way to a value, in a dotted key. -/
  | dotted
deriving DecidableEq, Repr

inductive Node where
  | value (v : Value)
  | table (origin : Origin) (entries : List (String × Node))
  /-- Tables under one header in double brackets, the last one first. -/
  | tables (items : List (List (String × Node)))

abbrev Entries := List (String × Node)

mutual

def Node.toValue : Node → Value
  | .value v => v
  | .table _ entries => .table (entryValues entries)
  | .tables items => .list (tableValues items [])

def entryValues : List (String × Node) → Fields
  | [] => []
  | (name, node) :: entries => (name, node.toValue) :: entryValues entries

/-- The tables as values, in the order of the document, before `after`. -/
def tableValues : List (List (String × Node)) → (after : List Value) → List Value
  | [], after => after
  | entries :: items, after => tableValues items (.table (entryValues entries) :: after)

end

namespace Entries

def get? (es : Entries) (name : String) : Option Node :=
  (es.find? fun e => e.1 = name).map Prod.snd

def set (es : Entries) (name : String) (node : Node) : Entries :=
  (name, node) :: es.filter fun e => e.1 ≠ name

/-- Changes the table at the end of a path by `f`, making tables on the way where there are none.
A dotted key does not reach into a table that a header named; nothing reaches into a value. Of
several tables under one header the last is meant. -/
def change (dotted : Bool) (f : Origin → Entries → Option Entries) :
    (path : List String) → Origin → Entries → Option Entries
  | [], origin, es => f origin es
  | name :: path, _, es =>
    match es.get? name with
    | none =>
      let origin := if dotted then .dotted else .implied
      (change dotted f path origin []).map fun sub => es.set name (.table origin sub)
    | some (.table origin sub) =>
      if dotted ∧ origin = .header then none
      else (change dotted f path origin sub).map fun sub => es.set name (.table origin sub)
    | some (.tables (last :: before)) =>
      (change dotted f path .header last).map fun last => es.set name (.tables (last :: before))
    | some _ => none

/-- Adds a value under a dotted key. The table that takes it is the one at hand, or one that dotted
keys made, and has no entry of that name yet. -/
def put (path : List String) (name : String) (v : Value) (es : Entries) : Option Entries :=
  es.change true (fun origin es =>
    if path ≠ [] ∧ origin ≠ .dotted then none
    else
      match es.get? name with
      | some _ => none
      | none => some (es.set name (.value v))) path .header

/-- Opens the table that a header names. -/
def openTable (path : List String) (name : String) (es : Entries) : Option Entries :=
  es.change false (fun _ es =>
    match es.get? name with
    | none => some (es.set name (.table .header []))
    | some (.table .implied sub) => some (es.set name (.table .header sub))
    | some _ => none) path .header

/-- Opens one more table under a header in double brackets. -/
def openNext (path : List String) (name : String) (es : Entries) : Option Entries :=
  es.change false (fun _ es =>
    match es.get? name with
    | none => some (es.set name (.tables [[]]))
    | some (.tables items) => some (es.set name (.tables ([] :: items)))
    | some _ => none) path .header

end Entries

/-- What was read so far, and the path of the table that the last header opened. -/
structure Document where
  root : Entries
  current : List String

namespace Document

def empty : Document := ⟨[], []⟩

def put (d : Document) (path : List String) (name : String) (v : Value) : Option Document :=
  (d.root.change false (fun _ es => es.put path name v) d.current .header).map fun root =>
    { d with root }

def openTable (d : Document) (path : List String) (name : String) : Option Document :=
  (d.root.openTable path name).map fun root => ⟨root, path ++ [name]⟩

def openNext (d : Document) (path : List String) (name : String) : Option Document :=
  (d.root.openNext path name).map fun root => ⟨root, path ++ [name]⟩

def toValue (d : Document) : Value := .table (entryValues d.root)

end Document

end Toml

end IndexPools
