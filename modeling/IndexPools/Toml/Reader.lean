import IndexPools.Toml.Token
import IndexPools.Toml.Scalar
import IndexPools.Toml.Document

/-!
# Reading TOML

The tokens of a document are read one by one by an automaton whose stack holds the brackets that are
open inside a value (`Toml.Reader.step`); it never looks back, and gives up at the first token that
has no place. How deep lists and tables inside values are nested is limited, and so is the number of
parts of a key (`Toml.maxDepth`). `Toml.read?` is the document as one table.
-/

namespace IndexPools

namespace Toml

/-- How deep lists and tables may be nested inside a value, and how many parts a key may have. -/
def maxDepth : Nat := 80

/-- A bracket inside a value that is still open. -/
inductive Frame where
  /-- The items so far, the last one first. -/
  | list (items : List Value)
  /-- The entries so far, and the key whose value is being read. -/
  | table (entries : Entries) (path : List String) (name : String)

/-- The value of a statement: its key, and the open brackets, the innermost first. -/
structure Open where
  path : List String
  name : String
  frames : List Frame

/-- A dotted key so far, the last part first, and whether a dot or the end must follow. -/
structure KeyParts where
  parts : List String
  complete : Bool

namespace KeyParts

def empty : KeyParts := ⟨[], false⟩

def isBareKey (s : String) : Bool :=
  s.toList.all fun c => c.isAlphanum || c = '_' || c = '-'

def add (k : KeyParts) (part : String) : Option KeyParts :=
  if !k.complete && k.parts.length < maxDepth then some ⟨part :: k.parts, true⟩ else none

def step (k : KeyParts) : Token → Option KeyParts
  | .blank _ => some k
  | .bare s => if isBareKey s then k.add s else none
  | .quoted s => k.add s
  | .dot => if k.complete then some ⟨k.parts, false⟩ else none
  | _ => none

/-- The path and the last part of a complete key. -/
def split? (k : KeyParts) : Option (List String × String) :=
  match k.complete, k.parts with
  | true, name :: path => some (path.reverse, name)
  | _, _ => none

end KeyParts

inductive Place where
  | line
  /-- After a bracket at the start of a line. -/
  | bracket
  | header (next : Bool) (key : KeyParts)
  /-- After the first of two closing brackets. -/
  | headerEnd (path : List String) (name : String)
  | key (key : KeyParts)
  /-- Before a value, or the end of a list if `closable`. -/
  | value (o : Open) (closable : Bool)
  /-- Inside a value without quotes; blanks were read after it, which are part of it if it goes on
  after them. -/
  | bare (o : Open) (s : String) (blanks : String)
  | item (o : Open) (items : List Value)
  | field (o : Open) (entries : Entries) (key : KeyParts)
  /-- After a key and a line break, before the sign between the key and its value. -/
  | fieldKey (o : Open) (entries : Entries) (path : List String) (name : String)
  | fieldEnd (o : Open) (entries : Entries)
  | statementEnd

structure Reader where
  document : Document
  place : Place

namespace Reader

/-- Takes a complete value to where it belongs. -/
def complete (d : Document) (o : Open) (v : Value) : Option Reader :=
  match o.frames with
  | [] => (d.put o.path o.name v).map fun d => ⟨d, .statementEnd⟩
  | .list items :: frames => some ⟨d, .item { o with frames } (v :: items)⟩
  | .table entries path name :: frames =>
    (entries.put path name v).map fun entries => ⟨d, .fieldEnd { o with frames } entries⟩

/-- After a complete value: the next item or entry, the end of a bracket, or the end of the line. -/
def afterValue (r : Reader) (t : Token) : Option Reader :=
  match r.place, t with
  | .item _ _, .blank _ | .item _ _, .newline => some r
  | .item o items, .comma =>
    some { r with place := .value { o with frames := .list items :: o.frames } true }
  | .item o items, .closeBracket => complete r.document o (.list items.reverse)
  | .fieldEnd _ _, .blank _ | .fieldEnd _ _, .newline => some r
  | .fieldEnd o entries, .comma => some { r with place := .field o entries .empty }
  | .fieldEnd o entries, .closeBrace => complete r.document o (.table (entryValues entries))
  | .statementEnd, .blank _ => some r
  | .statementEnd, .newline => some { r with place := .line }
  | _, _ => none

/-- Ends a value without quotes before `t`. -/
def endBare (d : Document) (o : Open) (s : String) (t : Token) : Option Reader := do
  let v ← Scalar.read? s
  let r ← complete d o v
  r.afterValue t

/-- Before a value. Line breaks are free inside brackets. -/
def beforeValue (d : Document) (o : Open) (closable : Bool) : Token → Option Reader
  | .blank _ => some ⟨d, .value o closable⟩
  | .newline => if o.frames.isEmpty then none else some ⟨d, .value o closable⟩
  | .quoted s | .block s => complete d o (.text s)
  | .bare s => some ⟨d, .bare o s ""⟩
  | .openBracket =>
    if o.frames.length < maxDepth then
      some ⟨d, .value { o with frames := .list [] :: o.frames } true⟩
    else none
  | .openBrace =>
    if o.frames.length < maxDepth then some ⟨d, .field o [] .empty⟩ else none
  | .closeBracket =>
    match closable, o.frames with
    | true, .list items :: frames => complete d { o with frames } (.list items.reverse)
    | _, _ => none
  | _ => none

/-- After a key of a table that is written inside a value: its value comes next. -/
def openField (d : Document) (o : Open) (entries : Entries) (path : List String) (name : String) :
    Reader :=
  ⟨d, .value { o with frames := .table entries path name :: o.frames } false⟩

/-- Inside a key of a table that is written inside a value. A line break may stand in front of the
key and after it, but not between its parts. -/
def inField (d : Document) (o : Open) (entries : Entries) (key : KeyParts) (t : Token) :
    Option Reader :=
  match t, key.parts, key.split? with
  | .newline, [], _ => some ⟨d, .field o entries key⟩
  | .newline, _, some (path, name) => some ⟨d, .fieldKey o entries path name⟩
  | .closeBrace, [], _ => complete d o (.table (entryValues entries))
  | .equals, _, some (path, name) => some (openField d o entries path name)
  | t, _, _ => (key.step t).map fun key => ⟨d, .field o entries key⟩

def inHeader (d : Document) (next : Bool) (key : KeyParts) (t : Token) : Option Reader :=
  match t, key.split? with
  | .closeBracket, some (path, name) =>
    if next then some ⟨d, .headerEnd path name⟩
    else (d.openTable path name).map fun d => ⟨d, .statementEnd⟩
  | t, _ => (key.step t).map fun key => ⟨d, .header next key⟩

def inKey (d : Document) (key : KeyParts) (t : Token) : Option Reader :=
  match t, key.split? with
  | .equals, some (path, name) => some ⟨d, .value ⟨path, name, []⟩ false⟩
  | t, _ => (key.step t).map fun key => ⟨d, .key key⟩

def step (r : Reader) (t : Token) : Option Reader :=
  let d := r.document
  match r.place with
  | .line =>
    match t with
    | .blank _ | .newline => some r
    | .openBracket => some ⟨d, .bracket⟩
    | t => inKey d .empty t
  | .bracket =>
    match t with
    | .openBracket => some ⟨d, .header true .empty⟩
    | t => inHeader d false .empty t
  | .header next key => inHeader d next key t
  | .headerEnd path name =>
    match t with
    | .closeBracket => (d.openNext path name).map fun d => ⟨d, .statementEnd⟩
    | _ => none
  | .key key => inKey d key t
  | .value o closable => beforeValue d o closable t
  | .bare o s blanks =>
    match t with
    | .dot => some ⟨d, .bare o (s ++ blanks ++ ".") ""⟩
    | .bare s' => some ⟨d, .bare o (s ++ blanks ++ s') ""⟩
    | .blank b => some ⟨d, .bare o s b⟩
    | t => endBare d o s t
  | .field o entries key => inField d o entries key t
  | .fieldKey o entries path name =>
    match t with
    | .blank _ | .newline => some r
    | .equals => some (openField d o entries path name)
    | _ => none
  | .item _ _ | .fieldEnd _ _ | .statementEnd => r.afterValue t

def readTokens : Reader → List Token → Option Reader
  | r, [] => some r
  | r, t :: ts =>
    match r.step t with
    | none => none
    | some r => readTokens r ts

end Reader

/-- The table that a document describes. The end of the document ends its last line. -/
def read? (document : String) : Option Value :=
  match tokens document with
  | none => none
  | some ts =>
    match Reader.readTokens ⟨.empty, .line⟩ (ts ++ [.newline]) with
    | some ⟨d, .line⟩ => some d.toValue
    | _ => none

end Toml

end IndexPools
