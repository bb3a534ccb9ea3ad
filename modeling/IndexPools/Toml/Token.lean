/-!
# The tokens of a TOML document

A finite automaton reads the document one character at a time (`Toml.Mode.step`) and gives up at the
first character that no token allows. Quoted text arrives decoded. Comments give no token, and the
line break after one still does. Control characters other than the tab are allowed nowhere, and a
carriage return only before a line feed.
-/

namespace IndexPools

namespace Toml

inductive Token where
  /-- A run of characters without blanks, quotes in front or punctuation. -/
  | bare (s : String)
  /-- Text in quotes on one line. -/
  | quoted (s : String)
  /-- Text in triple quotes. -/
  | block (s : String)
  /-- Spaces and tabs between tokens. -/
  | blank (s : String)
  | newline
  | dot
  | equals
  | comma
  | openBracket
  | closeBracket
  | openBrace
  | closeBrace
deriving DecidableEq, Repr

/-- Quotes that allow escapes, and quotes that do not. -/
inductive Quote where
  | basic
  | literal
deriving DecidableEq, Repr

def Quote.char : Quote → Char
  | .basic => '"'
  | .literal => '\''

/-- Where the automaton is. Characters that were collected stand in reverse order. -/
inductive Mode where
  | between
  | bare (cs : List Char)
  | blanks (cs : List Char)
  | comment
  | carriage
  /-- After one or two quotes, which may turn out to be three. -/
  | opening (q : Quote) (two : Bool)
  | quoted (q : Quote) (cs : List Char)
  /-- At the start of a block, whose first line break does not count. -/
  | blockStart (q : Quote)
  | blockStartCarriage (q : Quote)
  /-- Inside a block, after `quotes` quotes that may end it. -/
  | block (q : Quote) (quotes : Nat) (cs : List Char)
  | blockCarriage (q : Quote) (cs : List Char)
  | escape (block : Bool) (cs : List Char)
  /-- Inside a character number, with `left` digits to come. -/
  | number (block : Bool) (left value : Nat) (cs : List Char)
  /-- After a backslash and blanks, on the way to the end of the line. -/
  | joining (cs : List Char)
  | joiningCarriage (cs : List Char)
  /-- After the line break that a backslash removes, with the blanks that follow. -/
  | joined (cs : List Char)
deriving DecidableEq, Repr

/-- Characters that end a bare run. -/
def isDelimiter (c : Char) : Bool :=
  c ∈ ['.', '=', ',', '[', ']', '\x7b', '\x7d', ' ', '\t', '#', '\r', '\n']

/-- Characters that stand for themselves in comments and quoted text. -/
def isPlain (c : Char) : Bool :=
  c = '\t' ∨ (0x20 ≤ c.toNat ∧ c.toNat ≠ 0x7f)

def hexDigit? (c : Char) : Option Nat :=
  if '0' ≤ c ∧ c ≤ '9' then some (c.toNat - '0'.toNat)
  else if 'a' ≤ c ∧ c ≤ 'f' then some (c.toNat - 'a'.toNat + 10)
  else if 'A' ≤ c ∧ c ≤ 'F' then some (c.toNat - 'A'.toNat + 10)
  else none

/-- The character with a number, if there is one. -/
def charOfNumber? (n : Nat) : Option Char :=
  if h : n.isValidChar then some (Char.ofNatAux n h) else none

namespace Mode

/-- The tokens that a character completes, and where the automaton goes. -/
abbrev Move := Option (List Token × Mode)

def text (cs : List Char) : String := String.ofList cs.reverse

/-- Goes on inside quoted text. -/
def resume (isBlock : Bool) (cs : List Char) : Mode :=
  if isBlock then .block .basic 0 cs else .quoted .basic cs

/-- The first character of a token. -/
def begin (c : Char) : Move :=
  match c with
  | ' ' | '\t' => some ([], .blanks [c])
  | '\n' => some ([.newline], .between)
  | '\r' => some ([], .carriage)
  | '#' => some ([], .comment)
  | '.' => some ([.dot], .between)
  | '=' => some ([.equals], .between)
  | ',' => some ([.comma], .between)
  | '[' => some ([.openBracket], .between)
  | ']' => some ([.closeBracket], .between)
  | '\x7b' => some ([.openBrace], .between)
  | '\x7d' => some ([.closeBrace], .between)
  | '"' => some ([], .opening .basic false)
  | '\'' => some ([], .opening .literal false)
  | c => some ([], .bare [c])

/-- Ends a token before `c`, which begins the next one. -/
def endBefore (t : Token) (c : Char) : Move :=
  (begin c).map fun (ts, m) => (t :: ts, m)

def inQuoted (q : Quote) (cs : List Char) (c : Char) : Move :=
  if c = q.char then some ([.quoted (text cs)], .between)
  else if q = .basic ∧ c = '\\' then some ([], .escape false cs)
  else if isPlain c then some ([], .quoted q (c :: cs))
  else none

/-- Three quotes end a block, and up to two more in front of them belong to it. -/
def inBlock (q : Quote) (quotes : Nat) (cs : List Char) (c : Char) : Move :=
  if c = q.char then
    if quotes = 4 then some ([.block (text (q.char :: q.char :: cs))], .between)
    else some ([], .block q (quotes + 1) cs)
  else if 3 ≤ quotes then
    endBefore (.block (text (List.replicate (quotes - 3) q.char ++ cs))) c
  else
    let cs := List.replicate quotes q.char ++ cs
    if q = .basic ∧ c = '\\' then some ([], .escape true cs)
    else if c = '\r' then some ([], .blockCarriage q cs)
    else if c = '\n' ∨ isPlain c then some ([], .block q 0 (c :: cs))
    else none

def inEscape (isBlock : Bool) (cs : List Char) (c : Char) : Move :=
  match c with
  | '"' => some ([], resume isBlock ('"' :: cs))
  | '\\' => some ([], resume isBlock ('\\' :: cs))
  | 'b' => some ([], resume isBlock ('\x08' :: cs))
  | 'e' => some ([], resume isBlock ('\x1b' :: cs))
  | 'f' => some ([], resume isBlock ('\x0c' :: cs))
  | 'n' => some ([], resume isBlock ('\n' :: cs))
  | 'r' => some ([], resume isBlock ('\r' :: cs))
  | 't' => some ([], resume isBlock ('\t' :: cs))
  | 'x' => some ([], .number isBlock 2 0 cs)
  | 'u' => some ([], .number isBlock 4 0 cs)
  | 'U' => some ([], .number isBlock 8 0 cs)
  | ' ' | '\t' => if isBlock then some ([], .joining cs) else none
  | '\n' => if isBlock then some ([], .joined cs) else none
  | '\r' => if isBlock then some ([], .joiningCarriage cs) else none
  | _ => none

def inNumber (isBlock : Bool) (left value : Nat) (cs : List Char) (c : Char) : Move := do
  let value := value * 16 + (← hexDigit? c)
  if left = 1 then
    let c ← charOfNumber? value
    return ([], resume isBlock (c :: cs))
  else return ([], .number isBlock (left - 1) value cs)

def step (m : Mode) (c : Char) : Move :=
  match m with
  | .between => begin c
  | .bare cs => if isDelimiter c then endBefore (.bare (text cs)) c else some ([], .bare (c :: cs))
  | .blanks cs =>
    if c = ' ' ∨ c = '\t' then some ([], .blanks (c :: cs)) else endBefore (.blank (text cs)) c
  | .comment =>
    if c = '\n' then some ([.newline], .between)
    else if c = '\r' then some ([], .carriage)
    else if isPlain c then some ([], .comment)
    else none
  | .carriage => if c = '\n' then some ([.newline], .between) else none
  | .opening q false => if c = q.char then some ([], .opening q true) else inQuoted q [] c
  | .opening q true => if c = q.char then some ([], .blockStart q) else endBefore (.quoted "") c
  | .quoted q cs => inQuoted q cs c
  | .blockStart q =>
    if c = '\n' then some ([], .block q 0 [])
    else if c = '\r' then some ([], .blockStartCarriage q)
    else inBlock q 0 [] c
  | .blockStartCarriage q => if c = '\n' then some ([], .block q 0 []) else none
  | .block q quotes cs => inBlock q quotes cs c
  | .blockCarriage q cs => if c = '\n' then some ([], .block q 0 ('\n' :: '\r' :: cs)) else none
  | .escape isBlock cs => inEscape isBlock cs c
  | .number isBlock left value cs => inNumber isBlock left value cs c
  | .joining cs =>
    if c = ' ' ∨ c = '\t' then some ([], .joining cs)
    else if c = '\n' then some ([], .joined cs)
    else if c = '\r' then some ([], .joiningCarriage cs)
    else none
  | .joiningCarriage cs => if c = '\n' then some ([], .joined cs) else none
  | .joined cs =>
    if c = ' ' ∨ c = '\t' ∨ c = '\n' then some ([], .joined cs)
    else if c = '\r' then some ([], .joiningCarriage cs)
    else inBlock .basic 0 cs c

/-- The token that the end of the document completes; nothing may be left open. -/
def finish : Mode → Option (List Token)
  | .between | .comment => some []
  | .bare cs => some [.bare (text cs)]
  | .blanks cs => some [.blank (text cs)]
  | .opening _ true => some [.quoted ""]
  | .block q quotes cs =>
    if 3 ≤ quotes then some [.block (text (List.replicate (quotes - 3) q.char ++ cs))] else none
  | _ => none

end Mode

/-- Reads on from a mode; `done` holds the tokens before, the last one first. -/
def tokensFrom : Mode → (done : List Token) → List Char → Option (List Token)
  | m, done, [] => m.finish.map fun ts => done.reverse ++ ts
  | m, done, c :: cs =>
    match m.step c with
    | none => none
    | some (ts, m) => tokensFrom m (ts.reverse ++ done) cs

/-- A byte order mark in front of the document is skipped. -/
def tokens (document : String) : Option (List Token) :=
  match document.toList with
  | '\ufeff' :: cs => tokensFrom .between [] cs
  | cs => tokensFrom .between [] cs

end Toml

end IndexPools
