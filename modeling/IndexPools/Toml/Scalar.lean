import IndexPools.Toml.Moment
import IndexPools.Value

/-!
# Values without quotes in TOML

Truth values, whole numbers in four bases, decimal numbers, dates and times (`Toml.Scalar.read?`).
Underscores may stand between digits (`Toml.Scalar.underscoresFit`). A whole number may be of any
size. What has the form of a number but not the digits is a bad number rather than no value at all,
and so is a decimal number that rounds to infinity in double precision.
-/

namespace IndexPools

namespace Toml

namespace Scalar

def digitValue (c : Char) : Nat :=
  if c.isDigit then c.toNat - '0'.toNat else c.toLower.toNat - 'a'.toNat + 10

def isDigitOf (base : Nat) (c : Char) : Bool :=
  (c.isDigit || ('a' ≤ c.toLower && c.toLower ≤ 'f')) && digitValue c < base

/-- Every underscore stands before a digit and after one; `before` is the character in front, if
there is one. -/
def underscoresFit (isDigit : Char → Bool) (before : Option Char) : List Char → Bool
  | [] => true
  | c :: cs =>
    (c ≠ '_' || before.any isDigit && cs.head?.any isDigit) && underscoresFit isDigit (some c) cs

/-- The number that digits stand for; underscores do not count. -/
def number (base : Nat) (digits : List Char) : Nat :=
  (digits.filter (· ≠ '_')).foldl (fun n c => n * base + digitValue c) 0

/-- Digits and underscores, and at least one of them. -/
def areDigits (isDigit : Char → Bool) (cs : List Char) : Bool :=
  cs ≠ [] && cs.all fun c => isDigit c || c = '_'

/-- A zero stands in front of something. -/
def hasLeadingZero (cs : List Char) : Bool :=
  cs.head? = some '0' && 1 < cs.length

def unsign : List Char → Option Char × List Char
  | '+' :: cs => (some '+', cs)
  | '-' :: cs => (some '-', cs)
  | cs => (none, cs)

def withSign (sign : Option Char) (n : Nat) : Int :=
  if sign = some '-' then -(n : Int) else n

/-- The digits of a whole number after the mark of its base. Without any, the number is bad. -/
def based? (base : Nat) (ds : List Char) : Option Value :=
  if ds = [] then some .badNumber
  else if areDigits (isDigitOf base) ds && underscoresFit (isDigitOf base) none ds then
    some (.integer (number base ds))
  else none

/-- A whole number in base ten after its sign. After an underscore anything goes that is no part of
a decimal number, but only digits make the number a good one; beside underscores letters up to `f`
count as digits too. -/
def whole? (sign : Option Char) (cs : List Char) : Option Value :=
  let rest := cs.dropWhile Char.isDigit
  if cs = [] || hasLeadingZero cs || !underscoresFit (isDigitOf 16) none cs then none
  else if areDigits Char.isDigit cs then some (.integer (withSign sign (number 10 cs)))
  else if rest.head? = some '_' && !rest.any (· ∈ [' ', '.', 'e', 'E']) then some .badNumber
  else none

/-- The least number that rounds to infinity in double precision. -/
def doubleLimit : Nat := Nat.pow 2 1024 - Nat.pow 2 970

/-- `m * 10 ^ e` is below the limit. The number of places decides, unless it is near the limit. -/
def isFinite (m : Nat) (e : Int) : Bool :=
  let places := (Nat.toDigits 10 m).length + e
  if m = 0 ∨ places < 300 then true
  else if 310 < places then false
  else if 0 ≤ e then m * Nat.pow 10 e.toNat < doubleLimit
  else m < doubleLimit * Nat.pow 10 (-e).toNat

/-- The power of ten after the letter `e`, if it is written well. -/
def exponent? (cs : List Char) : Option Int :=
  let (sign, ds) := unsign cs
  if areDigits Char.isDigit ds then some (withSign sign (number 10 ds)) else none

/-- A number with places or an exponent, after its sign. -/
def decimal? (cs : List Char) : Option Value := do
  let isE := fun c : Char => c = 'e' || c = 'E'
  let mantissa := cs.takeWhile fun c => !isE c
  let front := mantissa.takeWhile (· ≠ '.')
  let places := (mantissa.dropWhile (· ≠ '.')).drop 1
  let e ← match cs.dropWhile fun c => !isE c with
    | [] => some 0
    | _ :: ds => exponent? ds
  if !areDigits Char.isDigit front || hasLeadingZero front
      || !underscoresFit Char.isDigit none cs then none
  else if mantissa.length ≠ front.length && !areDigits Char.isDigit places then none
  else
    let count := (places.filter (· ≠ '_')).length
    if isFinite (number 10 (front ++ places)) (e - count) then some .decimal
    else some .badNumber

def number? (cs : List Char) : Option Value :=
  match unsign cs with
  | (none, '0' :: 'x' :: ds) => based? 16 ds
  | (none, '0' :: 'o' :: ds) => based? 8 ds
  | (none, '0' :: 'b' :: ds) => based? 2 ds
  | (_, ['i', 'n', 'f']) | (_, ['n', 'a', 'n']) => some .decimal
  | (sign, cs) => (whole? sign cs).or (decimal? cs)

def read? (s : String) : Option Value :=
  if s = "true" then some (.boolean true)
  else if s = "false" then some (.boolean false)
  else
    match Moment.read? s.toList with
    | some cs => some (.moment (String.ofList cs))
    | none => number? s.toList

end Scalar

end Toml

end IndexPools
