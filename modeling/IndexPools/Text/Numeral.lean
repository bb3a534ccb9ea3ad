/-!
# Decimal numerals

Whole numbers as settings write them (`Numeral.read`): digits, after one optional plus sign, whose
value is not above a given bound. The digits are read from the left, and the first step that goes
wrong is reported, so a numeral that is too large before its first bad character is too large.
-/

namespace IndexPools

inductive NumeralFault where
  | empty
  | invalidDigit
  | tooLarge
deriving DecidableEq, Repr

def NumeralFault.message : NumeralFault → String
  | .empty => "cannot parse integer from empty string"
  | .invalidDigit => "invalid digit found in string"
  | .tooLarge => "number too large to fit in target type"

namespace Numeral

/-- Continues the number `n` with more digits. -/
def readDigits (bound : Nat) : Nat → List Char → Except NumeralFault Nat
  | n, [] => .ok n
  | n, c :: cs =>
    if !c.isDigit then .error .invalidDigit
    else
      let next := n * 10 + (c.toNat - '0'.toNat)
      if next ≤ bound then readDigits bound next cs else .error .tooLarge

def read (bound : Nat) (s : String) : Except NumeralFault Nat :=
  match s.toList with
  | [] => .error .empty
  | '+' :: c :: cs => readDigits bound 0 (c :: cs)
  | cs => readDigits bound 0 cs

end Numeral

end IndexPools
