/-!
# Dates and times in TOML

A date, a time of day, or both, with an offset from universal time only after both
(`Toml.Moment.read?`). The result is the moment's standard form: `T` between date and time, seconds
also where none are written, at most nine places of a second without zeros at the end, and `Z` for
universal time.
-/

namespace IndexPools

namespace Toml

namespace Moment

/-- Two digits, as they stand and as a number. -/
def two? (a b : Char) : Option Nat :=
  if a.isDigit && b.isDigit then
    some ((a.toNat - '0'.toNat) * 10 + (b.toNat - '0'.toNat))
  else none

def isLeap (year : Nat) : Bool :=
  year % 4 = 0 ∧ (year % 100 ≠ 0 ∨ year % 400 = 0)

def daysIn (year month : Nat) : Nat :=
  if month = 2 then if isLeap year then 29 else 28
  else if month ∈ [4, 6, 9, 11] then 30
  else 31

/-- The date in front, and what follows it. -/
def date? : List Char → Option (List Char × List Char)
  | y1 :: y2 :: y3 :: y4 :: '-' :: m1 :: m2 :: '-' :: d1 :: d2 :: rest => do
    let year := (← two? y1 y2) * 100 + (← two? y3 y4)
    let month ← two? m1 m2
    let day ← two? d1 d2
    if 1 ≤ month ∧ month ≤ 12 ∧ 1 ≤ day ∧ day ≤ daysIn year month then
      some ([y1, y2, y3, y4, '-', m1, m2, '-', d1, d2], rest)
    else none
  | _ => none

/-- The places of a second in standard form, with the point before them. -/
def places (digits : List Char) : List Char :=
  match ((digits.take 9).reverse.dropWhile (· = '0')).reverse with
  | [] => []
  | ds => '.' :: ds

/-- The seconds and their places in front; both may be missing, and then there are none. -/
def seconds? : List Char → Option (List Char × List Char)
  | ':' :: s1 :: s2 :: rest => do
    if 60 < (← two? s1 s2) then none
    else
      match rest with
      | '.' :: ps =>
        let digits := ps.takeWhile Char.isDigit
        if digits = [] then none
        else some ([':', s1, s2] ++ places digits, ps.dropWhile Char.isDigit)
      | _ => some ([':', s1, s2], rest)
  | rest => some ([':', '0', '0'], rest)

/-- The time of day in front, and what follows it. -/
def time? : List Char → Option (List Char × List Char)
  | h1 :: h2 :: ':' :: m1 :: m2 :: rest => do
    if 23 < (← two? h1 h2) ∨ 59 < (← two? m1 m2) then none
    else
      let (seconds, rest) ← seconds? rest
      some ([h1, h2, ':', m1, m2] ++ seconds, rest)
  | _ => none

/-- An offset that is all the rest, if there is one. -/
def offset? : List Char → Option (List Char)
  | [] => some []
  | ['Z'] => some ['Z']
  | ['z'] => some ['Z']
  | [sign, h1, h2, ':', m1, m2] => do
    let hours ← two? h1 h2
    let minutes ← two? m1 m2
    if (sign ≠ '+' ∧ sign ≠ '-') ∨ 23 < hours ∨ 59 < minutes then none
    else if hours = 0 ∧ minutes = 0 then some ['+', '0', '0', ':', '0', '0']
    else some [sign, h1, h2, ':', m1, m2]
  | _ => none

def read? (cs : List Char) : Option (List Char) :=
  match date? cs with
  | some (date, []) => some date
  | some (date, c :: rest) =>
    if c = 'T' ∨ c = 't' ∨ c = ' ' then do
      let (time, rest) ← time? rest
      let offset ← offset? rest
      some (date ++ 'T' :: time ++ offset)
    else none
  | none =>
    match time? cs with
    | some (time, []) => some time
    | _ => none

end Moment

end Toml

end IndexPools
