import IndexPools.Text.Visible

/-!
# Quoted text

Text between double quotes, as messages show a value (`Text.quote`): the quote and the backslash are
escaped, the common control characters have letters, and a character that is not visible is written
by its number in hexadecimal.
-/

namespace IndexPools

def Text.quoteChar (c : Char) : List Char :=
  match c with
  | '"' => ['\\', '"']
  | '\\' => ['\\', '\\']
  | '\n' => ['\\', 'n']
  | '\r' => ['\\', 'r']
  | '\t' => ['\\', 't']
  | '\x00' => ['\\', '0']
  | c =>
    if Text.isVisible c then [c]
    else ['\\', 'u', '\x7b'] ++ Nat.toDigits 16 c.toNat ++ ['\x7d']

def Text.quote (s : String) : String :=
  String.ofList ('"' :: s.toList.flatMap Text.quoteChar ++ ['"'])

end IndexPools
