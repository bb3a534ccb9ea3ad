/-!
# Blank characters

The characters of Unicode's `White_Space` property (`Text.isBlank`). Every character that core calls
white space is blank (`Text.isBlank_of_isWhitespace`), and so are twenty-one others.
-/

namespace IndexPools

/-- A character with the property `White_Space`. -/
def Text.isBlank (c : Char) : Bool :=
  let n := c.toNat
  (9 ≤ n && n ≤ 13) || n == 0x20 || n == 0x85 || n == 0xa0 || n == 0x1680
    || (0x2000 ≤ n && n ≤ 0x200a) || n == 0x2028 || n == 0x2029 || n == 0x202f || n == 0x205f
    || n == 0x3000

theorem Text.isBlank_of_isWhitespace {c : Char} (h : c.isWhitespace = true) :
    Text.isBlank c = true := by
  simp only [Char.isWhitespace, Bool.or_eq_true, decide_eq_true_eq] at h
  rcases h with ((h | h) | h) | h <;> subst h <;> rfl

end IndexPools
