/-!
# Blank characters

Two sets of characters count as blank. The first is the Unicode property
White_Space. The second adds the four information separators, which are
controls without that property; it is the set that separates words in
files of variables.
-/

namespace LoadReport
namespace Text

/-- A character with the property White_Space. -/
def isBlank (c : Char) : Bool :=
  let n := c.toNat
  (9 ≤ n && n ≤ 13) || n == 0x20 || n == 0x85 || n == 0xa0 || n == 0x1680
    || (0x2000 ≤ n && n ≤ 0x200a) || n == 0x2028 || n == 0x2029 || n == 0x202f
    || n == 0x205f || n == 0x3000

/-- A blank character or an information separator. -/
def isSeparator (c : Char) : Bool :=
  isBlank c || (0x1c ≤ c.toNat && c.toNat ≤ 0x1f)

/-- Drops blanks at both ends. -/
def trim (blank : Char → Bool) (text : List Char) : List Char :=
  (((text.dropWhile blank).reverse).dropWhile blank).reverse

/-- ASCII blanks are blank. -/
theorem isBlank_of_isWhitespace {c : Char} (h : c.isWhitespace = true) : isBlank c = true := by
  simp only [Char.isWhitespace, Bool.or_eq_true, decide_eq_true_eq] at h
  rcases h with ((rfl | rfl) | rfl) | rfl <;> decide

end Text
end LoadReport
