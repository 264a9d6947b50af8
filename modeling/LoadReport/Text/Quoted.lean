import LoadReport.Text.Printable

/-!
# Quoted text

Messages show a piece of text in quotes, so that its ends and its
unprintable characters can be seen. Single quotes are used, unless the text
holds a single quote and no double quote. The quote in use, backslashes,
line ends and tabs are written with a backslash, other unprintable
characters by their code point in lower-case hexadecimal, and all other
characters as they are.
-/

namespace LoadReport
namespace Text

def hex (width codePoint : Nat) : List Char :=
  let digits := Nat.toDigits 16 codePoint
  List.replicate (width - digits.length) '0' ++ digits

def quoteFor (text : List Char) : Char :=
  if text.contains '\'' && !text.contains '"' then '"' else '\''

/-- A character named by its code point. -/
def escapeByNumber (c : Char) : List Char :=
  if c.toNat < 0x100 then '\\' :: 'x' :: hex 2 c.toNat
  else if c.toNat < 0x10000 then '\\' :: 'u' :: hex 4 c.toNat
  else '\\' :: 'U' :: hex 8 c.toNat

/-- A character between quotes. -/
def escape (quote c : Char) : List Char :=
  if c = quote ∨ c = '\\' then ['\\', c]
  else if c = '\n' then ['\\', 'n']
  else if c = '\r' then ['\\', 'r']
  else if c = '\t' then ['\\', 't']
  else if isPrintable c then [c]
  else escapeByNumber c

def quoted (text : String) : String :=
  let quote := quoteFor text.toList
  String.ofList (quote :: (text.toList.flatMap (escape quote) ++ [quote]))

/-- Printable characters other than quotes and backslashes stand for
themselves. -/
theorem escape_of_printable {quote c : Char} (hq : c ≠ quote) (hb : c ≠ '\\')
    (hp : isPrintable c = true) : escape quote c = [c] := by
  have hn : c ≠ '\n' := by rintro rfl; exact absurd hp (by decide)
  have hr : c ≠ '\r' := by rintro rfl; exact absurd hp (by decide)
  have ht : c ≠ '\t' := by rintro rfl; exact absurd hp (by decide)
  simp [escape, hq, hb, hn, hr, ht, hp]

/-- A text with all characters beyond ASCII named by their code points. -/
def inAscii (text : String) : String :=
  String.ofList (text.toList.flatMap fun c => if c.toNat < 0x80 then [c] else escapeByNumber c)

/-- A character of ASCII that leaves a mark is shown as it is, others by their
number; `limit` is the first number that is taken to leave none. -/
def shownBelow (limit : Nat) (c : Char) : String :=
  if 32 < c.toNat ∧ c.toNat < limit then c.toString
  else "\\x" ++ String.ofList (Nat.toDigits 16 c.toNat)

end Text
end LoadReport
