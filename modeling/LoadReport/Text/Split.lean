/-!
# Splitting text

A text splits at each occurrence of a separator into parts that hold none.
There is always one part more than there are separators, so that the parts and
the separator give the text back.
-/

namespace LoadReport
namespace Text

/-- The parts of a text between the occurrences of a character. -/
def split (separator : Char) : List Char → List (List Char)
  | [] => [[]]
  | c :: rest =>
      match split separator rest with
      | [] => [[c]]
      | part :: parts =>
          if c = separator then [] :: part :: parts else (c :: part) :: parts

/-- The words of a text, each separated from the next by one space. -/
def words (text : String) : List String := (split ' ' text.toList).map String.ofList

theorem split_ne_nil (separator : Char) (text : List Char) : split separator text ≠ [] := by
  cases text with
  | nil => simp [split]
  | cons c rest =>
      rw [split]
      split
      · simp
      · split <;> simp

/-- The parts with the separator between them are the text. -/
theorem intercalate_split (separator : Char) (text : List Char) :
    [separator].intercalate (split separator text) = text := by
  induction text with
  | nil => rfl
  | cons c rest ih =>
      rw [split]
      split
      · rename_i h
        exact absurd h (split_ne_nil separator rest)
      · rename_i part parts h
        rw [h] at ih
        split
        · rename_i hc
          subst hc
          rw [← ih]
          simp [List.intercalate, List.intersperse]
        · rw [← ih]
          cases parts <;> simp [List.intercalate, List.intersperse]

end Text
end LoadReport
