import LoadReport.Table
import LoadReport.Text.Blank

/-!
# Files of variables

Variables can be kept in a text file, one binding after another:

* a name, with an equals sign and a value, or without a value;
* the word `export` may stand before a name, and a name may stand between
  single quotes;
* a value is the rest of its line, or stands between single or double
  quotes, where it may run over several lines and have characters escaped by
  a backslash;
* a comment starts with `#`, behind a value only after a blank.

A mark of byte order at the very start counts for nothing, and a line that is
no such binding is skipped. Values may refer to other variables in braces
after a dollar sign: to those bound before, then to those of the environment.
-/

namespace LoadReport

/-- Variables by name, in the order in which they were first bound; a
variable may be bound to nothing. -/
abbrev Variables := Table String (Option String)

namespace VariableFile

/-! ## Lines and blanks -/

/-- Drops the mark of byte order that a file may start with. -/
def skipMark : List Char → List Char
  | '\ufeff' :: rest => rest
  | text => text

/-- Every kind of line break becomes a newline. -/
def normalizeBreaks : List Char → List Char
  | '\r' :: '\n' :: rest => '\n' :: normalizeBreaks rest
  | '\r' :: rest => '\n' :: normalizeBreaks rest
  | c :: rest => c :: normalizeBreaks rest
  | [] => []

def isInlineBlank (c : Char) : Bool := Text.isSeparator c && c != '\n'

def skipBlanks (text : List Char) : List Char := text.dropWhile isInlineBlank

/-- Drops the rest of a line with its newline. -/
def skipLine (text : List Char) : List Char := (text.dropWhile (· != '\n')).drop 1

/-- What follows the end of a line, if only blanks stand before it. -/
def afterLine? (text : List Char) : Option (List Char) :=
  match skipBlanks text with
  | [] => some []
  | '\n' :: rest => some rest
  | _ => none

/-- Drops a comment and the blanks before it, if there is one. -/
def skipComment (text : List Char) : List Char :=
  match skipBlanks text with
  | '#' :: rest => rest.dropWhile (· != '\n')
  | _ => text

/-! ## Quotes -/

/-- Splits behind an opening quote at the closing one. A backslash takes the
next character with it, whatever it is, so that it closes nothing. -/
def splitQuoted? (quote : Char) : List Char → Option (List Char × List Char)
  | [] => none
  | '\\' :: c :: rest =>
      (splitQuoted? quote rest).map fun (inside, tail) => ('\\' :: c :: inside, tail)
  | c :: rest =>
      if c = quote then some ([], rest)
      else (splitQuoted? quote rest).map fun (inside, tail) => (c :: inside, tail)

/-- The characters that stand for another one after a backslash between
double quotes. -/
def doubleEscapes : List (Char × Char) :=
  [('\\', '\\'), ('\'', '\''), ('"', '"'), ('a', '\x07'), ('b', '\x08'), ('f', '\x0c'),
   ('n', '\n'), ('r', '\r'), ('t', '\t'), ('v', '\x0b')]

/-- Those between single quotes. -/
def singleEscapes : List (Char × Char) := [('\\', '\\'), ('\'', '\'')]

/-- Replaces escaped characters. A backslash before any other character
stands for itself. -/
def unescape (escapes : List (Char × Char)) : List Char → List Char
  | '\\' :: c :: rest =>
      match escapes.lookup c with
      | some e => e :: unescape escapes rest
      | none => '\\' :: unescape escapes (c :: rest)
  | c :: rest => c :: unescape escapes rest
  | [] => []

/-! ## Bindings -/

/-- Drops the word `export` with the blanks after it, of which there has to
be at least one. -/
def skipExport (text : List Char) : List Char :=
  match text with
  | 'e' :: 'x' :: 'p' :: 'o' :: 'r' :: 't' :: c :: rest =>
      if isInlineBlank c then skipBlanks rest else text
  | _ => text

/-- Reads a name, if there is one. At a comment there is none and nothing is
read. -/
def readName? (text : List Char) : Option (Option String × List Char) :=
  match text with
  | '#' :: _ => some (none, text)
  | '\'' :: rest =>
      let name := rest.takeWhile (· != '\'')
      match name, rest.dropWhile (· != '\'') with
      | _ :: _, _ :: tail => some (some (String.ofList name), tail)
      | _, _ => none
  | _ =>
      let inName (c : Char) : Bool := !(c == '=' || c == '#' || Text.isSeparator c)
      let name := text.takeWhile inName
      if name.isEmpty then none
      else some (some (String.ofList name), text.dropWhile inName)

/-- A value without its comment and the blanks at its end. The comment starts
with the first `#` that follows a blank. -/
def stripComment : List Char → List Char
  | [] => []
  | c :: rest =>
      if Text.isSeparator c && (rest.dropWhile Text.isSeparator).head? == some '#' then []
      else c :: stripComment rest

/-- Reads the value behind an equals sign. Blanks before it do not belong to
it, but a comment may follow them. -/
def readValue? (text : List Char) : Option (String × List Char) :=
  let quoted (quote : Char) (escapes : List (Char × Char)) (rest : List Char) :=
    (splitQuoted? quote rest).map fun (inside, tail) =>
      (String.ofList (unescape escapes inside), tail)
  match skipBlanks text with
  | '\'' :: rest => quoted '\'' singleEscapes rest
  | '"' :: rest => quoted '"' doubleEscapes rest
  | _ =>
      let line := text.takeWhile (· != '\n')
      some (String.ofList (Text.trim Text.isSeparator (stripComment line)),
        text.dropWhile (· != '\n'))

/-- Reads what stands behind a name: a value after an equals sign, or
nothing. If the value cannot be read, the rest starts where it should. -/
def readAssigned (text : List Char) : Except (List Char) (Option String × List Char) :=
  match skipBlanks text with
  | '=' :: rest =>
      match readValue? rest with
      | some (value, tail) => .ok (some value, tail)
      | none => .error rest
  | rest => .ok (none, rest)

/-- Reads one binding, or skips one line that is none. -/
def readBinding (text : List Char) : Option (String × Option String) × List Char :=
  let text := skipExport (text.dropWhile Text.isSeparator)
  match readName? text with
  | none => (none, skipLine text)
  | some (name, rest) =>
      match readAssigned rest with
      | .error rest => (none, skipLine rest)
      | .ok (value, rest) =>
          let rest := skipComment rest
          match afterLine? rest with
          | some rest => (name.map fun n => (n, value), rest)
          | none => (none, skipLine rest)

def readBindings (text : List Char) : List (String × Option String) :=
  let step := readBinding text
  if _h : step.2.length < text.length then
    step.1.toList ++ readBindings step.2
  else
    []
termination_by text.length

/-! ## References -/

/-- Reads behind a dollar sign a reference to a variable: its name, what to
put in its place if it is not bound, and what follows. -/
def readReference? : List Char → Option (String × String × List Char)
  | '\x7b' :: rest =>
      let inName (c : Char) : Bool := c != '\x7d' && c != ':'
      let name := String.ofList (rest.takeWhile inName)
      match rest.dropWhile inName with
      | '\x7d' :: tail => some (name, "", tail)
      | ':' :: '-' :: rest =>
          match rest.dropWhile (· != '\x7d') with
          | _ :: tail => some (name, String.ofList (rest.takeWhile (· != '\x7d')), tail)
          | [] => none
      | _ => none
  | _ => none

theorem length_dropWhile_le (p : Char → Bool) (text : List Char) :
    (text.dropWhile p).length ≤ text.length :=
  (List.dropWhile_sublist p).length_le

theorem readReference?_length {text tail : List Char} {name default : String}
    (h : readReference? text = some (name, default, tail)) : tail.length < text.length := by
  unfold readReference? at h
  split at h
  · rename_i rest
    have hle := length_dropWhile_le (fun c => c != '\x7d' && c != ':') rest
    dsimp only at h
    split at h
    · rename_i t ht
      simp only [Option.some.injEq, Prod.mk.injEq] at h
      obtain ⟨-, -, rfl⟩ := h
      rw [ht] at hle
      simp only [List.length_cons] at hle ⊢
      omega
    · rename_i r hr
      have hle' := length_dropWhile_le (· != '\x7d') r
      rw [hr] at hle
      split at h
      · rename_i t ht
        simp only [Option.some.injEq, Prod.mk.injEq] at h
        rw [ht] at hle'
        obtain ⟨-, -, rfl⟩ := h
        simp only [List.length_cons] at hle hle' ⊢
        omega
      · contradiction
    · contradiction
  · contradiction

def expand (valueOf : String → Option (Option String)) (text : List Char) : List Char :=
  match text with
  | [] => []
  | c :: rest =>
      if c = '$' then
        match h : readReference? rest with
        | some (name, default, tail) =>
            have := readReference?_length h
            (((valueOf name).getD (some default)).getD "").toList ++ expand valueOf tail
        | none => c :: expand valueOf rest
      else c :: expand valueOf rest
termination_by text.length

/-- A text without dollar signs stays as it is. -/
theorem expand_of_not_mem (valueOf : String → Option (Option String)) {text : List Char}
    (h : '$' ∉ text) : expand valueOf text = text := by
  induction text with
  | nil => rw [expand]
  | cons c rest ih =>
      rw [List.mem_cons, not_or] at h
      rw [expand, if_neg (Ne.symm h.1), ih h.2]

/-- The value of a variable: as it was bound in the file, or else as it is in
the environment. -/
def valueIn (environment : List (String × String)) (bound : Variables) (name : String) :
    Option (Option String) :=
  (Table.get? (· == ·) name bound).or ((environment.lookup name).map some)

/-- Binds variables one after another, with their references replaced. -/
def bindAll (environment : List (String × String)) (bindings : List (String × Option String)) :
    Variables :=
  bindings.foldl (fun bound (name, value) =>
    let value := value.map fun v =>
      String.ofList (expand (valueIn environment bound) v.toList)
    Table.put (· == ·) name value bound) []

def read (environment : List (String × String)) (text : String) : Variables :=
  bindAll environment (readBindings (normalizeBreaks (skipMark text.toList)))

end VariableFile
end LoadReport
