import LoadReport.Number.Text
import LoadReport.Table
import LoadReport.Text.Quoted

/-!
# Plain values

Settings and stored plans come in as text or as structured data, and what a
value is good for is only known when it is checked against the field it is
meant for. Until then it is a `Datum`. Whether two of them are the same can be
decided, and a message may show any of them.
-/

namespace LoadReport

/-- A plain value of any shape. -/
inductive Datum
  | null
  | flag (value : Bool)
  | number (value : Number)
  | text (value : String)
  /-- Text that holds half of a pair of UTF-16 units, which is no character. -/
  | brokenText
  | list (items : List Datum)
  | object (fields : List (String × Datum))
deriving Inhabited

namespace Datum

/-! ## Sameness -/

mutual

def decideEq : (a b : Datum) → Decidable (a = b)
  | null, b =>
      match b with
      | null => isTrue rfl
      | flag _ | number _ | text _ | brokenText | list _ | object _ => isFalse nofun
  | flag x, b =>
      match b with
      | flag y => decidable_of_iff (x = y) (by simp)
      | null | number _ | text _ | brokenText | list _ | object _ => isFalse nofun
  | number x, b =>
      match b with
      | number y => decidable_of_iff (x = y) (by simp)
      | null | flag _ | text _ | brokenText | list _ | object _ => isFalse nofun
  | text x, b =>
      match b with
      | text y => decidable_of_iff (x = y) (by simp)
      | null | flag _ | number _ | brokenText | list _ | object _ => isFalse nofun
  | brokenText, b =>
      match b with
      | brokenText => isTrue rfl
      | null | flag _ | number _ | text _ | list _ | object _ => isFalse nofun
  | list xs, b =>
      match b with
      | list ys =>
          match decideEqItems xs ys with
          | isTrue h => isTrue (congrArg list h)
          | isFalse h => isFalse fun e => h (list.inj e)
      | null | flag _ | number _ | text _ | brokenText | object _ => isFalse nofun
  | object xs, b =>
      match b with
      | object ys =>
          match decideEqFields xs ys with
          | isTrue h => isTrue (congrArg object h)
          | isFalse h => isFalse fun e => h (object.inj e)
      | null | flag _ | number _ | text _ | brokenText | list _ => isFalse nofun

def decideEqItems : (xs ys : List Datum) → Decidable (xs = ys)
  | [], [] => isTrue rfl
  | [], _ :: _ => isFalse nofun
  | _ :: _, [] => isFalse nofun
  | x :: xs, y :: ys =>
      match decideEq x y, decideEqItems xs ys with
      | isTrue h, isTrue hs => isTrue (by rw [h, hs])
      | isFalse h, _ => isFalse fun e => h (List.cons.inj e).1
      | _, isFalse hs => isFalse fun e => hs (List.cons.inj e).2

def decideEqFields : (xs ys : List (String × Datum)) → Decidable (xs = ys)
  | [], [] => isTrue rfl
  | [], _ :: _ => isFalse nofun
  | _ :: _, [] => isFalse nofun
  | (n, x) :: xs, (m, y) :: ys =>
      match String.decEq n m, decideEq x y, decideEqFields xs ys with
      | isTrue hn, isTrue h, isTrue hs => isTrue (by rw [hn, h, hs])
      | isFalse hn, _, _ => isFalse fun e => hn (Prod.mk.inj (List.cons.inj e).1).1
      | _, isFalse h, _ => isFalse fun e => h (Prod.mk.inj (List.cons.inj e).1).2
      | _, _, isFalse hs => isFalse fun e => hs (List.cons.inj e).2

end

instance : DecidableEq Datum := decideEq

/-! ## Wording -/

/-- What stands in a message for text that is none. -/
def brokenMark : String := "\ufffd"

mutual

/-- The wording of a value in messages. -/
def display : Datum → String
  | null => "None"
  | flag true => "True"
  | flag false => "False"
  | number n => n.text
  | text s => Text.quoted s
  | brokenText => Text.quoted brokenMark
  | list items => "[" ++ displayItems items ++ "]"
  | object fields => "\x7b" ++ displayFields fields ++ "\x7d"

def displayItems : List Datum → String
  | [] => ""
  | [d] => d.display
  | d :: rest => d.display ++ ", " ++ displayItems rest

def displayFields : List (String × Datum) → String
  | [] => ""
  | [(name, d)] => Text.quoted name ++ ": " ++ d.display
  | (name, d) :: rest => Text.quoted name ++ ": " ++ d.display ++ ", " ++ displayFields rest

end

/-! ## Objects -/

/-- Sets some fields of an object, one after another. -/
def setAll (fields changes : Table String Datum) : Table String Datum :=
  changes.foldl (fun t change => Table.put (· == ·) change.1 change.2 t) fields

/-- One value laid over another. Objects are laid over objects field by
field; anything else covers what is below. -/
def covering : Datum → Datum → Datum
  | object changes, object fields => object (setAll fields changes)
  | upper, _ => upper

end Datum
end LoadReport
