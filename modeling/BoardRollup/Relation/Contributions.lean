import BoardRollup.Column.Contents
import BoardRollup.Json.Printer
import BoardRollup.Number.Numeral

/-!
# Contributions

What the cells of a relation's source records add up to: their texts in order, and the
sum of the texts that are numbers. Empty texts contribute nothing. There is a
sum only where something was a number; it is rounded once per addition, in order.
-/

namespace BoardRollup

structure Contributions where
  texts : List String
  sum : Option Double
  deriving DecidableEq

namespace Contributions

def separator : String := ", "

def empty : Contributions := ⟨[], none⟩

def add (c : Contributions) (text : Option String) : Contributions :=
  match text with
  | none => c
  | some text =>
    if text = "" then c
    else
      { texts := c.texts ++ [text]
        sum := match Numeral.read text with
          | some n => some (c.sum.getD (.zero false) + n)
          | none => c.sum }

def ofTexts (texts : List (Option String)) : Contributions := texts.foldl add empty

def joined (c : Contributions) : Option String :=
  if c.texts = [] then none else some (separator.intercalate c.texts)

/-- The sum as a column value: a string that holds the sum as a JSON string. -/
def value (c : Contributions) : Option Json :=
  c.sum.map fun sum => .str (Json.str (Numeral.write sum)).compact

@[simp] theorem add_none (c : Contributions) : c.add none = c := rfl

@[simp] theorem add_empty (c : Contributions) : c.add (some "") = c := rfl

@[simp] theorem ofTexts_nil : ofTexts [] = empty := rfl

@[simp] theorem joined_empty : empty.joined = none := rfl

@[simp] theorem value_empty : empty.value = none := rfl

end Contributions

end BoardRollup
