import BoardRollup.Json.Reader

/-!
# What a column value holds

A column value has no fixed form. Where it is a string, the string mostly is JSON of its
own; a string that is not counts as plain text, so every value holds something.
-/

namespace BoardRollup

/-- What a column value holds. -/
inductive Contents where
  /-- The value is no string. -/
  | absent
  | object (fields : List (String × Json))
  | text (s : String)
  /-- JSON that is neither an object nor a string. -/
  | other (v : Json)
  /-- A string that is not JSON. -/
  | plain (s : String)
  deriving DecidableEq

namespace Contents

def ofString (s : String) : Contents :=
  match Json.read? s with
  | some (.obj fields) => .object fields
  | some (.str inner) => .text inner
  | some v => .other v
  | none => .plain s

def ofValue : Json → Contents
  | .str s => ofString s
  | _ => .absent

def field? (key : String) : Contents → Option Json
  | .object fields => fields.lookup key
  | _ => none

@[simp] theorem ofValue_str (s : String) : ofValue (.str s) = ofString s := rfl

@[simp] theorem ofValue_null : ofValue .null = .absent := rfl

end Contents

/-- The text that a cell contributes: its own unless that is empty, and else what its
value holds: a string, the e-mail address or text of an object, or plain text. -/
def cellText (text : Option String) (value : Json) : Option String :=
  match text.filter (· ≠ "") with
  | some shown => some shown
  | none =>
    match Contents.ofValue value with
    | .text s => some s
    | .object fields =>
      ((fields.lookup "email").bind Json.str?).or ((fields.lookup "text").bind Json.str?)
    | .plain s => some s
    | .other _ | .absent => none

end BoardRollup
