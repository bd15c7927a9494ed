import BoardRollup.Text.Unshown

/-!
# Quoted text in messages

A message quotes a text so that every character shows: the quote and the backslash
are escaped, four controls have letters of their own, and other characters
that do not show are written by their code point.
-/

namespace BoardRollup

namespace Quoted

/-- A character as a message shows it. -/
def escape (c : Char) : List Char :=
  match c with
  | '"' => ['\\', '"']
  | '\\' => ['\\', '\\']
  | '\x00' => ['\\', '0']
  | '\t' => ['\\', 't']
  | '\n' => ['\\', 'n']
  | '\r' => ['\\', 'r']
  | c =>
    if isUnshown c then ['\\', 'u', '\x7b'] ++ Nat.toDigits 16 c.toNat ++ ['\x7d'] else [c]

/-- A text between quotes, as a message shows it. -/
def quote (text : String) : String := .ofList ('"' :: text.toList.flatMap escape ++ ['"'])

end Quoted

end BoardRollup
