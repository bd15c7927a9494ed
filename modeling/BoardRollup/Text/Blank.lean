/-!
# Blank characters

The characters with the `White_Space` property, and trimming by them. Core's
`Char.isWhitespace` knows four of the twenty-five.
-/

namespace BoardRollup

/-- A character with the `White_Space` property. -/
def isBlank (c : Char) : Bool :=
  let n := c.toNat
  (0x09 ≤ n && n ≤ 0x0D) || n = 0x20 || n = 0x85 || n = 0xA0 || n = 0x1680
    || (0x2000 ≤ n && n ≤ 0x200A) || n = 0x2028 || n = 0x2029 || n = 0x202F
    || n = 0x205F || n = 0x3000

def trimBlanks (cs : List Char) : List Char :=
  ((cs.dropWhile isBlank).reverse.dropWhile isBlank).reverse

def trimText (text : String) : String := .ofList (trimBlanks text.toList)

def isBlankText (text : String) : Bool := text.toList.all isBlank

@[simp] theorem trimBlanks_nil : trimBlanks [] = [] := rfl

end BoardRollup
