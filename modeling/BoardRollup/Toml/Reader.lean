import BoardRollup.Json.Reader
import BoardRollup.Toml.Basic

/-!
# Reading TOML

Version 1.0 of the format: keys bare, quoted or dotted; strings on one line or several,
with escapes or literal; whole numbers that fit 64 bits, in four radixes; floats, truth
values, dates and times; arrays over several lines and tables on one. A statement
takes a line, a comment runs to the end of one, and a line ends in a line feed with
or without a carriage return before it.

Arrays and tables nest less than eighty deep, which bounds the recursion, and the
length of the text bounds every repetition.
-/

namespace BoardRollup

namespace Toml

def isGap (c : Char) : Bool := c = ' ' || c = '\t'

def skipGaps (cs : List Char) : List Char := cs.dropWhile isGap

/-- A character that a comment and a literal string may hold. -/
def isPlain (c : Char) : Bool := c = '\t' || (0x20 ≤ c.toNat && c.toNat ≠ 0x7F)

/-- The characters after a line end. -/
def lineEnd? : List Char → Option (List Char)
  | '\n' :: rest => some rest
  | '\r' :: '\n' :: rest => some rest
  | _ => none

/-- The characters from the end of a comment on, if one starts here. -/
def skipComment : List Char → List Char
  | '#' :: rest => rest.dropWhile isPlain
  | cs => cs

/-- The characters after the rest of a line, which holds nothing more but blanks and a
comment. -/
def finishLine (cs : List Char) : Option (List Char) :=
  match skipComment (skipGaps cs) with
  | [] => some []
  | rest => lineEnd? rest

/-- Skips blanks, comments and line ends. -/
def skipLines : Nat → List Char → List Char
  | 0, cs => cs
  | fuel + 1, cs =>
    let rest := skipComment (skipGaps cs)
    match lineEnd? rest with
    | some rest => skipLines fuel rest
    | none => rest

def pushHex (n : Nat) (c : Char) : Option Nat := (Json.hexValue c).map (16 * n + ·)

/-- The character with a code point in hexadecimal, unless it is half of a surrogate pair or
out of range. -/
def codePoint (digits : List Char) : Option Char := do
  let n ← digits.foldlM pushHex 0
  if n < 0xD800 ∨ (0xDFFF < n ∧ n < 0x110000) then some (.ofNat n) else none

def unescape : Char → Option Char
  | 'b' => some '\x08'
  | 't' => some '\t'
  | 'n' => some '\n'
  | 'f' => some '\x0c'
  | 'r' => some '\r'
  | '"' => some '"'
  | '\\' => some '\\'
  | _ => none

def readEscape : Reader Char
  | 'u' :: rest => do
    if rest.length < 4 then none
    else some (← codePoint (rest.take 4), rest.drop 4)
  | 'U' :: rest => do
    if rest.length < 8 then none
    else some (← codePoint (rest.take 8), rest.drop 8)
  | c :: rest => (unescape c).map (·, rest)
  | [] => none

/-- Reads a string with escapes up to and with its closing quote. -/
def readBasic : Nat → Reader (List Char)
  | 0, _ => none
  | fuel + 1, cs =>
    match cs with
    | [] => none
    | '"' :: rest => some ([], rest)
    | '\\' :: rest => do
      let (c, rest) ← readEscape rest
      Json.push c (readBasic fuel rest)
    | c :: rest => if isPlain c then Json.push c (readBasic fuel rest) else none

/-- Reads a string without escapes up to and with its closing quote. -/
def readLiteral : Reader (List Char)
  | [] => none
  | '\'' :: rest => some ([], rest)
  | c :: rest => if isPlain c then Json.push c (readLiteral rest) else none

/-- Skips blanks and line ends; a carriage return is one only before a line feed. -/
def skipBlankLines : List Char → List Char
  | '\r' :: '\n' :: rest => skipBlankLines rest
  | c :: rest => if isGap c || c = '\n' then skipBlankLines rest else c :: rest
  | [] => []

/-- The characters after a backslash that ends a line, without the blanks and line ends
there. -/
def continueLine? (cs : List Char) : Option (List Char) :=
  (lineEnd? (skipGaps cs)).map skipBlankLines

/-- Reads a string over several lines up to and with its three closing quotes. One or two
quotes before those belong to the string. -/
def readLong (quote : Char) (escapes : Bool) : Nat → Reader (List Char)
  | 0, _ => none
  | fuel + 1, cs =>
    let quotes := (cs.takeWhile (· = quote)).length
    if 3 ≤ quotes then
      let own := min (quotes - 3) 2
      some (List.replicate own quote, cs.drop (own + 3))
    else match cs with
      | [] => none
      | c :: rest =>
        if c = '\\' ∧ escapes then
          match continueLine? rest with
          | some rest => readLong quote escapes fuel rest
          | none => do
            let (c, rest) ← readEscape rest
            Json.push c (readLong quote escapes fuel rest)
        else match lineEnd? cs with
          | some rest => Json.push '\n' (readLong quote escapes fuel rest)
          | none => if isPlain c then Json.push c (readLong quote escapes fuel rest) else none

/-- Reads a string over several lines after its three opening quotes. A line end right
after those is dropped. -/
def readLongString (quote : Char) (escapes : Bool) : Reader String := fun cs => do
  let body := (lineEnd? cs).getD cs
  let (chars, rest) ← readLong quote escapes (body.length + 1) body
  some (.ofList chars, rest)

/-- Reads a string on one line. -/
def readShortString : Reader String
  | '"' :: rest => (readBasic (rest.length + 1) rest).map fun (chars, rest) =>
    (.ofList chars, rest)
  | '\'' :: rest => (readLiteral rest).map fun (chars, rest) => (.ofList chars, rest)
  | _ => none

def readString : Reader String
  | '"' :: '"' :: '"' :: rest => readLongString '"' true rest
  | '\'' :: '\'' :: '\'' :: rest => readLongString '\'' false rest
  | cs => readShortString cs

def isBareKeyChar (c : Char) : Bool := c.isAlphanum || c = '_' || c = '-'

/-- Reads one key, bare or quoted. -/
def readSimpleKey : Reader String := fun cs =>
  match cs with
  | '"' :: _ | '\'' :: _ => readShortString cs
  | _ =>
    let bare := cs.takeWhile isBareKeyChar
    if bare = [] then none else some (.ofList bare, cs.drop bare.length)

/-- How many tables may nest, and how many keys a dotted key may have. -/
def depthLimit : Nat := 80

/-- Reads keys with dots between them, and the blanks around them. -/
def readKeys : Nat → Reader (List String)
  | 0, _ => none
  | fuel + 1, cs => do
    let (key, rest) ← readSimpleKey (skipGaps cs)
    match skipGaps rest with
    | '.' :: rest =>
      let (keys, rest) ← readKeys fuel rest
      some (key :: keys, rest)
    | rest => some ([key], rest)

def readKey : Reader (List String) := readKeys (depthLimit - 1)

/-- A character of a number, a date, a time or a word. -/
def isWordChar (c : Char) : Bool := c.isAlphanum || "_+-.:".toList.contains c

/-- The digits of a number whose underscores all stand between two digits. -/
def ungroup (isDigit : Char → Bool) (cs : List Char) : Option (List Char) :=
  let groups := cs.splitOn '_'
  if groups.all fun group => group ≠ [] && group.all isDigit then some groups.flatten
  else none

/-- The digits of a decimal number without a leading zero. -/
def wholeDigits (cs : List Char) : Option (List Char) :=
  match ungroup Char.isDigit cs with
  | some ('0' :: _ :: _) => none
  | digits => digits

/-- A whole number that a signed 64-bit word holds. -/
def fits (n : Int) : Option Toml :=
  if -(signedLimit : Int) ≤ n ∧ n < signedLimit then some (.integer n) else none

/-- A whole number in a radix. -/
def radixInteger (radix : Nat) (cs : List Char) : Option Toml := do
  let isDigit (c : Char) : Bool := (Json.hexValue c).any (· < radix)
  let digits ← ungroup isDigit cs
  fits (digits.foldl (fun n c => radix * n + ((Json.hexValue c).getD 0)) 0 : Nat)

/-- The exponent of a float, which follows its mark. -/
def exponentDigits : List Char → Option Int
  | '-' :: digits => (ungroup Char.isDigit digits).map fun ds => -(Decimal.valueOf ds : Int)
  | '+' :: digits | digits => (ungroup Char.isDigit digits).map fun ds => Decimal.valueOf ds

/-- A part of a float that follows a mark: nothing where the mark is missing. -/
def markedPart {α : Type} (read : List Char → Option α) : List Char → Option (Option α)
  | [] => some none
  | _ :: digits => (read digits).map some

/-- A float after its sign: a whole part, then a fraction or an exponent or both. -/
def unsignedFloat (negative : Bool) (cs : List Char) : Option Toml := do
  let isExponentMark (c : Char) : Bool := c = 'e' || c = 'E'
  let mantissa := cs.takeWhile (!isExponentMark ·)
  let exponent ← markedPart exponentDigits (cs.dropWhile (!isExponentMark ·))
  let whole ← wholeDigits (mantissa.takeWhile (· ≠ '.'))
  let fraction ← markedPart (ungroup Char.isDigit) (mantissa.dropWhile (· ≠ '.'))
  if exponent.isNone ∧ fraction.isNone then none
  else
    let x := (Decimal.ofParts whole (fraction.getD []) (exponent.getD 0)).toDouble negative
    if x = .infinite false then none else some (.float x)

/-- A number after its sign. -/
def unsignedNumber (negative : Bool) (cs : List Char) : Option Toml :=
  if cs = "inf".toList then some (.float (.infinite negative))
  else if cs = "nan".toList then some (.float .nan)
  else match wholeDigits cs with
    | some digits =>
      let n : Int := Decimal.valueOf digits
      fits (if negative then -n else n)
    | none => unsignedFloat negative cs

/-- A whole number of exactly so many digits, in a range. -/
def clockPart (width low high : Nat) (cs : List Char) : Option Nat :=
  let n := Decimal.valueOf cs
  if cs.length = width && cs.all Char.isDigit && low ≤ n && n ≤ high then some n else none

def daysIn (year month : Nat) : Nat :=
  if month = 2 then
    if (year % 4 = 0 ∧ year % 100 ≠ 0) ∨ year % 400 = 0 then 29 else 28
  else if month = 4 ∨ month = 6 ∨ month = 9 ∨ month = 11 then 30
  else 31

/-- A date such as `1979-05-27`. -/
def isDate (cs : List Char) : Bool :=
  match cs.splitOn '-' with
  | [y, m, d] =>
    match clockPart 4 0 9999 y, clockPart 2 1 12 m with
    | some year, some month => (clockPart 2 1 (daysIn year month) d).isSome
    | _, _ => false
  | _ => false

/-- Hours and minutes such as `07:32`. -/
def isHourMinute (cs : List Char) : Bool :=
  match cs.splitOn ':' with
  | [h, m] => (clockPart 2 0 23 h).isSome && (clockPart 2 0 59 m).isSome
  | _ => false

/-- A time such as `07:32:00` or `07:32:00.999`. -/
def isTime (cs : List Char) : Bool :=
  let seconds := (cs.drop 6).takeWhile (· ≠ '.')
  isHourMinute (cs.take 5) && (cs.drop 5).head? = some ':'
    && (clockPart 2 0 60 seconds).isSome
    && match (cs.drop 6).dropWhile (· ≠ '.') with
      | [] => true
      | _ :: digits => digits ≠ [] && digits.all Char.isDigit

/-- A time with an offset, or without one. -/
def isOffsetTime (cs : List Char) : Bool :=
  let isOffsetMark (c : Char) : Bool := c = 'Z' || c = 'z' || c = '+' || c = '-'
  isTime (cs.takeWhile (!isOffsetMark ·)) &&
    match cs.dropWhile (!isOffsetMark ·) with
    | [] => true
    | mark :: offset => if mark = 'Z' || mark = 'z' then offset = [] else isHourMinute offset

/-- A date, a time, or a date with a time after a `T`. -/
def isMoment (cs : List Char) : Bool :=
  isDate cs || isTime cs ||
    (isDate (cs.take 10) &&
      match cs.drop 10 with
      | mark :: time => (mark = 'T' || mark = 't') && isOffsetTime time
      | [] => false)

/-- A value that is written as one word. -/
def ofWord (cs : List Char) : Option Toml :=
  if cs = "true".toList then some (.boolean true)
  else if cs = "false".toList then some (.boolean false)
  else if isMoment cs then some .moment
  else match cs with
    | '0' :: 'x' :: digits => radixInteger 16 digits
    | '0' :: 'o' :: digits => radixInteger 8 digits
    | '0' :: 'b' :: digits => radixInteger 2 digits
    | '+' :: rest => unsignedNumber false rest
    | '-' :: rest => unsignedNumber true rest
    | _ => unsignedNumber false cs

/-- Reads a value that is written as one word, or as a date and a time with a space between
them. -/
def readWord : Reader Toml := fun cs =>
  let word := cs.takeWhile isWordChar
  let rest := cs.drop word.length
  let time := match rest with
    | ' ' :: after => after.takeWhile isWordChar
    | _ => []
  if isDate word ∧ (time.head?.map Char.isDigit).getD false then
    if isOffsetTime time then some (.moment, rest.drop (time.length + 1)) else none
  else (ofWord word).map (·, rest)

/-- Reads the items of an array up to and with its closing bracket. A comma may follow the
last one. -/
def readItems (value : Reader Toml) : Nat → Reader (List Toml)
  | 0, _ => none
  | fuel + 1, cs =>
    match skipLines (cs.length + 1) cs with
    | ']' :: rest => some ([], rest)
    | cs => do
      let (item, rest) ← value cs
      match skipLines (rest.length + 1) rest with
      | ']' :: rest => some ([item], rest)
      | ',' :: rest =>
        let (items, rest) ← readItems value fuel rest
        some (item :: items, rest)
      | _ => none

def readEntry (value : Reader Toml) : Reader (List String × Toml) := fun cs => do
  let (path, rest) ← readKey cs
  match rest with
  | '=' :: rest =>
    let (v, rest) ← value (skipGaps rest)
    some ((path, v), rest)
  | _ => none

/-- Reads the entries of a table up to and with its closing brace, on one line. -/
def readPairs (value : Reader Toml) : Nat → TomlTable → Reader TomlTable
  | 0, _, _ => none
  | fuel + 1, pairs, cs => do
    let ((path, v), rest) ← readEntry value cs
    let pairs ← TomlTable.give v path true pairs
    match skipGaps rest with
    | ',' :: rest => readPairs value fuel pairs rest
    | '\x7d' :: rest => some (pairs, rest)
    | _ => none

/-- Reads a value that nests at most so deep. -/
def readValue : Nat → Reader Toml
  | 0, _ => none
  | depth + 1, cs =>
    match cs with
    | '"' :: _ | '\'' :: _ => (readString cs).map fun (s, rest) => (.text s, rest)
    | '[' :: rest =>
      if depth = 0 then none
      else (readItems (readValue depth) (rest.length + 1) rest).map fun (items, rest) =>
        (.array items, rest)
    | '\x7b' :: rest =>
      if depth = 0 then none
      else match skipGaps rest with
        | '\x7d' :: rest => some (.table .literal [], rest)
        | rest => (readPairs (readValue depth) (rest.length + 1) [] rest).map fun (pairs, rest) =>
          (.table .literal pairs, rest)
    | _ => readWord cs

def readStatement : Reader TomlStatement
  | '[' :: '[' :: rest => do
    let (path, rest) ← readKey rest
    match rest with
    | ']' :: ']' :: rest => some (.listHeader path, rest)
    | _ => none
  | '[' :: rest => do
    let (path, rest) ← readKey rest
    match rest with
    | ']' :: rest => some (.header path, rest)
    | _ => none
  | cs => (readEntry (readValue depthLimit) cs).map fun ((path, v), rest) =>
    (.entry path v, rest)

/-- Carries out the statements of a text, one to a line. -/
def runStatements : Nat → TomlDraft → List Char → Option TomlDraft
  | 0, _, _ => none
  | fuel + 1, draft, cs =>
    match skipLines (cs.length + 1) cs with
    | [] => some draft
    | cs => do
      let (statement, rest) ← readStatement cs
      let draft ← draft.apply statement
      runStatements fuel draft (← finishLine rest)

/-- The table of a document. A byte order mark before it is skipped. -/
def read? (text : String) : Option TomlTable :=
  let cs := match text.toList with
    | '\ufeff' :: rest => rest
    | cs => cs
  (runStatements (cs.length + 1) .empty cs).map (·.root)

end Toml

end BoardRollup
