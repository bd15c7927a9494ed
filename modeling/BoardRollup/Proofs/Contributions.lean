import BoardRollup.Linked.References
import BoardRollup.Relation.Contributions

/-!
# What contributions come to

Contributions are gathered one cell at a time. Here they are told at once: the texts that
count are those that are there and not empty, the joined text is these with commas
between them, and the sum is that of the numbers among them, from zero and in order. A
column value that holds a sum refers to no linked item.
-/

namespace BoardRollup

namespace Contributions

/-- The text of a cell if it contributes: if it is there and not empty. -/
def shown? (text : Option String) : Option String := text.filter (· ≠ "")

def counted (cells : List (Option String)) : List String := cells.filterMap shown?

/-- The sum of numbers in order, if there are any. -/
def total? (numbers : List Double) : Option Double :=
  match numbers with
  | [] => none
  | numbers => some (numbers.foldl (· + ·) (.zero false))

def joinedText? (texts : List String) : Option String :=
  if texts = [] then none else some (", ".intercalate texts)

/-- The sum of the numbers among texts as a column value, if any of them is a number. -/
def summedValue? (texts : List String) : Option Json :=
  (total? (texts.filterMap Numeral.read)).map fun sum =>
    .str (Json.str (Numeral.write sum)).compact

/-- The contributions that texts which all count come to. -/
def ofCounted (texts : List String) : Contributions :=
  ⟨texts, total? (texts.filterMap Numeral.read)⟩

@[simp] theorem shown?_none : shown? none = none := rfl

@[simp] theorem shown?_empty : shown? (some "") = none := rfl

theorem shown?_of_ne {text : String} (h : text ≠ "") : shown? (some text) = some text := by
  simp [shown?, Option.filter_some, h]

theorem ne_empty_of_shown? {cell : Option String} {text : String}
    (h : shown? cell = some text) : text ≠ "" := by
  simpa using (Option.filter_eq_some_iff.mp h).2

@[simp] theorem counted_nil : counted [] = [] := rfl

theorem counted_cons (cell : Option String) (cells : List (Option String)) :
    counted (cell :: cells) = (shown? cell).toList ++ counted cells := by
  cases h : shown? cell <;> simp [counted, h]

@[simp] theorem total?_nil : total? [] = none := rfl

theorem total?_concat (numbers : List Double) (n : Double) :
    total? (numbers ++ [n]) = some ((total? numbers).getD (.zero false) + n) := by
  cases numbers with
  | nil => rfl
  | cons first rest =>
    change some ((first :: rest ++ [n]).foldl (· + ·) (.zero false)) = _
    rw [List.foldl_append]
    rfl

/-- Adding one cell appends its text where it counts. -/
theorem ofCounted_add (texts : List String) (cell : Option String) :
    (ofCounted texts).add cell = ofCounted (texts ++ (shown? cell).toList) := by
  cases cell with
  | none => simp
  | some text =>
    by_cases empty : text = ""
    · subst empty
      simp
    · rw [shown?_of_ne empty, Option.toList_some]
      cases read : Numeral.read text with
      | none => simp [add, ofCounted, empty, read]
      | some n => simp [add, ofCounted, empty, read, total?_concat, -Double.add_eq]

theorem foldl_add (cells : List (Option String)) (texts : List String) :
    cells.foldl add (ofCounted texts) = ofCounted (texts ++ counted cells) := by
  induction cells generalizing texts with
  | nil => simp
  | cons cell rest ih =>
    rw [List.foldl_cons, ofCounted_add, ih, List.append_assoc, counted_cons]

theorem ofTexts_eq (cells : List (Option String)) :
    ofTexts cells = ofCounted (counted cells) := by
  have all := foldl_add cells []
  rwa [List.nil_append] at all

theorem joined_ofTexts (cells : List (Option String)) :
    (ofTexts cells).joined = joinedText? (counted cells) := by
  rw [ofTexts_eq]
  rfl

theorem value_ofTexts (cells : List (Option String)) :
    (ofTexts cells).value = summedValue? (counted cells) := by
  rw [ofTexts_eq]
  rfl

theorem joinedText?_ne_empty {texts : List String} {text : String}
    (shown : ∀ t ∈ texts, t ≠ "") (h : joinedText? texts = some text) : text ≠ "" := by
  cases texts with
  | nil => simp [joinedText?] at h
  | cons first rest =>
    have first_ne : first ≠ "" := shown first List.mem_cons_self
    have joined : ", ".intercalate (first :: rest) = text := by simpa [joinedText?] using h
    subst joined
    cases rest with
    | nil => simpa using first_ne
    | cons second rest =>
      rw [String.intercalate_cons_cons]
      simp [first_ne]

end Contributions

namespace Json

/-- A text that opens with a quote is a string, or it is not JSON. -/
theorem readValue_quote {depth : Nat} {cs rest : List Char} {v : Json}
    (h : readValue depth ('"' :: cs) = some (v, rest)) : ∃ s, v = .str s := by
  have scalar : readScalar ('"' :: cs) = some (v, rest) := by
    cases depth with
    | zero => exact h
    | succ depth => exact h
  obtain ⟨⟨s, after⟩, _, result⟩ := Option.map_eq_some_iff.mp scalar
  exact ⟨s, (Prod.mk.inj result).1.symm⟩

theorem read?_quote {text : String} {cs : List Char} {v : Json}
    (opening : text.toList = '"' :: cs) (h : read? text = some v) : ∃ s, v = .str s := by
  rw [read?, opening] at h
  split at h
  · next read =>
    obtain ⟨s, rfl⟩ := readValue_quote read
    split at h
    · exact ⟨s, (Option.some.inj h).symm⟩
    · cases h
  · cases h

end Json

/-- The JSON of a string holds no object, so it has no fields. -/
theorem Contents.field?_ofString_compact (s key : String) :
    (Contents.ofString (Json.str s).compact).field? key = none := by
  have opening : (Json.str s).compact.toList = '"' :: (s.toList.flatMap Json.escape ++ ['"']) := by
    simp [Json.compact, Json.write, Json.writeString]
  cases read : Json.read? (Json.str s).compact with
  | none => simp [ofString, read, field?]
  | some v =>
    obtain ⟨inner, rfl⟩ := Json.read?_quote opening read
    simp [ofString, read, field?]

theorem embeddedIds_summedValue {texts : List String} {v : Json}
    (h : Contributions.summedValue? texts = some v) : embeddedIds v = [] := by
  obtain ⟨sum, _, rfl⟩ := Option.map_eq_some_iff.mp h
  simp [embeddedIds, Contents.field?_ofString_compact]

end BoardRollup
