import BoardRollup.Output.Items
import Mathlib.Algebra.Ring.Nat
import Mathlib.Data.List.Forall2

/-!
# Items in rows

As text, a list of items is meant to come in blocks of lines: one for an item, then one for each
of its columns. Ids, names and cells stand in the rows as they are, so a line break in any of them
divides its row, and every later row moves down.

The lines of the output are told from the rows for all items. They come in blocks exactly if no
text that an item shows has a line break.
-/

namespace BoardRollup

/-- What stands between the line breaks of a text. -/
def pieces (text : String) : List String := (text.toList.splitOn '\n').map .ofList

/-- The lines of a text. Behind the last break there is a line only if anything stands there. -/
def lines (text : String) : List String :=
  if (pieces text).getLast? = some "" then (pieces text).dropLast else pieces text

def lineBreaks (text : String) : Nat := text.toList.count '\n'

def OnOneLine (text : String) : Prop := '\n' ∉ text.toList

instance : DecidablePred OnOneLine := fun text => inferInstanceAs (Decidable ('\n' ∉ text.toList))

theorem onOneLine_iff_lineBreaks_eq_zero {text : String} : OnOneLine text ↔ lineBreaks text = 0 :=
  List.count_eq_zero.symm

theorem onOneLine_append {s t : String} : OnOneLine (s ++ t) ↔ OnOneLine s ∧ OnOneLine t := by
  rw [OnOneLine, String.toList_append, List.mem_append, not_or]
  rfl

theorem OnOneLine.pieces_eq {text : String} (whole : OnOneLine text) : pieces text = [text] := by
  rw [pieces, List.splitOn_eq_singleton whole, List.map_singleton, String.ofList_toList]

theorem length_pieces (text : String) : (pieces text).length = 1 + lineBreaks text := by
  rw [pieces, List.length_map, lineBreaks]
  induction text.toList with
  | nil => rfl
  | cons c rest ih =>
    rw [List.splitOn_cons_eq_if_modifyHead, List.count_cons]
    split
    · rw [List.length_cons, ih]
      omega
    · rw [List.length_modifyHead, ih]
      rfl

theorem unlines_append (rows others : List String) :
    unlines (rows ++ others) = unlines rows ++ unlines others := by
  rw [unlines, List.map_append, String.join_append]
  rfl

theorem toList_unlines_cons (row : String) (rows : List String) :
    (unlines (row :: rows)).toList = row.toList ++ '\n' :: (unlines rows).toList := by
  simp [unlines, String.toList_join]

/-- Only the breaks in a row divide it. Behind the end of the last row there is nothing. -/
theorem pieces_unlines (rows : List String) :
    pieces (unlines rows) = rows.flatMap pieces ++ [""] := by
  induction rows with
  | nil => rfl
  | cons row rows ih =>
    rw [pieces, toList_unlines_cons, List.splitOn_append_cons_self, List.map_append,
      List.flatMap_cons, List.append_assoc, ← ih]
    rfl

theorem lines_unlines (rows : List String) : lines (unlines rows) = rows.flatMap pieces := by
  rw [lines, pieces_unlines, List.getLast?_concat, if_pos rfl, List.dropLast_concat]

example : lines (unlines ["a\nb", "", "c"]) = ["a", "b", "", "c"] := by decide

theorem lines_unlines_of_onOneLine {rows : List String} (whole : ∀ row ∈ rows, OnOneLine row) :
    lines (unlines rows) = rows := by
  rw [lines_unlines]
  induction rows with
  | nil => rfl
  | cons row rows ih =>
    rw [List.forall_mem_cons] at whole
    rw [List.flatMap_cons, whole.1.pieces_eq, ih whole.2]
    rfl

theorem length_lines_unlines (rows : List String) :
    (lines (unlines rows)).length = rows.length + (rows.map lineBreaks).sum := by
  rw [lines_unlines]
  induction rows with
  | nil => rfl
  | cons row rows ih =>
    rw [List.flatMap_cons, List.length_append, length_pieces, ih, List.length_cons,
      List.map_cons, List.sum_cons]
    omega

/-- Counting the lines is enough to find out whether a row is divided. -/
theorem length_lines_unlines_eq_iff {rows : List String} :
    (lines (unlines rows)).length = rows.length ↔ ∀ row ∈ rows, OnOneLine row := by
  rw [length_lines_unlines, Nat.add_eq_left, List.sum_eq_zero_iff_forall_eq_nat,
    List.forall_mem_map]
  simp only [onOneLine_iff_lineBreaks_eq_zero]

/-- A column shows a text in its row. -/
inductive Column.Shows (c : Column) : String → Prop
  /-- Its own text, if that is not empty. -/
  | text {text : String} (own : c.text = some text) (filled : text ≠ "") : c.Shows text
  /-- Without such a text, the string that it holds, if that is not empty. -/
  | held {raw : String} (bare : ∀ text, c.text = some text → text = "")
      (value : c.value = .str raw) (filled : raw ≠ "") : c.Shows raw
  /-- Without either, a dash. -/
  | neither (bare : ∀ text, c.text = some text → text = "")
      (empty : ∀ raw, c.value = .str raw → raw = "") : c.Shows "-"

/-- An item shows a text in its rows. -/
inductive Item.Shows (item : Item) : String → Prop
  | id : item.Shows item.header.id
  | name {name : String} (named : item.header.name = some name) : item.Shows name
  | columnId {c : Column} (mem : c ∈ item.columns) : item.Shows c.id
  | cell {c : Column} {shown : String} (mem : c ∈ item.columns) (shows : c.Shows shown) :
      item.Shows shown

theorem Column.filter_text_eq_none_iff {c : Column} :
    c.text.filter (· ≠ "") = none ↔ ∀ text, c.text = some text → text = "" := by
  simp

/-- A column shows its summary and nothing else. -/
theorem Column.shows_iff {c : Column} {shown : String} : c.Shows shown ↔ c.summary = shown := by
  unfold summary
  constructor
  · intro shows
    cases shows with
    | text own filled => simp [own, Option.filter_some, filled]
    | held bare value filled =>
      rw [filter_text_eq_none_iff.mpr bare, value]
      exact if_neg filled
    | neither bare empty =>
      rw [filter_text_eq_none_iff.mpr bare]
      cases value : c.value with
      | str raw => exact if_pos (empty raw value)
      | null | bool _ | num _ | arr _ | obj _ => rfl
  · rintro rfl
    split
    · next text _ filtered =>
      obtain ⟨own, filled⟩ := Option.filter_eq_some_iff.mp filtered
      exact .text own (by simpa using filled)
    · next raw filtered value =>
      have bare := filter_text_eq_none_iff.mp filtered
      split
      · next empty =>
        refine .neither bare fun other same => ?_
        rw [value] at same
        cases same
        exact empty
      · next filled => exact .held bare value filled
    · next filtered other =>
      exact .neither (filter_text_eq_none_iff.mp filtered) fun raw value => absurd value (other raw)

/-- The rest of a row is blanks and dashes. -/
theorem Item.onOneLine_rows_iff {item : Item} :
    (∀ row ∈ item.rows, OnOneLine row) ↔ ∀ shown, item.Shows shown → OnOneLine shown := by
  have blanks : OnOneLine "  " := by decide
  have dash : OnOneLine "-" := by decide
  rw [rows, List.forall_mem_cons, List.forall_mem_map]
  simp only [onOneLine_append, blanks, true_and, and_true]
  constructor
  · rintro ⟨⟨own, name⟩, each⟩ shown shows
    cases shows with
    | id => exact own
    | name named => rwa [named] at name
    | columnId mem => exact (each _ mem).1
    | cell mem shows =>
      rw [← Column.shows_iff.mp shows]
      exact (each _ mem).2
  · intro whole
    refine ⟨⟨whole _ .id, ?_⟩, fun c mem => ⟨whole _ (.columnId mem), ?_⟩⟩
    · cases named : item.header.name with
      | none => exact dash
      | some name => exact whole _ (.name named)
    · exact whole _ (.cell mem (Column.shows_iff.mpr rfl))

/-- A line begins like the row of a column: with two blanks and the id. -/
def Column.Begins (c : Column) (line : String) : Prop := ∃ rest, line = "  " ++ c.id ++ rest

/-- One line for an item, then one for each of its columns in order. -/
inductive Item.Block (item : Item) : List String → Prop
  | intro {first : String} {cells : List String} (begins : ∃ rest, first = item.header.id ++ rest)
      (each : List.Forall₂ Column.Begins item.columns cells) : Block item (first :: cells)

/-- Lines come in blocks, one for each item in order. -/
def InBlocks (items : List Item) (printed : List String) : Prop :=
  ∃ blocks, List.Forall₂ Item.Block items blocks ∧ printed = blocks.flatten

theorem Item.block_rows (item : Item) : item.Block item.rows := by
  refine .intro ⟨_, String.append_assoc⟩ ?_
  rw [List.forall₂_map_right_iff, List.forall₂_same]
  exact fun c _ => ⟨_, String.append_assoc⟩

theorem inBlocks_rows (items : List Item) : InBlocks items (items.flatMap Item.rows) := by
  refine ⟨items.map Item.rows, ?_, List.flatMap_def⟩
  rw [List.forall₂_map_right_iff, List.forall₂_same]
  exact fun item _ => item.block_rows

theorem Item.Block.length_eq {item : Item} {block : List String} (h : item.Block block) :
    block.length = 1 + item.columns.length := by
  cases h with
  | intro begins each => rw [List.length_cons, each.length_eq, Nat.add_comm]

theorem InBlocks.length_eq {items : List Item} {printed : List String}
    (h : InBlocks items printed) :
    printed.length = (items.map fun item => 1 + item.columns.length).sum := by
  obtain ⟨blocks, each, rfl⟩ := h
  induction each with
  | nil => rfl
  | cons block _ ih =>
    rw [List.flatten_cons, List.length_append, block.length_eq, ih, List.map_cons, List.sum_cons]

theorem renderItems_text (items : List Item) :
    renderItems .text items = unlines (items.flatMap Item.rows) := by
  have joined :
      renderItems .text items = String.join (items.map fun item => unlines item.rows) := by
    cases items <;> rfl
  rw [joined]
  clear joined
  induction items with
  | nil => rfl
  | cons item items ih =>
    rw [List.map_cons, String.join_cons, ih, List.flatMap_cons, unlines_append]

/-- The lines are the pieces of the rows in order: one for each item and column, and one more for
each line break in a row. They come in blocks exactly if no text that is shown has a break. -/
theorem lines_renderItems_text (items : List Item) :
    lines (renderItems .text items) = items.flatMap (fun item => item.rows.flatMap pieces) ∧
      (lines (renderItems .text items)).length =
        (items.map fun item => 1 + item.columns.length).sum +
          ((items.flatMap Item.rows).map lineBreaks).sum ∧
      (InBlocks items (lines (renderItems .text items)) ↔
        ∀ item ∈ items, ∀ shown, item.Shows shown → OnOneLine shown) := by
  have count := (inBlocks_rows items).length_eq
  have whole_iff : (∀ row ∈ items.flatMap Item.rows, OnOneLine row) ↔
      ∀ item ∈ items, ∀ shown, item.Shows shown → OnOneLine shown := by
    simp only [List.forall_mem_flatMap, Item.onOneLine_rows_iff]
  rw [renderItems_text]
  refine ⟨?_, ?_, ?_⟩
  · rw [lines_unlines, List.flatMap_assoc]
  · rw [length_lines_unlines, count]
  · rw [← whole_iff]
    constructor
    · intro blocks
      -- Blocks fix the number of lines, which leaves no room for a break.
      rw [← length_lines_unlines_eq_iff, blocks.length_eq, count]
    · intro whole
      rw [lines_unlines_of_onOneLine whole]
      exact inBlocks_rows items

/-- An item with a note of two lines. -/
def notedItem : Item where
  header := { ItemHeader.empty with id := "1", name := some "Order" }
  email := .null
  columns := [{ Column.ofRaw .empty with id := "note", text := some "first\nsecond" }]
  mappables := []
  assets := []
  parent := none
  subitems := []

/-- The second line of a note is printed like a row of its own. -/
theorem renderItems_text_divided :
    lines (renderItems .text [notedItem]) = ["1  Order", "  note  first", "second"] ∧
      ¬∀ items, InBlocks items (lines (renderItems .text items)) := by
  have divided : lines (renderItems .text [notedItem]) =
      ["1  Order", "  note  first", "second"] := by decide
  refine ⟨divided, fun blocks => ?_⟩
  have two := (blocks [notedItem]).length_eq
  rw [divided] at two
  exact absurd two (by decide)

end BoardRollup
