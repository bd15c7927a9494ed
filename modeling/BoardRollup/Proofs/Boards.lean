import BoardRollup.Proofs.Indexes
import BoardRollup.Proofs.Repetition

/-!
# Other boards

A column that relates to a board is computed from the indexed items of this board alone, as
they stand in order. Which other items are indexed, and where among them, makes no difference
to its value, nor to its text if any item of the board contributes to it.

The two ways to choose the linked items come to this for different reasons. An id that a
flagged column refers to is looked up, and no two items have it; so it leads to an item of the
board or to none. Where all indexed items are read, those of the board are read in their order.

Only the names that stand in for a missing text are taken from items of any board.
-/

namespace BoardRollup

open Contributions

/-- The text that a linked item contributes under a column id: none if it lacks the column or its
cell shows nothing. -/
def LinkedItem.textFor? (item : LinkedItem) (columnId : String) : Option String := do
  let cell ← item.cell? columnId
  shown? (cellText cell.text cell.value)

namespace LinkedIndex

variable {index other : LinkedIndex} {target : Target}

theorem Keyed.textFor?_eq (keyed : index.Keyed) (target : Target) (id : String) :
    index.textFor? target id =
      ((index.itemsOn target.boardId).find? (·.id = id)).bind (·.textFor? target.columnId) := by
  rw [← keyed.filter_get?]
  rfl

/-- If all indexed items are read, then those of the board, in order. -/
theorem Keyed.textsFor_ids (keyed : index.Keyed) (target : Target) :
    index.textsFor target index.ids =
      (index.itemsOn target.boardId).filterMap (·.textFor? target.columnId) := by
  rw [textsFor, keyed.ids_eq, List.filterMap_map, itemsOn, List.filterMap_filter]
  refine List.filterMap_congr fun item mem => ?_
  have found : index.get? item.id = some item := keyed.get?_eq_some_iff.mpr ⟨mem, rfl⟩
  by_cases board : item.boardId = target.boardId
  · simp [textFor?, found, Option.filter_some, board, LinkedItem.textFor?]
  · simp [textFor?, found, Option.filter_some, board]

/-- Two indexes with the same items on a board, in the same order. -/
def AgreeOnBoard (boardId : String) (index other : LinkedIndex) : Prop :=
  index.itemsOn boardId = other.itemsOn boardId

theorem AgreeOnBoard.textsFor (h : AgreeOnBoard target.boardId index other)
    (keyed : index.Keyed) (keyed' : other.Keyed) (ids : List String) :
    index.textsFor target ids = other.textsFor target ids := by
  refine List.filterMap_congr fun id _ => ?_
  rw [keyed.textFor?_eq, keyed'.textFor?_eq, h]

theorem AgreeOnBoard.textsFor_ids (h : AgreeOnBoard target.boardId index other)
    (keyed : index.Keyed) (keyed' : other.Keyed) :
    index.textsFor target index.ids = other.textsFor target other.ids := by
  rw [keyed.textsFor_ids, keyed'.textsFor_ids, h]

end LinkedIndex

namespace Column

variable {c : Column} {item : Item} {index other : LinkedIndex} {target : Target}

/-- Whether it is narrowed or not, a column is given the same texts. -/
theorem sourceTexts_congr (targeted : c.crossTarget? = some target)
    (h : LinkedIndex.AgreeOnBoard target.boardId index other) (keyed : index.Keyed)
    (keyed' : other.Keyed) : c.sourceTexts item index = c.sourceTexts item other := by
  obtain ⟨relation, found, target_eq⟩ := Option.bind_eq_some_iff.mp targeted
  rw [sourceTexts_of_target found target_eq, sourceTexts_of_target found target_eq,
    Item.sourceIds, Item.sourceIds]
  by_cases all : item.flaggedIds relation = []
  · rw [if_pos all, if_pos all]
    exact h.textsFor_ids keyed keyed'
  · rw [if_neg all, if_neg all]
    exact h.textsFor keyed keyed' _

/-- Some linked item that a column of an item reads is on the board of the column's target and
shows a text there under the target's column. -/
def Contributed (item : Item) (index : LinkedIndex) (c : Column) : Prop :=
  ∃ relation target, c.relation? .crossBoard = some relation ∧
    relation.target? = some target ∧
    ∃ id ∈ item.sourceIds relation index, ∃ source cell text,
      index.get? id = some source ∧ source.boardId = target.boardId ∧
        source.cell? target.columnId = some cell ∧
        shown? (cellText cell.text cell.value) = some text

theorem contributed_iff : c.Contributed item index ↔ c.sourceTexts item index ≠ [] := by
  constructor
  · rintro ⟨relation, target, found, targeted, id, mem, source, cell, text, contributes⟩
    have mem_texts : text ∈ index.textsFor target (item.sourceIds relation index) :=
      LinkedIndex.mem_textsFor.mpr ⟨id, mem, source, cell, contributes⟩
    exact List.ne_nil_of_mem
      (mem_sourceTexts.mpr ⟨relation, target, found, targeted, mem_texts⟩)
  · intro some_text
    obtain ⟨text, mem⟩ := List.exists_mem_of_ne_nil _ some_text
    obtain ⟨relation, target, found, targeted, mem_texts⟩ := mem_sourceTexts.mp mem
    obtain ⟨id, mem, source, cell, contributes⟩ := LinkedIndex.mem_textsFor.mp mem_texts
    exact ⟨relation, target, found, targeted, id, mem, source, cell, text, contributes⟩

/-- Without contributions a pass fills the text in, and does nothing else. -/
theorem gathered_of_not_contributed (targeted : c.crossTarget? = some target)
    (h : ¬ c.Contributed item index) : c.gathered item index = c.fillText index := by
  obtain ⟨relation, found, target_eq⟩ := Option.bind_eq_some_iff.mp targeted
  have none : c.sourceTexts item index = [] := Classical.not_not.mp fun some_text =>
    h (contributed_iff.mpr some_text)
  rw [sourceTexts_of_target found target_eq] at none
  rw [gathered_of_target found target_eq, none]
  rfl

/-- A text is filled in differently only where names are. -/
theorem linkedNames_ne_of_fillText_ne (h : c.fillText index ≠ c.fillText other) :
    shown? c.text = none ∧ c.displayValue.filter (!isBlankText ·) = none ∧
      ∃ ids, c.linkedIds = some ids ∧ linkedNames index ids ≠ linkedNames other ids := by
  cases own : shown? c.text with
  | some text => exact absurd (by rw [fillText_of_shown own, fillText_of_shown own]) h
  | none =>
    have standIn : c.standIn? index ≠ c.standIn? other := fun same =>
      h (by rw [fillText_of_not_shown own, fillText_of_not_shown own, same])
    have names := mt standIn?_congr standIn
    simp only [Classical.not_imp, not_forall] at names
    exact ⟨rfl, names⟩

/-- What two passes over an item, with an index each, make of a column may differ in names only.
The values are the same, and so are the texts if the column has a contribution in either index.
Where the texts differ, the column showed none, and both passes have done no more than fill in
the names of the items that it is linked to. -/
structure DifferByNames (c : Column) (item : Item) (index other : LinkedIndex) (d e : Column) :
    Prop where
  value : d.value = e.value
  text : c.Contributed item index ∨ c.Contributed item other → d.text = e.text
  filled : d.text ≠ e.text → d = c.fillText index ∧ e = c.fillText other
  names : d.text ≠ e.text →
    shown? c.text = none ∧ c.displayValue.filter (!isBlankText ·) = none ∧
      ∃ ids, c.linkedIds = some ids ∧ linkedNames index ids ≠ linkedNames other ids

theorem differByNames_gathered (targeted : c.crossTarget? = some target)
    (h : LinkedIndex.AgreeOnBoard target.boardId index other) (keyed : index.Keyed)
    (keyed' : other.Keyed) :
    c.DifferByNames item index other (c.gathered item index) (c.gathered item other) := by
  have texts : c.sourceTexts item index = c.sourceTexts item other :=
    sourceTexts_congr targeted h keyed keyed'
  have both : c.Contributed item index ↔ c.Contributed item other := by
    rw [contributed_iff, contributed_iff, texts]
  obtain ⟨relation, found, _⟩ := Option.bind_eq_some_iff.mp targeted
  have text (contributed : c.Contributed item index) :
      (c.gathered item index).text = (c.gathered item other).text := by
    have some_text : c.sourceTexts item other ≠ [] := contributed_iff.mp (both.mp contributed)
    rw [gathered_text found, gathered_text found, texts, joinedText?, if_neg some_text]
    rfl
  have filled (differ : (c.gathered item index).text ≠ (c.gathered item other).text) :
      c.gathered item index = c.fillText index ∧ c.gathered item other = c.fillText other := by
    have none : ¬ c.Contributed item index := fun contributed => differ (text contributed)
    exact ⟨gathered_of_not_contributed targeted none,
      gathered_of_not_contributed targeted fun contributed => none (both.mpr contributed)⟩
  constructor
  case value => rw [gathered_value, gathered_value, texts]
  case text => exact fun contributed => text (contributed.elim (fun h => h) both.mpr)
  case filled => exact filled
  case names =>
    intro differ
    obtain ⟨first, second⟩ := filled differ
    rw [first, second] at differ
    exact linkedNames_ne_of_fillText_ne fun same => differ (congrArg Column.text same)

end Column

namespace Item

/-- Linked items of other boards make no difference to a column but through names. -/
theorem gather_isolated {item : Item} {position : Nat} {c : Column} {target : Target}
    {first second : List LinkedItem} (column : item.columns[position]? = some c)
    (targeted : c.crossTarget? = some target)
    (same : LinkedIndex.AgreeOnBoard target.boardId (.ofItems first) (.ofItems second)) :
    ∃ d e, (item.gather (.ofItems first)).1.columns[position]? = some d ∧
      (item.gather (.ofItems second)).1.columns[position]? = some e ∧
      c.DifferByNames item (.ofItems first) (.ofItems second) d e := by
  have gathered (index : LinkedIndex) :
      (item.gather index).1.columns[position]? = some (c.gathered item index) := by
    rw [columns_gather, List.getElem?_map, column, Option.map_some]
  exact ⟨_, _, gathered _, gathered _,
    Column.differByNames_gathered targeted same (LinkedIndex.keyed_ofItems first)
      (LinkedIndex.keyed_ofItems second)⟩

/-- A column that refers to item 2 and reads prices on board 9. -/
def linkedToTwo : Item := ofLink (some ["2"]) .null

/-- Item 1 on board 9, and item 2 on another board. -/
def besideAnn : List LinkedItem :=
  [⟨"1", none, some "9", [⟨"price", some "4", .null⟩]⟩, ⟨"2", some "Ann", some "7", []⟩]

/-- The same item on board 9, behind items of other boards, and item 2 by another name. -/
def behindBea : List LinkedItem :=
  [⟨"3", none, some "8", [⟨"price", some "5", .null⟩]⟩, ⟨"2", some "Bea", some "8", []⟩,
    ⟨"1", none, some "9", [⟨"price", some "4", .null⟩]⟩]

theorem gather_isolated_linkedToTwo :
    ∃ c, linkedToTwo.columns[0]? = some c ∧ c.crossTarget? = some ⟨"9", "price"⟩ ∧
      LinkedIndex.AgreeOnBoard "9" (.ofItems besideAnn) (.ofItems behindBea) ∧
      ∃ d e, (linkedToTwo.gather (.ofItems besideAnn)).1.columns[0]? = some d ∧
        (linkedToTwo.gather (.ofItems behindBea)).1.columns[0]? = some e ∧
        c.DifferByNames linkedToTwo (.ofItems besideAnn) (.ofItems behindBea) d e := by
  have targeted : (linkedToTwo.columns[0]?.bind Column.crossTarget?) = some ⟨"9", "price"⟩ := by
    decide +kernel
  have same : LinkedIndex.AgreeOnBoard "9" (.ofItems besideAnn) (.ofItems behindBea) := by
    unfold LinkedIndex.AgreeOnBoard
    decide +kernel
  obtain ⟨c, column, targeted⟩ := Option.bind_eq_some_iff.mp targeted
  exact ⟨c, column, targeted, same, gather_isolated column targeted same⟩

example : (linkedToTwo.gather (.ofItems besideAnn)).1.columns.map Column.text = [some "Ann"] ∧
    (linkedToTwo.gather (.ofItems behindBea)).1.columns.map Column.text = [some "Bea"] := by
  decide +kernel

end Item

end BoardRollup
