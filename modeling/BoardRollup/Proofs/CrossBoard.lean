import BoardRollup.Proofs.Contributions
import BoardRollup.Proofs.Pass
import BoardRollup.Relation.CrossBoard
import Mathlib.Data.List.Basic

/-!
# Cross-board columns at once

What the cross-board pass makes of an item can be told from the item before the pass,
all columns at the same time. A column that relates to another board first has its text
filled in. If it has a target, it then reads the items that the flagged columns refer to,
each id once and in order, or all indexed items if those columns refer to none, and
of these the ones on the target board that have the target column.

No column sees what the pass has written to another, also where the pass is run as a loop
that writes in place.
-/

namespace BoardRollup

open Contributions

namespace Item

/-- The ids that the columns flagged by a relation refer to, as the item stands: for each
flagged id those of the first column with that id, in order and each id once. -/
def flaggedIds (item : Item) (relation : Relation) : List String :=
  (relation.flagged.flatMap fun id =>
    ((item.column? id).map Column.references).getD []).eraseDups

/-- The ids of the linked items that a relation of the item reads. -/
def sourceIds (item : Item) (relation : Relation) (index : LinkedIndex) : List String :=
  if item.flaggedIds relation = [] then index.ids else item.flaggedIds relation

end Item

/-- The text that the item with an id contributes to a target: none if the id is not indexed,
the item is on another board, it lacks the column, or its cell shows nothing. -/
def LinkedIndex.textFor? (index : LinkedIndex) (target : Target) (id : String) :
    Option String := do
  let linked ← (index.get? id).filter (·.boardId = target.boardId)
  let cell ← linked.cell? target.columnId
  shown? (cellText cell.text cell.value)

/-- The texts that linked items contribute to a target, in order. -/
def LinkedIndex.textsFor (index : LinkedIndex) (target : Target) (ids : List String) :
    List String :=
  ids.filterMap (index.textFor? target)

namespace Column

def crossTarget? (c : Column) : Option Target := (c.relation? .crossBoard).bind Relation.target?

/-- A column with contributed texts written over it: their joined text and their sum, where
they have any. -/
def written (c : Column) (texts : List String) : Column :=
  { c with
    text := (joinedText? texts).or c.text
    value := (summedValue? texts).getD c.value }

/-- A column after the cross-board pass over an item. -/
def gathered (item : Item) (index : LinkedIndex) (c : Column) : Column :=
  match c.relation? .crossBoard with
  | none => c
  | some relation =>
    match relation.target? with
    | none => c.fillText index
    | some target =>
      (c.fillText index).written (index.textsFor target (item.sourceIds relation index))

end Column

/-- Writes texts to the values of ids, one after the other. -/
def Mappables.refreshAll (mappables : Mappables) (texts : List (String × Option String)) :
    Mappables :=
  texts.foldl (fun mappables entry => mappables.refresh entry.1 entry.2) mappables

/-- What a pass writes to mappable values: the text of each revised column under its id. -/
def Pass.writtenTexts (revise : Column → Option Revision) (columns : List Column) :
    List (String × Option String) :=
  columns.filterMap fun c => (revise c).map fun r => (r.column.id, r.column.text)

/-- The texts that the cross-board columns of an item come to have, under their ids. -/
def Item.crossTexts (item : Item) (index : LinkedIndex) : List (String × Option String) :=
  (item.columns.filter fun c => (c.relation? .crossBoard).isSome).map fun c =>
    (c.id, (c.gathered item index).text)

/-- An item after the cross-board pass: each column for itself, and the mappable values with
the texts that the cross-board columns come to have. -/
def Item.gatheredAtOnce (item : Item) (index : LinkedIndex) : Item :=
  { item with
    columns := item.columns.map (Column.gathered item index)
    mappables := item.mappables.refreshAll (item.crossTexts index) }

/-- An item with one column, which reads the prices of the items on board 9 that it refers to
itself, by its own list or in its value. -/
def Item.ofLink (linkedIds : Option (List String)) (value : Json) : Item where
  header := .empty
  email := .null
  columns := [{
    id := "link"
    value
    text := none
    displayValue := none
    title := none
    settings := some ("\x7b\"relation_column\":\x7b\"link\":true\x7d," ++
      "\"displayed_linked_columns\":\x7b\"9\":[\"price\"]\x7d\x7d")
    linkedIds }]
  mappables := []
  assets := []
  parent := none
  subitems := []

/-- The cross-board pass as a loop that writes each column back before it reads the next. -/
def Item.gatherInPlace (item : Item) (index : LinkedIndex) : Item × Nat :=
  item.passInPlace (Column.reviseCrossBoard (.ofColumns item.columns) index)

theorem ReferenceTable.lookup_ofColumns (columns : List Column) (id : String) :
    (ofColumns columns).lookup id = (Column.find? columns id).map Column.references := by
  induction columns with
  | nil => rfl
  | cons c rest ih =>
    change ((c.id, c.references) :: ofColumns rest).lookup id = _
    rw [Fields.lookup_cons, ih]
    by_cases h : c.id = id <;> simp [Column.find?, h]

/-- The ids seen so far stay in front, and of the rest each new one follows once. -/
theorem foldl_dropRepeats (ids seen : List String) :
    ids.foldl (fun seen id => if seen.contains id then seen else seen ++ [id]) seen =
      seen ++ (ids.filter fun id => !seen.contains id).eraseDups := by
  induction ids generalizing seen with
  | nil => simp
  | cons id rest ih =>
    rw [List.foldl_cons, ih]
    by_cases known : id ∈ seen
    · simp [known]
    · have fresh : (rest.filter fun other => !(seen ++ [id]).contains other) =
          (rest.filter fun other => !seen.contains other).filter fun other => !other == id := by
        rw [List.filter_filter]
        refine List.filter_congr fun other _ => ?_
        rw [List.contains_append, Bool.not_or, Bool.and_comm, List.contains_cons,
          List.contains_nil, Bool.or_false]
      have unseen : seen.contains id = false := by simpa using known
      rw [if_neg (by simpa using known), fresh, List.append_assoc, List.singleton_append,
        List.filter_cons_of_pos (by rw [unseen]; rfl), List.eraseDups_cons]

theorem dropRepeats_eq (ids : List String) : dropRepeats ids = ids.eraseDups := by
  have all : (ids.filter fun id => !([] : List String).contains id) = ids :=
    List.filter_eq_self.mpr fun _ _ => rfl
  rw [dropRepeats, foldl_dropRepeats, all, List.nil_append]

theorem Relation.narrowedIds_ofColumns (relation : Relation) (item : Item) :
    relation.narrowedIds (.ofColumns item.columns) = item.flaggedIds relation := by
  rw [narrowedIds, dropRepeats_eq, Item.flaggedIds]
  simp only [ReferenceTable.lookup_ofColumns, Item.column?]

theorem Relation.candidateIds_ofColumns (relation : Relation) (item : Item)
    (index : LinkedIndex) :
    relation.candidateIds (.ofColumns item.columns) index = item.sourceIds relation index := by
  simp only [candidateIds, narrowedIds_ofColumns, Item.sourceIds]

theorem LinkedIndex.textFor?_eq (index : LinkedIndex) (target : Target) (id : String) :
    index.textFor? target id =
      (index.get? id).bind fun linked => (target.cell? linked).bind fun cell =>
        shown? (cellText cell.text cell.value) := by
  cases found : index.get? id with
  | none => simp [textFor?, found]
  | some linked =>
    by_cases board : linked.boardId = target.boardId
    · simp [textFor?, found, Option.filter_some, Target.cell?, board]
    · simp [textFor?, found, Option.filter_some, Target.cell?, board]

/-- A contributed text is what the target column of an indexed item on the target board shows. -/
theorem LinkedIndex.mem_textsFor {index : LinkedIndex} {target : Target} {ids : List String}
    {text : String} :
    text ∈ index.textsFor target ids ↔
      ∃ id ∈ ids, ∃ source cell, index.get? id = some source ∧ source.boardId = target.boardId ∧
        source.cell? target.columnId = some cell ∧
        shown? (cellText cell.text cell.value) = some text := by
  rw [textsFor, List.mem_filterMap]
  refine exists_congr fun id => and_congr_right fun _ => ?_
  simp only [textFor?, Option.bind_eq_bind, Option.bind_eq_some_iff, Option.filter_eq_some_iff,
    decide_eq_true_eq]
  constructor
  · rintro ⟨source, ⟨found, board⟩, cell, column, shown⟩
    exact ⟨source, cell, found, board, column, shown⟩
  · rintro ⟨source, cell, found, board, column, shown⟩
    exact ⟨source, ⟨found, board⟩, cell, column, shown⟩

theorem Contributions.counted_ofLinked (index : LinkedIndex) (target : Target)
    (ids : List String) :
    counted (((ids.filterMap index.get?).filterMap target.cell?).map fun cell =>
      cellText cell.text cell.value) = index.textsFor target ids := by
  have each : index.textFor? target = fun id => (index.get? id).bind fun linked =>
      (target.cell? linked).bind fun cell => shown? (cellText cell.text cell.value) :=
    funext (index.textFor?_eq target)
  rw [counted, List.filterMap_map, List.filterMap_filterMap, List.filterMap_filterMap,
    LinkedIndex.textsFor, each]
  rfl

theorem Contributions.joined_ofLinked (index : LinkedIndex) (target : Target)
    (ids : List String) :
    (ofLinked index target ids).joined = joinedText? (index.textsFor target ids) := by
  rw [ofLinked, joined_ofTexts, counted_ofLinked]

theorem Contributions.value_ofLinked (index : LinkedIndex) (target : Target)
    (ids : List String) :
    (ofLinked index target ids).value = summedValue? (index.textsFor target ids) := by
  rw [ofLinked, value_ofTexts, counted_ofLinked]

namespace Column

section
variable (c : Column) (index : LinkedIndex)

/-- Only the text is filled in. -/
theorem fillText_eq : c.fillText index = { c with text := (c.fillText index).text } := by
  unfold fillText
  split <;> rfl

@[simp] theorem fillText_value : (c.fillText index).value = c.value := by rw [fillText_eq]

end

/-- What stands in for a text depends on the index through the names of linked items, and only on
a column that has no display value to show. -/
theorem standIn?_congr {c : Column} {index other : LinkedIndex}
    (names : c.displayValue.filter (!isBlankText ·) = none → ∀ ids, c.linkedIds = some ids →
      linkedNames index ids = linkedNames other ids) :
    c.standIn? index = c.standIn? other := by
  unfold standIn?
  split
  · rfl
  · rfl
  · next ids _ listed =>
    split
    · rfl
    · next display => rw [names display ids listed]

section
variable {item : Item} {index : LinkedIndex} {c : Column} {relation : Relation} {target : Target}

theorem gathered_of_none (h : c.relation? .crossBoard = none) : c.gathered item index = c := by
  simp [gathered, h]

theorem gathered_of_no_target (h : c.relation? .crossBoard = some relation)
    (untargeted : relation.target? = none) : c.gathered item index = c.fillText index := by
  simp [gathered, h, untargeted]

theorem gathered_of_target (h : c.relation? .crossBoard = some relation)
    (targeted : relation.target? = some target) :
    c.gathered item index =
      (c.fillText index).written (index.textsFor target (item.sourceIds relation index)) := by
  simp [gathered, h, targeted]

/-- A pass changes nothing of a column but its text and its value. -/
theorem gathered_eq (item : Item) (index : LinkedIndex) (c : Column) :
    c.gathered item index =
      { c with text := (c.gathered item index).text, value := (c.gathered item index).value } := by
  unfold gathered
  split
  · rfl
  · split
    · rw [fillText_eq]
    · rw [fillText_eq]
      rfl

@[simp] theorem gathered_id : (c.gathered item index).id = c.id := by
  rw [gathered_eq]

@[simp] theorem gathered_settings : (c.gathered item index).settings = c.settings := by
  rw [gathered_eq]

@[simp] theorem gathered_linkedIds : (c.gathered item index).linkedIds = c.linkedIds := by
  rw [gathered_eq]

@[simp] theorem gathered_displayValue :
    (c.gathered item index).displayValue = c.displayValue := by
  rw [gathered_eq]

/-- The pass leaves a column's settings alone, and with them its relation. -/
@[simp] theorem gathered_relation? (kind : RelationKind) :
    (c.gathered item index).relation? kind = c.relation? kind := by
  simp [relation?]

end

/-- What the pass makes of one column: nothing of one that relates to no other board. -/
theorem reviseCrossBoard_eq (item : Item) (index : LinkedIndex) (c : Column) :
    c.reviseCrossBoard (.ofColumns item.columns) index =
      (c.relation? .crossBoard).map fun _ =>
        ⟨c.gathered item index, c.crossTarget?.isSome⟩ := by
  cases h : c.relation? .crossBoard with
  | none => simp [reviseCrossBoard, h]
  | some relation =>
    cases targeted : relation.target? with
    | none =>
      simp [reviseCrossBoard, h, targeted, gathered_of_no_target h targeted, crossTarget?]
    | some target =>
      simp [reviseCrossBoard, h, targeted, gathered_of_target h targeted, crossTarget?, gather,
        written, Relation.candidateIds_ofColumns, joined_ofLinked, value_ofLinked]

end Column

namespace Pass

theorem foldl_refreshed (revise : Column → Option Revision) (columns : List Column)
    (mappables : Mappables) :
    columns.foldl (refreshed revise) mappables =
      mappables.refreshAll (writtenTexts revise columns) := by
  rw [writtenTexts, Mappables.refreshAll, List.foldl_filterMap]
  congr 1
  funext mappables c
  rw [refreshed]
  cases revise c <;> rfl

variable (item : Item) (index : LinkedIndex) (c : Column)

theorem revised_reviseCrossBoard :
    revised (Column.reviseCrossBoard (.ofColumns item.columns) index) c =
      c.gathered item index := by
  rw [revised, Column.reviseCrossBoard_eq]
  cases h : c.relation? .crossBoard with
  | none => simp [Column.gathered_of_none h]
  | some relation => rfl

theorem recomputes_reviseCrossBoard :
    recomputes (Column.reviseCrossBoard (.ofColumns item.columns) index) c =
      c.crossTarget?.isSome := by
  rw [recomputes, Column.reviseCrossBoard_eq]
  cases h : c.relation? .crossBoard <;> simp [Column.crossTarget?, h]

end Pass

namespace Item

/-- What the pass writes to mappable values are the final texts of the cross-board columns. -/
theorem writtenTexts_reviseCrossBoard (item : Item) (index : LinkedIndex) :
    Pass.writtenTexts (Column.reviseCrossBoard (.ofColumns item.columns) index) item.columns =
      item.crossTexts index := by
  rw [Pass.writtenTexts, crossTexts, ← List.filterMap_eq_map, List.filterMap_filter]
  refine List.filterMap_congr fun c _ => ?_
  rw [Column.reviseCrossBoard_eq]
  cases c.relation? .crossBoard <;> simp

theorem gather_eq (item : Item) (index : LinkedIndex) :
    item.gather index =
      (item.gatheredAtOnce index, item.columns.countP fun c => c.crossTarget?.isSome) := by
  have columns : Pass.revised (Column.reviseCrossBoard (.ofColumns item.columns) index) =
      Column.gathered item index :=
    funext (Pass.revised_reviseCrossBoard item index)
  have counted : Pass.recomputes (Column.reviseCrossBoard (.ofColumns item.columns) index) =
      fun c => c.crossTarget?.isSome :=
    funext (Pass.recomputes_reviseCrossBoard item index)
  rw [gather, pass_eq, Pass.foldl_refreshed, writtenTexts_reviseCrossBoard, columns, counted]
  rfl

theorem count_gather (item : Item) (index : LinkedIndex) :
    (item.gather index).2 = item.columns.countP fun c => c.crossTarget?.isSome := by
  rw [gather_eq]

theorem columns_gather (item : Item) (index : LinkedIndex) :
    (item.gather index).1.columns = item.columns.map (Column.gathered item index) := by
  rw [gather_eq]
  rfl

/-- The pass over an item, the loop in place and the definition at once agree: on each column,
on the mappable values, on all else, and on how many columns had a target. -/
theorem gather_simultaneous (item : Item) (index : LinkedIndex) :
    item.gatherInPlace index = item.gather index ∧
      item.gather index =
        (item.gatheredAtOnce index, item.columns.countP fun c => c.crossTarget?.isSome) :=
  ⟨item.passInPlace_eq _, item.gather_eq index⟩

end Item

end BoardRollup
