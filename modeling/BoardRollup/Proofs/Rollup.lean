import BoardRollup.Proofs.Contributions
import BoardRollup.Proofs.Pass
import BoardRollup.Relation.Rollup
import Mathlib.Data.List.Basic

/-!
# Rollup columns at once

What the rollup pass makes of an item, told from the item before the pass. A rollup with a
target shows what the subitems contribute to it, and nothing if they contribute nothing;
its value becomes the sum of the texts that are numbers, if there are any. All other
columns stay as they are, and subitems are only read.

Normalizing an item is this pass over a copy of it, so a normalized column is told from the
raw column and the raw subitems.
-/

namespace BoardRollup

open Contributions

/-- The text that a subitem contributes under a column id: none if it lacks the column or its
cell shows nothing. -/
def Subitem.textFor? (subitem : Subitem) (columnId : String) : Option String := do
  let c ← subitem.column? columnId
  shown? (cellText c.text c.value)

namespace Column

def rollupTarget? (c : Column) : Option Target := (c.relation? .rollup).bind Relation.target?

def subitemTexts (subitems : List Subitem) (c : Column) : List String :=
  match c.rollupTarget? with
  | none => []
  | some target => subitems.filterMap (·.textFor? target.columnId)

/-- A column after the rollup pass over an item with these subitems. -/
def rolledUp (subitems : List Subitem) (c : Column) : Column :=
  { c with
    text := if c.rollupTarget?.isSome then joinedText? (c.subitemTexts subitems) else c.text
    value := (summedValue? (c.subitemTexts subitems)).getD c.value }

section
variable {c : Column} {subitems : List Subitem} {target : Target}

@[simp] theorem rolledUp_linkedIds : (c.rolledUp subitems).linkedIds = c.linkedIds := rfl

theorem rolledUp_value :
    (c.rolledUp subitems).value = (summedValue? (c.subitemTexts subitems)).getD c.value := rfl

theorem subitemTexts_of_target (h : c.rollupTarget? = some target) :
    c.subitemTexts subitems = subitems.filterMap (·.textFor? target.columnId) := by
  rw [subitemTexts, h]

theorem rolledUp_of_no_target (h : c.rollupTarget? = none) : c.rolledUp subitems = c := by
  simp [rolledUp, subitemTexts, h, summedValue?]

theorem rolledUp_of_target (h : c.rollupTarget? = some target) :
    c.rolledUp subitems =
      { c with
        text := joinedText? (subitems.filterMap (·.textFor? target.columnId))
        value :=
          (summedValue? (subitems.filterMap (·.textFor? target.columnId))).getD c.value } := by
  simp [rolledUp, subitemTexts_of_target h, h]

end

theorem counted_ofSubitems (subitems : List Subitem) (columnId : String) :
    counted ((subitems.filterMap (·.column? columnId)).map fun c => cellText c.text c.value) =
      subitems.filterMap (·.textFor? columnId) := by
  rw [counted, List.filterMap_map, List.filterMap_filterMap]
  rfl

/-- What the pass makes of one column: nothing of one that is no rollup with a target. -/
theorem reviseRollup_eq (subitems : List Subitem) (c : Column) :
    c.reviseRollup subitems = c.rollupTarget?.map fun _ => ⟨c.rolledUp subitems, true⟩ := by
  cases h : c.relation? .rollup with
  | none => simp [reviseRollup, rollupTarget?, h]
  | some relation =>
    cases targeted : relation.target? with
    | none => simp [reviseRollup, rollupTarget?, h, targeted]
    | some target =>
      have found : c.rollupTarget? = some target := by simp [rollupTarget?, h, targeted]
      simp [reviseRollup, found, h, targeted, rolledUp_of_target found, rollUp, ofSubitems,
        joined_ofTexts, value_ofTexts, counted_ofSubitems]

theorem revised_reviseRollup (subitems : List Subitem) (c : Column) :
    Pass.revised (Column.reviseRollup subitems) c = c.rolledUp subitems := by
  rw [Pass.revised, reviseRollup_eq]
  cases h : c.rollupTarget? with
  | none => rw [rolledUp_of_no_target h]; rfl
  | some target => rfl

end Column

theorem Pass.recomputes_reviseRollup (subitems : List Subitem) (c : Column) :
    recomputes (Column.reviseRollup subitems) c = c.rollupTarget?.isSome := by
  rw [recomputes, Column.reviseRollup_eq]
  cases c.rollupTarget? <;> rfl

namespace Item

theorem columns_rollUp (item : Item) :
    item.rollUp.1.columns = item.columns.map (Column.rolledUp item.subitems) := by
  have columns : Pass.revised (Column.reviseRollup item.subitems) =
      Column.rolledUp item.subitems :=
    funext (Column.revised_reviseRollup item.subitems)
  rw [rollUp, pass_eq, columns]

theorem count_rollUp (item : Item) :
    item.rollUp.2 = item.columns.countP fun c => c.rollupTarget?.isSome := by
  have counted : Pass.recomputes (Column.reviseRollup item.subitems) =
      fun c => c.rollupTarget?.isSome :=
    funext (Pass.recomputes_reviseRollup item.subitems)
  rw [rollUp, pass_eq, counted]

theorem columns_ofRaw (raw : RawItem) :
    (ofRaw raw).columns =
      raw.columns.map fun c => (Column.ofRaw c).rolledUp (raw.subitems.map .ofRaw) := by
  rw [ofRaw, columns_rollUp]
  exact List.map_map

end Item

/-- The text that a raw item contributes as a subitem under a column id: that of the first of its
columns with the id, if it has one and that shows something. -/
def RawItem.textFor? (inner : RawItem) (columnId : String) : Option String := do
  let c ← inner.columns.find? (·.id = columnId)
  shown? (cellText c.text c.value)

/-- Normalizing a subitem keeps what it contributes. -/
theorem Subitem.textFor?_ofRaw (inner : RawItem) (columnId : String) :
    (Subitem.ofRaw inner).textFor? columnId = inner.textFor? columnId := by
  have found : (Subitem.ofRaw inner).column? columnId =
      (inner.columns.find? (·.id = columnId)).map Column.ofRaw :=
    List.find?_map
  rw [textFor?, found, RawItem.textFor?]
  cases inner.columns.find? (·.id = columnId) <;> rfl

namespace Column

/-- A rollup without a target is a copy like any other column. -/
theorem rolledUp_ofRaw (raws : List RawItem) (c : RawColumn) :
    (ofRaw c).rolledUp (raws.map .ofRaw) =
      match (ofRaw c).rollupTarget? with
      | none => ofRaw c
      | some target =>
        { ofRaw c with
          text := joinedText? (raws.filterMap (·.textFor? target.columnId))
          value :=
            (summedValue? (raws.filterMap (·.textFor? target.columnId))).getD c.value } := by
  cases targeted : (ofRaw c).rollupTarget? with
  | none => exact rolledUp_of_no_target targeted
  | some target =>
    have texts : (raws.map Subitem.ofRaw).filterMap (·.textFor? target.columnId) =
        raws.filterMap (·.textFor? target.columnId) := by
      rw [List.filterMap_map]
      exact List.filterMap_congr fun inner _ => Subitem.textFor?_ofRaw inner target.columnId
    rw [rolledUp_of_target targeted, texts]
    rfl

end Column

namespace Item

/-- A normalized item has a copy of each raw column, but that a rollup with a target shows what the
raw subitems contribute, or nothing, and holds the sum of the numbers among that, or its raw
value. The columns of subitems and of the parent are copies whatever their settings say. The
pass that fills the rollups in counts those that have a target. -/
theorem ofRaw_rolls_up (raw : RawItem) :
    ((ofRaw raw).columns = raw.columns.map fun c =>
      match (Column.ofRaw c).rollupTarget? with
      | none => .ofRaw c
      | some target =>
        { Column.ofRaw c with
          text := joinedText? (raw.subitems.filterMap (·.textFor? target.columnId))
          value := (summedValue?
            (raw.subitems.filterMap (·.textFor? target.columnId))).getD c.value }) ∧
    (ofRaw raw).subitems.map Subitem.columns =
      raw.subitems.map (fun inner => inner.columns.map .ofRaw) ∧
    (ofRaw raw).parent.map ParentItem.columns =
      raw.parent.map (fun outer => outer.columns.map .ofRaw) ∧
    ∀ item : Item, item.rollUp.2 = item.columns.countP fun c => c.rollupTarget?.isSome := by
  refine ⟨?columns, ?subitems, ?parent, count_rollUp⟩
  case columns =>
    rw [columns_ofRaw]
    exact List.map_congr_left fun c _ => Column.rolledUp_ofRaw raw.subitems c
  case subitems => exact List.map_map
  case parent => exact Option.map_map ..

end Item

end BoardRollup
