import BoardRollup.Proofs.Runs

/-!
# Rollups that are computed again

A rollup column reads its settings and the subitems of its item, and no pass writes to either.
So a second rollup pass finds every rollup as it would leave it: right after the first, and
also after cross-board passes in between, which revise no column that is a rollup.

The mappable values need an argument of their own, since columns may share an id: a pass that
makes the same revisions twice writes the same texts in the same order, and the last text
written under an id stands.
-/

namespace BoardRollup

/-- A pass that would revise each revised column as it revised the column before has nothing left
to do. -/
theorem Item.pass_pass {item : Item} {revise : Column → Option Revision}
    (again : ∀ c ∈ item.columns, revise (Pass.revised revise c) = revise c) :
    (item.pass revise).1.pass revise = item.pass revise := by
  have columns : (item.columns.map (Pass.revised revise)).map (Pass.revised revise) =
      item.columns.map (Pass.revised revise) := by
    rw [List.map_map]
    refine List.map_congr_left fun c mem => ?_
    rw [Function.comp_apply, Pass.revised, again c mem]
    cases h : revise c with
    | none => rfl
    | some r => exact (Pass.revised_of_some h).symm
  have texts : Pass.writtenTexts revise (item.columns.map (Pass.revised revise)) =
      Pass.writtenTexts revise item.columns := by
    rw [Pass.writtenTexts, List.filterMap_map]
    refine List.filterMap_congr fun c mem => ?_
    rw [Function.comp_apply, again c mem]
  have counts : (item.columns.map (Pass.revised revise)).countP (Pass.recomputes revise) =
      item.columns.countP (Pass.recomputes revise) := by
    rw [List.countP_map]
    refine List.countP_congr fun c mem => ?_
    rw [Function.comp_apply, Pass.recomputes, again c mem, Pass.recomputes]
  rw [pass_eq, pass_eq]
  simp only [columns, counts, Pass.foldl_refreshed, texts, Mappables.refreshAll_refreshAll]

namespace Column

variable {c : Column} {subitems : List Subitem}

theorem rollupTarget?_of_settings {d : Column} (h : d.settings = c.settings) :
    d.rollupTarget? = c.rollupTarget? := by
  rw [rollupTarget?, rollupTarget?, relation?_of_settings h]

@[simp] theorem rollupTarget?_rolledUp : (c.rolledUp subitems).rollupTarget? = c.rollupTarget? :=
  rollupTarget?_of_settings rfl

/-- A sum that was written already is written again, and without one the value stays. -/
theorem rolledUp_rolledUp : (c.rolledUp subitems).rolledUp subitems = c.rolledUp subitems := by
  cases targeted : c.rollupTarget? with
  | none => rw [rolledUp_of_no_target targeted, rolledUp_of_no_target targeted]
  | some target =>
    rw [rolledUp_of_target (rollupTarget?_rolledUp.trans targeted), rolledUp_of_target targeted]
    cases Contributions.summedValue? _ <;> rfl

/-- The rollups with a target are the same ones everywhere in a frame. -/
theorem countP_rollupTarget {before after : List Column}
    (h : List.Forall₂ Column.Frame before after) :
    after.countP (fun c => c.rollupTarget?.isSome) =
      before.countP fun c => c.rollupTarget?.isSome := by
  induction h with
  | nil => rfl
  | cons head _ ih =>
    rw [List.countP_cons, List.countP_cons, ih, rollupTarget?_of_settings head.settings]

/-- A rollup with a target relates to no other board, and so no cross-board pass revises it. -/
theorem gathered_of_rollupTarget {item : Item} {index : LinkedIndex}
    (h : c.rollupTarget? ≠ none) : c.gathered item index = c := by
  refine gathered_of_none (Classical.not_not.mp fun related => h ?_)
  rw [rollupTarget?, relation?_rollup_of_crossBoard related]
  rfl

end Column

namespace Item

def RolledUp (item : Item) : Prop := ∀ c ∈ item.columns, c.rolledUp item.subitems = c

variable {item : Item}

theorem rolledUp_rollUp (item : Item) : item.rollUp.1.RolledUp := by
  intro c mem
  rw [columns_rollUp] at mem
  obtain ⟨d, _, rfl⟩ := List.mem_map.mp mem
  exact Column.rolledUp_rolledUp

theorem RolledUp.gather (h : item.RolledUp) (index : LinkedIndex) :
    (item.gather index).1.RolledUp := by
  intro c mem
  rw [columns_gather] at mem
  obtain ⟨d, mem', rfl⟩ := List.mem_map.mp mem
  by_cases targeted : d.rollupTarget? = none
  · refine Column.rolledUp_of_no_target ?_
    rwa [Column.rollupTarget?_of_settings Column.gathered_settings]
  · rw [Column.gathered_of_rollupTarget targeted]
    exact h d mem'

theorem RolledUp.run_gather (h : item.RolledUp) (indexes : List LinkedIndex) :
    (item.run (indexes.map .gather)).RolledUp := by
  induction indexes generalizing item with
  | nil => exact h
  | cons index rest ih => exact ih (h.gather index)

theorem RolledUp.columns_rollUp (h : item.RolledUp) : item.rollUp.1.columns = item.columns := by
  rw [Item.columns_rollUp]
  exact (List.map_congr_left h).trans (List.map_id _)

theorem Frame.count_rollUp {before after : Item} (h : before.Frame after) :
    after.rollUp.2 = before.rollUp.2 := by
  rw [Item.count_rollUp, Item.count_rollUp, Column.countP_rollupTarget h.columns]

theorem rollUp_rollUp (item : Item) : item.rollUp.1.rollUp = item.rollUp := by
  refine pass_pass fun c _ => ?_
  rw [Column.revised_reviseRollup, Column.reviseRollup_eq, Column.reviseRollup_eq,
    Column.rolledUp_rolledUp, Column.rollupTarget?_rolledUp]

/-- After a rollup pass and any cross-board passes, another rollup pass leaves every column as it
is and counts as many. If no pass comes in between, it leaves the whole item. -/
theorem rollUp_stable (item : Item) (indexes : List LinkedIndex) :
    let later := item.rollUp.1.run (indexes.map .gather)
    later.rollUp.1.columns = later.columns ∧
      later.rollUp.2 = item.rollUp.2 ∧
      item.rollUp.1.rollUp.1 = item.rollUp.1 := by
  intro later
  have upToDate : later.RolledUp := (rolledUp_rollUp item).run_gather indexes
  have framed : item.Frame later :=
    item.frame_rollUp.trans (frame_run _ _)
  exact ⟨upToDate.columns_rollUp, framed.count_rollUp, congrArg Prod.fst item.rollUp_rollUp⟩

end Item

end BoardRollup
