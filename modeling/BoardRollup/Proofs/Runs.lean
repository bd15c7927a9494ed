import BoardRollup.Proofs.MappedColumns
import BoardRollup.Proofs.Repetition
import BoardRollup.Proofs.Rollup
import BoardRollup.Proofs.WrittenStrings
import Mathlib.Data.List.Forall2

/-!
# Runs of passes

Rollup and cross-board passes may follow on one another in any order and any number, each
cross-board pass with an index of its own. What such a run leaves alone is a relation
between an item before it and after it: the frame. A frame holds of each column and each
mappable value for itself, and it is reflexive and transitive, so that a pass is framed
if each column that it revises is, and a run if each of its passes is.

In a frame a column changes its text and its value only, and only if it is a relation
column; a value that changes becomes a sum; a cross-board column that shows something
goes on showing something; and a mappable value is written to only under `text`, and
only if it is an object.
-/

namespace BoardRollup

open Contributions

/-- One computation of relation columns. -/
inductive Aggregation where
  /-- The rollup columns, from the item's subitems. -/
  | rollUp
  /-- The cross-board columns, from an index. -/
  | gather (index : LinkedIndex)

namespace Item

def aggregate (item : Item) : Aggregation → Item
  | .rollUp => item.rollUp.1
  | .gather index => (item.gather index).1

def run (item : Item) (calls : List Aggregation) : Item := calls.foldl aggregate item

theorem run_append (item : Item) (earlier later : List Aggregation) :
    item.run (earlier ++ later) = (item.run earlier).run later :=
  List.foldl_append

/-- A normalized item is the copy of a raw one after a first computation of its rollups. -/
theorem run_ofRaw (raw : RawItem) (calls : List Aggregation) :
    (ofRaw raw).run calls = (copyRaw raw).run (.rollUp :: calls) := rfl

end Item

/-- What a run leaves alone of a column. -/
structure Column.Frame (before after : Column) : Prop where
  id : after.id = before.id
  displayValue : after.displayValue = before.displayValue
  title : after.title = before.title
  settings : after.settings = before.settings
  linkedIds : after.linkedIds = before.linkedIds
  /-- A column that is no relation keeps its text and its value. -/
  unrelated : Relation.ofSettings before.settings = none →
    after.text = before.text ∧ after.value = before.value
  /-- A value that is not kept is a string, which holds the text of a number. -/
  value : after.value = before.value ∨
    ∃ text sum, after.value = .str text ∧ Contents.ofString text = .text (Numeral.write sum)
  /-- A cross-board column that shows something goes on showing something. -/
  shown : before.relation? .crossBoard ≠ none → shown? before.text ≠ none →
    shown? after.text ≠ none

/-- What a run leaves alone of a mappable value: an object keeps its fields but for `text`, and
any other value stays. -/
inductive Mappable.Frame : Mappable → Mappable → Prop where
  | object {fields fields' : List (String × Json)}
      (kept : ∀ key ≠ "text", fields'.lookup key = fields.lookup key) :
      Frame (.object fields) (.object fields')
  | text (s : String) : Frame (.text s) (.text s)
  | null : Frame .null .null
  | other (v : Json) : Frame (.other v) (.other v)

/-- What a run leaves alone of mappable values: their ids in order, and of each value what its
frame says. -/
def Mappables.Frame : Mappables → Mappables → Prop :=
  List.Forall₂ fun before after => after.1 = before.1 ∧ Mappable.Frame before.2 after.2

/-- What a run leaves alone of an item. -/
structure Item.Frame (before after : Item) : Prop where
  header : after.header = before.header
  email : after.email = before.email
  assets : after.assets = before.assets
  parent : after.parent = before.parent
  subitems : after.subitems = before.subitems
  columns : List.Forall₂ Column.Frame before.columns after.columns
  mappables : Mappables.Frame before.mappables after.mappables

theorem forall₂_trans {α : Type} {R : α → α → Prop}
    (trans : ∀ a b c, R a b → R b c → R a c) {as bs cs : List α}
    (first : List.Forall₂ R as bs) (second : List.Forall₂ R bs cs) : List.Forall₂ R as cs := by
  induction first generalizing cs with
  | nil => exact second
  | cons head _ ih =>
    cases second with
    | cons head' tail' => exact .cons (trans _ _ _ head head') (ih tail')

namespace Column

theorem relation?_of_settings {c d : Column} (h : d.settings = c.settings)
    (kind : RelationKind) : d.relation? kind = c.relation? kind := by
  rw [relation?, relation?, h]

theorem Frame.refl (c : Column) : c.Frame c where
  id := rfl
  displayValue := rfl
  title := rfl
  settings := rfl
  linkedIds := rfl
  unrelated _ := ⟨rfl, rfl⟩
  value := .inl rfl
  shown _ h := h

theorem Frame.trans {a b c : Column} (first : a.Frame b) (second : b.Frame c) : a.Frame c where
  id := second.id.trans first.id
  displayValue := second.displayValue.trans first.displayValue
  title := second.title.trans first.title
  settings := second.settings.trans first.settings
  linkedIds := second.linkedIds.trans first.linkedIds
  unrelated h := by
    have later := second.unrelated (by rw [first.settings, h])
    exact ⟨later.1.trans (first.unrelated h).1, later.2.trans (first.unrelated h).2⟩
  value := by
    rcases second.value with kept | written
    · rw [kept]
      exact first.value
    · exact .inr written
  shown related text := by
    refine second.shown ?_ (first.shown related text)
    rwa [relation?_of_settings first.settings]

end Column

namespace Mappable

theorem Frame.refl (m : Mappable) : Frame m m := by
  cases m with
  | object fields => exact .object fun _ _ => rfl
  | text s => exact .text s
  | null => exact .null
  | other v => exact .other v

theorem Frame.trans {a b c : Mappable} (first : Frame a b) (second : Frame b c) : Frame a c := by
  cases first with
  | object kept =>
    cases second with
    | object kept' => exact .object fun key other => (kept' key other).trans (kept key other)
  | text s => exact second
  | null => exact second
  | other v => exact second

theorem frame_refresh (text : Option String) (m : Mappable) : Frame m (m.refresh text) := by
  cases m with
  | object fields =>
    refine .object fun key other => ?_
    rw [Fields.lookup_set, if_neg other.symm]
  | text s => exact .text s
  | null => exact .null
  | other v => exact .other v

end Mappable

namespace Mappables

theorem Frame.refl (mappables : Mappables) : Frame mappables mappables :=
  List.forall₂_same.mpr fun entry _ => ⟨rfl, .refl entry.2⟩

theorem Frame.trans {a b c : Mappables} (first : Frame a b) (second : Frame b c) : Frame a c :=
  forall₂_trans (fun _ _ _ h h' => ⟨h'.1.trans h.1, h.2.trans h'.2⟩) first second

theorem frame_refresh (mappables : Mappables) (id : String) (text : Option String) :
    Frame mappables (mappables.refresh id text) := by
  induction mappables with
  | nil => exact .nil
  | cons entry rest ih =>
    obtain ⟨key, m⟩ := entry
    by_cases same : key = id
    · rw [refresh, Fields.update, if_pos same]
      exact .cons ⟨rfl, m.frame_refresh text⟩ (Frame.refl rest)
    · rw [refresh, Fields.update, if_neg same]
      exact .cons ⟨rfl, .refl m⟩ ih

theorem Frame.keys_eq {before after : Mappables} (h : Frame before after) :
    Fields.keys after = Fields.keys before := by
  induction h with
  | nil => rfl
  | cons head _ ih => exact congrArg₂ List.cons head.1 ih

end Mappables

theorem Item.Frame.refl (item : Item) : item.Frame item where
  header := rfl
  email := rfl
  assets := rfl
  parent := rfl
  subitems := rfl
  columns := List.forall₂_same.mpr fun c _ => .refl c
  mappables := .refl _

theorem Item.Frame.trans {a b c : Item} (first : a.Frame b) (second : b.Frame c) :
    a.Frame c where
  header := second.header.trans first.header
  email := second.email.trans first.email
  assets := second.assets.trans first.assets
  parent := second.parent.trans first.parent
  subitems := second.subitems.trans first.subitems
  columns := forall₂_trans (fun _ _ _ h h' => h.trans h') first.columns second.columns
  mappables := first.mappables.trans second.mappables

namespace Pass

variable (revise : Column → Option Revision)

theorem frame_refreshed (mappables : Mappables) (c : Column) :
    Mappables.Frame mappables (refreshed revise mappables c) := by
  cases h : revise c with
  | none =>
    rw [refreshed_of_none h]
    exact .refl mappables
  | some r =>
    rw [refreshed_of_some h]
    exact mappables.frame_refresh _ _

theorem frame_foldl_refreshed (columns : List Column) (mappables : Mappables) :
    Mappables.Frame mappables (columns.foldl (refreshed revise) mappables) := by
  induction columns generalizing mappables with
  | nil => exact .refl mappables
  | cons c rest ih => exact (frame_refreshed revise mappables c).trans (ih _)

end Pass

/-- A pass is framed if each column that it revises is. -/
theorem Item.frame_pass (item : Item) {revise : Column → Option Revision}
    (revised : ∀ c : Column, c.Frame (Pass.revised revise c)) :
    item.Frame (item.pass revise).1 := by
  rw [pass_eq]
  exact
    { header := rfl
      email := rfl
      assets := rfl
      parent := rfl
      subitems := rfl
      columns := List.forall₂_map_right_iff.mpr (List.forall₂_same.mpr fun c _ => revised c)
      mappables := Pass.frame_foldl_refreshed revise item.columns item.mappables }

/-- What is written over a value is a string that holds the text of a number. -/
theorem Contributions.summedValue?_holds {texts : List String} {v : Json}
    (h : summedValue? texts = some v) :
    ∃ text sum, v = .str text ∧ Contents.ofString text = .text (Numeral.write sum) := by
  obtain ⟨sum, _, rfl⟩ := Option.map_eq_some_iff.mp h
  exact ⟨_, sum, rfl, Contents.ofString_compact_str _⟩

theorem Contributions.summedValue?_getD (texts : List String) (v : Json) :
    (summedValue? texts).getD v = v ∨
      ∃ text sum, (summedValue? texts).getD v = .str text ∧
        Contents.ofString text = .text (Numeral.write sum) := by
  cases summed : summedValue? texts with
  | none => exact .inl rfl
  | some written => exact .inr (summedValue?_holds summed)

namespace Column

theorem relation?_eq_none {c : Column} (h : Relation.ofSettings c.settings = none)
    (kind : RelationKind) : c.relation? kind = none := by
  rw [relation?, h]
  rfl

/-- A column is of one kind at most. -/
theorem relation?_rollup_of_crossBoard {c : Column} (h : c.relation? .crossBoard ≠ none) :
    c.relation? .rollup = none := by
  obtain ⟨relation, found⟩ := Option.ne_none_iff_exists'.mp h
  obtain ⟨read, kind⟩ := Option.filter_eq_some_iff.mp found
  have other : relation.kind ≠ .rollup := by
    rw [of_decide_eq_true kind]
    decide
  rw [relation?, read, Option.filter_some, if_neg (by simpa using other)]

theorem frame_rolledUp (subitems : List Subitem) (c : Column) : c.Frame (c.rolledUp subitems) where
  id := rfl
  displayValue := rfl
  title := rfl
  settings := rfl
  linkedIds := rfl
  unrelated h := by
    rw [rolledUp_of_no_target (by rw [rollupTarget?, relation?_eq_none h]; rfl)]
    exact ⟨rfl, rfl⟩
  value := summedValue?_getD (c.subitemTexts subitems) c.value
  shown related text := by
    have no_rollup : c.relation? .rollup = none := relation?_rollup_of_crossBoard related
    rwa [rolledUp_of_no_target (by rw [rollupTarget?, no_rollup]; rfl)]

/-- A cross-board column that shows something is not filled in, and what contributes to it is
not empty. -/
theorem shown_gathered {item : Item} {index : LinkedIndex} {c : Column}
    (related : c.relation? .crossBoard ≠ none) (text : shown? c.text ≠ none) :
    shown? (c.gathered item index).text ≠ none := by
  obtain ⟨relation, found⟩ := Option.ne_none_iff_exists'.mp related
  obtain ⟨own, shown⟩ := Option.ne_none_iff_exists'.mp text
  intro hidden
  have unfilled : shown? (c.fillText index).text = none := not_shown_fillText found hidden
  rw [fillText_of_shown shown] at unfilled
  exact text unfilled

theorem frame_gathered (item : Item) (index : LinkedIndex) (c : Column) :
    c.Frame (c.gathered item index) where
  id := gathered_id
  displayValue := gathered_displayValue
  title := by rw [gathered_eq]
  settings := gathered_settings
  linkedIds := gathered_linkedIds
  unrelated h := by
    rw [gathered_of_none (relation?_eq_none h .crossBoard)]
    exact ⟨rfl, rfl⟩
  value := by
    rw [gathered_value]
    exact summedValue?_getD (c.sourceTexts item index) c.value
  shown related text := shown_gathered related text

end Column

namespace Item

theorem frame_rollUp (item : Item) : item.Frame item.rollUp.1 := by
  refine item.frame_pass fun c => ?_
  rw [Column.revised_reviseRollup]
  exact c.frame_rolledUp item.subitems

theorem frame_gather (item : Item) (index : LinkedIndex) : item.Frame (item.gather index).1 := by
  refine item.frame_pass fun c => ?_
  rw [Pass.revised_reviseCrossBoard]
  exact c.frame_gathered item index

theorem frame_aggregate (item : Item) (call : Aggregation) : item.Frame (item.aggregate call) := by
  cases call with
  | rollUp => exact item.frame_rollUp
  | gather index => exact item.frame_gather index

theorem frame_run (item : Item) (calls : List Aggregation) : item.Frame (item.run calls) := by
  induction calls generalizing item with
  | nil => exact .refl item
  | cons call rest ih => exact (item.frame_aggregate call).trans (ih _)

theorem frame_run_copyRaw (raw : RawItem) (calls : List Aggregation) :
    (copyRaw raw).Frame ((ofRaw raw).run calls) := by
  rw [run_ofRaw]
  exact (copyRaw raw).frame_run _

/-- The ids of the mappable values of an item are those of its columns. -/
theorem mem_keys_mappables_run (raw : RawItem) (calls : List Aggregation) (id : String) :
    id ∈ Fields.keys ((ofRaw raw).run calls).mappables ↔ ∃ c ∈ raw.columns, c.id = id := by
  rw [(frame_run_copyRaw raw calls).mappables.keys_eq]
  exact Mappables.mem_keys_ofRaw

/-- Whatever passes have run over a normalized item, it is framed by the raw item and by what
it was after any of them, and its mappable values have the ids of the raw columns. -/
theorem run_ofRaw_frame (raw : RawItem) (earlier later : List Aggregation) :
    (copyRaw raw).Frame ((ofRaw raw).run (earlier ++ later)) ∧
      ((ofRaw raw).run earlier).Frame ((ofRaw raw).run (earlier ++ later)) ∧
      ∀ id, id ∈ Fields.keys ((ofRaw raw).run (earlier ++ later)).mappables ↔
        ∃ c ∈ raw.columns, c.id = id := by
  refine ⟨frame_run_copyRaw raw _, ?_, mem_keys_mappables_run raw _⟩
  rw [run_append]
  exact frame_run _ later

end Item

end BoardRollup
