import BoardRollup.Proofs.Stability

/-!
# The last text of an id

A pass hands the text of each column that it revises on to the mappable value of the column's id.
Columns may share an id, and then each write replaces the one before it. So what a pass leaves
behind can be told from its columns alone: the mappable value of an id shows the final text of
the last revised column with this id, and without such a column it is left as it was.

Which columns are revised is not the same for both passes. A rollup without a target is passed
over, while a cross-board column without a target has its text filled in and handed on.
-/

namespace BoardRollup

/-- A value before and after a text is written to it: an object has the text, or `null` for none,
under `text`, and its other fields as they stood; any other value stays. -/
inductive Mappable.Shows (text : Option String) : Mappable → Mappable → Prop where
  | object {fields fields' : List (String × Json)}
      (written : fields'.lookup "text" = some (.ofText? text))
      (others : fields'.filter (·.1 ≠ "text") = fields.filter (·.1 ≠ "text")) :
      Shows text (.object fields) (.object fields')
  | other {m : Mappable} (noObject : ∀ fields, m ≠ .object fields) : Shows text m m

theorem Mappable.shows_refresh (text : Option String) (m : Mappable) :
    Shows text m (m.refresh text) := by
  cases m with
  | object fields =>
    refine .object ?_ ?_
    · rw [Fields.lookup_set, if_pos rfl]
    · have unseen := Fields.filter_set fields "text" (.ofText? text) fun key => key ≠ "text"
      simpa using unseen
  | text s => exact .other nofun
  | null => exact .other nofun
  | other v => exact .other nofun

/-- Of the texts that are written to an id in turn the last one stands. -/
theorem Mappables.lookup_refreshAll (mappables : Mappables)
    (texts : List (String × Option String)) (id : String) :
    (mappables.refreshAll texts).lookup id =
      match texts.reverse.lookup id with
      | none => mappables.lookup id
      | some text => (mappables.lookup id).map (Mappable.refresh text) := by
  induction texts generalizing mappables with
  | nil => rfl
  | cons entry rest ih =>
    obtain ⟨key, text⟩ := entry
    have first : (mappables.refresh key text).lookup id =
        if key = id then (mappables.lookup id).map (Mappable.refresh text)
        else mappables.lookup id :=
      Fields.lookup_update mappables key id (Mappable.refresh text)
    rw [refreshAll_cons, ih, first, List.reverse_cons, List.lookup_append, Fields.lookup_cons]
    by_cases same : key = id
    · cases later : rest.reverse.lookup id with
      | none => simp [same]
      | some last =>
        have replaced : Mappable.refresh last ∘ Mappable.refresh text = Mappable.refresh last :=
          funext (Mappable.refresh_refresh text last)
        simp [same, replaced]
    · cases rest.reverse.lookup id <;> simp [same]

/-- What the mappable values of an item are after a pass that revises certain columns: those of
before, but that an id of a revised column shows the text that the last of these has now. -/
structure Item.InStep (revises : Column → Bool) (before after : Item) : Prop where
  ids : Fields.keys after.mappables = Fields.keys before.mappables
  /-- The revised columns are the same ones before and after. -/
  columns : after.columns.map (fun c => (c.id, revises c)) =
    before.columns.map fun c => (c.id, revises c)
  last : ∀ earlier c later, after.columns = earlier ++ c :: later → revises c →
    (∀ d ∈ later, revises d → d.id ≠ c.id) →
    Option.Rel (Mappable.Shows c.text) (before.mappables.lookup c.id)
      (after.mappables.lookup c.id)
  others : ∀ id, (∀ c ∈ after.columns, revises c → c.id ≠ id) →
    after.mappables.lookup id = before.mappables.lookup id

namespace Pass

/-- The texts of the columns that a pass revises, under their ids. -/
def revisedTexts (revises : Column → Bool) (columns : List Column) :
    List (String × Option String) :=
  (columns.filter revises).map fun c => (c.id, c.text)

variable {revises : Column → Bool} {columns : List Column}

theorem notMem_keys_revisedTexts {id : String} (h : ∀ c ∈ columns, revises c → c.id ≠ id) :
    id ∉ Fields.keys (revisedTexts revises columns) := by
  rw [Fields.keys, revisedTexts, List.map_map, List.mem_map]
  rintro ⟨c, mem, same⟩
  obtain ⟨mem, revised⟩ := List.mem_filter.mp mem
  exact h c mem revised same

/-- Read from the end, the texts have that of the last revised column of an id first. -/
theorem lookup_reverse_revisedTexts {earlier later : List Column} {c : Column} (revised : revises c)
    (last : ∀ d ∈ later, revises d → d.id ≠ c.id) :
    (revisedTexts revises (earlier ++ c :: later)).reverse.lookup c.id = some c.text := by
  have split : revisedTexts revises (earlier ++ c :: later) =
      revisedTexts revises earlier ++ (c.id, c.text) :: revisedTexts revises later := by
    simp [revisedTexts, revised]
  rw [split]
  exact Fields.lookup_reverse_append _ c.text (notMem_keys_revisedTexts last)

/-- A pass writes the texts that its revised columns have after it. -/
theorem writtenTexts_eq {revise : Column → Option Revision}
    (decides : ∀ c, revises c = (revise c).isSome)
    (again : ∀ c, revises (revised revise c) = revises c) (columns : List Column) :
    writtenTexts revise columns = revisedTexts revises (columns.map (revised revise)) := by
  rw [writtenTexts, revisedTexts, List.filter_map, List.map_map, ← List.filterMap_eq_map,
    List.filterMap_filter]
  refine List.filterMap_congr fun c _ => ?_
  rw [Function.comp_apply, again, decides]
  cases h : revise c with
  | none => rfl
  | some r => simp [revised_of_some h]

end Pass

/-- A pass that leaves the ids of columns alone, and whether they are to be revised, keeps the
mappable values in step. -/
theorem Item.inStep_pass (item : Item) {revise : Column → Option Revision}
    {revises : Column → Bool} (decides : ∀ c, revises c = (revise c).isSome)
    (again : ∀ c, revises (Pass.revised revise c) = revises c)
    (ids : ∀ c, (Pass.revised revise c).id = c.id) :
    item.InStep revises (item.pass revise).1 := by
  have columns : (item.pass revise).1.columns = item.columns.map (Pass.revised revise) := by
    rw [pass_eq]
  have mappables : (item.pass revise).1.mappables =
      item.mappables.refreshAll (Pass.revisedTexts revises (item.pass revise).1.columns) := by
    rw [columns, ← Pass.writtenTexts_eq decides again, ← Pass.foldl_refreshed, pass_eq]
  constructor
  case ids =>
    rw [pass_eq]
    exact (Pass.frame_foldl_refreshed revise item.columns item.mappables).keys_eq
  case columns =>
    rw [columns, List.map_map]
    refine List.map_congr_left fun c _ => ?_
    rw [Function.comp_apply, ids, again]
  case last =>
    intro earlier c later split revised last
    rw [mappables, split, Mappables.lookup_refreshAll,
      Pass.lookup_reverse_revisedTexts revised last]
    cases item.mappables.lookup c.id with
    | none => exact .none
    | some m => exact .some (m.shows_refresh c.text)
  case others =>
    intro id unrevised
    rw [mappables, Mappables.lookup_refreshAll,
      Fields.lookup_reverse_of_notMem (Pass.notMem_keys_revisedTexts unrevised)]

namespace Item

/-- After either pass, the mappable value of an id shows the text of the last column that the pass
has revised under this id: of the last rollup with a target, or of the last cross-board column
with a target or without one. All other mappable values stay, and none comes or goes. -/
theorem mappables_follow_columns (item : Item) :
    item.InStep (fun c => c.rollupTarget?.isSome) item.rollUp.1 ∧
      ∀ index, item.InStep (fun c => (c.relation? .crossBoard).isSome)
        (item.gather index).1 := by
  constructor
  · refine item.inStep_pass ?_ ?_ ?_
    · intro c
      rw [Column.reviseRollup_eq, Option.isSome_map]
    · intro c
      rw [Column.revised_reviseRollup, Column.rollupTarget?_rolledUp]
    · intro c
      rw [Column.revised_reviseRollup]
      rfl
  · intro index
    refine item.inStep_pass ?_ ?_ ?_
    · intro c
      rw [Column.reviseCrossBoard_eq, Option.isSome_map]
    · intro c
      rw [Pass.revised_reviseCrossBoard, Column.gathered_relation?]
    · intro c
      rw [Pass.revised_reviseCrossBoard, Column.gathered_id]

end Item

end BoardRollup
