import BoardRollup.Proofs.Requests
import BoardRollup.Proofs.Rollup

/-!
# References that normalization keeps

Normalizing an item writes sums over the values of its rollup columns, and a value is one of
the two places that hold references. So a batch refers to the ids on the lists of its raw
columns, and to those that are embedded in raw values that no sum is written over.

A reference is lost exactly if all columns that hold it are rollups of numbers which hold it
in their values.
-/

namespace BoardRollup

open Contributions

theorem Contributions.summedValue?_eq_none_iff {texts : List String} :
    summedValue? texts = none ↔ ∀ text ∈ texts, Numeral.read text = none := by
  rw [summedValue?, Option.map_eq_none_iff, ← List.filterMap_eq_nil_iff]
  cases numbers : texts.filterMap Numeral.read with
  | nil => exact iff_of_true rfl rfl
  | cons first rest => exact iff_of_false (by simp [total?]) (by simp)

/-- A sum that is written over a value leaves only the references of the column's own list. -/
theorem Column.mem_references_rolledUp {c : Column} {subitems : List Subitem} {id : String} :
    id ∈ (c.rolledUp subitems).references ↔
      id ∈ (c.linkedIds.getD []).filter (· ≠ "") ∨
        id ∈ embeddedIds c.value ∧ summedValue? (c.subitemTexts subitems) = none := by
  rw [references, rolledUp_linkedIds, rolledUp_value, List.mem_append]
  cases summed : summedValue? (c.subitemTexts subitems) with
  | none => simp
  | some v => simp [embeddedIds_summedValue summed]

namespace RawItem

variable (raw : RawItem)

def Refers (id : String) : Prop := ∃ c ∈ raw.columns, (Column.ofRaw c).Refers id

/-- A column is a rollup to which some subitem contributes a number. -/
def SumsInto (c : RawColumn) : Prop :=
  ∃ target, (Column.ofRaw c).rollupTarget? = some target ∧
    ∃ inner ∈ raw.subitems, ∃ text n,
      (Subitem.ofRaw inner).textFor? target.columnId = some text ∧ Numeral.read text = some n

/-- Some column of the raw item refers to an id by its list, or in a value that no sum is written
over. -/
def StillRefers (id : String) : Prop :=
  ∃ c ∈ raw.columns,
    id ∈ (c.linkedIds.getD []).filter (· ≠ "") ∨ id ∈ embeddedIds c.value ∧ ¬ raw.SumsInto c

variable {raw} {c : RawColumn} {id : String}

theorem not_sumsInto_iff :
    ¬ raw.SumsInto c ↔
      summedValue? ((Column.ofRaw c).subitemTexts (raw.subitems.map .ofRaw)) = none := by
  rw [summedValue?_eq_none_iff]
  cases targeted : (Column.ofRaw c).rollupTarget? with
  | none => simp [SumsInto, Column.subitemTexts, targeted]
  | some target =>
    rw [Column.subitemTexts_of_target targeted]
    constructor
    · intro unsummed text mem
      obtain ⟨s, mem, shown⟩ := List.mem_filterMap.mp mem
      obtain ⟨inner, mem', rfl⟩ := List.mem_map.mp mem
      refine Option.eq_none_iff_forall_ne_some.mpr fun n read => ?_
      exact unsummed ⟨target, targeted, inner, mem', text, n, shown, read⟩
    · rintro unread ⟨target', targeted', inner, mem, text, n, shown, read⟩
      obtain rfl : target = target' := Option.some.inj (targeted.symm.trans targeted')
      have unnumbered := unread text
        (List.mem_filterMap.mpr ⟨.ofRaw inner, List.mem_map_of_mem mem, shown⟩)
      cases unnumbered.symm.trans read

theorem refers_iff :
    raw.Refers id ↔ ∃ c ∈ raw.columns,
      id ∈ (c.linkedIds.getD []).filter (· ≠ "") ∨ id ∈ embeddedIds c.value := by
  refine exists_congr fun c => and_congr_right fun _ => ?_
  rw [← Column.mem_references, Column.references, List.mem_append]
  rfl

theorem StillRefers.refers (h : raw.StillRefers id) : raw.Refers id := by
  obtain ⟨c, mem, listed | ⟨embedded, _⟩⟩ := h
  · exact refers_iff.mpr ⟨c, mem, .inl listed⟩
  · exact refers_iff.mpr ⟨c, mem, .inr embedded⟩

/-- The columns of a normalized item refer to what the raw item still refers to. -/
theorem stillRefers_iff :
    raw.StillRefers id ↔ ∃ c ∈ (Item.ofRaw raw).columns, c.Refers id := by
  rw [Item.columns_ofRaw]
  constructor
  · rintro ⟨c, mem, still⟩
    refine ⟨_, List.mem_map_of_mem mem, Column.mem_references.mp ?_⟩
    rw [not_sumsInto_iff] at still
    exact Column.mem_references_rolledUp.mpr still
  · rintro ⟨_, mem, refers⟩
    obtain ⟨c, mem', rfl⟩ := List.mem_map.mp mem
    refine ⟨c, mem', ?_⟩
    rw [not_sumsInto_iff]
    exact Column.mem_references_rolledUp.mp (Column.mem_references.mpr refers)

end RawItem

namespace Batch

variable (raws : List RawItem)

theorem mem_linkedIds_ofRaw {id : String} :
    id ∈ (ofRaw raws).linkedIds ↔ ∃ raw ∈ raws, raw.StillRefers id := by
  rw [mem_linkedIds]
  constructor
  · rintro ⟨_, mem, refers⟩
    obtain ⟨raw, mem', rfl⟩ := List.mem_map.mp mem
    exact ⟨raw, mem', RawItem.stillRefers_iff.mpr refers⟩
  · rintro ⟨raw, mem, still⟩
    exact ⟨_, List.mem_map_of_mem mem, RawItem.stillRefers_iff.mp still⟩

/-- A batch asks for the ids that its raw items still refer to. These are all that they refer to
exactly if each id in a value that a sum is written over is still referred to elsewhere. -/
theorem linkedIds_ofRaw :
    (∀ id, id ∈ (ofRaw raws).linkedIds ↔ ∃ raw ∈ raws, raw.StillRefers id) ∧
      ((∀ id, id ∈ (ofRaw raws).linkedIds ↔ ∃ raw ∈ raws, raw.Refers id) ↔
        ∀ raw ∈ raws, ∀ c ∈ raw.columns, raw.SumsInto c →
          ∀ id ∈ embeddedIds c.value, ∃ other ∈ raws, other.StillRefers id) := by
  refine ⟨fun _ => mem_linkedIds_ofRaw raws, ?lost, ?kept⟩
  case lost =>
    intro all raw mem c mem' _ id embedded
    have refers : raw.Refers id := RawItem.refers_iff.mpr ⟨c, mem', .inr embedded⟩
    exact (mem_linkedIds_ofRaw raws).mp ((all id).mpr ⟨raw, mem, refers⟩)
  case kept =>
    intro elsewhere id
    rw [mem_linkedIds_ofRaw]
    constructor
    · rintro ⟨raw, mem, still⟩
      exact ⟨raw, mem, still.refers⟩
    · rintro ⟨raw, mem, refers⟩
      obtain ⟨c, mem', listed | embedded⟩ := RawItem.refers_iff.mp refers
      · exact ⟨raw, mem, c, mem', .inl listed⟩
      · by_cases summed : raw.SumsInto c
        · exact elsewhere raw mem c mem' summed id embedded
        · exact ⟨raw, mem, c, mem', .inr ⟨embedded, summed⟩⟩

/-- An item with a rollup that refers to item 1 in its value, and a subitem with the number 5. -/
def summedReference : RawItem where
  header := .empty
  email := .null
  columns := [{
    id := "total"
    value := .str "\x7b\"linkedPulseIds\":[\x7b\"linkedPulseId\":1\x7d]\x7d"
    text := none
    displayValue := none
    linkedIds := none
    definition := some ⟨none, some ("\x7b\"relation_column\":\x7b\"subelementos\":true\x7d," ++
      "\"displayed_linked_columns\":\x7b\"B2\":[\"num\"]\x7d\x7d")⟩ }]
  assets := []
  parent := none
  subitems := [{ RawItem.empty with
    columns := [{ RawColumn.empty with id := "num", text := some "5" }] }]

/-- The sum of a rollup is written over the id in its value, and nothing is asked for. -/
theorem linkedIds_ofRaw_loses :
    ¬ ∀ (raws : List RawItem) (id : String),
      id ∈ (ofRaw raws).linkedIds ↔ ∃ raw ∈ raws, raw.Refers id := by
  intro all
  have refers : summedReference.Refers "1" := by
    refine RawItem.refers_iff.mpr ⟨_, List.mem_cons_self, .inr ?_⟩
    decide +kernel
  have unasked : (ofRaw [summedReference]).linkedIds = [] := by decide +kernel
  have asked := (all [summedReference] "1").mpr ⟨_, List.mem_cons_self, refers⟩
  rw [unasked] at asked
  cases asked

end Batch

end BoardRollup
