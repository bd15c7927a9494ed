import BoardRollup.Proofs.CrossBoard

/-!
# Passes that are repeated

A cross-board pass writes sums over column values, and values are one of the two places that
hold references. So a second pass may read other items than the first: a flagged column
that was given a sum has only its own list of ids left.

The second pass changes nothing exactly if what the references that are left contribute is
what the first pass has written already. It is so wherever no value that a sum was written
over held references, and it fails for a column that narrows itself by the references in
its own value.
-/

namespace BoardRollup

open Contributions

namespace Mappables

variable (mappables : Mappables) {id : String} {text : Option String}
variable {texts : List (String × Option String)}

@[simp] theorem refreshAll_nil : mappables.refreshAll [] = mappables := rfl

@[simp] theorem refreshAll_cons (entry : String × Option String) :
    mappables.refreshAll (entry :: texts) =
      (mappables.refresh entry.1 entry.2).refreshAll texts := rfl

/-- A write is lost if its id is written again later. -/
theorem refreshAll_refresh_of_mem (h : id ∈ texts.map Prod.fst) :
    (mappables.refresh id text).refreshAll texts = mappables.refreshAll texts := by
  induction texts generalizing mappables with
  | nil => cases h
  | cons entry rest ih =>
    by_cases same : entry.1 = id
    · subst same
      rw [refreshAll_cons, refresh_refresh, refreshAll_cons]
    · have later : id ∈ rest.map Prod.fst := by
        rcases List.mem_cons.mp h with eq | later
        · exact absurd eq.symm same
        · exact later
      rw [refreshAll_cons, refresh_comm same, ih _ later, refreshAll_cons]

/-- A write to an id that is not written again can as well come last. -/
theorem refreshAll_refresh_of_not_mem (h : id ∉ texts.map Prod.fst) :
    (mappables.refresh id text).refreshAll texts = (mappables.refreshAll texts).refresh id text := by
  induction texts generalizing mappables with
  | nil => rfl
  | cons entry rest ih =>
    have other : entry.1 ≠ id := fun eq => h (eq ▸ List.mem_cons_self)
    have later : id ∉ rest.map Prod.fst := fun mem => h (List.mem_cons_of_mem _ mem)
    rw [refreshAll_cons, refresh_comm other, ih _ later, refreshAll_cons]

/-- The same writes once more change nothing. -/
theorem refreshAll_refreshAll :
    (mappables.refreshAll texts).refreshAll texts = mappables.refreshAll texts := by
  induction texts generalizing mappables with
  | nil => rfl
  | cons entry rest ih =>
    by_cases again : entry.1 ∈ rest.map Prod.fst
    · rw [refreshAll_cons, refreshAll_cons, refreshAll_refresh_of_mem _ again, ih]
    · rw [refreshAll_cons, refreshAll_cons, ← refreshAll_refresh_of_not_mem _ again,
        refresh_refresh, ih]

end Mappables

namespace Column

variable {c : Column} {index : LinkedIndex} {item : Item} {text : String}

theorem standIn?_ne_empty (h : c.standIn? index = some text) : text ≠ "" := by
  unfold standIn? at h
  split at h
  · cases h
  · cases h
  · split at h
    · next display =>
      intro empty
      have blank : isBlankText "" = true := rfl
      have shown := (Option.filter_eq_some_iff.mp (display.trans h)).2
      simp [empty, blank] at shown
    · refine joinedText?_ne_empty ?_ h
      intro name mem
      simpa using (List.mem_filter.mp mem).2

/-- A column that shows something is not filled in. -/
theorem fillText_of_shown (h : shown? c.text = some text) : c.fillText index = c := by
  have found : c.text.filter (· ≠ "") = some text := h
  rw [fillText, found]

theorem fillText_of_not_shown (h : shown? c.text = none) :
    c.fillText index = { c with text := (c.standIn? index).or c.text } := by
  have found : c.text.filter (· ≠ "") = none := h
  rw [fillText, found]

/-- A column that shows nothing after it was filled in has nothing to be filled in with. -/
theorem standIn?_of_not_shown (h : shown? (c.fillText index).text = none) :
    c.standIn? index = none := by
  cases own : shown? c.text with
  | some text =>
    rw [fillText_of_shown own, own] at h
    cases h
  | none =>
    cases standIn : c.standIn? index with
    | none => rfl
    | some text =>
      rw [fillText_of_not_shown own, standIn] at h
      change shown? (some text) = none at h
      rw [shown?_of_ne (standIn?_ne_empty standIn)] at h
      cases h

/-- What stands in for a text depends on nothing that a pass changes. -/
@[simp] theorem standIn?_gathered : (c.gathered item index).standIn? index = c.standIn? index := by
  simp [standIn?]

end Column

theorem LinkedIndex.ne_empty_of_mem_textsFor {index : LinkedIndex} {target : Target}
    {ids : List String} {text : String} (h : text ∈ index.textsFor target ids) : text ≠ "" := by
  obtain ⟨_, _, _, _, _, _, _, shown⟩ := mem_textsFor.mp h
  exact ne_empty_of_shown? shown

namespace Column

def sourceTexts (item : Item) (index : LinkedIndex) (c : Column) : List String :=
  match c.relation? .crossBoard with
  | none => []
  | some relation =>
    match relation.target? with
    | none => []
    | some target => index.textsFor target (item.sourceIds relation index)

variable {c : Column} {index : LinkedIndex} {item : Item} {relation : Relation} {target : Target}

theorem sourceTexts_of_target (h : c.relation? .crossBoard = some relation)
    (targeted : relation.target? = some target) :
    c.sourceTexts item index = index.textsFor target (item.sourceIds relation index) := by
  simp [sourceTexts, h, targeted]

theorem mem_sourceTexts {text : String} :
    text ∈ c.sourceTexts item index ↔
      ∃ relation target, c.relation? .crossBoard = some relation ∧
        relation.target? = some target ∧
        text ∈ index.textsFor target (item.sourceIds relation index) := by
  cases h : c.relation? .crossBoard with
  | none => simp [sourceTexts, h]
  | some relation =>
    cases targeted : relation.target? with
    | none => simp [sourceTexts, h, targeted]
    | some target => simp [sourceTexts, h, targeted]

theorem ne_empty_of_mem_sourceTexts {text : String} (h : text ∈ c.sourceTexts item index) :
    text ≠ "" := by
  obtain ⟨_, _, _, _, mem⟩ := mem_sourceTexts.mp h
  exact LinkedIndex.ne_empty_of_mem_textsFor mem

theorem gathered_text (h : c.relation? .crossBoard = some relation) :
    (c.gathered item index).text =
      (joinedText? (c.sourceTexts item index)).or (c.fillText index).text := by
  cases targeted : relation.target? with
  | none => simp [gathered_of_no_target h targeted, sourceTexts, h, targeted, joinedText?]
  | some target =>
    rw [gathered_of_target h targeted, sourceTexts_of_target h targeted]
    rfl

theorem gathered_value (item : Item) (index : LinkedIndex) (c : Column) :
    (c.gathered item index).value =
      (summedValue? (c.sourceTexts item index)).getD c.value := by
  cases h : c.relation? .crossBoard with
  | none => simp [gathered_of_none h, sourceTexts, h, summedValue?]
  | some relation =>
    cases targeted : relation.target? with
    | none =>
      simp [gathered_of_no_target h targeted, sourceTexts, h, targeted, summedValue?]
    | some target =>
      rw [gathered_of_target h targeted, sourceTexts_of_target h targeted, written,
        fillText_value]

theorem not_shown_fillText (h : c.relation? .crossBoard = some relation)
    (hidden : shown? (c.gathered item index).text = none) :
    shown? (c.fillText index).text = none := by
  rw [gathered_text h] at hidden
  cases joined : joinedText? (c.sourceTexts item index) with
  | none => rwa [joined, Option.none_or] at hidden
  | some text =>
    have shown : text ≠ "" :=
      joinedText?_ne_empty (fun t mem => ne_empty_of_mem_sourceTexts mem) joined
    rw [joined, Option.some_or, shown?_of_ne shown] at hidden
    cases hidden

/-- A second pass has nothing to fill in. -/
theorem fillText_gathered (h : c.relation? .crossBoard = some relation) :
    (c.gathered item index).fillText index = c.gathered item index := by
  cases shown : shown? (c.gathered item index).text with
  | some text => exact fillText_of_shown shown
  | none =>
    have nothing : c.standIn? index = none :=
      standIn?_of_not_shown (not_shown_fillText h shown)
    rw [fillText_of_not_shown shown, standIn?_gathered, nothing, Option.none_or]

/-- The ids that a column refers to after a pass over its item: its own list, and the ids in
its value unless a sum was written over it. -/
def keptReferences (item : Item) (index : LinkedIndex) (c : Column) : List String :=
  match summedValue? (c.sourceTexts item index) with
  | none => c.references
  | some _ => (c.linkedIds.getD []).filter (· ≠ "")

theorem references_gathered (item : Item) (index : LinkedIndex) (c : Column) :
    (c.gathered item index).references = c.keptReferences item index := by
  unfold references keptReferences
  rw [gathered_value, gathered_linkedIds]
  cases written : summedValue? (c.sourceTexts item index) with
  | none => rfl
  | some value => simp [embeddedIds_summedValue written]

end Column

namespace Item

variable (item : Item) (index : LinkedIndex)

/-- The ids that the columns flagged by a relation refer to after a pass. -/
def keptIds (relation : Relation) : List String :=
  (relation.flagged.flatMap fun id =>
    ((item.column? id).map (Column.keptReferences item index)).getD []).eraseDups

/-- The ids of the linked items that a relation reads after a pass. -/
def rereadIds (relation : Relation) : List String :=
  if item.keptIds index relation = [] then index.ids else item.keptIds index relation

theorem column?_gatheredAtOnce (id : String) :
    (item.gatheredAtOnce index).column? id =
      (item.column? id).map (Column.gathered item index) := by
  simp only [column?, Column.find?, gatheredAtOnce, List.find?_map]
  congr 2
  funext c
  simp

theorem sourceIds_gatheredAtOnce (relation : Relation) :
    (item.gatheredAtOnce index).sourceIds relation index = item.rereadIds index relation := by
  have kept : (item.gatheredAtOnce index).flaggedIds relation = item.keptIds index relation := by
    simp only [flaggedIds, keptIds, column?_gatheredAtOnce, Option.map_map]
    congr 3
    funext id
    congr 2
    funext c
    exact Column.references_gathered item index c
  rw [sourceIds, kept, rereadIds]

end Item

namespace Column

/-- The first pass has written all that a second one would write to a column: the text and the
sum, if there are any, that the references left after it contribute. -/
def Settles (item : Item) (index : LinkedIndex) (c : Column) : Prop :=
  ∀ relation target, c.relation? .crossBoard = some relation → relation.target? = some target →
    let again := index.textsFor target (item.rereadIds index relation)
    (∀ text, joinedText? again = some text → (c.gathered item index).text = some text) ∧
      ∀ value, summedValue? again = some value → (c.gathered item index).value = value

variable {c : Column} {index : LinkedIndex} {item : Item}

/-- Texts leave a column as it is if what they would write stands there. -/
theorem written_eq_self_iff {texts : List String} :
    c.written texts = c ↔
      (∀ text, joinedText? texts = some text → c.text = some text) ∧
        ∀ value, summedValue? texts = some value → c.value = value := by
  constructor
  · intro same
    have text : (joinedText? texts).or c.text = c.text := congrArg Column.text same
    have value : (summedValue? texts).getD c.value = c.value := congrArg Column.value same
    refine ⟨fun t joined => ?_, fun v summed => ?_⟩
    · rw [← text, joined, Option.some_or]
    · rw [← value, summed, Option.getD_some]
  · rintro ⟨text, value⟩
    have sameText : (joinedText? texts).or c.text = c.text := by
      cases joined : joinedText? texts with
      | none => rfl
      | some t => exact (text t joined).symm
    have sameValue : (summedValue? texts).getD c.value = c.value := by
      cases summed : summedValue? texts with
      | none => rfl
      | some v => exact (value v summed).symm
    simp only [written, sameText, sameValue]

/-- A second pass leaves a column alone if the first has written what it would write. -/
theorem gathered_gathered_eq_iff :
    (c.gathered item index).gathered (item.gatheredAtOnce index) index = c.gathered item index ↔
      c.Settles item index := by
  have kept : (c.gathered item index).relation? .crossBoard = c.relation? .crossBoard :=
    gathered_relation? _
  cases h : c.relation? .crossBoard with
  | none =>
    rw [gathered_of_none (kept.trans h)]
    exact iff_of_true rfl fun relation target found => by simp [h] at found
  | some relation =>
    cases targeted : relation.target? with
    | none =>
      rw [gathered_of_no_target (kept.trans h) targeted, fillText_gathered h]
      refine iff_of_true rfl fun relation' target found targeted' => ?_
      obtain rfl : relation = relation' := Option.some.inj (h.symm.trans found)
      simp [targeted] at targeted'
    | some target =>
      rw [gathered_of_target (kept.trans h) targeted, fillText_gathered h,
        Item.sourceIds_gatheredAtOnce, written_eq_self_iff]
      constructor
      · intro stands relation' target' found targeted'
        obtain rfl : relation = relation' := Option.some.inj (h.symm.trans found)
        obtain rfl : target = target' := Option.some.inj (targeted.symm.trans targeted')
        exact stands
      · intro settles
        exact settles relation target h targeted

/-- A column that reads the same ids again is settled. -/
theorem settles_of_same_ids
    (same : ∀ relation, c.relation? .crossBoard = some relation →
      item.rereadIds index relation = item.sourceIds relation index) :
    c.Settles item index := by
  intro relation target h targeted
  rw [same relation h, ← sourceTexts_of_target h targeted]
  refine ⟨fun text joined => ?_, fun value summed => ?_⟩
  · rw [gathered_text h, joined, Option.some_or]
  · rw [gathered_value, summed, Option.getD_some]

end Column

namespace Item

variable {item : Item} {index : LinkedIndex}

theorem columns_gatheredAtOnce_gatheredAtOnce (item : Item) (index : LinkedIndex) :
    ((item.gatheredAtOnce index).gatheredAtOnce index).columns =
      item.columns.map fun c =>
        (c.gathered item index).gathered (item.gatheredAtOnce index) index := by
  simp only [gatheredAtOnce, List.map_map]
  rfl

/-- Where a second pass leaves the columns alone, the mappable values are given the same
texts. -/
theorem crossTexts_gatheredAtOnce
    (same : ∀ c ∈ item.columns,
      (c.gathered item index).gathered (item.gatheredAtOnce index) index =
        c.gathered item index) :
    (item.gatheredAtOnce index).crossTexts index = item.crossTexts index := by
  have relates : ((fun c : Column => (c.relation? .crossBoard).isSome) ∘
      Column.gathered item index) = fun c => (c.relation? .crossBoard).isSome := by
    funext c
    simp
  have columns : (item.gatheredAtOnce index).columns =
      item.columns.map (Column.gathered item index) := rfl
  rw [crossTexts, columns, List.filter_map, relates, List.map_map, crossTexts]
  refine List.map_congr_left fun c mem => ?_
  simp [same c (List.mem_filter.mp mem).1]

/-- With its columns, a second pass leaves the mappable values too. -/
theorem gatheredAtOnce_eq_iff :
    (item.gatheredAtOnce index).gatheredAtOnce index = item.gatheredAtOnce index ↔
      ∀ c ∈ item.columns,
        (c.gathered item index).gathered (item.gatheredAtOnce index) index =
          c.gathered item index := by
  have columns := columns_gatheredAtOnce_gatheredAtOnce item index
  constructor
  · intro same c mem
    have eq := columns.symm.trans (congrArg Item.columns same)
    exact List.map_inj_left.mp eq c mem
  · intro same
    have eq : ((item.gatheredAtOnce index).gatheredAtOnce index).columns =
        (item.gatheredAtOnce index).columns :=
      columns.trans (List.map_inj_left.mpr same)
    have mappables : ((item.gatheredAtOnce index).gatheredAtOnce index).mappables =
        (item.gatheredAtOnce index).mappables := by
      change (item.mappables.refreshAll (item.crossTexts index)).refreshAll
        ((item.gatheredAtOnce index).crossTexts index) = _
      rw [crossTexts_gatheredAtOnce same, Mappables.refreshAll_refreshAll]
      rfl
    calc (item.gatheredAtOnce index).gatheredAtOnce index
        = { item.gatheredAtOnce index with
            columns := ((item.gatheredAtOnce index).gatheredAtOnce index).columns
            mappables := ((item.gatheredAtOnce index).gatheredAtOnce index).mappables } := rfl
      _ = item.gatheredAtOnce index := by rw [eq, mappables]

/-- A second pass over an item with the same index changes nothing exactly when the first pass
has written all that the references left after it contribute. -/
theorem gather_gather_eq_iff (item : Item) (index : LinkedIndex) :
    ((item.gather index).1.gather index).1 = (item.gather index).1 ↔
      ∀ c ∈ item.columns, c.Settles item index := by
  rw [gather_eq, gather_eq, gatheredAtOnce_eq_iff]
  exact forall_congr' fun c => imp_congr_right fun _ => Column.gathered_gathered_eq_iff

/-- No references are lost in a pass that writes no sum over embedded ids. -/
theorem rereadIds_of_nothing_lost
    (h : ∀ c ∈ item.columns, (summedValue? (c.sourceTexts item index)).isSome →
      embeddedIds c.value = []) (relation : Relation) :
    item.rereadIds index relation = item.sourceIds relation index := by
  have kept : ∀ c ∈ item.columns, c.keptReferences item index = c.references := by
    intro c mem
    cases summed : summedValue? (c.sourceTexts item index) with
    | none => simp [Column.keptReferences, summed]
    | some value =>
      have nothing : embeddedIds c.value = [] := h c mem (by rw [summed]; rfl)
      simp [Column.keptReferences, Column.references, summed, nothing]
  have flagged : ∀ id, (item.column? id).map (Column.keptReferences item index) =
      (item.column? id).map Column.references := by
    intro id
    cases found : item.column? id with
    | none => rfl
    | some c =>
      have mem : c ∈ item.columns := List.mem_of_find?_eq_some found
      simp [kept c mem]
  have ids : item.keptIds index relation = item.flaggedIds relation := by
    simp only [keptIds, flaggedIds, flagged]
  rw [rereadIds, sourceIds, ids]

/-- A second pass changes nothing if the first wrote no sum over embedded ids. -/
theorem gather_gather_of_nothing_lost
    (h : ∀ c ∈ item.columns, (summedValue? (c.sourceTexts item index)).isSome →
      embeddedIds c.value = []) :
    ((item.gather index).1.gather index).1 = (item.gather index).1 := by
  rw [gather_eq, gather_eq, gatheredAtOnce_eq_iff]
  intro c _
  refine Column.gathered_gathered_eq_iff.mpr (Column.settles_of_same_ids fun relation _ => ?_)
  exact rereadIds_of_nothing_lost h relation

/-- A column that is flagged by its own relation, and that refers to item 1 in its value. -/
def selfNarrowing : Item :=
  ofLink none (.str "\x7b\"linkedPulseIds\":[\x7b\"linkedPulseId\":1\x7d]\x7d")

/-- Two items of the board that `selfNarrowing` reads, at prices 4 and 6. -/
def twoPrices : LinkedIndex :=
  .ofItems [⟨"1", none, some "9", [⟨"price", some "4", .null⟩]⟩,
    ⟨"2", none, some "9", [⟨"price", some "6", .null⟩]⟩]

/-- The first pass reads item 1 and writes its price over the reference to it; the second
finds no reference left and adds up both items. -/
theorem gather_not_idempotent :
    ¬ ∀ (item : Item) (index : LinkedIndex),
      ((item.gather index).1.gather index).1 = (item.gather index).1 := by
  intro idempotent
  have same := idempotent selfNarrowing twoPrices
  have differ : ((selfNarrowing.gather twoPrices).1.gather twoPrices).1 ≠
      (selfNarrowing.gather twoPrices).1 := by decide +kernel
  exact differ same

end Item

end BoardRollup
