import BoardRollup.Proofs.Indexes
import BoardRollup.Proofs.Lookups
import Mathlib.Logic.Relation

/-!
# The shape of a response

An item that is narrowed looks linked items up by the ids that its columns refer to, and never
goes through all that is indexed. So of a response it sees one entry for each of these ids, the
last one. It makes no difference to it in which order entries with different ids come, which
items come along that it does not refer to, and what earlier entries an id has.
-/

namespace BoardRollup

namespace Item

def Refers (item : Item) (id : String) : Prop := ∃ c ∈ item.columns, c.Refers id

/-- Two responses have the same last entry, or both none, under each id that an item refers to. -/
def SameLasts (item : Item) (first second : List LinkedItem) : Prop :=
  ∀ id, item.Refers id → LinkedItem.last? first id = LinkedItem.last? second id

/-- A change of a response that does not touch the last entries an item refers to. -/
inductive Reshape (item : Item) : List LinkedItem → List LinkedItem → Prop
  /-- Neighbours with different ids are put into another order. -/
  | reorder (before after : List LinkedItem) {entries entries' : List LinkedItem}
      (distinct : (entries.map (·.id)).Nodup) (perm : entries.Perm entries') :
      Reshape item (before ++ (entries ++ after)) (before ++ (entries' ++ after))
  /-- An entry is added that the item does not refer to. -/
  | unrequested (before after : List LinkedItem) {entry : LinkedItem}
      (unknown : ¬ item.Refers entry.id) :
      Reshape item (before ++ after) (before ++ entry :: after)
  /-- An entry is added in front of another with its id. -/
  | earlier (before after : List LinkedItem) {entry : LinkedItem}
      (again : entry.id ∈ after.map (·.id)) :
      Reshape item (before ++ after) (before ++ entry :: after)

variable {item : Item} {first second : List LinkedItem}

/-- On what a column looks up, the indexes of the responses agree. -/
theorem SameLasts.agreeOn (h : item.SameLasts first second) {c : Column}
    (mem : c ∈ item.columns) :
    LinkedIndex.AgreeOn (c.lookups item) (.ofItems first) (.ofItems second) := by
  refine LinkedIndex.agreeOn_ofItems fun id looked shown => ?_
  rw [LinkedIndex.get?_ofItems_of_ne shown, LinkedIndex.get?_ofItems_of_ne shown]
  exact h id (refers_of_mem_lookups mem looked shown)

/-- A change at one place is seen only if it is seen in what stands there and behind it. -/
theorem SameLasts.append_left (before : List LinkedItem) (h : item.SameLasts first second) :
    item.SameLasts (before ++ first) (before ++ second) := by
  intro id refers
  rw [LinkedItem.last?_append, LinkedItem.last?_append, h id refers]

theorem Reshape.sameLasts (h : item.Reshape first second) : item.SameLasts first second := by
  cases h with
  | reorder before after distinct perm =>
    refine .append_left before fun id _ => ?_
    rw [LinkedItem.last?_append, LinkedItem.last?_append, LinkedItem.last?_perm distinct perm]
  | @unrequested before after entry unknown =>
    refine .append_left before fun id refers => ?_
    have other : entry.id ≠ id := fun same => unknown (same ▸ refers)
    rw [LinkedItem.last?_cons, if_neg other, Option.or_none]
  | @earlier before after entry again =>
    refine .append_left before fun id _ => ?_
    rw [LinkedItem.last?_cons]
    by_cases same : entry.id = id
    · cases last : LinkedItem.last? after id with
      | none => exact absurd (same ▸ again) (LinkedItem.last?_eq_none_iff.mp last)
      | some later => rfl
    · rw [if_neg same, Option.or_none]

/-- Any number of changes, and changes that are taken back, are not seen either. -/
theorem sameLasts_of_reshaped (h : Relation.EqvGen item.Reshape first second) :
    item.SameLasts first second := by
  induction h with
  | rel _ _ step => exact step.sameLasts
  | refl _ => exact fun _ _ => rfl
  | symm _ _ _ ih => exact fun id refers => (ih id refers).symm
  | trans _ _ _ _ _ ih ih' => exact fun id refers => (ih id refers).trans (ih' id refers)

/-- A narrowed item comes out the same from two responses that have the same last entries under
the ids it refers to, and so from a response that is reshaped. -/
theorem gather_response (narrowed : item.Narrowed) (first second : List LinkedItem) :
    (item.SameLasts first second →
      item.gather (.ofItems first) = item.gather (.ofItems second)) ∧
    (Relation.EqvGen item.Reshape first second →
      item.gather (.ofItems first) = item.gather (.ofItems second)) := by
  have same (h : item.SameLasts first second) :
      item.gather (.ofItems first) = item.gather (.ofItems second) :=
    gather_congr narrowed fun _ mem => h.agreeOn mem
  exact ⟨same, fun reshaped => same (sameLasts_of_reshaped reshaped)⟩

/-- A response with items 1 and 2. -/
def plainResponse : List LinkedItem :=
  [⟨"1", none, some "9", [⟨"price", some "4", .null⟩]⟩,
    ⟨"2", none, some "9", [⟨"price", some "6", .null⟩]⟩]

/-- The same items in the other order, behind an item 3 and another entry for item 2. -/
def crowdedResponse : List LinkedItem :=
  [⟨"2", none, some "9", [⟨"price", some "5", .null⟩]⟩,
    ⟨"3", none, some "9", [⟨"price", some "7", .null⟩]⟩,
    ⟨"2", none, some "9", [⟨"price", some "6", .null⟩]⟩,
    ⟨"1", none, some "9", [⟨"price", some "4", .null⟩]⟩]

/-- An item that refers to items 1 and 2. -/
def linkedToBoth : Item := ofLink (some ["1", "2"]) .null

theorem gather_response_crowded :
    linkedToBoth.Narrowed ∧
      Relation.EqvGen linkedToBoth.Reshape plainResponse crowdedResponse ∧
      linkedToBoth.gather (.ofItems plainResponse) =
        linkedToBoth.gather (.ofItems crowdedResponse) := by
  have narrowed : linkedToBoth.Narrowed := by decide +kernel
  have unknown : ¬ linkedToBoth.Refers "3" := by
    have none : ∀ c ∈ linkedToBoth.columns, "3" ∉ c.references := by decide +kernel
    rintro ⟨c, mem, refers⟩
    exact none c mem (Column.mem_references.mpr refers)
  have distinct : (plainResponse.map (·.id)).Nodup := by decide
  have swapped : linkedToBoth.Reshape plainResponse (crowdedResponse.drop 2) :=
    .reorder [] [] distinct (.swap ..)
  have joined : linkedToBoth.Reshape (crowdedResponse.drop 2) (crowdedResponse.drop 1) :=
    .unrequested [] _ unknown
  have repeated : linkedToBoth.Reshape (crowdedResponse.drop 1) crowdedResponse :=
    .earlier [] _ (by decide)
  have reshaped : Relation.EqvGen linkedToBoth.Reshape plainResponse crowdedResponse :=
    .trans _ _ _ (.rel _ _ swapped) (.trans _ _ _ (.rel _ _ joined) (.rel _ _ repeated))
  exact ⟨narrowed, reshaped, (gather_response narrowed _ _).2 reshaped⟩

end Item

end BoardRollup
