import BoardRollup.Relation.Pass

/-!
# A pass in one sweep

A pass decides what becomes of a column from that column alone, so it amounts to one map
over the columns, one sequence of writes to the mappable values and one count. The
same is true of a loop that writes each revised column back into the item before it
turns to the next: the columns after a position are still those of the start.
-/

namespace BoardRollup

namespace Pass

variable (revise : Column → Option Revision)

def revised (c : Column) : Column := ((revise c).map Revision.column).getD c

/-- The mappable values after a pass has gone over one column. -/
def refreshed (mappables : Mappables) (c : Column) : Mappables :=
  match revise c with
  | none => mappables
  | some r => mappables.refresh r.column.id r.column.text

def recomputes (c : Column) : Bool := (revise c).any Revision.recomputed

variable {revise}

theorem revised_of_none {c : Column} (h : revise c = none) : revised revise c = c := by
  simp [revised, h]

theorem revised_of_some {c : Column} {r : Revision} (h : revise c = some r) :
    revised revise c = r.column := by
  simp [revised, h]

theorem refreshed_of_none {c : Column} (h : revise c = none) (mappables : Mappables) :
    refreshed revise mappables c = mappables := by
  simp [refreshed, h]

theorem refreshed_of_some {c : Column} {r : Revision} (h : revise c = some r)
    (mappables : Mappables) :
    refreshed revise mappables c = mappables.refresh r.column.id r.column.text := by
  simp [refreshed, h]

variable (revise)

theorem run_eq (columns : List Column) (mappables : Mappables) :
    run revise columns mappables =
      ⟨columns.map (revised revise), columns.foldl (refreshed revise) mappables,
        columns.countP (recomputes revise)⟩ := by
  induction columns generalizing mappables with
  | nil => rfl
  | cons c rest ih =>
    cases h : revise c with
    | none =>
      have kept : recomputes revise c = false := by simp [recomputes, h]
      simp only [run, h, ih, List.map_cons, List.foldl_cons, revised_of_none h,
        refreshed_of_none h]
      rw [List.countP_cons_of_neg (by simp [kept])]
    | some r =>
      have counts : recomputes revise c = r.recomputed := by simp [recomputes, h]
      simp only [run, h, ih, List.map_cons, List.foldl_cons, revised_of_some h,
        refreshed_of_some h, List.countP_cons, counts]
      rw [Nat.add_comm]

end Pass

namespace Item

variable (item : Item) (revise : Column → Option Revision)

theorem pass_eq :
    item.pass revise =
      ({ item with
          columns := item.columns.map (Pass.revised revise)
          mappables := item.columns.foldl (Pass.refreshed revise) item.mappables },
        item.columns.countP (Pass.recomputes revise)) := by
  simp only [pass, Pass.run_eq]

/-- Revises the column at a position, writes it back there, and counts it if it was computed
from source records. -/
def reviseAt (state : Item × Nat) (position : Nat) : Item × Nat :=
  match state.1.columns[position]? with
  | none => state
  | some c =>
    match revise c with
    | none => state
    | some r =>
      ({ state.1 with
          columns := state.1.columns.set position r.column
          mappables := state.1.mappables.refresh r.column.id r.column.text },
        state.2 + if r.recomputed then 1 else 0)

/-- The pass as a loop over the positions of the columns that changes the item as it goes. -/
def passInPlace : Item × Nat :=
  (List.range item.columns.length).foldl (reviseAt revise) (item, 0)

/-- What the loop has made of an item when it has gone over so many columns. -/
def partway (count : Nat) : Item × Nat :=
  ({ item with
      columns := (item.columns.take count).map (Pass.revised revise) ++ item.columns.drop count
      mappables := (item.columns.take count).foldl (Pass.refreshed revise) item.mappables },
    (item.columns.take count).countP (Pass.recomputes revise))

theorem partway_zero : item.partway revise 0 = (item, 0) := by
  simp [partway]

theorem partway_length : item.partway revise item.columns.length = item.pass revise := by
  simp [partway, pass_eq]

variable {item} {count : Nat}

/-- The loop reads a column that it has not written yet. -/
theorem partway_getElem? (h : count < item.columns.length) :
    (item.partway revise count).1.columns[count]? = some item.columns[count] := by
  have length : ((item.columns.take count).map (Pass.revised revise)).length = count := by
    simp [Nat.le_of_lt h]
  simp only [partway]
  rw [List.getElem?_append_right (Nat.le_of_eq length), length, Nat.sub_self,
    List.getElem?_drop, Nat.add_zero]
  exact List.getElem?_eq_getElem h

/-- One round takes the state of the loop one column further. -/
theorem reviseAt_partway (h : count < item.columns.length) :
    reviseAt revise (item.partway revise count) count = item.partway revise (count + 1) := by
  have read := partway_getElem? revise h
  have next : item.columns.take (count + 1) = item.columns.take count ++ [item.columns[count]] :=
    List.take_succ_eq_append_getElem h
  have ahead : item.columns.drop count = item.columns[count] :: item.columns.drop (count + 1) :=
    List.drop_eq_getElem_cons h
  have length : ((item.columns.take count).map (Pass.revised revise)).length = count := by
    simp [Nat.le_of_lt h]
  cases r : revise item.columns[count] with
  | none =>
    have kept : Pass.recomputes revise item.columns[count] = false := by
      simp [Pass.recomputes, r]
    simp only [reviseAt, read, r]
    simp only [partway, next, List.map_append, List.map_cons, List.map_nil,
      List.foldl_append, List.foldl_cons, List.foldl_nil, List.countP_append,
      Pass.revised_of_none r, Pass.refreshed_of_none r]
    rw [ahead]
    simp [kept]
  | some r' =>
    have counts : Pass.recomputes revise item.columns[count] = r'.recomputed := by
      simp [Pass.recomputes, r]
    simp only [reviseAt, read, r]
    simp only [partway, next, ahead, List.map_append, List.map_cons, List.map_nil,
      List.foldl_append, List.foldl_cons, List.foldl_nil, List.countP_append,
      Pass.revised_of_some r, Pass.refreshed_of_some r]
    rw [List.set_append_right _ _ (Nat.le_of_eq length), length, Nat.sub_self, List.set_cons_zero]
    simp [counts]

theorem foldl_reviseAt (h : count ≤ item.columns.length) :
    (List.range count).foldl (reviseAt revise) (item, 0) = item.partway revise count := by
  induction count with
  | zero => exact (partway_zero item revise).symm
  | succ count ih =>
    rw [List.range_succ, List.foldl_append, ih (Nat.le_of_succ_le h)]
    exact reviseAt_partway revise h

variable (item)

/-- Writing in place makes no difference. -/
theorem passInPlace_eq : item.passInPlace revise = item.pass revise := by
  rw [passInPlace, foldl_reviseAt revise (Nat.le_refl _), partway_length]

end Item

end BoardRollup
