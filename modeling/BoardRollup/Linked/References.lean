import BoardRollup.Column.Basic
import BoardRollup.Column.Contents

/-!
# References to linked items

A column refers to items of other boards in two ways: by its own list of ids, and by
the `linkedPulseIds` of the object that its value holds. The ids that a batch refers to
are a set, kept in ascending order so that the same set is always asked for in the
same way.
-/

namespace BoardRollup

/-- The ids that a column value holds: of each entry of `linkedPulseIds` that has one,
its `linkedPulseId`. -/
def embeddedIds (value : Json) : List String :=
  let entries := ((Contents.ofValue value).field? "linkedPulseIds").bind Json.items?
  (entries.getD []).filterMap fun entry => (entry.field? "linkedPulseId").bind Json.asId

/-- The ids that a column refers to, its own list first. -/
def Column.references (c : Column) : List String :=
  (c.linkedIds.getD []).filter (· ≠ "") ++ embeddedIds c.value

namespace IdSet

def insert (id : String) : List String → List String
  | [] => [id]
  | other :: rest =>
    if id = other then other :: rest
    else if id < other then id :: other :: rest
    else other :: insert id rest

/-- The ids of a list, ascending and each once. -/
def ofList (ids : List String) : List String := ids.foldr insert []

theorem mem_insert {id a : String} {ids : List String} :
    a ∈ insert id ids ↔ a = id ∨ a ∈ ids := by
  induction ids with
  | nil => simp [insert]
  | cons other rest ih =>
    by_cases h : id = other
    · subst h; simp [insert]
    · by_cases h' : id < other
      · simp [insert, h, h']
      · simp only [insert, h, h', ↓reduceIte, List.mem_cons, ih]
        exact or_left_comm

@[simp] theorem mem_ofList {a : String} {ids : List String} : a ∈ ofList ids ↔ a ∈ ids := by
  induction ids with
  | nil => simp [ofList]
  | cons id rest ih => simpa [ofList, mem_insert] using or_congr_right ih

end IdSet

end BoardRollup
