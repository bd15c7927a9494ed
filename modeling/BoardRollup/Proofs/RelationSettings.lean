import BoardRollup.Proofs.RepeatedKeys
import BoardRollup.Proofs.Scalars

/-!
# What relation settings say

A settings text describes a relation if it is an object, two fields of which are objects: one
that lists columns by board, and one whose keys tell the kind of the relation. No other field of
the text matters, and neither does the place of the two among the others.

The boards stand in the order of the text, and the columns of a board are the ids in what is
written for it last. What a relation reads and what it is narrowed by follow from this order: the
first column of the first board, also where that board has none and a later one has, and the keys
whose last value is the literal true.
-/

namespace BoardRollup

/-- The ids that entries give, in order: the strings that are not empty, and the numbers as they
are spelled. All other entries are dropped. -/
inductive Json.GivesIds : List Json → List String → Prop where
  | nil : GivesIds [] []
  | str {s : String} {rest : List Json} {ids : List String} (shown : s ≠ "")
      (others : GivesIds rest ids) : GivesIds (.str s :: rest) (s :: ids)
  | num {n : JsonNumber} {rest : List Json} {ids : List String} (others : GivesIds rest ids) :
      GivesIds (.num n :: rest) (n.spelling :: ids)
  | dropped {v : Json} {rest : List Json} {ids : List String}
      (noString : ∀ s, v = .str s → s = "") (noNumber : ∀ n, v ≠ .num n)
      (others : GivesIds rest ids) : GivesIds (v :: rest) ids

theorem Json.givesIds_filterMap (items : List Json) : GivesIds items (items.filterMap asId) := by
  induction items with
  | nil => exact .nil
  | cons v rest ih =>
    cases given : v.asId with
    | none =>
      rw [List.filterMap_cons_none given]
      refine .dropped ?_ ?_ ih
      · rintro s rfl
        by_contra shown
        rw [asId_eq_some_iff.mpr (.inl ⟨rfl, shown⟩)] at given
        cases given
      · rintro n rfl
        cases given
    | some id =>
      rw [List.filterMap_cons_some given]
      rcases asId_eq_some_iff.mp given with ⟨rfl, shown⟩ | ⟨n, rfl, rfl⟩
      · exact .str shown ih
      · exact .num ih

theorem Json.asId_merge (v : Json) : v.merge.asId = v.asId := by
  cases v with
  | null | bool _ | num _ | str _ => rfl
  | arr _ | obj _ =>
    rw [merge]
    rfl

theorem Json.isTruthy_merge (v : Json) : v.merge.isTruthy = v.isTruthy := by
  cases v with
  | null | bool _ | num _ | str _ => rfl
  | arr _ | obj _ =>
    rw [merge]
    rfl

theorem Json.merge_eq_bool_iff {v : Json} {b : Bool} : v.merge = .bool b ↔ v = .bool b := by
  cases v <;> simp [merge]

theorem Json.merge_eq_obj_iff {v : Json} {fields : List (String × Json)} :
    v.merge = .obj fields ↔ ∃ entries, v = .obj entries ∧ Fields.merged entries = fields := by
  cases v with
  | obj entries => simp [merge_obj]
  | null | bool _ | num _ | str _ | arr _ => simp [merge]

namespace Fields

variable {α : Type} {fields : List (String × α)}

/-- Where no key is repeated, entries can be picked by their keys. -/
theorem map_fst_filter (nodup : (keys fields).Nodup) (p : α → Bool) :
    (fields.filter fun entry => p entry.2).map Prod.fst =
      (keys fields).filter fun key => (fields.lookup key).any p := by
  rw [keys, List.filter_map]
  congr 1
  refine List.filter_congr fun entry mem => ?_
  have found : fields.lookup entry.1 = some entry.2 := (lookup_eq_some_iff nodup).mpr mem
  rw [Function.comp_apply, found, Option.any_some]

end Fields

namespace Relation

/-- The key that marks a rollup has a value that counts as true. -/
def MarksRollup (flags : List (String × Json)) : Prop :=
  ∃ v, Fields.last? flags rollupKey = some v ∧ ¬ v.CountsAsNothing

/-- There is a key beside the one that marks a rollup. -/
def HasOtherKey (flags : List (String × Json)) : Prop :=
  ∃ key ∈ Fields.keys flags, key ≠ rollupKey

theorem marked_merged_iff (flags : List (String × Json)) :
    (((Fields.merged flags).lookup rollupKey).map Json.isTruthy).getD false = true ↔
      MarksRollup flags := by
  rw [Fields.lookup_merged, MarksRollup]
  cases Fields.last? flags rollupKey with
  | none => simp
  | some v => simp [Json.isTruthy_merge, Json.isTruthy_iff]

theorem any_merged_iff (flags : List (String × Json)) :
    (Fields.merged flags).any (·.1 ≠ rollupKey) = true ↔ HasOtherKey flags := by
  have keys : HasOtherKey flags ↔
      ∃ key ∈ Fields.keys (Fields.merged flags), key ≠ rollupKey := by
    simp only [HasOtherKey, Fields.keys_merged, List.mem_eraseDups]
  rw [keys, List.any_eq_true]
  simp [Fields.keys]

/-- A key that counts as true makes a rollup, whatever the other keys are; else any other key
makes a relation to another board. -/
theorem kindOf_merged_eq_some_iff {flags : List (String × Json)} {kind : RelationKind} :
    kindOf (Fields.merged flags) = some kind ↔
      kind = .rollup ∧ MarksRollup flags ∨
        kind = .crossBoard ∧ ¬ MarksRollup flags ∧ HasOtherKey flags := by
  rw [kindOf]
  by_cases marked : MarksRollup flags
  · rw [if_pos ((marked_merged_iff flags).mpr marked)]
    simp [marked, eq_comm]
  · rw [if_neg (mt (marked_merged_iff flags).mp marked)]
    by_cases other : HasOtherKey flags
    · rw [if_pos ((any_merged_iff flags).mpr other)]
      simp [marked, other, eq_comm]
    · rw [if_neg (mt (any_merged_iff flags).mp other)]
      simp [marked, other]

/-- The columns of a board: the ids in an array, and none in any other value. -/
def columnIds (v : Json) : List String := (v.items?.getD []).filterMap Json.asId

theorem columnIds_merge (v : Json) : columnIds v.merge = columnIds v := by
  cases v with
  | arr items =>
    have ids : Json.asId ∘ Json.merge = Json.asId := funext Json.asId_merge
    rw [Json.merge, Json.mergeItems_eq]
    show (items.map Json.merge).filterMap Json.asId = items.filterMap Json.asId
    rw [List.filterMap_map, ids]
  | obj fields =>
    rw [Json.merge_obj]
    rfl
  | null | bool _ | num _ | str _ => rfl

/-- What is written last under the names of the two fields of a relation. -/
structure HoldsFields (root displayed flags : List (String × Json)) : Prop where
  displayed : Fields.last? root "displayed_linked_columns" = some (.obj displayed)
  flags : Fields.last? root "relation_column" = some (.obj flags)

theorem HoldsFields.unique {root displayed flags displayed' flags' : List (String × Json)}
    (h : HoldsFields root displayed flags) (h' : HoldsFields root displayed' flags') :
    displayed = displayed' ∧ flags = flags' :=
  ⟨Json.obj.inj (Option.some.inj (h.displayed.symm.trans h'.displayed)),
    Json.obj.inj (Option.some.inj (h.flags.symm.trans h'.flags))⟩

theorem ofFields_merged_eq_some_iff {root : List (String × Json)} {r : Relation} :
    ofFields (Fields.merged root) = some r ↔
      ∃ displayed flags, HoldsFields root displayed flags ∧
        kindOf (Fields.merged flags) = some r.kind ∧ r.flags = Fields.merged flags ∧
          r.boards = (Fields.merged displayed).map (Prod.map id columnIds) := by
  have nothing : kindOf [] = none := rfl
  constructor
  · intro found
    rw [ofFields, Fields.lookup_merged] at found
    split at found
    · next displayed' shown =>
      obtain ⟨v, last, merged⟩ := Option.map_eq_some_iff.mp shown
      obtain ⟨displayed, rfl, rfl⟩ := Json.merge_eq_obj_iff.mp merged
      rw [Fields.lookup_merged] at found
      obtain ⟨kind, kindOf_eq, rfl⟩ := Option.map_eq_some_iff.mp found
      split at kindOf_eq
      · next flags' given =>
        obtain ⟨w, last', merged'⟩ := Option.map_eq_some_iff.mp given
        obtain ⟨flags, rfl, rfl⟩ := Json.merge_eq_obj_iff.mp merged'
        refine ⟨displayed, flags, ⟨last, last'⟩, kindOf_eq, ?_, rfl⟩
        simp only
      · rw [nothing] at kindOf_eq
        cases kindOf_eq
    · cases found
  · rintro ⟨displayed, flags, fields, kindOf_eq, flags_eq, boards_eq⟩
    rw [ofFields, Fields.lookup_merged, Fields.lookup_merged, fields.displayed, fields.flags]
    simp only [Option.map_some, Json.merge_obj, kindOf_eq, Option.some.injEq]
    rw [← flags_eq]
    cases r
    simp only at boards_eq
    rw [boards_eq]
    rfl

theorem parse_of_written {settings : String} {root : List (String × Json)}
    (written : Json.written? settings = some (.obj root)) :
    parse settings = ofFields (Fields.merged root) := by
  rw [parse, Json.read?_eq_map_merge, written, Option.map_some, Json.merge_obj]

theorem exists_written_of_parse {settings : String} {r : Relation}
    (parsed : parse settings = some r) : ∃ root, Json.written? settings = some (.obj root) := by
  rw [parse] at parsed
  split at parsed
  · next fields read =>
    rw [Json.read?_eq_map_merge] at read
    obtain ⟨v, written, merged⟩ := Option.map_eq_some_iff.mp read
    obtain ⟨root, rfl, _⟩ := Json.merge_eq_obj_iff.mp merged
    exact ⟨root, written⟩
  · cases parsed

/-- The columns that are listed for a board: the ids of an array, and none otherwise. -/
inductive ListsColumns : Json → List String → Prop where
  | array {items : List Json} {columns : List String} (ids : Json.GivesIds items columns) :
      ListsColumns (.arr items) columns
  | other {v : Json} (noArray : ∀ items, v ≠ .arr items) : ListsColumns v []

theorem listsColumns_columnIds (v : Json) : ListsColumns v (columnIds v) := by
  cases v with
  | arr items => exact .array (Json.givesIds_filterMap items)
  | null | bool _ | num _ | str _ | obj _ => exact .other nofun

/-- What the two fields say of a relation, as they are written. -/
structure Describes (displayed flags : List (String × Json)) (r : Relation) : Prop where
  rollup : MarksRollup flags → r.kind = .rollup
  crossBoard : ¬ MarksRollup flags → r.kind = .crossBoard
  /-- A board that is written again keeps its first place. -/
  order : Fields.keys r.boards = (Fields.keys displayed).eraseDups
  columns : ∀ board v, Fields.last? displayed board = some v →
    ∃ columns, r.boards.lookup board = some columns ∧ ListsColumns v columns
  keys : Fields.keys r.flags = (Fields.keys flags).eraseDups
  values : ∀ key, r.flags.lookup key = (Fields.last? flags key).map Json.merge
  /-- Of the boards the first one is read, and of its columns the first one. -/
  target : r.target? = (Fields.keys displayed).head?.bind fun board =>
    ((r.boards.lookup board).bind List.head?).map (Target.mk board)
  flagged : r.flagged =
    (Fields.keys flags).eraseDups.filter fun key => Fields.last? flags key = some (.bool true)

theorem target?_eq (r : Relation) :
    r.target? = (Fields.keys r.boards).head?.bind fun board =>
      ((r.boards.lookup board).bind List.head?).map (Target.mk board) := by
  rw [target?]
  match r.boards with
  | [] => rfl
  | (board, []) :: rest => simp [Fields.keys]
  | (board, column :: others) :: rest => simp [Fields.keys]

theorem flagged_eq {r : Relation} (nodup : (Fields.keys r.flags).Nodup) :
    r.flagged =
      (Fields.keys r.flags).filter fun key => r.flags.lookup key = some (.bool true) := by
  rw [flagged, Fields.map_fst_filter nodup fun v => v = .bool true]
  refine List.filter_congr fun key _ => ?_
  cases r.flags.lookup key with
  | none => rfl
  | some v => simp

theorem describes_of_fields {displayed flags : List (String × Json)} {r : Relation}
    (kind : kindOf (Fields.merged flags) = some r.kind) (flags_eq : r.flags = Fields.merged flags)
    (boards_eq : r.boards = (Fields.merged displayed).map (Prod.map id columnIds)) :
    Describes displayed flags r := by
  have order : Fields.keys r.boards = (Fields.keys displayed).eraseDups := by
    rw [boards_eq, Fields.keys_map, Fields.keys_merged]
  have keys : Fields.keys r.flags = (Fields.keys flags).eraseDups := by
    rw [flags_eq, Fields.keys_merged]
  have values (key : String) : r.flags.lookup key = (Fields.last? flags key).map Json.merge := by
    rw [flags_eq, Fields.lookup_merged]
  constructor
  case rollup =>
    intro marked
    rcases kindOf_merged_eq_some_iff.mp kind with ⟨rollup, _⟩ | ⟨_, unmarked, _⟩
    · exact rollup
    · exact absurd marked unmarked
  case crossBoard =>
    intro unmarked
    rcases kindOf_merged_eq_some_iff.mp kind with ⟨_, marked⟩ | ⟨crossBoard, _⟩
    · exact absurd marked unmarked
    · exact crossBoard
  case order => exact order
  case columns =>
    intro board v last
    refine ⟨columnIds v, ?_, listsColumns_columnIds v⟩
    rw [boards_eq, Fields.lookup_map, Fields.lookup_merged, last]
    simp [columnIds_merge]
  case keys => exact keys
  case values => exact values
  case target =>
    have first : (Fields.keys displayed).eraseDups.head? = (Fields.keys displayed).head? := by
      cases Fields.keys displayed with
      | nil => rfl
      | cons board rest => rw [List.eraseDups_cons, List.head?_cons, List.head?_cons]
    rw [target?_eq, order, first]
  case flagged =>
    have nodup : (Fields.keys r.flags).Nodup := by
      rw [flags_eq]
      exact Fields.nodup_ofList _
    rw [flagged_eq nodup, keys]
    refine List.filter_congr fun key _ => ?_
    rw [values]
    cases Fields.last? flags key with
    | none => rfl
    | some v => simp [Json.merge_eq_bool_iff]

/-- A settings text is read with its repeated keys merged. It describes a relation exactly if it is
an object whose two fields are objects and tell a kind. Then the relation is what these two
fields say, and nothing else in the text matters. -/
theorem parse_describes (settings : String) :
    Json.read? settings = (Json.written? settings).map Json.merge ∧
    ((parse settings).isSome ↔
      ∃ root displayed flags, Json.written? settings = some (.obj root) ∧
        HoldsFields root displayed flags ∧ (MarksRollup flags ∨ HasOtherKey flags)) ∧
    (∀ root displayed flags r, Json.written? settings = some (.obj root) →
      HoldsFields root displayed flags → parse settings = some r →
        Describes displayed flags r) ∧
    ∀ root other root', Json.written? settings = some (.obj root) →
      Json.written? other = some (.obj root') →
      (∀ key, key = "displayed_linked_columns" ∨ key = "relation_column" →
        Fields.last? root' key = Fields.last? root key) →
      parse other = parse settings := by
  refine ⟨Json.read?_eq_map_merge settings, ⟨?given, ?parsed⟩, ?described, ?depends⟩
  case given =>
    intro some
    obtain ⟨r, parsed⟩ := Option.isSome_iff_exists.mp some
    obtain ⟨root, written⟩ := exists_written_of_parse parsed
    rw [parse_of_written written] at parsed
    obtain ⟨displayed, flags, fields, kind, _⟩ := ofFields_merged_eq_some_iff.mp parsed
    refine ⟨root, displayed, flags, written, fields, ?_⟩
    rcases kindOf_merged_eq_some_iff.mp kind with ⟨_, marked⟩ | ⟨_, _, other⟩
    · exact .inl marked
    · exact .inr other
  case parsed =>
    rintro ⟨root, displayed, flags, written, fields, told⟩
    have known : ∃ kind, kindOf (Fields.merged flags) = some kind := by
      by_cases marked : MarksRollup flags
      · exact ⟨.rollup, kindOf_merged_eq_some_iff.mpr (.inl ⟨rfl, marked⟩)⟩
      · have other : HasOtherKey flags := told.resolve_left marked
        exact ⟨.crossBoard, kindOf_merged_eq_some_iff.mpr (.inr ⟨rfl, marked, other⟩)⟩
    obtain ⟨kind, kind_eq⟩ := known
    have parsed : ofFields (Fields.merged root) =
        some ⟨kind, Fields.merged flags, (Fields.merged displayed).map (Prod.map id columnIds)⟩ :=
      ofFields_merged_eq_some_iff.mpr ⟨displayed, flags, fields, kind_eq, rfl, rfl⟩
    rw [parse_of_written written, parsed]
    rfl
  case described =>
    intro root displayed flags r written fields parsed
    rw [parse_of_written written] at parsed
    obtain ⟨displayed', flags', fields', kind, flags_eq, boards_eq⟩ :=
      ofFields_merged_eq_some_iff.mp parsed
    obtain ⟨rfl, rfl⟩ := fields.unique fields'
    exact describes_of_fields kind flags_eq boards_eq
  case depends =>
    intro root other root' written written' same
    rw [parse_of_written written, parse_of_written written', ofFields, ofFields]
    simp only [Fields.lookup_merged, same _ (.inl rfl), same _ (.inr rfl)]

-- The first board is written again without columns, and the column of the second one is not read.
example : (parse ("\x7b\"displayed_linked_columns\":\x7b\"A\":[\"x\"],\"B\":[\"y\"],\"A\":[]\x7d," ++
    "\"relation_column\":\x7b\"link\":true\x7d\x7d")).map (fun r => (r.boards, r.target?)) =
      some ([("A", []), ("B", ["y"])], none) := rfl

end Relation

end BoardRollup
