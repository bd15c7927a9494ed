import BoardRollup.Proofs.Scalars
import BoardRollup.Proofs.SortedFields

/-!
# What raw columns become

A raw column becomes an object in two cases only: it has links beside a value that counts as
nothing, or its value is a string of JSON that holds an object. The first object has the links
and a text and nothing else. The second has all fields of the object that the value holds, but
for those that the texts and the links of the column are written over.

Any other column becomes the text that it shows, its own or else its display value. Where it shows
none, it becomes what its value holds, and null if that is nothing. No field, text or link of a
column is lost but in favour of one that goes before it. Of columns that share an id the last one
stands for the id.
-/

namespace BoardRollup

/-- A number, a boolean or an array. -/
inductive Json.IsBare : Json → Prop where
  | num (n : JsonNumber) : IsBare (.num n)
  | bool (b : Bool) : IsBare (.bool b)
  | arr (items : List Json) : IsBare (.arr items)

namespace RawColumn

/-- The value is a string of JSON, which holds `v`. -/
def Holds (raw : RawColumn) (v : Json) : Prop :=
  ∃ s, raw.value = .str s ∧ Json.read? s = some v

/-- The value is a string that is no JSON. -/
def IsPlain (raw : RawColumn) (s : String) : Prop :=
  raw.value = .str s ∧ Json.read? s = none

/-- The column has links, beside a value that counts as nothing. -/
def LinksAlone (raw : RawColumn) (ids : List String) : Prop :=
  raw.value.CountsAsNothing ∧ raw.linkedIds = some ids

/-- What the texts and the links of the column are written under. -/
inductive Overlays (raw : RawColumn) : String → Json → Prop where
  | text {s : String} (own : raw.text = some s) : Overlays raw "text" (.str s)
  | displayValue {s : String} (shown : raw.displayValue = some s) :
      Overlays raw "display_value" (.str s)
  | links {ids : List String} (linked : raw.linkedIds = some ids) :
      Overlays raw "linked_item_ids" (.ofTexts ids)

/-- Neither links alone nor the value make an object of the column. -/
def Flat (raw : RawColumn) : Prop :=
  (∀ ids, ¬ raw.LinksAlone ids) ∧ ∀ fields, ¬ raw.Holds (.obj fields)

variable {raw : RawColumn} {v w : Json} {s t : String} {ids ids' : List String}

theorem Holds.unique (h : raw.Holds v) (h' : raw.Holds w) : v = w := by
  obtain ⟨s, value, read⟩ := h
  obtain ⟨t, value', read'⟩ := h'
  obtain rfl : s = t := Json.str.inj (value.symm.trans value')
  exact Option.some.inj (read.symm.trans read')

theorem Holds.not_isPlain (h : raw.Holds v) : ¬ raw.IsPlain s := by
  rintro ⟨value', read'⟩
  obtain ⟨t, value, read⟩ := h
  obtain rfl : t = s := Json.str.inj (value.symm.trans value')
  rw [read] at read'
  cases read'

theorem IsPlain.unique (h : raw.IsPlain s) (h' : raw.IsPlain t) : s = t :=
  Json.str.inj (h.1.symm.trans h'.1)

/-- No value that counts as nothing is a string of JSON. -/
theorem Holds.not_linksAlone (h : raw.Holds v) : ¬ raw.LinksAlone ids := by
  rintro ⟨nothing, _⟩
  obtain ⟨s, value, read⟩ := h
  rw [value] at nothing
  cases nothing
  have unread : Json.read? "" = none := rfl
  rw [unread] at read
  cases read

theorem LinksAlone.unique (h : raw.LinksAlone ids) (h' : raw.LinksAlone ids') : ids = ids' :=
  Option.some.inj (h.2.symm.trans h'.2)

/-- What the contents of its value tell of a raw column. -/
inductive Tells (raw : RawColumn) : Contents → Prop where
  | absent (noString : ∀ s, raw.value ≠ .str s) : Tells raw .absent
  | object {fields : List (String × Json)} (holds : raw.Holds (.obj fields)) :
      Tells raw (.object fields)
  | text {s : String} (holds : raw.Holds (.str s)) : Tells raw (.text s)
  | null (holds : raw.Holds .null) : Tells raw (.other .null)
  | bare {v : Json} (holds : raw.Holds v) (bare : v.IsBare) : Tells raw (.other v)
  | plain {s : String} (plain : raw.IsPlain s) : Tells raw (.plain s)

theorem tells_ofValue (raw : RawColumn) : raw.Tells (.ofValue raw.value) := by
  cases value : raw.value with
  | str s =>
    rw [Contents.ofValue_str, Contents.ofString]
    cases read : Json.read? s with
    | none => exact .plain ⟨value, read⟩
    | some v =>
      have holds : raw.Holds v := ⟨s, value, read⟩
      cases v with
      | obj fields => exact .object holds
      | str inner => exact .text holds
      | null => exact .null holds
      | num n => exact .bare holds (.num n)
      | bool b => exact .bare holds (.bool b)
      | arr items => exact .bare holds (.arr items)
  | null | bool _ | num _ | arr _ | obj _ =>
    apply Tells.absent
    intro s same
    rw [value] at same
    cases same

end RawColumn

namespace Mappable

variable {raw : RawColumn}

theorem lookup_overlay_of_overlays {key : String} {v : Json} (overlays : raw.Overlays key v)
    (fields : List (String × Json)) : (overlay raw fields).lookup key = some v := by
  unfold overlay
  cases overlays with
  | text own =>
    rw [own]
    cases raw.displayValue <;> cases raw.linkedIds <;> simp [Fields.lookup_set]
  | displayValue shown =>
    rw [shown]
    cases raw.linkedIds <;> simp [Fields.lookup_set]
  | links linked =>
    rw [linked]
    simp [Fields.lookup_set]

theorem lookup_overlay_of_not_overlays {key : String} (free : ∀ v, ¬ raw.Overlays key v)
    (fields : List (String × Json)) : (overlay raw fields).lookup key = fields.lookup key := by
  have text : ∀ s, raw.text = some s → "text" ≠ key := by
    rintro s own rfl
    exact free _ (.text own)
  have displayValue : ∀ s, raw.displayValue = some s → "display_value" ≠ key := by
    rintro s shown rfl
    exact free _ (.displayValue shown)
  have links : ∀ ids, raw.linkedIds = some ids → "linked_item_ids" ≠ key := by
    rintro ids linked rfl
    exact free _ (.links linked)
  unfold overlay
  cases own : raw.text <;> cases shown : raw.displayValue <;> cases linked : raw.linkedIds <;>
    simp_all [Fields.lookup_set]

/-- What a raw column becomes, case by case. -/
inductive Becomes (raw : RawColumn) : Mappable → Prop where
  | links {ids : List String} (alone : raw.LinksAlone ids) :
      Becomes raw (.object [("linked_item_ids", .ofTexts ids),
        ("text", .ofText? (raw.text.or raw.displayValue))])
  | object {fields : List (String × Json)} (holds : raw.Holds (.obj fields)) :
      Becomes raw (.object (overlay raw fields))
  | shown {s : String} (flat : raw.Flat) (shown : raw.text.or raw.displayValue = some s) :
      Becomes raw (.text s)
  | held {s : String} (flat : raw.Flat) (silent : raw.text.or raw.displayValue = none)
      (holds : raw.Holds (.str s) ∨ raw.IsPlain s) : Becomes raw (.text s)
  | bare {v : Json} (silent : raw.text.or raw.displayValue = none) (holds : raw.Holds v)
      (bare : v.IsBare) : Becomes raw (.other v)
  | nothing (flat : raw.Flat) (silent : raw.text.or raw.displayValue = none)
      (empty : ∀ v, raw.Holds v → v = .null) (jsonOnly : ∀ s, ¬ raw.IsPlain s) : Becomes raw .null

theorem ofRaw_of_linksAlone {ids : List String} (alone : raw.LinksAlone ids) :
    ofRaw raw = .object [("linked_item_ids", .ofTexts ids),
      ("text", .ofText? (raw.text.or raw.displayValue))] := by
  rw [ofRaw, Json.isFalsy_iff.mpr alone.1, alone.2]
  rfl

theorem ofRaw_of_unlinked (unlinked : ∀ ids, ¬ raw.LinksAlone ids) :
    ofRaw raw = ofContents raw := by
  unfold ofRaw
  split
  · next ids falsy linked => exact absurd ⟨Json.isFalsy_iff.mp falsy, linked⟩ (unlinked ids)
  · rfl

/-- Without links alone, a column becomes what its texts and its value say. -/
theorem becomes_ofContents (unlinked : ∀ ids, ¬ raw.LinksAlone ids) :
    Becomes raw (ofContents raw) := by
  have told := raw.tells_ofValue
  have shows : shown? raw = raw.text.or raw.displayValue := rfl
  unfold ofContents
  rw [shows]
  generalize Contents.ofValue raw.value = contents at told ⊢
  cases told with
  | object holds => exact .object holds
  | text holds =>
    have flat : raw.Flat := ⟨unlinked, fun _ other => nomatch holds.unique other⟩
    cases shown : raw.text.or raw.displayValue with
    | some t => exact .shown flat shown
    | none => exact .held flat shown (.inl holds)
  | plain plain =>
    have flat : raw.Flat := ⟨unlinked, fun _ holds => holds.not_isPlain plain⟩
    cases shown : raw.text.or raw.displayValue with
    | some t => exact .shown flat shown
    | none => exact .held flat shown (.inr plain)
  | null holds =>
    have flat : raw.Flat := ⟨unlinked, fun _ other => nomatch holds.unique other⟩
    cases shown : raw.text.or raw.displayValue with
    | some t => exact .shown flat shown
    | none =>
      have empty : ∀ v, raw.Holds v → v = .null := fun v other => other.unique holds
      exact .nothing flat shown empty fun _ => holds.not_isPlain
  | bare holds bare =>
    cases bare with
    | num _ | bool _ | arr _ =>
      have flat : raw.Flat := ⟨unlinked, fun _ other => nomatch holds.unique other⟩
      cases shown : raw.text.or raw.displayValue with
      | some t => exact .shown flat shown
      | none => exact .bare shown holds (by constructor)
  | absent noString =>
    have empty : ∀ v, ¬ raw.Holds v := fun v ⟨s, same, _⟩ => noString s same
    have flat : raw.Flat := ⟨unlinked, fun _ => empty _⟩
    cases shown : raw.text.or raw.displayValue with
    | some t => exact .shown flat shown
    | none =>
      have empty : ∀ v, raw.Holds v → v = .null := fun v holds => absurd holds (empty v)
      exact .nothing flat shown empty fun s plain => noString s plain.1

theorem becomes_ofRaw (raw : RawColumn) : Becomes raw (ofRaw raw) := by
  by_cases linked : ∃ ids, raw.LinksAlone ids
  · obtain ⟨ids, alone⟩ := linked
    rw [ofRaw_of_linksAlone alone]
    exact .links alone
  · have unlinked : ∀ ids, ¬ raw.LinksAlone ids := not_exists.mp linked
    rw [ofRaw_of_unlinked unlinked]
    exact becomes_ofContents unlinked

/-- No two cases meet, and each determines what the column becomes. -/
theorem Becomes.unique {m m' : Mappable} (h : Becomes raw m) (h' : Becomes raw m') : m = m' := by
  cases h <;> cases h' <;>
    grind [cases Json.IsBare, RawColumn.Holds.unique, RawColumn.Holds.not_isPlain,
      RawColumn.IsPlain.unique, RawColumn.Holds.not_linksAlone, RawColumn.LinksAlone.unique,
      RawColumn.Flat]

/-- What a raw column becomes keeps what the column has. -/
structure Keeps (raw : RawColumn) (m : Mappable) : Prop where
  object_iff : (∃ fields, m = .object fields) ↔
    (∃ ids, raw.LinksAlone ids) ∨ ∃ given, raw.Holds (.obj given)
  /-- An object has the column's own text and its links. -/
  text {fields : List (String × Json)} {s : String} (object : m = .object fields)
    (own : raw.text = some s) : fields.lookup "text" = some (.str s)
  links {fields : List (String × Json)} {ids : List String} (object : m = .object fields)
    (linked : raw.linkedIds = some ids) :
    fields.lookup "linked_item_ids" = some (.ofTexts ids)
  /-- Links beside a value that counts as nothing stand with a text alone. -/
  alone {fields : List (String × Json)} {ids : List String} (object : m = .object fields)
    (alone : raw.LinksAlone ids) :
    (Fields.keys fields).Perm ["linked_item_ids", "text"] ∧
      fields.lookup "text" = some (.ofText? (raw.text.or raw.displayValue))
  /-- The object that a value holds keeps the fields that nothing is written over. -/
  displayValue {given fields : List (String × Json)} {s : String}
    (holds : raw.Holds (.obj given)) (object : m = .object fields)
    (shown : raw.displayValue = some s) : fields.lookup "display_value" = some (.str s)
  given {given fields : List (String × Json)} {key : String}
    (holds : raw.Holds (.obj given)) (object : m = .object fields)
    (free : ∀ v, ¬ raw.Overlays key v) : fields.lookup key = given.lookup key
  /-- A column that becomes no object becomes its text, its display value or what it holds. -/
  text_iff (s : String) : m = .text s ↔
    raw.Flat ∧ (raw.text.or raw.displayValue = some s ∨
      raw.text.or raw.displayValue = none ∧ (raw.Holds (.str s) ∨ raw.IsPlain s))
  other_iff (v : Json) : m = .other v ↔
    raw.text.or raw.displayValue = none ∧ raw.Holds v ∧ v.IsBare
  null_iff : m = .null ↔
    raw.Flat ∧ raw.text.or raw.displayValue = none ∧ (∀ v, raw.Holds v → v = .null) ∧
      ∀ s, ¬ raw.IsPlain s

theorem Becomes.keeps {m : Mappable} (becomes : Becomes raw m) : Keeps raw m := by
  constructor
  case object_iff =>
    constructor
    · rintro ⟨fields, rfl⟩
      cases becomes with
      | links alone => exact .inl ⟨_, alone⟩
      | object holds => exact .inr ⟨_, holds⟩
    · rintro (⟨ids, alone⟩ | ⟨given, holds⟩)
      · exact ⟨_, becomes.unique (.links alone)⟩
      · exact ⟨_, becomes.unique (.object holds)⟩
  case text =>
    rintro fields s rfl own
    cases becomes with
    | links alone => simp [own, Fields.lookup_cons, Json.ofText?]
    | object holds => exact lookup_overlay_of_overlays (.text own) _
  case links =>
    rintro fields ids rfl linked
    cases becomes with
    | links alone =>
      obtain rfl := alone.unique ⟨alone.1, linked⟩
      rfl
    | object holds => exact lookup_overlay_of_overlays (.links linked) _
  case alone =>
    rintro fields ids rfl alone
    cases becomes with
    | links _ => exact ⟨.refl _, rfl⟩
    | object holds => exact absurd alone holds.not_linksAlone
  case displayValue =>
    rintro given fields s holds rfl shown
    cases becomes with
    | links alone => exact absurd alone holds.not_linksAlone
    | object _ => exact lookup_overlay_of_overlays (.displayValue shown) _
  case given =>
    rintro given fields key holds rfl free
    cases becomes with
    | links alone => exact absurd alone holds.not_linksAlone
    | object holds' =>
      obtain rfl := Json.obj.inj (holds'.unique holds)
      exact lookup_overlay_of_not_overlays free _
  case text_iff =>
    intro s
    constructor
    · rintro rfl
      cases becomes with
      | shown flat shown => exact ⟨flat, .inl shown⟩
      | held flat silent holds => exact ⟨flat, .inr ⟨silent, holds⟩⟩
    · rintro ⟨flat, shown | ⟨silent, holds⟩⟩
      · exact becomes.unique (.shown flat shown)
      · exact becomes.unique (.held flat silent holds)
  case other_iff =>
    intro v
    constructor
    · rintro rfl
      cases becomes with
      | bare silent holds bare => exact ⟨silent, holds, bare⟩
    · rintro ⟨silent, holds, bare⟩
      exact becomes.unique (.bare silent holds bare)
  case null_iff =>
    constructor
    · rintro rfl
      cases becomes with
      | nothing flat silent empty jsonOnly => exact ⟨flat, silent, empty, jsonOnly⟩
    · rintro ⟨flat, silent, empty, jsonOnly⟩
      exact becomes.unique (.nothing flat silent empty jsonOnly)

end Mappable

namespace Mappables

/-- Values of columns under their ids: each id has one value, that of its last column. -/
structure Lasts (columns : List RawColumn) (mappables : Mappables) : Prop where
  ids : ∀ id, id ∈ Fields.keys mappables ↔ ∃ c ∈ columns, c.id = id
  nodup : (Fields.keys mappables).Nodup
  last : ∀ earlier c later, columns = earlier ++ c :: later → (∀ d ∈ later, d.id ≠ c.id) →
    mappables.lookup c.id = some (Mappable.ofRaw c)

variable {columns : List RawColumn}

theorem keys_written (columns : List RawColumn) :
    Fields.keys (columns.map fun c => (c.id, Mappable.ofRaw c)) = columns.map RawColumn.id := by
  rw [Fields.keys, List.map_map]
  rfl

theorem mem_keys_ofRaw {id : String} :
    id ∈ Fields.keys (ofRaw columns) ↔ ∃ c ∈ columns, c.id = id := by
  rw [ofRaw, Fields.mem_keys_sorted, keys_written, List.mem_map]

theorem lasts_ofRaw (columns : List RawColumn) : Lasts columns (ofRaw columns) where
  ids _ := mem_keys_ofRaw
  nodup := by
    have ascending : Fields.Ascending (ofRaw columns) := Fields.sorted_ascending _
    exact ascending.imp String.ne_of_lt
  last := by
    rintro earlier c later rfl last
    have unwritten : c.id ∉ Fields.keys (later.map fun d => (d.id, Mappable.ofRaw d)) := by
      rw [keys_written, List.mem_map]
      rintro ⟨d, mem, same⟩
      exact last d mem same
    rw [ofRaw, Fields.lookup_sorted, List.map_append, List.map_cons]
    exact Fields.lookup_reverse_append _ _ unwritten

/-- What raw columns become keeps what they have, and each id has the value of its last column. -/
theorem ofRaw_keeps :
    (∀ raw, Mappable.Keeps raw (Mappable.ofRaw raw)) ∧ ∀ columns, Lasts columns (ofRaw columns) :=
  ⟨fun raw => (Mappable.becomes_ofRaw raw).keeps, lasts_ofRaw⟩

end Mappables

end BoardRollup
