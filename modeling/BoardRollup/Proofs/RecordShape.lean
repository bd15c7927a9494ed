import BoardRollup.Proofs.Schema

/-!
# The shape of a record

A schema without required fields reads a record from an object or from an array that is not too
long, and from such a value it reads field by field. Where it does not depend on the record
whether a field can be read into it, a value gives a record exactly if it has the shape of one
and each of its fields can be read. What a record has of one field is what the last value under
this field gives.

Records inside a record are read by readers of their own. A list of them loads if each does, and
a single one that need not load is dropped if it does not.
-/

namespace BoardRollup

/-- A value gives a record. -/
def Loads {α : Type} (read : Json → Except Fault α) (v : Json) : Prop :=
  ∃ record, read v = .ok record

/-- A value is an object, or an array of at most so many entries. -/
inductive RecordShape (limit : Nat) : Json → Prop
  | object (fields : List (String × Json)) : RecordShape limit (.obj fields)
  | array {values : List Json} (fits : values.length ≤ limit) : RecordShape limit (.arr values)

/-- The fields that a value gives a record: those of an object, or the entries of an array under
the names of the fields in order. -/
def Json.given (names : List String) : Json → List (String × Json)
  | .obj fields => fields
  | .arr values => names.zip values
  | _ => []

/-- The last value that stands under a name. -/
def Json.lastGiven (names : List String) (name : String) (v : Json) : Option Json :=
  (v.given names).reverse.lookup name

/-- What becomes of a record inside a record: it is kept if its value is valid, and there is none
if its value is not or if there is no value. -/
inductive KeptIfValid {α : Type} (read : Json → Except Fault α) (valid : Json → Prop) :
    Option Json → Option α → Prop
  | absent : KeptIfValid read valid none none
  | kept {v : Json} {record : α} (fits : valid v) (loaded : read v = .ok record) :
      KeptIfValid read valid (some v) (some record)
  | dropped {v : Json} (unfit : ¬ valid v) : KeptIfValid read valid (some v) none

/-- A reader that loads what is valid drops the rest. -/
theorem keptIfValid_of_loads_iff {α : Type} {read : Json → Except Fault α} {valid : Json → Prop}
    (loads : ∀ v, Loads read v ↔ valid v) (v : Option Json) :
    KeptIfValid read valid v (v.bind (Field.lenient read)) := by
  cases v with
  | none => exact .absent
  | some v =>
    cases loaded : read v with
    | ok record =>
      have kept : (some v).bind (Field.lenient read) = some record := by
        simp [Field.lenient, loaded, Except.toOption]
      rw [kept]
      exact .kept ((loads v).mp ⟨record, loaded⟩) loaded
    | error fault =>
      have dropped : (some v).bind (Field.lenient read) = none := by
        simp [Field.lenient, loaded, Except.toOption]
      rw [dropped]
      refine .dropped fun fits => ?_
      obtain ⟨record, other⟩ := (loads v).mpr fits
      rw [loaded] at other
      cases other

theorem Fields.mem_of_lookup {α : Type} {fields : List (String × α)} {key : String} {value : α}
    (found : fields.lookup key = some value) : (key, value) ∈ fields := by
  obtain ⟨before, after, rfl, _⟩ := List.lookup_eq_some_iff.mp found
  exact List.mem_append_right before List.mem_cons_self

namespace Schema

variable {ρ : Type} {schema : Schema ρ} {v : Json}

theorem reads_cons_iff {field : String × Json} {rest : List (String × Json)} {before after : ρ} :
    schema.Reads (field :: rest) before after ↔
      ∃ middle, schema.assign before field = .ok middle ∧ schema.Reads rest middle after := by
  have step : (field :: rest).foldlM schema.assign before =
      schema.assign before field >>= fun middle => rest.foldlM schema.assign middle :=
    List.foldlM_cons
  simp only [Reads, step]
  cases schema.assign before field with
  | ok middle => simp [bind, Except.bind]
  | error fault => simp [bind, Except.bind]

theorem ofFields_eq_ok_iff (free : schema.required = []) {fields : List (String × Json)}
    {record : ρ} :
    schema.ofFields fields = .ok record ↔ schema.Reads fields schema.empty record := by
  have same : schema.ofFields fields = fields.foldlM schema.assign schema.empty := by
    rw [ofFields, free]
    exact bind_pure _
  rw [same, Reads]

theorem ofEntries_eq_ok_iff (free : schema.required = []) {values : List Json} {record : ρ} :
    schema.ofEntries values = .ok record ↔
      values.length ≤ schema.fields.length ∧
        schema.Reads ((Fields.keys schema.fields).zip values) schema.empty record := by
  rw [ofEntries, free, Reads]
  cases ((Fields.keys schema.fields).zip values).foldlM schema.assign schema.empty with
  | error fault => simp [bind, Except.bind]
  | ok found =>
    by_cases fits : values.length ≤ schema.fields.length
    · simp [bind, Except.bind, fits, Nat.not_lt.mpr fits]
    · simp [bind, Except.bind, fits, Nat.not_le.mp fits]

/-- A schema without required fields reads a record from a value of the right shape, field by
field. -/
theorem read_eq_ok_iff (free : schema.required = []) {record : ρ} :
    schema.read v = .ok record ↔
      RecordShape schema.fields.length v ∧
        schema.Reads (v.given (Fields.keys schema.fields)) schema.empty record := by
  cases v with
  | obj fields =>
    rw [read, ofFields_eq_ok_iff free]
    exact (and_iff_right (.object fields)).symm
  | arr values =>
    have shape : RecordShape schema.fields.length (.arr values) ↔
        values.length ≤ schema.fields.length := by
      constructor
      · intro shape
        cases shape with
        | array fits => exact fits
      · exact .array
    rw [read, ofEntries_eq_ok_iff free, shape]
    rfl
  | null | bool _ | num _ | str _ =>
    constructor
    · rintro ⟨⟩
    · rintro ⟨⟨⟩, _⟩

/-- If it does not depend on the record whether a field can be read into it, then fields can be
read in turn exactly if each of them can. -/
theorem exists_reads_iff {fits : String × Json → Prop}
    (each : ∀ field record, (∃ after, schema.assign record field = .ok after) ↔ fits field)
    {fields : List (String × Json)} {before : ρ} :
    (∃ after, schema.Reads fields before after) ↔ ∀ field ∈ fields, fits field := by
  induction fields generalizing before with
  | nil => exact iff_of_true ⟨before, .nil⟩ (List.forall_mem_nil _)
  | cons field rest ih =>
    rw [List.forall_mem_cons]
    constructor
    · rintro ⟨after, reads⟩
      obtain ⟨middle, first, later⟩ := reads_cons_iff.mp reads
      exact ⟨(each field before).mp ⟨middle, first⟩, ih.mp ⟨after, later⟩⟩
    · rintro ⟨first, later⟩
      obtain ⟨middle, first⟩ := (each field before).mpr first
      obtain ⟨after, later⟩ := ih.mpr later
      exact ⟨after, reads_cons_iff.mpr ⟨middle, first, later⟩⟩

theorem loads_read_iff (free : schema.required = []) {fits : String × Json → Prop}
    (each : ∀ field record, (∃ after, schema.assign record field = .ok after) ↔ fits field) :
    Loads schema.read v ↔
      RecordShape schema.fields.length v ∧
        ∀ field ∈ v.given (Fields.keys schema.fields), fits field := by
  simp only [Loads, read_eq_ok_iff free, exists_and_left, exists_reads_iff each]

/-- A field can be read into any record if each way in which the schema reads it always can. -/
theorem exists_assign_of_total {field : String × Json}
    (total : ∀ entry ∈ schema.fields, entry.1 = field.1 →
      ∀ record, ∃ after, entry.2 field.2 record = .ok after) (record : ρ) :
    ∃ after, schema.assign record field = .ok after := by
  rw [assign]
  cases known : schema.fields.lookup field.1 with
  | none => exact ⟨record, rfl⟩
  | some put =>
    exact total _ (Fields.mem_of_lookup known) rfl record

/-- If every field can always be read, then the shape of a value decides. -/
theorem loads_read_iff_of_total (free : schema.required = [])
    (total : ∀ entry ∈ schema.fields, ∀ w record, ∃ after, entry.2 w record = .ok after) :
    Loads schema.read v ↔ RecordShape schema.fields.length v := by
  have each (field : String × Json) (record : ρ) :
      (∃ after, schema.assign record field = .ok after) ↔ True := by
    refine iff_true_intro (exists_assign_of_total ?_ record)
    intro entry mem _
    exact total entry mem field.2
  rw [loads_read_iff free each]
  exact and_iff_left fun _ _ => trivial

/-- A field that a schema does not know changes nothing, and a field that it knows is read in one
of its ways. -/
theorem eq_or_mem_of_assign {record after : ρ} {field : String × Json}
    (h : schema.assign record field = .ok after) :
    after = record ∨
      ∃ entry ∈ schema.fields, entry.1 = field.1 ∧ entry.2 field.2 record = .ok after := by
  rw [assign] at h
  cases known : schema.fields.lookup field.1 with
  | none =>
    rw [known] at h
    cases h
    exact .inl rfl
  | some put =>
    rw [known] at h
    exact .inr ⟨(field.1, put), Fields.mem_of_lookup known, rfl, h⟩

/-- A part of a record that one field sets is what the last value under this field gives. -/
theorem Reads.part {β : Type} {part : ρ → β} {name : String} {value : Json → β}
    (own : ∀ w record after, schema.assign record (name, w) = .ok after → part after = value w)
    (other : ∀ entry ∈ schema.fields, entry.1 ≠ name →
      ∀ w record after, entry.2 w record = .ok after → part after = part record)
    {fields : List (String × Json)} {before after : ρ} (reads : schema.Reads fields before after) :
    part after = ((fields.reverse.lookup name).map value).getD (part before) := by
  induction fields generalizing before with
  | nil =>
    cases reads
    rfl
  | cons field rest ih =>
    obtain ⟨middle, first, later⟩ := reads_cons_iff.mp reads
    obtain ⟨key, w⟩ := field
    rw [ih later, List.reverse_cons, List.lookup_append, Fields.lookup_cons]
    by_cases same : key = name
    · subst same
      rw [own w before middle first]
      cases rest.reverse.lookup key <;> simp
    · have kept : part middle = part before := by
        rcases eq_or_mem_of_assign first with rfl | ⟨entry, mem, rfl, put⟩
        · rfl
        · exact other entry mem same w before middle put
      rw [kept]
      simp [same]

/-- A part of a record that one field sets and that is lacking otherwise. -/
theorem part_of_read {β : Type} (part : ρ → Option β) {name : String} {value : Json → Option β}
    (free : schema.required = []) (absent : part schema.empty = none)
    (own : ∀ w record after, schema.assign record (name, w) = .ok after → part after = value w)
    (other : ∀ entry ∈ schema.fields, entry.1 ≠ name →
      ∀ w record after, entry.2 w record = .ok after → part after = part record)
    {record : ρ} (loaded : schema.read v = .ok record) :
    part record = (v.lastGiven (Fields.keys schema.fields) name).bind value := by
  have reads := ((read_eq_ok_iff free).mp loaded).2
  rw [reads.part own other, absent, Json.lastGiven]
  cases (v.given (Fields.keys schema.fields)).reverse.lookup name <;> rfl

end Schema

section
variable {α : Type} {read other : Json → Except Fault α} {v : Json} {items : List Json}

theorem exists_mapM_iff :
    (∃ records, items.mapM read = .ok records) ↔ ∀ item ∈ items, Loads read item := by
  induction items with
  | nil => exact iff_of_true ⟨[], rfl⟩ (List.forall_mem_nil _)
  | cons first rest ih =>
    rw [List.forall_mem_cons, ← ih, List.mapM_cons]
    constructor
    · rintro ⟨records, all⟩
      cases loaded : read first with
      | error fault => simp [loaded, bind, Except.bind] at all
      | ok record =>
        cases later : rest.mapM read with
        | error fault => simp [loaded, later, bind, Except.bind] at all
        | ok records => exact ⟨⟨record, loaded⟩, records, rfl⟩
    · rintro ⟨⟨record, loaded⟩, records, later⟩
      exact ⟨record :: records, by rw [loaded, later]; rfl⟩

/-- A list of records loads if each of its entries does, and from anything that is no list. -/
theorem Field.loads_list_iff :
    Loads (Field.list read) v ↔
      ∀ entries, v = .arr entries → ∀ entry ∈ entries, Loads read entry := by
  cases v with
  | arr entries =>
    rw [Loads, Field.list, exists_mapM_iff]
    exact ⟨fun all _ same => Json.arr.inj same ▸ all, fun all => all entries rfl⟩
  | null | bool _ | num _ | str _ | obj _ => exact iff_of_true ⟨[], rfl⟩ nofun

theorem mapM_congr_of_mem (same : ∀ item ∈ items, read item = other item) :
    items.mapM read = items.mapM other := by
  induction items with
  | nil => rfl
  | cons first rest ih =>
    obtain ⟨head, tail⟩ := List.forall_mem_cons.mp same
    rw [List.mapM_cons, List.mapM_cons, head, ih tail]

theorem foldlM_congr_of_mem {ρ : Type} {f g : ρ → α → Except Fault ρ} {values : List α}
    (same : ∀ value ∈ values, ∀ record, f record value = g record value) (record : ρ) :
    values.foldlM f record = values.foldlM g record := by
  induction values generalizing record with
  | nil => rfl
  | cons first rest ih =>
    obtain ⟨head, tail⟩ := List.forall_mem_cons.mp same
    rw [List.foldlM_cons, List.foldlM_cons, head record, funext (ih tail)]

theorem Field.list_congr (same : ∀ entries, v = .arr entries → ∀ entry ∈ entries,
    read entry = other entry) : Field.list read v = Field.list other v := by
  cases v with
  | arr entries => exact mapM_congr_of_mem (same entries rfl)
  | null | bool _ | num _ | str _ | obj _ => rfl

end

/-- Schemas that differ in how they read their fields read the same record from a value if they
read alike what the value gives. -/
theorem Schema.read_congr {ρ : Type} {schema other : Schema ρ} {v : Json}
    (apart : schema = { other with fields := schema.fields })
    (keys : Fields.keys schema.fields = Fields.keys other.fields)
    (each : ∀ field ∈ v.given (Fields.keys other.fields), ∀ record,
      schema.assign record field = other.assign record field) :
    schema.read v = other.read v := by
  have name : schema.name = other.name := by rw [apart]
  have empty : schema.empty = other.empty := by rw [apart]
  have required : schema.required = other.required := by rw [apart]
  have length : schema.fields.length = other.fields.length := by
    simpa [Fields.keys] using congrArg List.length keys
  have fold : (v.given (Fields.keys other.fields)).foldlM schema.assign other.empty =
      (v.given (Fields.keys other.fields)).foldlM other.assign other.empty :=
    foldlM_congr_of_mem each other.empty
  cases v with
  | obj fields =>
    simp only [Json.given] at fold
    simp only [read, ofFields, empty, required, fold]
  | arr values =>
    simp only [Json.given] at fold
    simp only [read, ofEntries, name, empty, required, keys, length, fold]
  | null | bool _ | num _ | str _ => simp only [read, name]

/-- Of the fields that a value gives, the lists under one name matter. -/
theorem forall_given_iff {given : List (String × Json)} {name : String} {fits : Json → Prop} :
    (∀ field ∈ given, field.1 = name → ∀ entries, field.2 = .arr entries →
        ∀ entry ∈ entries, fits entry) ↔
      ∀ entries, (name, Json.arr entries) ∈ given → ∀ entry ∈ entries, fits entry := by
  constructor
  · intro each entries mem
    exact each _ mem rfl entries rfl
  · rintro lists ⟨_, _⟩ mem rfl entries rfl
    exact lists entries mem

namespace Json

theorem depth_le_depthItems {items : List Json} {w : Json} (mem : w ∈ items) :
    w.depth ≤ depthItems items := by
  induction items with
  | nil => cases mem
  | cons v rest ih =>
    rw [depthItems]
    rcases List.mem_cons.mp mem with rfl | mem
    · exact Nat.le_max_left ..
    · exact Nat.le_trans (ih mem) (Nat.le_max_right ..)

theorem depth_le_depthFields {fields : List (String × Json)} {field : String × Json}
    (mem : field ∈ fields) : field.2.depth ≤ depthFields fields := by
  induction fields with
  | nil => cases mem
  | cons first rest ih =>
    rw [depthFields]
    rcases List.mem_cons.mp mem with rfl | mem
    · exact Nat.le_max_left ..
    · exact Nat.le_trans (ih mem) (Nat.le_max_right ..)

theorem depth_lt_of_mem {items : List Json} {w : Json} (mem : w ∈ items) :
    w.depth < (arr items).depth :=
  Nat.lt_succ_of_le (depth_le_depthItems mem)

/-- What a value gives a record nests less deep than the value. -/
theorem depth_lt_of_mem_given {names : List String} {v : Json} {field : String × Json}
    (mem : field ∈ v.given names) : field.2.depth < v.depth := by
  cases v with
  | obj fields => exact Nat.lt_succ_of_le (depth_le_depthFields mem)
  | arr values => exact depth_lt_of_mem (List.of_mem_zip mem).2
  | null | bool _ | num _ | str _ => cases mem

end Json

section
variable {α β : Type} {result : Except Fault α} {f : α → β}

theorem return_eq_ok_iff {b : β} :
    (do return f (← result)) = (.ok b : Except Fault β) ↔ ∃ a, result = .ok a ∧ f a = b := by
  cases result with
  | error fault => simp [bind, Except.bind]
  | ok a => simp [bind, Except.bind, pure, Except.pure]

theorem exists_return_iff :
    (∃ b, (do return f (← result)) = (.ok b : Except Fault β)) ↔ ∃ a, result = .ok a := by
  simp only [return_eq_ok_iff]
  exact ⟨fun ⟨_, a, loaded, _⟩ => ⟨a, loaded⟩, fun ⟨a, loaded⟩ => ⟨f a, a, loaded, rfl⟩⟩

end

end BoardRollup
