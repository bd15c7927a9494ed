import BoardRollup.Record.Schema

/-!
# Fields read in turn

A record is read from the fields of an object one after the other. What a run of fields makes
of a record is a relation that holds for two runs one after the other if it holds for each,
so a reading is put together from the fields that a schema knows and those that it skips.
-/

namespace BoardRollup

theorem bind_pure_of_eq_ok {ε α β : Type} {result : Except ε α} {a : α} (h : result = .ok a)
    (f : α → β) : (do return f (← result)) = (.ok (f a) : Except ε β) := by
  rw [h]
  rfl

theorem mapM_map_of_ok {ε α β : Type} {read : α → Except ε β} {write : β → α} {values : List β}
    (h : ∀ v ∈ values, read (write v) = .ok v) : (values.map write).mapM read = .ok values := by
  induction values with
  | nil => rfl
  | cons v rest ih =>
    have later : (rest.map write).mapM read = .ok rest :=
      ih fun w mem => h w (List.mem_cons_of_mem _ mem)
    rw [List.map_cons, List.mapM_cons, h v List.mem_cons_self, later]
    rfl

namespace Schema

variable {ρ : Type} {schema : Schema ρ}

def Reads (schema : Schema ρ) (fields : List (String × Json)) (before after : ρ) : Prop :=
  fields.foldlM schema.assign before = .ok after

variable {fields more : List (String × Json)} {before middle after : ρ} {name : String} {v : Json}

theorem Reads.nil : schema.Reads [] before before := rfl

theorem Reads.append (first : schema.Reads fields before middle)
    (second : schema.Reads more middle after) : schema.Reads (fields ++ more) before after := by
  have first : fields.foldlM schema.assign before = .ok middle := first
  rw [Reads, List.foldlM_append, first]
  exact second

/-- A field that the schema knows is read into the record. -/
theorem Reads.cons {put : Json → ρ → Except Fault ρ} (known : schema.fields.lookup name = some put)
    (read : put v before = .ok middle) (rest : schema.Reads fields middle after) :
    schema.Reads ((name, v) :: fields) before after := by
  have first : schema.Reads [(name, v)] before middle := by
    rw [Reads, List.foldlM_cons, assign, known]
    change (put v before >>= fun record => [].foldlM schema.assign record) = _
    rw [read]
    rfl
  exact first.append rest

/-- Fields that the schema does not know are skipped. -/
theorem Reads.of_unknown
    (h : (Fields.keys fields).all fun name => (schema.fields.lookup name).isNone) :
    schema.Reads fields before before := by
  induction fields with
  | nil => exact .nil
  | cons field rest ih =>
    obtain ⟨unknown, later⟩ := Bool.and_eq_true_iff.mp h
    have kept : schema.assign before field = .ok before := by
      rw [assign, Option.isNone_iff_eq_none.mp unknown]
    rw [Reads, List.foldlM_cons, kept]
    exact ih later

/-- Fields that turn the empty record into another give that one, if no required field is
missing. -/
theorem ofFields_of_reads (reads : schema.Reads fields schema.empty after)
    (complete : schema.required.all fun name => (fields.lookup name).isSome) :
    schema.ofFields fields = .ok after := by
  have reads : fields.foldlM schema.assign schema.empty = .ok after := reads
  have nothing : (schema.required.find? fun name => (fields.lookup name).isNone) = none := by
    rw [List.find?_eq_none]
    intro name mem missing
    have there : (fields.lookup name).isSome := List.all_eq_true.mp complete name mem
    rw [Option.isNone_iff_eq_none.mp missing] at there
    cases there
  simp only [ofFields, reads, nothing]
  rfl

end Schema

namespace Field

theorem nullable_text_ofText? (text : Option String) :
    nullable Field.text (.ofText? text) = .ok text := by
  cases text <;> rfl

theorem strictList_text_ofTexts (texts : List String) :
    strictList Field.text (.ofTexts texts) = .ok texts :=
  mapM_map_of_ok fun _ _ => rfl

theorem strictList_map {α : Type} {read : Json → Except Fault α} {write : α → Json}
    {records : List α} (h : ∀ r ∈ records, read (write r) = .ok r) :
    strictList read (.arr (records.map write)) = .ok records :=
  mapM_map_of_ok h

theorem strictList_ok (items : List Json) : strictList .ok (.arr items) = .ok items := by
  have all := @mapM_map_of_ok Fault Json Json .ok (fun v => v) items fun _ _ => rfl
  rwa [List.map_id'] at all

end Field

end BoardRollup
