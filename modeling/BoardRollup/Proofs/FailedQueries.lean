import BoardRollup.Proofs.Envelopes
import Mathlib.Data.List.Forall2

/-!
# Queries that failed

A response may report errors beside its data. Its errors are read only if the data is absent or
null: then the document is refused with what they say, each error by its message, or by its own
text if it has none. Data that is there hides them. If it holds entries, these are read, and the
document is never refused as a failed query; if it holds none in any of the places where entries
may be, the document is refused as one without items, and what the query reported is lost.
-/

namespace BoardRollup

namespace Envelope

/-- One reported error tells its message, or its own text if it has no message. -/
inductive Tells (error : Json) : String → Prop
  | message {text : String} (named : error.field? "message" = some (.str text)) : Tells error text
  | whole (unnamed : ∀ text, error.field? "message" ≠ some (.str text)) :
      Tells error error.compact

theorem tells_errorMessage (error : Json) : Tells error (errorMessage error) := by
  by_cases named : ∃ text, error.field? "message" = some (.str text)
  · obtain ⟨text, named⟩ := named
    have own : errorMessage error = text := by
      simp [errorMessage, named, Json.str?]
    rw [own]
    exact .message named
  · have unnamed : ∀ text, error.field? "message" ≠ some (.str text) := by
      intro text same
      exact named ⟨text, same⟩
    have none : (error.field? "message").bind Json.str? = none := by
      rw [Option.bind_eq_none_iff]
      intro v found
      cases v with
      | str text => exact absurd found (unnamed text)
      | null | bool _ | num _ | arr _ | obj _ => rfl
    rw [errorMessage, none, Option.getD_none]
    exact .whole unnamed

theorem tells_errorMessages (errors : List Json) :
    List.Forall₂ Tells errors (errors.map errorMessage) :=
  List.forall₂_map_right_iff.mpr (List.forall₂_same.mpr fun error _ => tells_errorMessage error)

theorem errorMessages_arr {errors : List Json} (some_error : errors ≠ []) :
    errorMessages (.arr errors) = "; ".intercalate (errors.map errorMessage) := by
  cases errors with
  | nil => exact absurd rfl some_error
  | cons first rest => rfl

section
variable {root : List (String × Json)} {message : String}

/-- A failed query is all that a document is refused with for its errors. -/
theorem entries_eq_query_iff (distinct : (Json.obj root).Distinct) :
    entries (.obj root) = .error (.query message) ↔
      NoData root ∧ ∃ errors, root.lookup "errors" = some errors ∧
        message = errorMessages errors := by
  constructor
  · intro refused
    have located : Locates (.obj root) (.error (.query message)) :=
      refused ▸ locates_entries distinct
    cases located with
    | rejected noData reported => exact ⟨noData, _, reported, rfl⟩
  · rintro ⟨noData, errors, reported, rfl⟩
    obtain ⟨fields, search, kept⟩ := entries_of_noData noData
    obtain ⟨_, _, same⟩ := kept distinct.1
    rw [search, entriesOfRoot, same "errors" (by decide), reported]

/-- Data that is there but has no entries makes a document one without items. -/
theorem entries_of_unusable {data : Json} (response : root.lookup "data" = some data)
    (filled : data ≠ .null) (nowhere : ∀ found, ¬ InData data found) :
    entries (.obj root) = .error .noItems := by
  have none : entriesOfData data = none := by
    cases found : entriesOfData data with
    | none => rfl
    | some list => exact absurd (entriesOfData_eq_some.mp found) (nowhere list)
  rw [entries_of_response response filled, none, Option.elim_none]

theorem noData_or_filled (root : List (String × Json)) :
    NoData root ∨ ∃ data, root.lookup "data" = some data ∧ data ≠ .null := by
  cases response : root.lookup "data" with
  | none => exact .inl (.inl response)
  | some data =>
    by_cases null : data = .null
    · rw [null] at response
      exact .inl (.inr response)
    · exact .inr ⟨data, rfl, null⟩

theorem not_inData_null (found : List Json) : ¬ InData .null found := by
  intro inData
  have nothing : entriesOfData .null = none := rfl
  rw [entriesOfData_eq_some.mpr inData] at nothing
  cases nothing

end

section
variable {α : Type} {read : Json → Except Fault α} {document : Json}

theorem extract_of_refused {e : InputError} (refused : entries document = .error e) :
    extract read document = .error e := by
  rw [extract, refused]
  rfl

/-- Entries that are found but cannot be read are no failed query. -/
theorem extract_eq_query_iff {message : String} :
    extract read document = .error (.query message) ↔
      entries document = .error (.query message) := by
  refine ⟨fun refused => ?_, extract_of_refused⟩
  cases located : entries document with
  | error e =>
    rw [extract_of_refused located] at refused
    cases refused
    rfl
  | ok found =>
    have reading : extract read document = readEntries read 0 found := by
      rw [extract, located]
      rfl
    rw [reading] at refused
    obtain ⟨_, _, _, _, _, _, _, unread⟩ := (readEntries_eq_error 0).mp refused
    cases unread

end

/-- A response that reports errors and has no entries in any place of its data. -/
structure Failed (root : List (String × Json)) (errors : List Json) : Prop where
  reported : root.lookup "errors" = some (.arr errors)
  some_error : errors ≠ []
  unusable : ∀ data, root.lookup "data" = some data → ∀ found, ¬ InData data found

/-- A response that failed is refused with what its errors say if its data is absent or null, and
as a document without items if not. A response whose data has entries is never refused with
what its errors say. -/
theorem extract_failed {root : List (String × Json)} (distinct : (Json.obj root).Distinct)
    {α : Type} (read : Json → Except Fault α) :
    (∀ errors, Failed root errors → ∃ texts, List.Forall₂ Tells errors texts ∧
      (NoData root → extract read (.obj root) = .error (.query ("; ".intercalate texts))) ∧
      (¬ NoData root → extract read (.obj root) = .error .noItems)) ∧
    (∀ data found message, root.lookup "data" = some data → InData data found →
      extract read (.obj root) ≠ .error (.query message)) ∧
    ∀ message, (InputError.query message).code.text = "E2003" := by
  refine ⟨?failed, ?usable, fun _ => rfl⟩
  case failed =>
    intro errors failed
    refine ⟨errors.map errorMessage, tells_errorMessages errors, ?_, ?_⟩
    · intro noData
      rw [← errorMessages_arr failed.some_error]
      apply extract_of_refused
      exact (entries_eq_query_iff distinct).mpr ⟨noData, _, failed.reported, rfl⟩
    · intro filled
      obtain ⟨data, response, filled⟩ := (noData_or_filled root).resolve_left filled
      apply extract_of_refused
      exact entries_of_unusable response filled (failed.unusable data response)
  case usable =>
    intro data found message response inData refused
    rw [extract_eq_query_iff, entries_eq_query_iff distinct] at refused
    rcases refused.1 with absent | null
    · rw [absent] at response
      cases response
    · rw [null] at response
      cases response
      exact not_inData_null found inData

/-- A response with null data and two errors, of which the second has no message. -/
def refusedResponse : List (String × Json) :=
  [("data", .null), ("errors", .arr [.obj [("message", .str "denied")], .obj [("code", .null)]])]

theorem extract_failed_refused :
    (Json.obj refusedResponse).Distinct ∧
      ∃ errors, Failed refusedResponse errors ∧ NoData refusedResponse ∧
        ∃ texts, List.Forall₂ Tells errors texts ∧
          extract RawItem.read (.obj refusedResponse) =
            .error (.query ("; ".intercalate texts)) := by
  have distinct : (Json.obj refusedResponse).Distinct := by
    simp [refusedResponse, Json.Distinct, Json.DistinctFields, Json.DistinctItems, Fields.keys]
  have noData : NoData refusedResponse := .inr rfl
  have failed : Failed refusedResponse
      [.obj [("message", .str "denied")], .obj [("code", .null)]] :=
    { reported := rfl
      some_error := List.cons_ne_nil _ _
      unusable := by
        intro data response
        cases response
        exact not_inData_null }
  obtain ⟨texts, told, refused, _⟩ := (extract_failed distinct RawItem.read).1 _ failed
  exact ⟨distinct, _, failed, noData, texts, told, refused noData⟩

example : entries (.obj refusedResponse) =
    .error (.query "denied; \x7b\"code\":null\x7d") := rfl

/-- A response whose data has a null list of boards, beside an error. -/
def unusableResponse : List (String × Json) :=
  [("data", .obj [("boards", .null)]), ("errors", .arr [.obj [("message", .str "denied")]])]

/-- Not every failed query is reported as one: null lists in the data hide its errors. -/
theorem extract_failed_unreported :
    Json.read? ("\x7b\"data\":\x7b\"boards\":null\x7d," ++
      "\"errors\":[\x7b\"message\":\"denied\"\x7d]\x7d") = some (.obj unusableResponse) ∧
    Failed unusableResponse [.obj [("message", .str "denied")]] ∧
    extract RawItem.read (.obj unusableResponse) = .error .noItems ∧
    extract LinkedItem.read (.obj unusableResponse) = .error .noItems ∧
    ¬ ∀ root errors, (Json.obj root).Distinct → Failed root errors →
      ∃ message, extract RawItem.read (.obj root) = .error (.query message) := by
  have failed : Failed unusableResponse [.obj [("message", .str "denied")]] :=
    { reported := rfl
      some_error := List.cons_ne_nil _ _
      unusable := by
        intro data response found inData
        cases response
        have nothing : entriesOfData (.obj [("boards", .null)]) = none := rfl
        rw [entriesOfData_eq_some.mpr inData] at nothing
        cases nothing }
  have silent : extract RawItem.read (.obj unusableResponse) = .error .noItems := rfl
  refine ⟨rfl, failed, silent, rfl, fun always => ?_⟩
  have distinct : (Json.obj unusableResponse).Distinct := by
    simp [unusableResponse, Json.Distinct, Json.DistinctFields, Json.DistinctItems, Fields.keys]
  obtain ⟨message, reported⟩ := always _ _ distinct failed
  rw [silent] at reported
  cases reported

end Envelope

end BoardRollup
