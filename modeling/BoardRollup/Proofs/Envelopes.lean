import BoardRollup.Envelope
import BoardRollup.Proofs.DistinctKeys
import Mathlib.Data.List.Induction
import Mathlib.Data.List.Perm.Basic
import Mathlib.Data.List.Nodup
import Mathlib.Data.List.TakeWhile

/-!
# Where the entries of a document are

The places in which a document may have its entries, in the order in which they are tried,
and what a document with no entries is refused with. The relation says this of a
document as it stands, by the paths under which its lists are; what the search takes out of the
document on its way is not seen from outside.

Both kinds of records are read from the same entries: all of them, in order, or up to the
first one that is refused.
-/

namespace BoardRollup

namespace Fields

variable {α : Type} {fields : List (String × α)}

theorem swapErase_cons_self (key : String) (value : α) (rest : List (String × α)) :
    (swapErase key ((key, value) :: rest)).Perm rest := by
  cases rest using List.reverseRecOn with
  | nil => simp [swapErase]
  | append_singleton before last =>
    have moved : swapErase key ((key, value) :: (before ++ [last])) = last :: before := by
      simp [swapErase]
    rw [moved]
    exact (List.perm_append_singleton last before).symm

theorem swapErase_cons_of_ne {key k : String} (other : k ≠ key) (value : α)
    (rest : List (String × α)) :
    swapErase key ((k, value) :: rest) = (k, value) :: swapErase key rest := by
  simp only [swapErase, List.takeWhile_cons, List.dropWhile_cons, ne_eq, other, not_false_eq_true,
    decide_true, ↓reduceIte]
  split
  · rfl
  · split <;> rfl

/-- Dropping the only entry of a key keeps the others, if not their order. -/
theorem swapErase_perm (nodup : (keys fields).Nodup) (key : String) :
    (swapErase key fields).Perm (fields.filter (·.1 ≠ key)) := by
  induction fields with
  | nil => exact .nil
  | cons entry rest ih =>
    obtain ⟨k, v⟩ := entry
    obtain ⟨fresh, later⟩ := List.nodup_cons.mp nodup
    by_cases same : k = key
    · subst same
      have others : rest.filter (·.1 ≠ k) = rest := by
        refine List.filter_eq_self.mpr fun entry mem => decide_eq_true ?_
        rintro rfl
        exact fresh (List.mem_map.mpr ⟨entry, mem, rfl⟩)
      rw [List.filter_cons_of_neg (by simp), others]
      exact swapErase_cons_self k v rest
    · rw [swapErase_cons_of_ne same, List.filter_cons_of_pos (by simpa using same)]
      exact (ih later).cons _

theorem nodup_swapErase (nodup : (keys fields).Nodup) (key : String) :
    (keys (swapErase key fields)).Nodup := by
  have perm : (keys (swapErase key fields)).Perm (keys (fields.filter (·.1 ≠ key))) :=
    (swapErase_perm nodup key).map Prod.fst
  exact perm.nodup_iff.mpr (nodup.sublist (List.filter_sublist.map Prod.fst))

/-- Dropping the entry of a key changes what is found under this key only. -/
theorem lookup_swapErase (nodup : (keys fields).Nodup) {key other : String} (apart : other ≠ key) :
    (swapErase key fields).lookup other = fields.lookup other := by
  ext value
  rw [lookup_eq_some_iff (nodup_swapErase nodup key),
    lookup_eq_some_iff nodup, (swapErase_perm nodup key).mem_iff, List.mem_filter]
  simp [apart]

end Fields

namespace Envelope

/-- The list that stands under a path of keys. -/
def listAt? (v : Json) : List String → Option (List Json)
  | [] => v.items?
  | key :: path => (v.field? key).bind (listAt? · path)

/-- Where data has all its entries in one list, in the order in which the lists are tried. -/
def listPaths : List (List String) :=
  [["items"], ["items_page_by_column_values", "items"], ["next_items_page", "items"]]

/-- Where a board or a group has its page of entries. -/
def pagePath : List String := ["items_page", "items"]

/-- The boards of data, each with its groups behind it. -/
def pagePlaces (data : Json) : List Json :=
  ((listAt? data ["boards"]).getD []).flatMap fun board =>
    board :: (listAt? board ["groups"]).getD []

/-- Data has these entries: those of the first list there is, or else those of all pages. -/
inductive InData (data : Json) : List Json → Prop
  | listed {before after : List (List String)} {path : List String} {entries : List Json}
      (paths : listPaths = before ++ path :: after)
      (unlisted : ∀ earlier ∈ before, listAt? data earlier = none)
      (list : listAt? data path = some entries) : InData data entries
  | paged (unlisted : ∀ path ∈ listPaths, listAt? data path = none) {place : Json}
      {page : List Json} (mem : place ∈ pagePlaces data)
      (list : listAt? place pagePath = some page) :
      InData data ((pagePlaces data).flatMap fun place => (listAt? place pagePath).getD [])

/-- An object holds no data that could have entries. -/
def NoData (root : List (String × Json)) : Prop :=
  root.lookup "data" = none ∨ root.lookup "data" = some .null

/-- A document has these entries, or is refused. -/
inductive Locates : Json → Except InputError (List Json) → Prop
  | list (entries : List Json) : Locates (.arr entries) (.ok entries)
  | data {root : List (String × Json)} {data : Json} {entries : List Json}
      (response : root.lookup "data" = some data) (filled : data ≠ .null)
      (inData : InData data entries) : Locates (.obj root) (.ok entries)
  | emptyData {root : List (String × Json)} {data : Json}
      (response : root.lookup "data" = some data) (filled : data ≠ .null)
      (nowhere : ∀ entries, ¬ InData data entries) : Locates (.obj root) (.error .noItems)
  | rejected {root : List (String × Json)} {errors : Json} (noData : NoData root)
      (reported : root.lookup "errors" = some errors) :
      Locates (.obj root) (.error (.query (errorMessages errors)))
  | items {root : List (String × Json)} {entries : List Json} (noData : NoData root)
      (accepted : root.lookup "errors" = none) (list : root.lookup "items" = some (.arr entries)) :
      Locates (.obj root) (.ok entries)
  /-- The object itself is the entry, but for two fields that no record reads. -/
  | single {root item : List (String × Json)} (noData : NoData root)
      (accepted : root.lookup "errors" = none)
      (unlisted : ∀ entries, root.lookup "items" ≠ some (.arr entries))
      (id : (root.lookup "id").isSome) (columns : (root.lookup "column_values").isSome)
      (fields : item.Perm (root.filter fun field => field.1 ≠ "data" ∧ field.1 ≠ "items")) :
      Locates (.obj root) (.ok [.obj item])
  | neither {root : List (String × Json)} (noData : NoData root)
      (accepted : root.lookup "errors" = none)
      (unlisted : ∀ entries, root.lookup "items" ≠ some (.arr entries))
      (noItem : root.lookup "id" = none ∨ root.lookup "column_values" = none) :
      Locates (.obj root) (.error .noItems)
  | scalar {v : Json} (noList : ∀ entries, v ≠ .arr entries) (noObject : ∀ root, v ≠ .obj root) :
      Locates v (.error .noItems)

/-- The first list that stands under one of the paths goes before all pages. -/
theorem entriesOfData_eq (data : Json) :
    entriesOfData data = (listPaths.findSome? (listAt? data)).or
      (match (pagePlaces data).filterMap (listAt? · pagePath) with
        | [] => none
        | pages => some pages.flatten) := by
  have pages : (((data.field? "boards").bind Json.items?).getD []).flatMap boardPages =
      (pagePlaces data).filterMap (listAt? · pagePath) := by
    rw [pagePlaces, List.filterMap_flatMap]
    rfl
  have lists : listPaths.findSome? (listAt? data) =
      (page? data).or ((pageUnder? "items_page_by_column_values" data).or
        (pageUnder? "next_items_page" data)) := by
    have byId : listAt? data ["items"] = page? data := rfl
    have byPage (key : String) : listAt? data [key, "items"] = pageUnder? key data := rfl
    simp only [listPaths, List.findSome?_cons, List.findSome?_nil, byId, byPage]
    cases page? data <;> cases pageUnder? "items_page_by_column_values" data <;>
      cases pageUnder? "next_items_page" data <;> rfl
  rw [entriesOfData, pages, lists]
  cases (pagePlaces data).filterMap (listAt? · pagePath) <;>
    rw [Option.or_assoc, Option.or_assoc]

theorem flatten_filterMap {α β : Type} (f : α → Option (List β)) (places : List α) :
    (places.filterMap f).flatten = places.flatMap fun place => (f place).getD [] := by
  induction places with
  | nil => rfl
  | cons place rest ih =>
    rw [List.flatMap_cons, ← ih]
    cases page : f place with
    | none => rw [List.filterMap_cons_none page]; rfl
    | some entries => rw [List.filterMap_cons_some page]; rfl

/-- The search finds the entries of data where there are any. -/
theorem entriesOfData_eq_some {data : Json} {entries : List Json} :
    entriesOfData data = some entries ↔ InData data entries := by
  rw [entriesOfData_eq, Option.or_eq_some_iff]
  constructor
  · rintro (found | ⟨unlisted, found⟩)
    · obtain ⟨before, path, after, paths, list, earlier⟩ := List.findSome?_eq_some_iff.mp found
      exact .listed paths earlier list
    · have unlisted := List.findSome?_eq_none_iff.mp unlisted
      cases pages : (pagePlaces data).filterMap (listAt? · pagePath) with
      | nil => simp [pages] at found
      | cons page rest =>
        have some_page : page ∈ (pagePlaces data).filterMap (listAt? · pagePath) := by
          rw [pages]
          exact List.mem_cons_self
        obtain ⟨place, mem, list⟩ := List.mem_filterMap.mp some_page
        have all : entries = (pagePlaces data).flatMap fun place =>
            (listAt? place pagePath).getD [] := by
          rw [← flatten_filterMap, pages]
          simpa [pages] using found.symm
        rw [all]
        exact .paged unlisted mem list
  · rintro (⟨paths, earlier, list⟩ | ⟨unlisted, mem, list⟩)
    · exact .inl (List.findSome?_eq_some_iff.mpr ⟨_, _, _, paths, list, earlier⟩)
    · refine .inr ⟨List.findSome?_eq_none_iff.mpr unlisted, ?_⟩
      rw [← flatten_filterMap]
      have some_page := List.mem_filterMap (f := (listAt? · pagePath)).mpr ⟨_, mem, list⟩
      cases pages : (pagePlaces data).filterMap (listAt? · pagePath) with
      | nil => simp [pages] at some_page
      | cons page rest => rfl

/-- A root object without data is searched as if the null data were not there. -/
theorem entries_of_noData {root : List (String × Json)} (noData : NoData root) :
    ∃ fields, entries (.obj root) = entriesOfRoot fields ∧
      ((Fields.keys root).Nodup →
        fields.Perm (root.filter (·.1 ≠ "data")) ∧ (Fields.keys fields).Nodup ∧
          ∀ key, key ≠ "data" → fields.lookup key = root.lookup key) := by
  rcases noData with absent | null
  · refine ⟨root, by simp only [entries, absent], fun nodup => ⟨?_, nodup, fun _ _ => rfl⟩⟩
    have others : root.filter (·.1 ≠ "data") = root := by
      refine List.filter_eq_self.mpr fun field mem => decide_eq_true fun named => ?_
      obtain ⟨key, value⟩ := field
      have found := (Fields.lookup_eq_some_iff nodup).mpr mem
      rw [show key = "data" from named, absent] at found
      cases found
    rw [others]
  · refine ⟨Fields.swapErase "data" root, by simp only [entries, null], fun nodup => ?_⟩
    exact ⟨Fields.swapErase_perm nodup "data", Fields.nodup_swapErase nodup "data",
      fun key other => Fields.lookup_swapErase nodup other⟩

theorem entriesOfRoot_of_unlisted {fields : List (String × Json)}
    (accepted : fields.lookup "errors" = none)
    (unlisted : ∀ entries, fields.lookup "items" ≠ some (.arr entries)) :
    entriesOfRoot fields =
      if ((Fields.swapErase "items" fields).lookup "id").isSome &&
          ((Fields.swapErase "items" fields).lookup "column_values").isSome then
        .ok [.obj (Fields.swapErase "items" fields)]
      else .error .noItems := by
  unfold entriesOfRoot
  rw [accepted]
  dsimp only
  split
  · next list => exact absurd list (unlisted _)
  · rfl

theorem locates_of_noData {root : List (String × Json)} (nodup : (Fields.keys root).Nodup)
    (noData : NoData root) : Locates (.obj root) (entries (.obj root)) := by
  obtain ⟨fields, search, kept⟩ := entries_of_noData noData
  obtain ⟨perm, distinct, same⟩ := kept nodup
  rw [search]
  cases reported : root.lookup "errors" with
  | some errors =>
    rw [entriesOfRoot, same "errors" (by decide), reported]
    exact .rejected noData reported
  | none =>
    by_cases listed : ∃ entries, root.lookup "items" = some (.arr entries)
    · obtain ⟨entries, list⟩ := listed
      rw [entriesOfRoot, same "errors" (by decide), reported, same "items" (by decide), list]
      exact .items noData reported list
    · have unlisted : ∀ entries, root.lookup "items" ≠ some (.arr entries) :=
        fun entries list => listed ⟨entries, list⟩
      have found (key : String) (other : key ≠ "data") (another : key ≠ "items") :
          (Fields.swapErase "items" fields).lookup key = root.lookup key :=
        (Fields.lookup_swapErase distinct another).trans (same key other)
      rw [entriesOfRoot_of_unlisted ((same "errors" (by decide)).trans reported)
        (by rwa [same "items" (by decide)]), found "id" (by decide) (by decide),
        found "column_values" (by decide) (by decide)]
      split
      · next both =>
        obtain ⟨id, columns⟩ := (Bool.and_eq_true _ _).mp both
        refine .single noData reported unlisted id columns ?_
        have others := (Fields.swapErase_perm distinct "items").trans (perm.filter _)
        rw [List.filter_filter] at others
        simpa [Bool.and_comm] using others
      · next either =>
        rw [Bool.and_eq_true, not_and_or, Option.not_isSome_iff_eq_none,
          Option.not_isSome_iff_eq_none] at either
        exact .neither noData reported unlisted either

theorem entries_of_response {root : List (String × Json)} {data : Json}
    (response : root.lookup "data" = some data) (filled : data ≠ .null) :
    entries (.obj root) = (entriesOfData data).elim (.error .noItems) .ok := by
  unfold entries
  dsimp only
  rw [response]
  cases data with
  | null => exact absurd rfl filled
  | bool _ | num _ | str _ | arr _ | obj _ =>
    dsimp only
    split
    · next found => rw [found, Option.elim_some]
    · next found => rw [found, Option.elim_none]

/-- The entries that are found are where the document has them. -/
theorem locates_entries {document : Json} (distinct : document.Distinct) :
    Locates document (entries document) := by
  cases document with
  | arr entries => exact .list entries
  | obj root =>
    cases response : root.lookup "data" with
    | none => exact locates_of_noData distinct.1 (.inl response)
    | some data =>
      by_cases null : data = .null
      · exact locates_of_noData distinct.1 (.inr (null ▸ response))
      · rw [entries_of_response response null]
        cases found : entriesOfData data with
        | some entries => exact .data response null (entriesOfData_eq_some.mp found)
        | none =>
          refine .emptyData response null fun entries inData => ?_
          rw [entriesOfData_eq_some.mpr inData] at found
          cases found
  | null | bool _ | num _ | str _ => exact .scalar nofun nofun

/-- No document that is read repeats a key, so its entries are found where it has them. -/
theorem locates_of_read? {text : String} {document : Json}
    (read : Json.read? text = some document) : Locates document (entries document) :=
  locates_entries (Json.distinct_of_read? read)

/-- What comes of reading entries: a record of each, in order, or the first entry of which none
comes, by its place. -/
structure ReadsEach {α : Type} (read : Json → Except Fault α) (found : List Json)
    (result : Except InputError (List α)) : Prop where
  ok (records : List α) : result = .ok records ↔
    List.Forall₂ (fun entry record => read entry = .ok record) found records
  error (e : InputError) : result = .error e ↔
    ∃ before entry after fault, found = before ++ entry :: after ∧
      (∀ earlier ∈ before, ∃ record, read earlier = .ok record) ∧
      read entry = .error fault ∧ e = .item before.length fault

section Records

variable {α : Type} {read : Json → Except Fault α}

theorem readEntries_cons_of_ok {entry : Json} {record : α} (result : read entry = .ok record)
    (first : Nat) (rest : List Json) :
    readEntries read first (entry :: rest) = (readEntries read (first + 1) rest).map (record :: ·) := by
  simp only [readEntries, result]

theorem readEntries_cons_of_error {entry : Json} {fault : Fault} (result : read entry = .error fault)
    (first : Nat) (rest : List Json) :
    readEntries read first (entry :: rest) = .error (.item first fault) := by
  simp only [readEntries, result]

/-- Entries are read if each of them is, to the records in their order. -/
theorem readEntries_eq_ok {first : Nat} {found : List Json} {records : List α} :
    readEntries read first found = .ok records ↔
      List.Forall₂ (fun entry record => read entry = .ok record) found records := by
  induction found generalizing first records with
  | nil => simp [readEntries, eq_comm]
  | cons entry rest ih =>
    constructor
    · intro all
      cases result : read entry with
      | error fault =>
        rw [readEntries_cons_of_error result] at all
        cases all
      | ok record =>
        rw [readEntries_cons_of_ok result] at all
        cases others : readEntries read (first + 1) rest with
        | error e =>
          rw [others] at all
          cases all
        | ok later =>
          rw [others] at all
          cases all
          exact .cons result (ih.mp others)
    · rintro (_ | ⟨result, others⟩)
      rw [readEntries_cons_of_ok result, ih.mpr others, Except.map]

/-- The first entry that is refused decides, and it is named by its place. -/
theorem readEntries_eq_error (first : Nat) {found : List Json} {e : InputError} :
    readEntries read first found = .error e ↔
      ∃ before entry after fault, found = before ++ entry :: after ∧
        (∀ earlier ∈ before, ∃ record, read earlier = .ok record) ∧
        read entry = .error fault ∧ e = .item (first + before.length) fault := by
  induction found generalizing first with
  | nil => simp [readEntries]
  | cons entry rest ih =>
    cases result : read entry with
    | error fault =>
      rw [readEntries_cons_of_error result]
      constructor
      · rintro ⟨⟩
        exact ⟨[], entry, rest, fault, rfl, List.forall_mem_nil _, result, rfl⟩
      · rintro ⟨_ | ⟨b, before⟩, refused, after, other, split, accepted, refusal, rfl⟩
        · cases split
          rw [refusal] at result
          cases result
          rfl
        · cases split
          obtain ⟨record, ok⟩ := accepted _ List.mem_cons_self
          rw [ok] at result
          cases result
    | ok record =>
      have others : readEntries read first (entry :: rest) = .error e ↔
          readEntries read (first + 1) rest = .error e := by
        rw [readEntries_cons_of_ok result]
        cases readEntries read (first + 1) rest <;> simp [Except.map]
      rw [others, ih]
      constructor
      · rintro ⟨before, refused, after, fault, rfl, accepted, refusal, rfl⟩
        refine ⟨entry :: before, refused, after, fault, rfl,
          List.forall_mem_cons.mpr ⟨⟨record, result⟩, accepted⟩, refusal, ?_⟩
        rw [List.length_cons, Nat.add_right_comm, Nat.add_assoc]
      · rintro ⟨_ | ⟨b, before⟩, refused, after, fault, split, accepted, refusal, rfl⟩
        · cases split
          rw [refusal] at result
          cases result
        · cases split
          refine ⟨before, refused, after, fault, rfl,
            fun earlier mem => accepted earlier (List.mem_cons_of_mem _ mem), refusal, ?_⟩
          rw [List.length_cons, Nat.add_right_comm, Nat.add_assoc]

theorem readsEach_readEntries (found : List Json) :
    ReadsEach read found (readEntries read 0 found) where
  ok _ := readEntries_eq_ok
  error e := by simpa only [Nat.zero_add] using readEntries_eq_error 0

end Records

/-- No record reads the two fields that an item at the root of a document may have lost. -/
theorem assign_data_items {name : String} (mem : name ∈ ["data", "items"]) (v : Json) :
    (∀ read record, (RawItem.schema read).assign record (name, v) = .ok record) ∧
      ∀ record, LinkedItem.schema.assign record (name, v) = .ok record := by
  simp only [List.mem_cons, List.not_mem_nil, or_false] at mem
  rcases mem with rfl | rfl <;> exact ⟨fun _ _ => rfl, fun _ => rfl⟩

/-- Where the entries of a document are does not depend on what they are read as, and a document
that is refused is refused for every kind of record. Of the others, one record comes from each
entry in order, and the first entry that gives none is named by its place. The fields that
are left out of an item at the root are fields that no record reads. -/
theorem extract_located {document : Json} (distinct : document.Distinct) :
    (∃ located, Locates document located ∧ ∀ {α : Type} (read : Json → Except Fault α),
      (∀ e, located = .error e → extract read document = .error e) ∧
        ∀ found, located = .ok found → ReadsEach read found (extract read document)) ∧
      ∀ name ∈ ["data", "items"], ∀ v,
        (∀ read record, (RawItem.schema read).assign record (name, v) = .ok record) ∧
          ∀ record, LinkedItem.schema.assign record (name, v) = .ok record := by
  refine ⟨⟨entries document, locates_entries distinct, fun read => ⟨?_, ?_⟩⟩,
    fun name mem v => assign_data_items mem v⟩
  · intro e refused
    rw [extract, refused]
    rfl
  · intro found located
    have same : extract read document = readEntries read 0 found := by
      rw [extract, located]
      rfl
    rw [same]
    exact readsEach_readEntries found

/-- Two pages of a board, with a board and a group beside them that are malformed. -/
def pagedDocument : Json :=
  let page (id : String) : Json := .obj [("items", .arr [.obj [("id", .str id)]])]
  .obj [("data", .obj [("items", .null), ("boards", .arr [.bool true,
    .obj [("items_page", page "1"),
      ("groups", .arr [.null, .obj [("items_page", page "2")]])]])])]

theorem extract_located_paged :
    pagedDocument.Distinct ∧
      (∃ located, Locates pagedDocument located ∧ ∀ {α : Type} (read : Json → Except Fault α),
        (∀ e, located = .error e → extract read pagedDocument = .error e) ∧
          ∀ found, located = .ok found → ReadsEach read found (extract read pagedDocument)) := by
  have distinct : pagedDocument.Distinct := by
    simp [pagedDocument, Json.Distinct, Json.DistinctFields, Json.DistinctItems, Fields.keys]
  exact ⟨distinct, (extract_located distinct).1⟩

example : entries pagedDocument = .ok [.obj [("id", .str "1")], .obj [("id", .str "2")]] := rfl

/-- An object that reports errors and holds no data is refused with what it reports. -/
theorem extract_reported :
    Json.read? "\x7b\"errors\":[\x7b\"message\":\"denied\"\x7d]\x7d" =
        some (.obj [("errors", .arr [.obj [("message", .str "denied")]])]) ∧
      Envelope.items "\x7b\"errors\":[\x7b\"message\":\"denied\"\x7d]\x7d" =
        .error (.query "denied") ∧
      Envelope.linkedItems "\x7b\"errors\":[\x7b\"message\":\"denied\"\x7d]\x7d" =
        .error (.query "denied") ∧
      InputError.query "denied" ≠ .noItems :=
  ⟨rfl, rfl, rfl, nofun⟩

end Envelope

end BoardRollup
