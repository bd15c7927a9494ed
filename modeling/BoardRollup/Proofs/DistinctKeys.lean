import BoardRollup.Json.Reader
import Mathlib.Data.List.Induction

/-!
# No key twice

Values in which no object repeats a key. The fields that are written in turn never do, so
every value that is read from a text is one of these, at any depth.
-/

namespace BoardRollup

namespace Fields

variable {α : Type}

/-- A key that is new is written at the end. -/
theorem set_of_notMem {key : String} {fields : List (String × α)} (fresh : key ∉ keys fields)
    (value : α) : set key value fields = fields ++ [(key, value)] := by
  induction fields with
  | nil => rfl
  | cons entry rest ih =>
    obtain ⟨k, v⟩ := entry
    have other : k ≠ key := fun same => fresh (same ▸ List.mem_cons_self)
    have later : key ∉ keys rest := fun mem => fresh (List.mem_cons_of_mem k mem)
    rw [set, if_neg other, ih later]
    rfl

/-- A key that is there keeps its place. -/
theorem keys_set_of_mem {key : String} {fields : List (String × α)} (mem : key ∈ keys fields)
    (value : α) : keys (set key value fields) = keys fields := by
  induction fields with
  | nil => cases mem
  | cons entry rest ih =>
    obtain ⟨k, v⟩ := entry
    rw [set]
    split
    · rfl
    · next other =>
      have later : key ∈ keys rest := (List.mem_cons.mp mem).resolve_left (Ne.symm other)
      exact congrArg (k :: ·) (ih later)

theorem nodup_set {fields : List (String × α)} (nodup : (keys fields).Nodup) (key : String)
    (value : α) : (keys (set key value fields)).Nodup := by
  by_cases mem : key ∈ keys fields
  · rw [keys_set_of_mem mem]
    exact nodup
  · have fresh : (key :: keys fields).Nodup := List.nodup_cons.mpr ⟨mem, nodup⟩
    have last : keys (set key value fields) = keys fields ++ [key] := by
      rw [set_of_notMem mem, keys, List.map_append]
      rfl
    rw [last]
    exact (List.perm_append_singleton key (keys fields)).nodup_iff.mpr fresh

/-- Nothing but what is written or was there is there. -/
theorem mem_of_mem_set {key : String} {value : α} {fields : List (String × α)}
    {entry : String × α} (mem : entry ∈ set key value fields) :
    entry = (key, value) ∨ entry ∈ fields := by
  induction fields with
  | nil => exact .inl (List.mem_singleton.mp mem)
  | cons first rest ih =>
    obtain ⟨k, v⟩ := first
    rw [set] at mem
    split at mem
    · next same =>
      rcases List.mem_cons.mp mem with rfl | mem
      · exact .inl (same ▸ rfl)
      · exact .inr (List.mem_cons_of_mem _ mem)
    · rcases List.mem_cons.mp mem with rfl | mem
      · exact .inr List.mem_cons_self
      · exact (ih mem).imp_right (List.mem_cons_of_mem _)

/-- Where no key is repeated, looking one up finds its only entry. -/
theorem lookup_eq_some_iff {fields : List (String × α)} (nodup : (keys fields).Nodup)
    {key : String} {value : α} :
    fields.lookup key = some value ↔ (key, value) ∈ fields := by
  induction fields with
  | nil => simp
  | cons entry rest ih =>
    obtain ⟨k, v⟩ := entry
    obtain ⟨fresh, later⟩ := List.nodup_cons.mp nodup
    rw [lookup_cons, List.mem_cons]
    by_cases same : k = key
    · subst same
      have absent : (k, value) ∉ rest := fun mem => fresh (List.mem_map.mpr ⟨_, mem, rfl⟩)
      simp [absent, eq_comm]
    · have other : (key, value) ≠ (k, v) := fun eq => same (congrArg Prod.fst eq).symm
      simp [same, other, ih later]

theorem ofList_concat (entries : List (String × α)) (entry : String × α) :
    ofList (entries ++ [entry]) = set entry.1 entry.2 (ofList entries) := by
  rw [ofList, List.foldl_append]
  rfl

theorem nodup_ofList (entries : List (String × α)) : (keys (ofList entries)).Nodup := by
  induction entries using List.reverseRecOn with
  | nil => exact .nil
  | append_singleton before entry ih =>
    rw [ofList_concat]
    exact nodup_set ih entry.1 entry.2

theorem mem_of_mem_ofList {entries : List (String × α)} {entry : String × α}
    (mem : entry ∈ ofList entries) : entry ∈ entries := by
  induction entries using List.reverseRecOn with
  | nil => exact mem
  | append_singleton before last ih =>
    rw [ofList_concat] at mem
    rcases mem_of_mem_set mem with rfl | mem
    · exact List.mem_append_right before (List.mem_singleton_self _)
    · exact List.mem_append_left [last] (ih mem)

/-- Keys that are written in turn stand in the order in which they first came. -/
theorem keys_ofList (entries : List (String × α)) :
    keys (ofList entries) = (keys entries).eraseDups := by
  induction entries using List.reverseRecOn with
  | nil => rfl
  | append_singleton before entry ih =>
    have last : keys (before ++ [entry]) = keys before ++ [entry.1] := List.map_append
    rw [ofList_concat, last, List.eraseDups_append, ← ih]
    by_cases known : entry.1 ∈ keys (ofList before)
    · have nothing : [entry.1].removeAll (keys before) = [] := by
        have mem : entry.1 ∈ keys before := List.mem_eraseDups.mp (ih ▸ known)
        simp [List.removeAll, mem]
      rw [keys_set_of_mem known, nothing, List.eraseDups_nil, List.append_nil]
    · have itself : [entry.1].removeAll (keys before) = [entry.1] := by
        have fresh : entry.1 ∉ keys before := fun mem =>
          known (ih ▸ List.mem_eraseDups.mpr mem)
        simp [List.removeAll, fresh]
      rw [set_of_notMem known, itself, keys, List.map_append]
      rfl

/-- Fields without a repeated key are kept as they are. -/
theorem ofList_of_nodup {fields : List (String × α)} (nodup : (keys fields).Nodup) :
    ofList fields = fields := by
  induction fields using List.reverseRecOn with
  | nil => rfl
  | append_singleton before entry ih =>
    rw [keys, List.map_append, List.nodup_append] at nodup
    obtain ⟨distinct, _, apart⟩ := nodup
    have fresh : entry.1 ∉ keys before := fun mem =>
      apart entry.1 mem entry.1 (List.mem_singleton_self _) rfl
    rw [ofList_concat, ih distinct]
    exact set_of_notMem fresh entry.2

end Fields

namespace Json

theorem distinctItems_iff {items : List Json} :
    DistinctItems items ↔ ∀ v ∈ items, v.Distinct := by
  induction items with
  | nil => exact iff_of_true trivial (List.forall_mem_nil _)
  | cons v rest ih => rw [DistinctItems, ih, List.forall_mem_cons]

theorem distinctFields_iff {fields : List (String × Json)} :
    DistinctFields fields ↔ ∀ field ∈ fields, field.2.Distinct := by
  induction fields with
  | nil => exact iff_of_true trivial (List.forall_mem_nil _)
  | cons field rest ih => rw [DistinctFields, ih, List.forall_mem_cons]

/-- Every value that a reader gives has a property. -/
def Gives {α : Type} (read : Reader α) (P : α → Prop) : Prop :=
  ∀ cs a rest, read cs = some (a, rest) → P a

variable {α : Type} {entry : Reader α} {P : α → Prop}

theorem gives_readEntries (each : Gives entry P) (close : Char) (fuel : Nat) :
    Gives (readEntries entry close fuel) fun entries => ∀ a ∈ entries, P a := by
  induction fuel with
  | zero => nofun
  | succ fuel ih =>
    intro cs entries rest read
    rw [readEntries] at read
    obtain ⟨⟨first, after⟩, found, read⟩ := Option.bind_eq_some_iff.mp read
    dsimp only at read
    split at read
    · obtain ⟨⟨others, last⟩, more, read⟩ := Option.bind_eq_some_iff.mp read
      cases read
      exact List.forall_mem_cons.mpr ⟨each _ _ _ found, ih _ _ _ more⟩
    · split at read
      · cases read
        exact List.forall_mem_singleton.mpr (each _ _ _ found)
      · cases read
    · cases read

theorem gives_readBracket (each : Gives entry P) (close : Char) :
    Gives (readBracket entry close) fun entries => ∀ a ∈ entries, P a := by
  intro cs entries rest read
  rw [readBracket] at read
  split at read
  · cases read
  · split at read
    · cases read
      exact List.forall_mem_nil _
    · exact gives_readEntries each close _ _ _ _ read

theorem gives_readField {value : Reader Json} {P : Json → Prop} (each : Gives value P) :
    Gives (readField value) fun field => P field.2 := by
  intro cs field rest read
  rw [readField] at read
  split at read
  · obtain ⟨⟨key, after⟩, _, read⟩ := Option.bind_eq_some_iff.mp read
    dsimp only at read
    split at read
    · obtain ⟨⟨v, last⟩, found, read⟩ := Option.bind_eq_some_iff.mp read
      cases read
      exact each _ _ _ found
    · cases read
  · cases read

theorem gives_readScalar : Gives readScalar Distinct := by
  intro cs v rest read
  unfold readScalar at read
  split at read
  case h_1 | h_2 | h_3 =>
    cases read
    trivial
  case h_4 | h_5 =>
    obtain ⟨_, _, same⟩ := Option.map_eq_some_iff.mp read
    cases same
    trivial

/-- A value that is read repeats no key, whatever the text repeats. -/
theorem gives_readValue (depth : Nat) : Gives (readValue depth) Distinct := by
  induction depth with
  | zero =>
    intro cs v rest read
    exact gives_readScalar _ _ _ read
  | succ depth ih =>
    intro cs v rest read
    rw [readValue] at read
    split at read
    · obtain ⟨⟨items, after⟩, found, same⟩ := Option.map_eq_some_iff.mp read
      cases same
      exact distinctItems_iff.mpr (gives_readBracket ih ']' _ _ _ found)
    · obtain ⟨⟨fields, after⟩, found, same⟩ := Option.map_eq_some_iff.mp read
      cases same
      refine ⟨Fields.nodup_ofList fields, distinctFields_iff.mpr fun field mem => ?_⟩
      exact gives_readBracket (gives_readField ih) '\x7d' _ _ _ found field
        (Fields.mem_of_mem_ofList mem)
    · exact gives_readScalar _ _ _ read

/-- No document repeats a key. -/
theorem distinct_of_read? {text : String} {v : Json} (read : read? text = some v) :
    v.Distinct := by
  rw [read?] at read
  split at read
  · next value rest found =>
    split at read
    · cases read
      exact gives_readValue maxDepth _ _ _ found
    · cases read
  · cases read

end Json

end BoardRollup
