import BoardRollup.Proofs.References
import Mathlib.Data.List.Induction

/-!
# Fields in the order of their keys

Entries that are written among ascending keys keep them ascending, so no key repeats. The
keys are those of the entries that were written, and entries that stand in order
already stay as they are.
-/

namespace BoardRollup

namespace Fields

variable {α : Type} {fields : List (String × α)} {key : String} {value : α}

/-- The keys are strictly ascending, and so none of them repeats. -/
def Ascending (fields : List (String × α)) : Prop := (keys fields).Pairwise (· < ·)

instance (fields : List (String × α)) : Decidable (Ascending fields) :=
  inferInstanceAs (Decidable ((keys fields).Pairwise (· < ·)))

/-- The keys of the entries take in the new key as a set of ids does. -/
theorem keys_insertSorted :
    keys (insertSorted key value fields) = IdSet.insert key (keys fields) := by
  induction fields with
  | nil => rfl
  | cons entry rest ih =>
    obtain ⟨k, v⟩ := entry
    by_cases same : k = key
    · simp [insertSorted, IdSet.insert, keys, same]
    · by_cases less : key < k
      · simp [insertSorted, IdSet.insert, keys, same, Ne.symm same, less]
      · rw [insertSorted, if_neg same, if_neg less]
        refine Eq.trans (congrArg (k :: ·) ih) (Eq.symm ?_)
        exact (if_neg (Ne.symm same)).trans (if_neg less)

theorem mem_keys_insertSorted {other : String} :
    other ∈ keys (insertSorted key value fields) ↔ other = key ∨ other ∈ keys fields := by
  rw [keys_insertSorted, IdSet.mem_insert]

theorem insertSorted_ascending (h : Ascending fields) :
    Ascending (insertSorted key value fields) := by
  rw [Ascending, keys_insertSorted]
  exact IdSet.insert_ascending h

theorem mem_of_mem_insertSorted {entry : String × α}
    (mem : entry ∈ insertSorted key value fields) : entry = (key, value) ∨ entry ∈ fields := by
  induction fields with
  | nil => exact .inl (List.mem_singleton.mp mem)
  | cons first rest ih =>
    obtain ⟨k, v⟩ := first
    by_cases same : k = key
    · rw [insertSorted, if_pos same] at mem
      rcases List.mem_cons.mp mem with rfl | mem
      · exact .inl (by rw [same])
      · exact .inr (List.mem_cons_of_mem _ mem)
    · by_cases less : key < k
      · rw [insertSorted, if_neg same, if_pos less] at mem
        exact List.mem_cons.mp mem
      · rw [insertSorted, if_neg same, if_neg less] at mem
        rcases List.mem_cons.mp mem with rfl | mem
        · exact .inr List.mem_cons_self
        · exact (ih mem).imp_right (List.mem_cons_of_mem _)

/-- An entry whose key is past all others is written at the end. -/
theorem insertSorted_of_greatest (h : ∀ other ∈ keys fields, other < key) :
    insertSorted key value fields = fields ++ [(key, value)] := by
  induction fields with
  | nil => rfl
  | cons entry rest ih =>
    obtain ⟨k, v⟩ := entry
    have less : k < key := h k List.mem_cons_self
    have same : k ≠ key := String.ne_of_lt less
    have later : ∀ other ∈ keys rest, other < key :=
      fun other mem => h other (List.mem_cons_of_mem _ mem)
    rw [insertSorted, if_neg same, if_neg (String.lt_asymm less), ih later, List.cons_append]

theorem lookup_insertSorted (other : String) :
    (insertSorted key value fields).lookup other =
      if key = other then some value else fields.lookup other := by
  induction fields with
  | nil => simp [insertSorted, lookup_cons]
  | cons entry rest ih =>
    obtain ⟨k, v⟩ := entry
    by_cases same : k = key
    · subst same
      by_cases found : k = other <;> simp [insertSorted, lookup_cons, found]
    · by_cases less : key < k
      · simp [insertSorted, same, less, lookup_cons]
      · by_cases found : k = other
        · subst found
          simp [insertSorted, same, less, Ne.symm same]
        · simp [insertSorted, same, less, lookup_cons, found, ih]

variable (entries : List (String × α))

theorem sorted_concat (entry : String × α) :
    sorted (entries ++ [entry]) = insertSorted entry.1 entry.2 (sorted entries) := by
  rw [sorted, List.foldl_append]
  rfl

theorem mem_keys_sorted {key : String} : key ∈ keys (sorted entries) ↔ key ∈ keys entries := by
  induction entries using List.reverseRecOn with
  | nil => rfl
  | append_singleton front entry ih =>
    rw [sorted_concat, mem_keys_insertSorted, ih, keys, keys, List.map_append, List.mem_append]
    simp [or_comm]

theorem mem_of_mem_sorted {entries : List (String × α)} {entry : String × α}
    (mem : entry ∈ sorted entries) : entry ∈ entries := by
  induction entries using List.reverseRecOn with
  | nil => exact mem
  | append_singleton front last ih =>
    rw [sorted_concat] at mem
    rcases mem_of_mem_insertSorted mem with rfl | mem
    · exact List.mem_append_right _ List.mem_cons_self
    · exact List.mem_append_left _ (ih mem)

/-- Of the entries of a key the one that is written last is found. -/
theorem lookup_sorted (key : String) :
    (sorted entries).lookup key = entries.reverse.lookup key := by
  induction entries using List.reverseRecOn with
  | nil => rfl
  | append_singleton front entry ih =>
    obtain ⟨k, v⟩ := entry
    rw [sorted_concat, lookup_insertSorted, ih, List.reverse_concat, lookup_cons]

theorem sorted_ascending : Ascending (sorted entries) := by
  induction entries using List.reverseRecOn with
  | nil => exact List.Pairwise.nil
  | append_singleton front entry ih =>
    rw [sorted_concat]
    exact insertSorted_ascending ih

variable {entries}

/-- Entries in order stay as they are. -/
theorem sorted_of_ascending (h : Ascending entries) : sorted entries = entries := by
  induction entries using List.reverseRecOn with
  | nil => rfl
  | append_singleton front entry ih =>
    have parts : (keys front ++ [entry.1]).Pairwise (· < ·) := by
      simpa [Ascending, keys] using h
    obtain ⟨before, _, between⟩ := List.pairwise_append.mp parts
    rw [sorted_concat, ih before]
    exact insertSorted_of_greatest fun other mem => between other mem _ List.mem_cons_self

end Fields

end BoardRollup
