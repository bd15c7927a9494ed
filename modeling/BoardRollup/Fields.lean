/-!
# Fields

A list of keyed entries in the order in which the keys first came. Looking a key
up is `List.lookup`; this module writes, drops and changes entries. A key that is
written again keeps its place and takes the new value, so building from a list never
repeats a key.
-/

namespace BoardRollup

namespace Fields

variable {α : Type}

def keys (fields : List (String × α)) : List String := fields.map Prod.fst

/-- Writes an entry: in the place of its key, or at the end under a new key. -/
def set (key : String) (value : α) : List (String × α) → List (String × α)
  | [] => [(key, value)]
  | (k, v) :: rest => if k = key then (k, value) :: rest else (k, v) :: set key value rest

def ofList (entries : List (String × α)) : List (String × α) :=
  entries.foldl (fun fields entry => set entry.1 entry.2 fields) []

/-- Changes the first entry of a key, if there is one. -/
def update (key : String) (f : α → α) : List (String × α) → List (String × α)
  | [] => []
  | (k, v) :: rest => if k = key then (k, f v) :: rest else (k, v) :: update key f rest

/-- Drops the first entry of a key; the last entry takes its place. -/
def swapErase (key : String) (fields : List (String × α)) : List (String × α) :=
  let before := fields.takeWhile (·.1 ≠ key)
  match fields.dropWhile (·.1 ≠ key) with
  | [] => before
  | _ :: after =>
    match after.getLast? with
    | none => before
    | some last => before ++ last :: after.dropLast

/-- Writes an entry among keys in ascending order. -/
def insertSorted (key : String) (value : α) : List (String × α) → List (String × α)
  | [] => [(key, value)]
  | (k, v) :: rest =>
    if k = key then (k, value) :: rest
    else if key < k then (key, value) :: (k, v) :: rest
    else (k, v) :: insertSorted key value rest

/-- Writes a list of entries in turn, keeping the keys in ascending order. -/
def sorted (entries : List (String × α)) : List (String × α) :=
  entries.foldl (fun fields entry => insertSorted entry.1 entry.2 fields) []

@[simp] theorem ofList_nil : ofList ([] : List (String × α)) = [] := rfl

@[simp] theorem sorted_nil : sorted ([] : List (String × α)) = [] := rfl

theorem lookup_cons (key k : String) (v : α) (rest : List (String × α)) :
    ((k, v) :: rest).lookup key = if k = key then some v else rest.lookup key := by
  have step : ((k, v) :: rest).lookup key =
      match key == k with
      | true => some v
      | false => rest.lookup key := rfl
  rw [step]
  by_cases h : k = key
  · simp [h]
  · have differ : (key == k) = false := by simpa using fun e => h e.symm
    simp [differ, h]

theorem lookup_set (fields : List (String × α)) (key other : String) (value : α) :
    (set key value fields).lookup other =
      if key = other then some value else fields.lookup other := by
  induction fields with
  | nil => simp [set, lookup_cons]
  | cons entry rest ih =>
    obtain ⟨k, v⟩ := entry
    by_cases h : k = key
    · subst h; by_cases h' : k = other <;> simp [set, lookup_cons, h']
    · by_cases h' : k = other
      · subst h'; simp [set, h, Ne.symm h]
      · simp [set, lookup_cons, h, h', ih]

/-- Among the entries of some keys, a write to one of these keys is the same write, and a write to
another key is not seen. -/
theorem filter_set (fields : List (String × α)) (key : String) (value : α) (p : String → Bool) :
    (set key value fields).filter (fun entry => p entry.1) =
      if p key then set key value (fields.filter fun entry => p entry.1)
      else fields.filter fun entry => p entry.1 := by
  induction fields with
  | nil => by_cases seen : p key <;> simp [set, seen]
  | cons entry rest ih =>
    obtain ⟨k, v⟩ := entry
    by_cases same : k = key
    · subst same
      by_cases seen : p k <;> simp [set, seen]
    · by_cases seen : p k <;> by_cases seen' : p key <;> simp [set, same, seen, seen', ih]

/-- Entries that are written in turn hide what was there, and the last of a key counts. -/
theorem lookup_foldl_set (entries fields : List (String × α)) (key : String) :
    (entries.foldl (fun fields entry => set entry.1 entry.2 fields) fields).lookup key =
      (entries.reverse.lookup key).or (fields.lookup key) := by
  induction entries generalizing fields with
  | nil => simp
  | cons entry rest ih =>
    obtain ⟨k, v⟩ := entry
    rw [List.foldl_cons, ih, lookup_set, List.reverse_cons, List.lookup_append, lookup_cons]
    by_cases h : k = key <;> simp [h]

theorem lookup_ofList (entries : List (String × α)) (key : String) :
    (ofList entries).lookup key = entries.reverse.lookup key := by
  rw [ofList, lookup_foldl_set, List.lookup_nil, Option.or_none]

theorem lookup_reverse_of_notMem {entries : List (String × α)} {key : String}
    (fresh : key ∉ keys entries) : entries.reverse.lookup key = none := by
  rw [List.lookup_eq_none_iff]
  intro entry mem
  have apart : key ≠ entry.1 := by
    rintro rfl
    exact fresh (List.mem_map_of_mem (List.mem_reverse.mp mem))
  simpa using apart

/-- Of the entries of a key the last one is found first from the end. -/
theorem lookup_reverse_append (earlier : List (String × α)) {later : List (String × α)}
    {key : String} (value : α) (last : key ∉ keys later) :
    (earlier ++ (key, value) :: later).reverse.lookup key = some value := by
  rw [List.reverse_append, List.reverse_cons, List.append_assoc, List.lookup_append,
    lookup_reverse_of_notMem last, Option.none_or, List.singleton_append, lookup_cons, if_pos rfl]

theorem lookup_update (fields : List (String × α)) (key other : String) (f : α → α) :
    (update key f fields).lookup other =
      if key = other then (fields.lookup other).map f else fields.lookup other := by
  induction fields with
  | nil => simp [update]
  | cons entry rest ih =>
    obtain ⟨k, v⟩ := entry
    by_cases h : k = key
    · subst h; by_cases h' : k = other <;> simp [update, lookup_cons, h']
    · by_cases h' : k = other
      · subst h'; simp [update, h, Ne.symm h]
      · simp [update, lookup_cons, h, h', ih]

@[simp] theorem keys_update (fields : List (String × α)) (key : String) (f : α → α) :
    keys (update key f fields) = keys fields := by
  induction fields with
  | nil => rfl
  | cons entry rest ih =>
    obtain ⟨k, v⟩ := entry
    by_cases h : k = key
    · simp [update, h, keys]
    · simpa [update, h, keys] using ih

/-- Of two writes to one key the later counts. -/
theorem set_set (fields : List (String × α)) (key : String) (first second : α) :
    set key second (set key first fields) = set key second fields := by
  induction fields with
  | nil => simp [set]
  | cons entry rest ih =>
    obtain ⟨k, v⟩ := entry
    by_cases h : k = key <;> simp [set, h, ih]

theorem update_update (fields : List (String × α)) (key : String) (f g : α → α) :
    update key f (update key g fields) = update key (f ∘ g) fields := by
  induction fields with
  | nil => rfl
  | cons entry rest ih =>
    obtain ⟨k, v⟩ := entry
    by_cases h : k = key <;> simp [update, h, ih]

/-- Changes under different keys do not meet. -/
theorem update_comm {key other : String} (h : key ≠ other) (fields : List (String × α))
    (f g : α → α) :
    update key f (update other g fields) = update other g (update key f fields) := by
  induction fields with
  | nil => rfl
  | cons entry rest ih =>
    obtain ⟨k, v⟩ := entry
    by_cases h₁ : k = key
    · subst h₁
      simp [update, h]
    · by_cases h₂ : k = other
      · subst h₂
        simp [update, h₁]
      · simp [update, h₁, h₂, ih]

end Fields

end BoardRollup
