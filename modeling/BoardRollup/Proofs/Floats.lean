import BoardRollup.Json.Basic

/-!
# The floats of a value

A value is changed in its floats alone: its shape, its keys and everything else that it holds stay
as they are. So nothing at all changes exactly where each float that the value holds is kept.
-/

namespace BoardRollup

namespace JsonNumber

def floats : JsonNumber → List FiniteDouble
  | .whole _ => []
  | .float x => [x]

def mapFloats (f : FiniteDouble → FiniteDouble) : JsonNumber → JsonNumber
  | .whole n => .whole n
  | .float x => .float (f x)

theorem mapFloats_eq_self_iff {f : FiniteDouble → FiniteDouble} (n : JsonNumber) :
    n.mapFloats f = n ↔ ∀ x ∈ n.floats, f x = x := by
  cases n <;> simp [mapFloats, floats]

end JsonNumber

namespace Json

mutual

/-- The floats that a value holds at any depth, in order. -/
def floats : Json → List FiniteDouble
  | .num n => n.floats
  | .arr items => floatsItems items
  | .obj fields => floatsFields fields
  | _ => []

def floatsItems : List Json → List FiniteDouble
  | [] => []
  | v :: rest => floats v ++ floatsItems rest

def floatsFields : List (String × Json) → List FiniteDouble
  | [] => []
  | (_, v) :: rest => floats v ++ floatsFields rest

end

mutual

/-- Changes the floats that a value holds. -/
def mapFloats (f : FiniteDouble → FiniteDouble) : Json → Json
  | .null => .null
  | .bool b => .bool b
  | .num n => .num (n.mapFloats f)
  | .str s => .str s
  | .arr items => .arr (mapFloatsItems f items)
  | .obj fields => .obj (mapFloatsFields f fields)

def mapFloatsItems (f : FiniteDouble → FiniteDouble) : List Json → List Json
  | [] => []
  | v :: rest => mapFloats f v :: mapFloatsItems f rest

def mapFloatsFields (f : FiniteDouble → FiniteDouble) : List (String × Json) → List (String × Json)
  | [] => []
  | (k, v) :: rest => (k, mapFloats f v) :: mapFloatsFields f rest

end

variable {f : FiniteDouble → FiniteDouble}

theorem mapFloatsItems_eq_map (items : List Json) :
    mapFloatsItems f items = items.map (mapFloats f) := by
  induction items with
  | nil => rfl
  | cons v rest ih => rw [mapFloatsItems, ih, List.map_cons]

theorem mapFloatsFields_eq_map (fields : List (String × Json)) :
    mapFloatsFields f fields = fields.map fun field => (field.1, mapFloats f field.2) := by
  induction fields with
  | nil => rfl
  | cons field rest ih => rw [mapFloatsFields, ih, List.map_cons]

theorem keys_mapFloatsFields (fields : List (String × Json)) :
    Fields.keys (mapFloatsFields f fields) = Fields.keys fields := by
  rw [mapFloatsFields_eq_map, Fields.keys, Fields.keys, List.map_map]
  rfl

mutual

/-- A value stays as it is where all of its floats do. -/
theorem mapFloats_eq_self_iff : (v : Json) → (v.mapFloats f = v ↔ ∀ x ∈ v.floats, f x = x)
  | .null => by simp [mapFloats, floats]
  | .bool _ => by simp [mapFloats, floats]
  | .num n => by simp [mapFloats, floats, n.mapFloats_eq_self_iff]
  | .str _ => by simp [mapFloats, floats]
  | .arr items => by simp [mapFloats, floats, mapFloatsItems_eq_self_iff items]
  | .obj fields => by simp [mapFloats, floats, mapFloatsFields_eq_self_iff fields]

theorem mapFloatsItems_eq_self_iff : (items : List Json) →
    (mapFloatsItems f items = items ↔ ∀ x ∈ floatsItems items, f x = x)
  | [] => by simp [mapFloatsItems, floatsItems]
  | v :: rest => by
    simp [mapFloatsItems, floatsItems, mapFloats_eq_self_iff v, mapFloatsItems_eq_self_iff rest,
      or_imp, forall_and]

theorem mapFloatsFields_eq_self_iff : (fields : List (String × Json)) →
    (mapFloatsFields f fields = fields ↔ ∀ x ∈ floatsFields fields, f x = x)
  | [] => by simp [mapFloatsFields, floatsFields]
  | (k, v) :: rest => by
    simp [mapFloatsFields, floatsFields, mapFloats_eq_self_iff v,
      mapFloatsFields_eq_self_iff rest, or_imp, forall_and]

end

/-- An array of values stays as it is where the floats of all of them do. -/
theorem map_mapFloats_eq_self_iff {α : Type} (values : List α) (write : α → Json) :
    values.map (fun a => (write a).mapFloats f) = values.map write ↔
      ∀ a ∈ values, ∀ x ∈ (write a).floats, f x = x := by
  simp only [List.map_inj_left, mapFloats_eq_self_iff]

end Json

end BoardRollup
