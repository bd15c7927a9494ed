import BoardRollup.Fields
import BoardRollup.Number.Double

/-!
# JSON values

A value keeps what a document says: whole numbers that fit 64 bits apart from the
other numbers, and the fields of an object in their order. Other numbers are finite,
since the notation has no others. That keys do not repeat is a property of
the values that are read, `Json.Distinct`, and not part of the type.
-/

namespace BoardRollup

/-- A whole number that a signed or an unsigned 64-bit word holds. -/
structure WideInt where
  val : Int
  lower : -(signedLimit : Int) ≤ val
  upper : val < unsignedLimit
  deriving DecidableEq

inductive JsonNumber where
  | whole (n : WideInt)
  | float (x : FiniteDouble)
  deriving DecidableEq

inductive Json where
  | null
  | bool (b : Bool)
  | num (n : JsonNumber)
  | str (s : String)
  | arr (items : List Json)
  | obj (fields : List (String × Json))

instance : Inhabited Json := ⟨.null⟩

def WideInt.ofNat (n : Nat) (h : n < unsignedLimit) : WideInt :=
  ⟨n, by omega, by omega⟩

def JsonNumber.isZero : JsonNumber → Bool
  | .whole n => n.val = 0
  | .float x => x.isZero

namespace Json

mutual

/-- How deep arrays and objects nest in a value. -/
def depth : Json → Nat
  | .arr items => depthItems items + 1
  | .obj fields => depthFields fields + 1
  | _ => 0

def depthItems : List Json → Nat
  | [] => 0
  | v :: rest => max (depth v) (depthItems rest)

def depthFields : List (String × Json) → Nat
  | [] => 0
  | (_, v) :: rest => max (depth v) (depthFields rest)

end

mutual

/-- No object in the value repeats a key. -/
def Distinct : Json → Prop
  | .arr items => DistinctItems items
  | .obj fields => (Fields.keys fields).Nodup ∧ DistinctFields fields
  | _ => True

def DistinctItems : List Json → Prop
  | [] => True
  | v :: rest => Distinct v ∧ DistinctItems rest

def DistinctFields : List (String × Json) → Prop
  | [] => True
  | (_, v) :: rest => Distinct v ∧ DistinctFields rest

end

mutual

def same : Json → Json → Bool
  | .null, .null => true
  | .bool a, .bool b => a = b
  | .num a, .num b => a = b
  | .str a, .str b => a = b
  | .arr a, .arr b => sameItems a b
  | .obj a, .obj b => sameFields a b
  | _, _ => false

def sameItems : List Json → List Json → Bool
  | [], [] => true
  | a :: as, b :: bs => same a b && sameItems as bs
  | _, _ => false

def sameFields : List (String × Json) → List (String × Json) → Bool
  | [], [] => true
  | (k, a) :: as, (l, b) :: bs => k = l && same a b && sameFields as bs
  | _, _ => false

end

mutual

theorem same_iff : (a b : Json) → (same a b = true ↔ a = b)
  | .null, b => by cases b <;> simp [same]
  | .bool a, b => by cases b <;> simp [same]
  | .num a, b => by cases b <;> simp [same]
  | .str a, b => by cases b <;> simp [same]
  | .arr as, b => by
    cases b <;> simp only [same, reduceCtorEq, Bool.false_eq_true, arr.injEq]
    exact sameItems_iff as _
  | .obj as, b => by
    cases b <;> simp only [same, reduceCtorEq, Bool.false_eq_true, obj.injEq]
    exact sameFields_iff as _

theorem sameItems_iff : (as bs : List Json) → (sameItems as bs = true ↔ as = bs)
  | [], bs => by cases bs <;> simp [sameItems]
  | a :: as, bs => by
    cases bs with
    | nil => simp [sameItems]
    | cons b bs => simp [sameItems, same_iff a b, sameItems_iff as bs]

theorem sameFields_iff :
    (as bs : List (String × Json)) → (sameFields as bs = true ↔ as = bs)
  | [], bs => by cases bs <;> simp [sameFields]
  | (k, a) :: as, bs => by
    cases bs with
    | nil => simp [sameFields]
    | cons b bs =>
      obtain ⟨l, b⟩ := b
      simp [sameFields, same_iff a b, sameFields_iff as bs]

end

instance : DecidableEq Json := fun a b => decidable_of_iff _ (same_iff a b)

def field? (key : String) : Json → Option Json
  | .obj fields => fields.lookup key
  | _ => none

def items? : Json → Option (List Json)
  | .arr items => some items
  | _ => none

def str? : Json → Option String
  | .str s => some s
  | _ => none

def ofText? : Option String → Json
  | some s => .str s
  | none => .null

def ofTexts (texts : List String) : Json := .arr (texts.map .str)

end Json

end BoardRollup
