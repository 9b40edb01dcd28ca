import PgHa.Text

/-!
JSON values and how serde reads a struct from one. The text of a value parses back to
it. As in `serde_json` a number is one that fits `u64`, a negative one, or a float, given
by its bits; the readers here take the first kind only.
-/

namespace PgHa.Serde

open Text

inductive Json where
  | null
  | bool (value : Bool)
  | number (value : Nat)
  | negative (magnitude : Nat)
  | float (bits : UInt64)
  | string (value : Str)
  | array (items : List Json)
  | object (fields : List (Str × Json))

def lookup (key : String) (fields : List (Str × Json)) : Option Json :=
  (fields.find? fun field => field.1 == key.toList).map Prod.snd

def Json.asBool : Json → Option Bool
  | .bool value => some value
  | _ => none

def Json.asU64 : Json → Option Nat
  | .number value => some value
  | _ => none

def Json.asStr : Json → Option Str
  | .string value => some value
  | _ => none

def Json.asObject : Json → Option (List (Str × Json))
  | .object fields => some fields
  | _ => none

def optional {Value : Type} (write : Value → Json) : Option Value → Json
  | none => .null
  | some value => write value

/-- A field without `serde(default)`. -/
def required {Value : Type} (fields : List (Str × Json)) (key : String)
    (read : Json → Option Value) : Option Value :=
  (lookup key fields).bind read

/-- A field with `serde(default)`. -/
def defaulted {Value : Type} (fields : List (Str × Json)) (key : String)
    (read : Json → Option Value) (default : Value) : Option Value :=
  match lookup key fields with
  | none => some default
  | some value => read value

def nullable {Value : Type} (read : Json → Option Value) : Json → Option (Option Value)
  | .null => some none
  | value => (read value).map some

theorem lookup_append (key : String) (front back : List (Str × Json)) :
    lookup key (front ++ back) = (lookup key front).or (lookup key back) := by
  simp [lookup, List.find?_append, Option.map_or]

theorem lookup_known {Value : Type} (key name : String) (write : Value → Json)
    (known : Option Value) :
    lookup key (known.toList.map fun value => (name.toList, write value)) =
      if name.toList == key.toList then known.map write else none := by
  cases known with
  | none => simp [lookup]
  | some value => by_cases same : name.toList = key.toList <;> simp [lookup, same]

/-- A field that is written only if it is known. -/
theorem defaulted_known {Value : Type} {fields : List (Str × Json)} {key : String}
    {read : Json → Option Value} (write : Value → Json) {field : Option Value}
    (written : lookup key fields = field.map write)
    (reads : ∀ value, nullable read (write value) = some (some value)) :
    defaulted fields key (nullable read) none = some field := by
  unfold defaulted
  rw [written]
  cases field with
  | none => rfl
  | some value => exact reads value

end PgHa.Serde
