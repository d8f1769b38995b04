import PolicyYaml.Ascending
import PolicyYaml.Number.Basic
import PolicyYaml.Value.TypeName

namespace PolicyYaml

/-- What a policy is evaluated over. The fields of an object and the elements of a set are kept in
ascending order. `undefined` stands for the absence of a value. -/
inductive Value where
  | null
  | boolean (b : Bool)
  | number (n : Number)
  | string (s : String)
  | array (items : List Value)
  | object (fields : List (Value × Value))
  | set (elements : List Value)
  | undefined

namespace Value

def typeName : Value → TypeName
  | .null => .null
  | .boolean _ => .boolean
  | .number _ => .number
  | .string _ => .string
  | .array _ => .array
  | .object _ => .object
  | .set _ => .set
  | .undefined => .undefined

def isUndefined : Value → Bool
  | .undefined => true
  | _ => false

def asString? : Value → Option String
  | .string s => some s
  | _ => none

mutual

def containsUndefined : Value → Bool
  | .undefined => true
  | .array items => anyUndefined items
  | .set elements => anyUndefined elements
  | .object fields => anyFieldUndefined fields
  | .null | .boolean _ | .number _ | .string _ => false

def anyUndefined : List Value → Bool
  | [] => false
  | v :: rest => v.containsUndefined || anyUndefined rest

def anyFieldUndefined : List (Value × Value) → Bool
  | [] => false
  | (k, v) :: rest => k.containsUndefined || v.containsUndefined || anyFieldUndefined rest

end

theorem anyUndefined_eq_any (items : List Value) : anyUndefined items = items.any containsUndefined := by
  induction items with
  | nil => rfl
  | cons v rest ih => simp [anyUndefined, ih]

theorem anyFieldUndefined_eq_any (fields : List (Value × Value)) :
    anyFieldUndefined fields = fields.any fun f => f.1.containsUndefined || f.2.containsUndefined := by
  induction fields with
  | nil => rfl
  | cons f rest ih => obtain ⟨k, v⟩ := f; simp [anyFieldUndefined, ih]

end Value

end PolicyYaml
