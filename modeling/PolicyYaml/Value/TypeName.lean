namespace PolicyYaml

/-- What a value is called where its type is reported. `integer` is the type of no value. It names the
numbers that equal an integer, where a parameter takes only these. -/
inductive TypeName where
  | array
  | boolean
  | null
  | number
  | integer
  | object
  | set
  | string
  | undefined
  deriving DecidableEq, Repr

namespace TypeName

def name : TypeName → String
  | .array => "array"
  | .boolean => "boolean"
  | .null => "null"
  | .number => "number"
  | .integer => "number[integer]"
  | .object => "object"
  | .set => "set"
  | .string => "string"
  | .undefined => "undefined"

def all : List TypeName :=
  [.array, .boolean, .null, .number, .integer, .object, .set, .string, .undefined]

def ofValues : List TypeName :=
  [.undefined, .boolean, .null, .number, .string, .array, .object, .set]

def ofName? (name : String) : Option TypeName := all.find? fun t => t.name == name

def rank (t : TypeName) : Nat := all.idxOf t

def compare (a b : TypeName) : Ordering := Ord.compare a.rank b.rank

theorem mem_ofValues_iff (t : TypeName) : t ∈ ofValues ↔ t ≠ .integer := by cases t <;> decide

theorem name_injective {a b : TypeName} (h : a.name = b.name) : a = b := by
  cases a <;> cases b <;> simp_all [name]

end TypeName

end PolicyYaml
