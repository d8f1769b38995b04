import PolicyYaml.Builtin.Registry
import PolicyYaml.Text.UpperCase

namespace PolicyYaml.SampleHost

def int (n : Nat) : Value := .number (.int (Int64.ofNat n))

def count : Builtin := fun _ args => pure <|
  match args with
  | [.array items] => .ok (int items.length)
  | [.set elements] => .ok (int elements.length)
  | [.object fields] => .ok (int fields.length)
  | [.string s] => .ok (int s.length)
  | [other] => .error (.typeMismatch "collection" other.typeName "any<array, object, set, string>")
  | args => .error (.argumentCount args.length 1)

def upper : Builtin := fun _ args => pure <|
  match args with
  | [.string s] => .ok (.string (Text.upperCase s))
  | [other] => .error (.typeMismatch "x" other.typeName "string")
  | args => .error (.argumentCount args.length 1)

def marshal : Builtin := fun _ _ => pure (.ok (.string "host: marshal\n"))

def table : BuiltinTable :=
  NameMap.ofList [("count", count), ("upper", upper), (Catalog.marshalName, marshal)]

end PolicyYaml.SampleHost
