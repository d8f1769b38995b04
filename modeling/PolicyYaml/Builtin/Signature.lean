import PolicyYaml.Error
import PolicyYaml.Value.Order

namespace PolicyYaml

structure Param where
  name : String
  types : List TypeName
  deriving DecidableEq

abbrev Signature := List Param

namespace Param

def accepts (p : Param) (t : TypeName) : Bool := p.types.contains t

end Param

/-- The type of an argument as a parameter sees it. Where integers are accepted and other numbers are
not, a number that equals an integer is one. -/
def observedType (v : Value) (allowed : List TypeName) : TypeName :=
  match v with
  | .number n =>
    if n.isInteger && allowed.contains .integer && !allowed.contains .number then .integer else .number
  | v => v.typeName

def distinctNames (names : List String) : List String := Ascending.ofList Text.compareBytes names

def wantText (types : List TypeName) : String :=
  match types with
  | [only] => only.name
  | types => "any<" ++ ", ".intercalate (distinctNames (types.map TypeName.name)) ++ ">"

def checkTypes : List Value → Signature → Except BuiltinError Unit
  | v :: args, p :: params =>
    let got := observedType v p.types
    if p.accepts got then checkTypes args params
    else .error (.typeMismatch p.name got (wantText p.types))
  | _, _ => .ok ()

def validate (args : List Value) (signature : Signature) : Except BuiltinError Unit :=
  if args.length ≠ signature.length then .error (.argumentCount args.length signature.length)
  else checkTypes args signature

end PolicyYaml
