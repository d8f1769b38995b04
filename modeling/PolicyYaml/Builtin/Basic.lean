import PolicyYaml.Builtin.Signature
import PolicyYaml.Codec.Basic

namespace PolicyYaml

structure CallContext where
  deadline : Option Nat
  deriving DecidableEq

namespace CallContext

def unlimited : CallContext := ⟨none⟩

end CallContext

abbrev Builtin := CallContext → List Value → Journaled (Except BuiltinError Value)

namespace Builtin

def textParam : Signature := [⟨"x", [.string]⟩]

def anyParam : Signature := [⟨"x", TypeName.ofValues⟩]

def countMismatch (args : List Value) : BuiltinError := .argumentCount args.length 1

def textArg : List Value → Except BuiltinError String
  | [.string s] => .ok s
  | [v] => .error (.typeMismatch "x" v.typeName TypeName.string.name)
  | args => .error (countMismatch args)

def onlyArg : List Value → Except BuiltinError Value
  | [v] => .ok v
  | args => .error (countMismatch args)

def isValid : Builtin := fun _ args =>
  match validate args textParam >>= fun _ => textArg args with
  | .error e => pure (.error e)
  | .ok text => do
    let valid ← Codec.checkDocument text
    return .ok (.boolean valid)

def marshal : Builtin := fun _ args => pure do
  validate args anyParam
  let v ← onlyArg args
  match Codec.marshal v with
  | .ok text => return .string text
  | .error e => .error (.codec e)

def unmarshal : Builtin := fun _ args => pure do
  validate args textParam
  let text ← textArg args
  match Codec.unmarshal text with
  | .ok v => return v
  | .error e => .error (.codec e)

end Builtin

end PolicyYaml
