import PolicyYaml.Value.TypeName

namespace PolicyYaml

inductive CodecError where
  | unsupportedValue (path : String)
  | keyCollision (path : String)
  | parseFailure (reason : String)
  | emitFailure (reason : String)
  deriving DecidableEq

namespace CodecError

def message : CodecError → String
  | .unsupportedValue path =>
    "cannot marshal undefined value at " ++ if path.isEmpty then "<root>" else path
  | .keyCollision path => "object keys collide after conversion to string at " ++ path
  | .parseFailure reason => "yaml parse failure: " ++ reason
  | .emitFailure reason => "yaml emit failure: " ++ reason

end CodecError

inductive BuiltinError where
  | argumentCount (got want : Nat)
  | argumentType (arg got want : String)
  | unknownBuiltin (name : String)
  | codec (error : CodecError)
  deriving DecidableEq

namespace BuiltinError

def typeMismatch (arg : String) (got : TypeName) (want : String) : BuiltinError :=
  .argumentType arg got.name want

def message : BuiltinError → String
  | .argumentCount got want => s!"wrong number of arguments: got {got}, want {want}"
  | .argumentType arg got want => s!"invalid argument {arg}: want {want}, got {got}"
  | .unknownBuiltin name => s!"unknown builtin: {name}"
  | .codec error => error.message

end BuiltinError

end PolicyYaml
