import PolicyYaml.Builtin.Registry
import PolicyYaml.Settings.Model

namespace PolicyYaml

def schemaName : String := "rego-sdk.config.v1"

inductive SettingsError where
  | unreadable
  | unsupportedSchema (schema : String)
  | unknownBuiltin (name : String)
  deriving DecidableEq

namespace SettingsError

def chain : SettingsError → List String
  | .unreadable => ["parse rego-sdk config"]
  | .unsupportedSchema schema =>
    ["unsupported config schema: " ++ schema ++ " (expected '" ++ schemaName ++ "')"]
  | .unknownBuiltin name =>
    ["invalid [builtins] section",
      "unknown builtin in disabled list: " ++ name ++ " (known: " ++ ", ".intercalate Catalog.names ++ ")"]

def loadChain : SettingsError → List String
  | .unreadable => SettingsError.unreadable.chain
  | e => "resolve rego-sdk config" :: e.chain

end SettingsError

namespace SettingsFile

def read (text : String) : Except SettingsError SettingsFile :=
  match read? text with
  | some file => .ok file
  | none => .error .unreadable

def disabledSet : List String → NameSet → Except SettingsError NameSet
  | [], names => .ok names
  | name :: rest, names =>
    if (Catalog.find? name).isNone then .error (.unknownBuiltin name)
    else disabledSet rest (names.insert name ())

def resolve (file : SettingsFile) : Except SettingsError Settings := do
  match file.schema with
  | some schema => if schema ≠ schemaName then .error (.unsupportedSchema schema)
  | none => pure ()
  let disabled ← disabledSet file.builtins.disabled ∅
  return ⟨file.strict.getD true, disabled⟩

end SettingsFile

namespace Registry

def load (text : String) (host : Host) : Journaled (Except SettingsError Registry) :=
  match SettingsFile.read text >>= SettingsFile.resolve with
  | .error e => pure (.error e)
  | .ok settings => do
    let registry ← withSettings settings host
    .note (.registryReady registry.size registry.strict settings.disabled.size)
    return .ok registry

end Registry

end PolicyYaml
