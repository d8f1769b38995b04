import PolicyYaml.Builtin.Basic

namespace PolicyYaml

structure Declaration where
  name : String
  signature : Signature
  result : String
  description : String
  builtin : Builtin

namespace Catalog

def isValidName : String := "yaml.is_valid"

def marshalName : String := "yaml.marshal"

def unmarshalName : String := "yaml.unmarshal"

def all : List Declaration :=
  [⟨isValidName, Builtin.textParam, "boolean", "Verifies the input string is a valid YAML document.",
      Builtin.isValid⟩,
    ⟨marshalName, Builtin.anyParam, "string", "Serializes the input term to YAML.", Builtin.marshal⟩,
    ⟨unmarshalName, Builtin.textParam, "any", "Deserializes the input string as a YAML document.",
      Builtin.unmarshal⟩]

def find? (name : String) : Option Declaration := all.find? fun d => d.name == name

def names : List String := all.map Declaration.name

end Catalog

end PolicyYaml
