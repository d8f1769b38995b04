import PolicyYaml.Json.Basic

namespace PolicyYaml.SettingsFile

def described (description : String) (type : List (String × Json)) : Json :=
  Json.ofMembers (("description", .text description) :: type)

def optionalField (typeName description : String) : Json :=
  described description [("type", .array [.text typeName, .text "null"])]

def disabledField : Json :=
  described "Extension builtins to leave out of the registry merge."
    [("default", .array []), ("items", Json.ofMembers [("type", .text "string")]), ("type", .text "array")]

def tableSchema (fields : List (String × Json)) : List (String × Json) :=
  [("properties", Json.ofMembers fields), ("type", .text "object")]

def sectionSchema : Json := Json.ofMembers (tableSchema [("disabled", disabledField)])

def sectionField : Json :=
  Json.ofMembers [("$ref", .text "#/$defs/BuiltinsConfig"),
    ("default", Json.ofMembers [("disabled", .array [])])]

def schemaDescription : String :=
  "`rego-sdk.toml` schema v1.\n\n" ++
    "This is a *user-facing* config model: every field is optional and unknown\nkeys are ignored."

def strictDescription : String :=
  "Whether builtin failures and unknown builtins are errors (default)\nrather than undefined."

def jsonSchema : Json :=
  Json.ofMembers
    ([("$schema", .text "https://json-schema.org/draft/2020-12/schema"), ("title", .text "SdkConfigV1"),
        ("description", .text schemaDescription),
        ("$defs", Json.ofMembers [("BuiltinsConfig", sectionSchema)])] ++
      tableSchema
        [("schema", optionalField "string" "Optional schema string for tooling (`rego-sdk.config.v1`)."),
          ("strict", optionalField "boolean" strictDescription), ("builtins", sectionField)])

end PolicyYaml.SettingsFile
