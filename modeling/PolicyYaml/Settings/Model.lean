import PolicyYaml.Settings.TomlText

namespace PolicyYaml

structure BuiltinsSection where
  disabled : List String
  deriving DecidableEq

structure SettingsFile where
  schema : Option String
  strict : Option Bool
  builtins : BuiltinsSection
  deriving DecidableEq

namespace SettingsFile

def empty : SettingsFile := ⟨none, none, ⟨[]⟩⟩

def text? : Toml.Item → Option String
  | .text s => some s
  | _ => none

def boolean? : Toml.Item → Option Bool
  | .boolean b => some b
  | _ => none

def names? : Toml.Item → Option (List String)
  | .array items => items.mapM text?
  | _ => none

def field? {α : Type} (read : Toml.Item → Option α) (entries : List (String × Toml.Item))
    (key : String) : Option (Option α) :=
  match entries.lookup key with
  | some item => (read item).map some
  | none => some none

def othersFit (known : List String) (entries : List (String × Toml.Item)) : Bool :=
  entries.all fun e => known.contains e.1 || e.2.fits

/-- The builtins section as a table, or as an array of its fields in order. A date is a table without
known keys. -/
def section? : Toml.Item → Option BuiltinsSection
  | .table _ entries =>
    if othersFit ["disabled"] entries then
      (field? names? entries "disabled").map fun names => ⟨names.getD []⟩
    else none
  | .array [] => some ⟨[]⟩
  | .array (first :: _) => (names? first).map fun names => ⟨names⟩
  | .dateTime => some ⟨[]⟩
  | _ => none

def ofTable (t : Toml.Table) : Option SettingsFile := do
  if !othersFit ["schema", "strict", "builtins"] t.entries then none
  let schema ← field? text? t.entries "schema"
  let strict ← field? boolean? t.entries "strict"
  let builtins ← field? section? t.entries "builtins"
  some ⟨schema, strict, builtins.getD ⟨[]⟩⟩

def read? (text : String) : Option SettingsFile := Toml.read? text >>= ofTable

end SettingsFile

end PolicyYaml
