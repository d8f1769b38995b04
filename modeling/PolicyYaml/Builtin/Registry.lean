import PolicyYaml.Builtin.Catalog
import PolicyYaml.NameMap
import PolicyYaml.Value.DebugText

/-!
Builtins by name: how those of the catalog are merged over those of a host, and how they are called.
-/

namespace PolicyYaml

abbrev BuiltinTable := NameMap Builtin

/-- The evaluator that the builtins are added to. It may list names that it cannot resolve, and resolve
names that it does not list. -/
structure Host where
  lookup : String → Option Builtin
  listed : List String

namespace Host

def ofTable (table : BuiltinTable) : Host := ⟨table.get?, table.names⟩

end Host

structure Settings where
  strict : Bool
  disabled : NameSet

namespace Settings

def default : Settings := ⟨true, ∅⟩

def isEnabled (s : Settings) (name : String) : Bool := !s.disabled.contains name

end Settings

namespace BuiltinTable

def addListed (host : Host) : List String → BuiltinTable → Journaled BuiltinTable
  | [], table => pure table
  | name :: rest, table =>
    match host.lookup name with
    | some b => addListed host rest (table.insert name b)
    | none => do
      .note (.hostNameSkipped name)
      addListed host rest table

def addOver : List (String × Builtin) → BuiltinTable → (shadowed : Nat) → Journaled (BuiltinTable × Nat)
  | [], table, shadowed => pure (table, shadowed)
  | (name, b) :: rest, table, shadowed =>
    if table.contains name then do
      .note (.hostNameShadowed name)
      addOver rest (table.insert name b) (shadowed + 1)
    else addOver rest (table.insert name b) shadowed

def merge (extension : BuiltinTable) (host : Host) : Journaled BuiltinTable := do
  let fromHost ← addListed host (NameSet.ofNames host.listed).names ∅
  let (merged, shadowed) ← addOver extension.entries fromHost 0
  .note (.tablesMerged fromHost.size extension.size shadowed merged.size)
  return merged

def catalog : BuiltinTable := NameMap.ofList (Catalog.all.map fun d => (d.name, d.builtin))

def withCatalog (host : Host) : Journaled BuiltinTable := merge catalog host

def withSettings (settings : Settings) (host : Host) : Journaled BuiltinTable :=
  merge (catalog.filterNames settings.isEnabled) host

end BuiltinTable

structure Registry where
  builtins : BuiltinTable
  strict : Bool

namespace Registry

def ofTable (builtins : BuiltinTable) : Registry := ⟨builtins, true⟩

def withSettings (settings : Settings) (host : Host) : Journaled Registry := do
  let builtins ← BuiltinTable.withSettings settings host
  return ⟨builtins, settings.strict⟩

def lookup (r : Registry) (name : String) : Option Builtin := r.builtins.get? name

def contains (r : Registry) (name : String) : Bool := r.builtins.contains name

def names (r : Registry) : List String := r.builtins.names

def size (r : Registry) : Nat := r.builtins.size

def isEmpty (r : Registry) : Bool := r.builtins.entries.isEmpty

def toHost (r : Registry) : Host := ⟨r.lookup, r.names⟩

def invoke (r : Registry) (context : CallContext) (name : String) (args : List Value) (strict : Bool) :
    Journaled (Except BuiltinError Value) := do
  .note (.invoked name args)
  match r.lookup name with
  | none =>
    if strict then return .error (.unknownBuiltin name)
    else
      .note (.unknownIgnored name)
      return .ok .undefined
  | some b =>
    match ← b context args with
    | .ok v => return .ok v
    | .error e =>
      .note (.failed name e)
      if strict then return .error e
      else
        .note (.failureIgnored name)
        return .ok .undefined

def invokeDefault (r : Registry) (context : CallContext) (name : String) (args : List Value) :
    Journaled (Except BuiltinError Value) :=
  r.invoke context name args r.strict

def debugText (r : Registry) : String :=
  let names := ", ".intercalate (r.names.map fun n => String.ofList (Text.debugQuoted n.toList))
  let strict := if r.strict then "true" else "false"
  "BuiltinRegistry \x7b builtins: [" ++ names ++ "], strict: " ++ strict ++ " \x7d"

end Registry

end PolicyYaml
