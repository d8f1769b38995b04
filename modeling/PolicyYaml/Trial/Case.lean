import PolicyYaml.Builtin.Registry

namespace PolicyYaml

structure TrialCase where
  description : String
  builtin : String
  args : List Value
  expected : Except BuiltinError Value

namespace TrialCase

def withHeading (heading : String) (c : TrialCase) : TrialCase :=
  { c with description := heading ++ ": " ++ c.description }

def title (c : TrialCase) : String := c.builtin ++ ": " ++ c.description

def accepts (c : TrialCase) (outcome : Except BuiltinError Value) : Bool :=
  match c.expected, outcome with
  | .ok want, .ok got => got.equal want
  | .error want, .error got => got == want
  | _, _ => false

def run (registry : Registry) (c : TrialCase) : Journaled Bool := do
  let outcome ← registry.invoke CallContext.unlimited c.builtin c.args true
  return c.accepts outcome

end TrialCase

namespace Registry

def ofCatalog : Journaled Registry := do
  let builtins ← BuiltinTable.withCatalog (Host.ofTable ∅)
  return ofTable builtins

end Registry

end PolicyYaml
