import PolicyYaml.Codec.Basic
import PolicyYaml.Value.Order

namespace PolicyYaml.Probe

def writing (v : Value) : Bool :=
  match Codec.marshal v with
  | .ok text =>
    !v.containsUndefined &&
      match Codec.unmarshal text with
      | .ok back => back.equal v
      | .error _ => false
  | .error (.unsupportedValue _) => v.containsUndefined
  | .error _ => false

def reading (text : String) : Journaled Bool := do
  let valid ← Codec.checkDocument text
  match Codec.unmarshal text with
  | .ok v => return !valid || !v.equal .null
  | .error _ => return true

end PolicyYaml.Probe
