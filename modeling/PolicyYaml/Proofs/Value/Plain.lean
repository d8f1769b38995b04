import PolicyYaml.Value.Basic

namespace PolicyYaml.Value

/-- Without sets and `undefined` at any depth, and with texts alone as keys. -/
inductive IsPlain : Value → Prop
  | null : IsPlain .null
  | boolean (b : Bool) : IsPlain (.boolean b)
  | number (n : Number) : IsPlain (.number n)
  | string (s : String) : IsPlain (.string s)
  | array {items : List Value} : (∀ v ∈ items, IsPlain v) → IsPlain (.array items)
  | object {fields : List (Value × Value)} : (∀ f ∈ fields, ∃ s, f.1 = .string s) → (∀ f ∈ fields, IsPlain f.2) →
    IsPlain (.object fields)

end PolicyYaml.Value
