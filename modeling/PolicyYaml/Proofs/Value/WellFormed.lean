import PolicyYaml.Proofs.Value.Induction
import PolicyYaml.Value.Order

namespace PolicyYaml.Value

/-- The fields of every object ascend by their keys, and the elements of every set ascend. -/
inductive WellFormed : Value → Prop
  | null : WellFormed .null
  | boolean (b : Bool) : WellFormed (.boolean b)
  | number (n : Number) : WellFormed (.number n)
  | string (s : String) : WellFormed (.string s)
  | array {items : List Value} : (∀ v ∈ items, WellFormed v) → WellFormed (.array items)
  | object {fields : List (Value × Value)} : (∀ f ∈ fields, WellFormed f.1) → (∀ f ∈ fields, WellFormed f.2) →
    Ascending.IsAscending (fun a b => compare a.1 b.1) fields → WellFormed (.object fields)
  | set {elements : List Value} : (∀ v ∈ elements, WellFormed v) → Ascending.IsAscending compare elements →
    WellFormed (.set elements)
  | undefined : WellFormed .undefined

end PolicyYaml.Value
