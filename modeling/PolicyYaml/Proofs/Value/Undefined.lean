import PolicyYaml.Proofs.Value.Induction

namespace PolicyYaml.Value

inductive HasUndefined : Value → Prop
  | here : HasUndefined .undefined
  | item {items : List Value} {v : Value} : v ∈ items → HasUndefined v → HasUndefined (.array items)
  | element {elements : List Value} {v : Value} : v ∈ elements → HasUndefined v → HasUndefined (.set elements)
  | key {fields : List (Value × Value)} {f : Value × Value} :
    f ∈ fields → HasUndefined f.1 → HasUndefined (.object fields)
  | field {fields : List (Value × Value)} {f : Value × Value} :
    f ∈ fields → HasUndefined f.2 → HasUndefined (.object fields)

theorem containsUndefined_iff (v : Value) : v.containsUndefined = true ↔ v.HasUndefined := by
  constructor
  · intro h
    induction v using structuralInduction with
    | undefined => exact .here
    | array items ih =>
      rw [containsUndefined, anyUndefined_eq_any, List.any_eq_true] at h
      obtain ⟨w, hw, hu⟩ := h
      exact .item hw (ih w hw hu)
    | set elements ih =>
      rw [containsUndefined, anyUndefined_eq_any, List.any_eq_true] at h
      obtain ⟨w, hw, hu⟩ := h
      exact .element hw (ih w hw hu)
    | object fields ih =>
      rw [containsUndefined, anyFieldUndefined_eq_any, List.any_eq_true] at h
      obtain ⟨f, hf, hu⟩ := h
      rcases Bool.or_eq_true _ _ ▸ hu with hu | hu
      · exact .key hf ((ih f hf).1 hu)
      · exact .field hf ((ih f hf).2 hu)
    | null | boolean | number | string => contradiction
  · intro h
    induction h with
    | here => rfl
    | item hw _ ih =>
      rw [containsUndefined, anyUndefined_eq_any, List.any_eq_true]
      exact ⟨_, hw, ih⟩
    | element hw _ ih =>
      rw [containsUndefined, anyUndefined_eq_any, List.any_eq_true]
      exact ⟨_, hw, ih⟩
    | key hf _ ih =>
      rw [containsUndefined, anyFieldUndefined_eq_any, List.any_eq_true]
      exact ⟨_, hf, by rw [ih, Bool.true_or]⟩
    | field hf _ ih =>
      rw [containsUndefined, anyFieldUndefined_eq_any, List.any_eq_true]
      exact ⟨_, hf, by rw [ih, Bool.or_true]⟩

end PolicyYaml.Value
