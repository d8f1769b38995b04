import PolicyYaml.Value.Basic

namespace PolicyYaml.Value

@[elab_as_elim]
theorem structuralInduction {P : Value → Prop} (null : P .null) (boolean : ∀ b, P (.boolean b))
    (number : ∀ n, P (.number n)) (string : ∀ s, P (.string s))
    (array : ∀ items, (∀ v ∈ items, P v) → P (.array items))
    (object : ∀ fields, (∀ f ∈ fields, P f.1 ∧ P f.2) → P (.object fields))
    (set : ∀ elements, (∀ v ∈ elements, P v) → P (.set elements)) (undefined : P .undefined) (v : Value) :
    P v := by
  apply @Value.rec P (fun items => ∀ v ∈ items, P v) (fun fields => ∀ f ∈ fields, P f.1 ∧ P f.2)
    (fun f => P f.1 ∧ P f.2) null boolean number string array object set undefined
  · exact fun v hv => absurd hv List.not_mem_nil
  · intro v rest hv hrest
    exact List.forall_mem_cons.mpr ⟨hv, hrest⟩
  · exact fun f hf => absurd hf List.not_mem_nil
  · intro f rest hf hrest
    exact List.forall_mem_cons.mpr ⟨hf, hrest⟩
  · exact fun k v hk hv => ⟨hk, hv⟩

end PolicyYaml.Value
