import PolicyYaml.Proofs.Codec.Offence
import PolicyYaml.Proofs.Codec.ReadEntry
import PolicyYaml.Proofs.Codec.Validity
import PolicyYaml.Proofs.Value.Builders
import PolicyYaml.Proofs.Value.Plain

namespace PolicyYaml.Codec

theorem isPlain_of_decode {t : Tree} {v : Value} (h : decode t = .ok v) : v.IsPlain := by
  replace h := decodes_of_decode h
  induction h with
  | null => exact .null
  | boolean b => exact .boolean b
  | integer | float => exact .number _
  | string s => exact .string s
  | sequence _ ih => exact .array (List.forall_mem_map.mpr ih)
  | mapping _ _ ih =>
    refine .object ?_ (List.forall_mem_map.mpr (forall_mem_sortEntries ih))
    rw [List.forall_mem_map]
    exact fun a _ => ⟨a.1, rfl⟩
  | tagged _ _ ih => exact ih

theorem wellFormed_of_decode {t : Tree} {v : Value} (h : decode t = .ok v) : v.WellFormed := by
  replace h := decodes_of_decode h
  induction h with
  | null => exact .null
  | boolean b => exact .boolean b
  | integer | float => exact .number _
  | string s => exact .string s
  | sequence _ ih => exact .array (List.forall_mem_map.mpr ih)
  | mapping hnodup _ ih =>
    rw [← toObject_readEntries hnodup, ← Value.ofFields_string]
    apply Value.wellFormed_ofFields
    rw [List.forall_mem_map, List.forall_mem_map]
    exact fun e he => ⟨.string e.text, ih e he⟩
  | tagged _ _ ih => exact ih

theorem isPlain_of_unmarshal {text : String} {v : Value} (h : unmarshal text = .ok v) : v.IsPlain := by
  obtain ⟨t, hdecode, -⟩ := exists_tree_of_unmarshal h
  exact isPlain_of_decode hdecode

theorem wellFormed_of_unmarshal {text : String} {v : Value} (h : unmarshal text = .ok v) : v.WellFormed := by
  obtain ⟨t, hdecode, -⟩ := exists_tree_of_unmarshal h
  exact wellFormed_of_decode hdecode

theorem exists_parseFailure_of_isKeyOffence {t : Tree} {e : CodecError} (h : IsKeyOffence t e) :
    ∃ reason, e = .parseFailure reason := by
  cases h <;> exact ⟨_, rfl⟩

theorem exists_parseFailure_of_unmarshal {text : String} {e : CodecError} (h : unmarshal text = .error e) :
    ∃ reason, e = .parseFailure reason := by
  rw [unmarshal] at h
  split at h
  · contradiction
  · cases hread : readTree text with
    | error e' =>
      rw [hread] at h
      cases h
      exact ⟨_, readTree_eq_malformed hread⟩
    | ok tree =>
      rw [hread] at h
      exact exists_parseFailure_of_isKeyOffence (isKeyOffence_of_decode h)

theorem isOffence_of_marshal {v : Value} {e : CodecError} (h : marshal v = .error e) : IsOffence v e := by
  rw [← failure?_eq_some_iff, failure?_marshal] at h
  exact (mem_offences_iff v e).mp (List.mem_of_head? h)

theorem IsOffence.cases_error {v : Value} {e : CodecError} (h : IsOffence v e) :
    (∃ path, e = .unsupportedValue path) ∨ ∃ path, e = .keyCollision path := by
  cases h with
  | undefinedValue => exact .inl ⟨_, rfl⟩
  | undefinedKey => exact .inl ⟨_, rfl⟩
  | collision => exact .inr ⟨_, rfl⟩

end PolicyYaml.Codec
