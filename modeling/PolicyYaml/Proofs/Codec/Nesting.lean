import PolicyYaml.Proofs.Codec.KeyText
import PolicyYaml.Proofs.Codec.Outcome
import PolicyYaml.Proofs.Document.Nesting
import PolicyYaml.Proofs.Value.Nesting

namespace PolicyYaml.Codec

theorem nesting_le_of_decode {t : Tree} {v : Value} (h : decode t = .ok v) : v.nesting ≤ t.nesting := by
  replace h := decodes_of_decode h
  induction h with
  | null | boolean | integer | float | string => exact Nat.zero_le _
  | sequence _ ih =>
    rw [Value.nesting, Tree.nesting, Nat.add_le_add_iff_right, Value.itemNesting_le_iff, List.forall_mem_map]
    intro m hm
    exact (ih m hm).trans ((Tree.itemNesting_le_iff _ _).mp le_rfl _ (List.mem_map_of_mem hm))
  | @mapping es _ _ ih =>
    have hentries := (Tree.entryNesting_le_iff (es.map ReadEntry.source) _).mp le_rfl
    rw [List.forall_mem_map] at hentries
    rw [Value.nesting, Tree.nesting, Nat.add_le_add_iff_right, Value.fieldNesting_le_iff, List.forall_mem_map]
    exact forall_mem_sortEntries fun e he => (ih e he).trans (hentries e he).2
  | tagged _ _ ih => exact ih

theorem nesting_le_of_unmarshal {text : String} {v : Value} (h : unmarshal text = .ok v) :
    v.nesting ≤ Document.maxDepth := by
  obtain ⟨t, hdecode, rfl | hread⟩ := exists_tree_of_unmarshal h
  · exact (nesting_le_of_decode hdecode).trans (Nat.zero_le _)
  · exact (nesting_le_of_decode hdecode).trans (Tree.nesting_le_of_read? hread)

theorem Enters.isPlain {v w : Value} {s : Step} (hm : Enters v s w) (hv : v.IsPlain) : w.IsPlain := by
  cases hm with
  | item hw =>
    cases hv with
    | array h => exact h _ (List.mem_of_getElem? hw)
  | element hw => cases hv
  | field hw =>
    cases hv with
    | object _ h => exact h _ hw

theorem not_isOffence_of_isPlain {v : Value} (hplain : v.IsPlain) (hwf : v.WellFormed) (e : CodecError) :
    ¬IsOffence v e := by
  intro h
  cases h with
  | undefinedValue hp => cases hp.invariant Enters.isPlain hplain
  | @undefinedKey p fields k w hp hmem hstring _ =>
    cases hp.invariant Enters.isPlain hplain with
    | object htexts _ =>
      obtain ⟨s, hs⟩ := htexts (k, w) hmem
      rw [show k = .string s from hs] at hstring
      contradiction
  | @collision p before after k w k' w' hp hmem htext =>
    cases hp.invariant Enters.isPlain hplain with
    | object htexts _ =>
      cases hp.invariant Enters.wellFormed hwf with
      | object _ _ hasc =>
        rw [← keyText_eq, ← keyText_eq] at htext
        obtain ⟨s, hs⟩ := htexts (k, w) (by simp)
        obtain ⟨s', hs'⟩ := htexts (k', w') (by simp [hmem])
        have hpair := (List.pairwise_append.mp (pairwise_keyText hasc)).2.2 _ hmem (k, w) (by simp) htext
        rw [hs, hs'] at hpair
        simp [Value.asString?] at hpair

theorem exists_marshal_of_isPlain {v : Value} (hplain : v.IsPlain) (hwf : v.WellFormed) :
    ∃ text, marshal v = .ok text := by
  cases h : marshal v with
  | ok text => exact ⟨text, rfl⟩
  | error e => exact absurd (isOffence_of_marshal h) (not_isOffence_of_isPlain hplain hwf e)

end PolicyYaml.Codec
