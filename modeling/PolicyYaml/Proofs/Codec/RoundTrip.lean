import PolicyYaml.Proofs.Codec.JsonTree
import PolicyYaml.Proofs.Codec.Nesting
import PolicyYaml.Proofs.Codec.Written

/-!
Every plain value is written and comes back equal, unless it is deeper than the reader follows.
-/

namespace PolicyYaml

namespace Value

theorem sortNames_normalFields {fields : List (Value × Value)} (htexts : ∀ f ∈ fields, ∃ s, f.1 = .string s)
    (hasc : Ascending.IsAscending (fun a b => compare a.1 b.1) fields) :
    Text.sortNames (normalFields fields) = normalFields fields := by
  apply List.mergeSort_of_pairwise
  rw [normalFields_eq_map, List.pairwise_map]
  refine List.Pairwise.imp_of_mem ?_ hasc
  intro f g hf hg hlt
  apply Text.ne_gt_of_lt
  obtain ⟨s, hs⟩ := htexts f hf
  obtain ⟨s', hs'⟩ := htexts g hg
  have hcompare : compare f.1 g.1 = .lt := hlt
  rw [hs, hs', compare] at hcompare
  rw [hs, hs']
  exact hcompare

theorem normalForm_of_isPlain {v : Value} (hplain : v.IsPlain) (hwf : v.WellFormed) : v.normalForm = v.oneNaN := by
  induction hplain with
  | null | boolean | number | string => rfl
  | array _ ih =>
    cases hwf with
    | array hitems =>
      rw [normalForm, oneNaN, normalItems_eq_map, oneNaNItems_eq_map, array.injEq]
      exact List.map_congr_left fun v hv => ih v hv (hitems v hv)
  | object htexts _ ih =>
    cases hwf with
    | object _ hvalues hasc =>
      rw [normalForm, oneNaN, sortNames_normalFields htexts hasc, Codec.TextFields.toObject, object.injEq,
        normalFields_eq_map, oneNaNFields_eq_map, List.map_map]
      apply List.map_congr_left
      intro f hf
      obtain ⟨s, hs⟩ := htexts f hf
      rw [Function.comp_apply, ih f hf (hvalues f hf), hs, Codec.keyText, oneNaN]

theorem equal_oneNaN (v : Value) : v.oneNaN.equal v = true :=
  (equal_iff_compare_eq _ _).mpr (compare_eq_of_oneNaN (oneNaN_oneNaN v))

end Value

namespace Codec

theorem unmarshal_of_isPlain {v : Value} {text : String} (hplain : v.IsPlain) (hwf : v.WellFormed)
    (h : marshal v = .ok text) :
    unmarshal text = if v.nesting ≤ Document.maxDepth then .ok v.oneNaN else .error malformed := by
  rw [unmarshal_written h, Value.normalForm_of_isPlain hplain hwf]

theorem exists_marshal_of_unmarshal {text : String} {v : Value} (h : unmarshal text = .ok v) :
    ∃ written, marshal v = .ok written ∧ unmarshal written = .ok v := by
  have hplain := isPlain_of_unmarshal h
  have hwf := wellFormed_of_unmarshal h
  obtain ⟨written, hwritten⟩ := exists_marshal_of_isPlain hplain hwf
  obtain ⟨t, hdecode, hnan⟩ := exists_decode_of_unmarshal h
  refine ⟨written, hwritten, ?_⟩
  rw [unmarshal_of_isPlain hplain hwf hwritten, if_pos (nesting_le_of_unmarshal h), oneNaN_decode hdecode hnan]

theorem exists_marshal_ofJson {j : Json} (hdepth : (Value.ofJson j).nesting ≤ Document.maxDepth) :
    ∃ text, marshal (.ofJson j) = .ok text ∧ unmarshal text = .ok (Value.ofJson j).oneNaN := by
  have hplain := Value.isPlain_ofJson j
  have hwf := Value.wellFormed_ofJson j
  obtain ⟨text, htext⟩ := exists_marshal_of_isPlain hplain hwf
  exact ⟨text, htext, by rw [unmarshal_of_isPlain hplain hwf htext, if_pos hdepth]⟩

def nestedArrays (n : Nat) : Value := (fun v => Value.array [v])^[n] .null

theorem nestedArrays_succ (n : Nat) : nestedArrays (n + 1) = .array [nestedArrays n] :=
  Function.iterate_succ_apply' _ _ _

theorem isPlain_nestedArrays (n : Nat) : (nestedArrays n).IsPlain := by
  induction n with
  | zero => exact .null
  | succ n ih =>
    rw [nestedArrays_succ]
    exact .array (by simpa using ih)

theorem wellFormed_nestedArrays (n : Nat) : (nestedArrays n).WellFormed := by
  induction n with
  | zero => exact .null
  | succ n ih =>
    rw [nestedArrays_succ]
    exact .array (by simpa using ih)

theorem nesting_nestedArrays (n : Nat) : (nestedArrays n).nesting = n := by
  induction n with
  | zero => rfl
  | succ n ih => rw [nestedArrays_succ, Value.nesting, Value.itemNesting, Value.itemNesting, ih, Nat.max_zero]

theorem round_trip_up_to_maxDepth (v : Value) :
    (∀ text, marshal v = .ok text → ((∃ back, unmarshal text = .ok back) ↔ v.nesting ≤ Document.maxDepth)) ∧
      (v.IsPlain → v.WellFormed → ∃ text, marshal v = .ok text ∧
        (v.nesting ≤ Document.maxDepth → unmarshal text = .ok v.oneNaN ∧ v.oneNaN.equal v = true) ∧
        (Document.maxDepth < v.nesting → unmarshal text = .error malformed)) := by
  constructor
  · intro text htext
    rw [unmarshal_written htext]
    split
    · rename_i hdepth
      exact iff_of_true ⟨_, rfl⟩ hdepth
    · rename_i hdepth
      exact iff_of_false (by simp) hdepth
  · intro hplain hwf
    obtain ⟨text, htext⟩ := exists_marshal_of_isPlain hplain hwf
    have hback := unmarshal_of_isPlain hplain hwf htext
    refine ⟨text, htext, ?_, ?_⟩
    · intro hdepth
      rw [if_pos hdepth] at hback
      exact ⟨hback, Value.equal_oneNaN v⟩
    · intro hdepth
      rw [if_neg (Nat.not_le.mpr hdepth)] at hback
      exact hback

theorem round_trip_up_to_maxDepth_at_nestedArrays :
    (∃ text, marshal (nestedArrays 128) = .ok text ∧
      ∃ back, unmarshal text = .ok back ∧ back.equal (nestedArrays 128) = true) ∧
    ∃ text, marshal (nestedArrays 129) = .ok text ∧ unmarshal text = .error malformed ∧
      ¬∃ back, unmarshal text = .ok back := by
  constructor
  · obtain ⟨text, htext, hread, -⟩ :=
      (round_trip_up_to_maxDepth (nestedArrays 128)).2 (isPlain_nestedArrays 128) (wellFormed_nestedArrays 128)
    exact ⟨text, htext, _, hread (by rw [nesting_nestedArrays]; decide)⟩
  · obtain ⟨text, htext, -, hdeep⟩ :=
      (round_trip_up_to_maxDepth (nestedArrays 129)).2 (isPlain_nestedArrays 129) (wellFormed_nestedArrays 129)
    refine ⟨text, htext, hdeep (by rw [nesting_nestedArrays]; decide), ?_⟩
    rw [(round_trip_up_to_maxDepth (nestedArrays 129)).1 text htext, nesting_nestedArrays]
    decide

theorem exists_plain_not_read_back :
    ¬∀ v : Value, v.IsPlain → v.WellFormed →
      ∃ text back, marshal v = .ok text ∧ unmarshal text = .ok back ∧ back.equal v = true := by
  intro h
  obtain ⟨text, back, -, hback, hequal⟩ := h _ (isPlain_nestedArrays 129) (wellFormed_nestedArrays 129)
  have hle := nesting_le_of_unmarshal hback
  rw [Value.nesting_eq_of_equal hequal, nesting_nestedArrays] at hle
  exact absurd hle (by decide)

end Codec

end PolicyYaml
