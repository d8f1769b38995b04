import Mathlib.Data.List.Pairwise
import PolicyYaml.Proofs.Codec.Offence
import PolicyYaml.Proofs.Value.Equal
import PolicyYaml.Proofs.Value.Readable
import PolicyYaml.Proofs.Value.WellFormed

namespace PolicyYaml

theorem Value.oneNaN_eq_of_text {a b : Value} (h : a.text = b.text) : a.oneNaN = b.oneNaN := by
  have hchars : a.chars ++ [] = b.chars ++ [] := congrArg (· ++ []) (String.ofList_injective h)
  exact (isReadable a b [] [] endsValue_nil endsValue_nil hchars).1

theorem Value.compare_eq_of_text {a b : Value} (h : a.text = b.text) : a.compare b = .eq :=
  compare_eq_of_oneNaN (oneNaN_eq_of_text h)

namespace Codec

theorem keyText_of_asString?_eq_none {k : Value} (h : k.asString? = none) : keyText k = k.text := by
  cases k <;> first | rfl | contradiction

theorem eq_string_of_asString?_ne_none {k : Value} (h : k.asString? ≠ none) : k = .string (keyText k) := by
  cases k <;> first | rfl | exact absurd rfl h

theorem not_asString?_of_keyText {k k' : Value} (hlt : k.compare k' = .lt) (h : keyText k = keyText k') :
    k.asString? = none ↔ k'.asString? ≠ none := by
  by_cases hk : k.asString? = none <;> by_cases hk' : k'.asString? = none
  · rw [keyText_of_asString?_eq_none hk, keyText_of_asString?_eq_none hk'] at h
    rw [Value.compare_eq_of_text h] at hlt
    contradiction
  · exact iff_of_true hk hk'
  · exact iff_of_false hk (fun hne => hne hk')
  · rw [eq_string_of_asString?_ne_none hk, eq_string_of_asString?_ne_none hk', h,
      Value.compare_eq_of_oneNaN rfl] at hlt
    contradiction

theorem pairwise_keyText {fields : List (Value × Value)}
    (h : Ascending.IsAscending (fun a b => a.1.compare b.1) fields) :
    fields.Pairwise fun f g => keyText f.1 = keyText g.1 → (f.1.asString? = none ↔ g.1.asString? ≠ none) :=
  List.Pairwise.imp (fun hlt => not_asString?_of_keyText hlt) h

theorem Enters.wellFormed {v w : Value} {s : Step} (hm : Enters v s w) (hv : v.WellFormed) : w.WellFormed := by
  cases hm with
  | item hw =>
    cases hv with
    | array h => exact h _ (List.mem_of_getElem? hw)
  | element hw =>
    cases hv with
    | set h _ => exact h _ (List.mem_of_getElem? hw)
  | field hw =>
    cases hv with
    | object _ h _ => exact h _ hw

/-- That a text tells its value, and that keys with one text are always a string and a key of another kind. -/
structure UnambiguousText : Prop where
  eq_of_text (a b : Value) : a.text = b.text → a.oneNaN = b.oneNaN ∧ a.equal b = true
  string_of_keyText (fields : List (Value × Value)) : (Value.object fields).WellFormed →
    ∀ f ∈ fields, ∀ g ∈ fields, f.1 ≠ g.1 → keyText f.1 = keyText g.1 →
      (f.1.asString? = none ↔ g.1.asString? ≠ none)
  string_of_collision (v : Value) (path : String) : v.WellFormed → marshal v = .error (.keyCollision path) →
    ∃ p before f g after, Leads v p (.object (before ++ g :: after)) ∧ f ∈ before ∧
      keyText f.1 = keyText g.1 ∧ path = Path.text (p ++ [keyText g.1]) ∧
      (f.1.asString? = none ↔ g.1.asString? ≠ none)

theorem text_unambiguous : UnambiguousText := by
  refine ⟨?_, ?_, ?_⟩
  · intro a b h
    exact ⟨Value.oneNaN_eq_of_text h, (Value.equal_iff_compare_eq a b).mpr (Value.compare_eq_of_text h)⟩
  · intro fields hwf f hf g hg hne
    cases hwf with
    | object _ _ hasc =>
      have hsymm : Std.Symm fun f g : Value × Value =>
          keyText f.1 = keyText g.1 → (f.1.asString? = none ↔ g.1.asString? ≠ none) := by
        constructor
        intro a b hab h
        rw [ne_eq, hab h.symm, ne_eq, Decidable.not_not]
      exact (pairwise_keyText hasc).forall hf hg fun h => hne (congrArg Prod.fst h)
  · intro v path hwf h
    have hhead : (offences v).head? = some (.keyCollision path) := by
      rw [← failure?_marshal, failure?_eq_some_iff, h]
    cases (mem_offences_iff v _).mp (List.mem_of_mem_head? hhead) with
    | @collision p before after k w k' w' hp hmem htext =>
      rw [← keyText_eq, ← keyText_eq] at htext
      refine ⟨p.path, before, (k', w'), (k, w), after, hp.leads, hmem, htext, ?_, ?_⟩
      · rw [Place.text_eq, Place.path_append_key]
      cases hp.invariant Enters.wellFormed hwf with
      | object _ _ hasc =>
        obtain ⟨-, -, hcross⟩ := List.pairwise_append.mp (pairwise_keyText hasc)
        exact hcross _ hmem _ (by simp) htext

theorem wellFormed_clash : (Value.object [(.number (.int 1), .null), (.string "1", .null)]).WellFormed := by
  refine .object ?_ ?_ ?_
  · simpa using ⟨.number _, .string _⟩
  · simpa using .null
  · simp only [Ascending.IsAscending, Value.compare, List.pairwise_pair]
    decide

theorem text_unambiguous_at_clash :
    (Value.text (.number (.float ⟨true, 2047, 1⟩)) = Value.text (.number (.float .nan)) ∧
      Value.equal (.number (.float ⟨true, 2047, 1⟩)) (.number (.float .nan)) = true) ∧
    (keyText (.number (.int 1)) = keyText (.string "1") ∧
      ((Value.number (.int 1)).asString? = none ↔ (Value.string "1").asString? ≠ none)) ∧
    (marshal (.object [(.number (.int 1), .null), (.string "1", .null)]) = .error (.keyCollision "/1") ∧
      ∃ p before f g after,
        Leads (.object [(.number (.int 1), .null), (.string "1", .null)]) p (.object (before ++ g :: after)) ∧
        f ∈ before ∧ keyText f.1 = keyText g.1 ∧ "/1" = Path.text (p ++ [keyText g.1]) ∧
        (f.1.asString? = none ↔ g.1.asString? ≠ none)) := by
  have hnan : Value.text (.number (.float ⟨true, 2047, 1⟩)) = Value.text (.number (.float .nan)) := by decide
  have hkey : keyText (.number (.int 1)) = keyText (.string "1") := by decide
  have hfail : marshal (.object [(.number (.int 1), .null), (.string "1", .null)]) =
      .error (.keyCollision "/1") := rfl
  refine ⟨⟨hnan, (text_unambiguous.eq_of_text _ _ hnan).2⟩, ⟨hkey, ?_⟩, hfail, ?_⟩
  · exact text_unambiguous.string_of_keyText _ wellFormed_clash (.number (.int 1), .null) (by simp)
      (.string "1", .null) (by simp) (by simp) hkey
  · exact text_unambiguous.string_of_collision _ _ wellFormed_clash hfail

end Codec

end PolicyYaml
