import PolicyYaml.Builtin.Signature
import PolicyYaml.Proofs.Ascending
import PolicyYaml.Proofs.Text.CommaList

namespace PolicyYaml

namespace TypeName

theorem name_ne_empty (t : TypeName) : t.name ≠ "" := by cases t <;> decide

theorem comma_not_mem_name (t : TypeName) : ',' ∉ t.name.toList := by cases t <;> decide

theorem bracket_not_mem_name (t : TypeName) : '<' ∉ t.name.toList := by cases t <;> decide

theorem mem_map_name_iff {types : List TypeName} {t : TypeName} : t.name ∈ types.map name ↔ t ∈ types :=
  List.mem_map_of_injective fun _ _ => name_injective

end TypeName

theorem enumerates_distinctNames (names : List String) :
    Ascending.Enumerates Text.compareBytes (distinctNames names) fun x => x ∈ names where
  ascending := Ascending.isAscending_ofList names
  mem_iff := Ascending.mem_ofList_iff_mem (fun _ _ => Text.compareBytes_eq_iff.mp) names

theorem mem_distinctNames_iff (names : List String) (x : String) : x ∈ distinctNames names ↔ x ∈ names :=
  (enumerates_distinctNames names).mem_iff x

theorem distinctNames_eq_iff (names names' : List String) :
    distinctNames names = distinctNames names' ↔ ∀ x, x ∈ names ↔ x ∈ names' := by
  constructor
  · intro heq x
    rw [← mem_distinctNames_iff names, heq, mem_distinctNames_iff]
  · intro hsame
    have hnames := enumerates_distinctNames names
    simp only [hsame] at hnames
    exact hnames.unique (enumerates_distinctNames names')

theorem distinctNames_map_name_eq_iff (types types' : List TypeName) :
    distinctNames (types.map TypeName.name) = distinctNames (types'.map TypeName.name) ↔
      ∀ t, t ∈ types ↔ t ∈ types' := by
  rw [distinctNames_eq_iff]
  constructor
  · intro hsame t
    rw [← TypeName.mem_map_name_iff, hsame, TypeName.mem_map_name_iff]
  · intro hsame x
    simp only [List.mem_map, hsame]

theorem told_apart_of_mem_distinctNames {types : List TypeName} {s : String}
    (h : s ∈ distinctNames (types.map TypeName.name)) : s ≠ "" ∧ ',' ∉ s.toList := by
  rw [mem_distinctNames_iff] at h
  obtain ⟨t, -, rfl⟩ := List.mem_map.mp h
  exact ⟨t.name_ne_empty, t.comma_not_mem_name⟩

theorem wantText_of_length_ne {types : List TypeName} (h : types.length ≠ 1) :
    wantText types = "any<" ++ ", ".intercalate (distinctNames (types.map TypeName.name)) ++ ">" := by
  match types with
  | [] | _ :: _ :: _ => rfl
  | [_] => contradiction

theorem any_append_inj {s t : String} : "any<" ++ s ++ ">" = "any<" ++ t ++ ">" ↔ s = t := by
  rw [← String.toList_inj, ← String.toList_inj]
  simp only [String.toList_append, List.append_cancel_right_eq, List.append_cancel_left_eq]

theorem name_ne_wantText (t : TypeName) {types : List TypeName} (h : types.length ≠ 1) : t.name ≠ wantText types := by
  rw [wantText_of_length_ne h]
  intro heq
  apply t.bracket_not_mem_name
  rw [heq]
  simp

theorem wantText_eq_iff_of_length_ne {types types' : List TypeName} (h : types.length ≠ 1) (h' : types'.length ≠ 1) :
    wantText types = wantText types' ↔ ∀ t, t ∈ types ↔ t ∈ types' := by
  rw [wantText_of_length_ne h, wantText_of_length_ne h', any_append_inj, ← distinctNames_map_name_eq_iff]
  constructor
  · exact Text.intercalate_inj (fun _ => told_apart_of_mem_distinctNames) fun _ => told_apart_of_mem_distinctNames
  · exact congrArg _

theorem wantText_eq_iff (types types' : List TypeName) :
    wantText types = wantText types' ↔
      (∀ t, t ∈ types ↔ t ∈ types') ∧ (types.length = 1 ↔ types'.length = 1) := by
  by_cases h : types.length = 1
  · obtain ⟨t, rfl⟩ := List.length_eq_one_iff.mp h
    by_cases h' : types'.length = 1
    · obtain ⟨u, rfl⟩ := List.length_eq_one_iff.mp h'
      rw [and_iff_left (iff_of_true h h')]
      constructor
      · intro heq v
        rw [TypeName.name_injective heq]
      · intro hsame
        rw [List.mem_singleton.mp ((hsame t).mp List.mem_cons_self)]
    · exact iff_of_false (name_ne_wantText t h') fun hboth => h' (hboth.2.mp h)
  · by_cases h' : types'.length = 1
    · obtain ⟨u, rfl⟩ := List.length_eq_one_iff.mp h'
      exact iff_of_false (name_ne_wantText u h).symm fun hboth => h (hboth.2.mpr h')
    · rw [wantText_eq_iff_of_length_ne h h', and_iff_left (iff_of_false h h')]

theorem wantText_of_only {types : List TypeName} {t : TypeName} (h : ∀ u, u ∈ types ↔ u = t) :
    wantText types = if types.length = 1 then t.name else "any<" ++ t.name ++ ">" := by
  split
  · rename_i hone
    obtain ⟨u, rfl⟩ := List.length_eq_one_iff.mp hone
    rw [← (h u).mp List.mem_cons_self]
    rfl
  · rename_i hone
    have hnames : distinctNames (types.map TypeName.name) = distinctNames ([t].map TypeName.name) := by
      rw [distinctNames_map_name_eq_iff]
      simpa only [List.mem_singleton] using h
    rw [wantText_of_length_ne hone, hnames]
    exact congrArg (fun s => "any<" ++ s ++ ">") String.intercalate_singleton

/-- The text is that of the set of the types, unless the only type is listed more than once. -/
theorem wantText_tells_types (types : List TypeName) :
    ∃ names, Ascending.Enumerates Text.compareBytes names (fun x => ∃ t ∈ types, t.name = x) ∧
      (∀ t, (∀ u, u ∈ types ↔ u = t) →
        wantText types = if types.length = 1 then t.name else "any<" ++ t.name ++ ">") ∧
      ((¬∃ t, ∀ u, u ∈ types ↔ u = t) → wantText types = "any<" ++ ", ".intercalate names ++ ">") ∧
      ∀ types', wantText types = wantText types' ↔
        (∀ t, t ∈ types ↔ t ∈ types') ∧ (types.length = 1 ↔ types'.length = 1) := by
  refine ⟨distinctNames (types.map TypeName.name), ?_, fun t => wantText_of_only, ?_, wantText_eq_iff types⟩
  · simpa only [List.mem_map] using enumerates_distinctNames (types.map TypeName.name)
  · intro hnone
    apply wantText_of_length_ne
    intro hone
    obtain ⟨t, rfl⟩ := List.length_eq_one_iff.mp hone
    exact hnone ⟨t, fun u => List.mem_singleton⟩

theorem wantText_tells_types_in_any_order :
    ((∀ u, u ∈ [TypeName.set, .set, .set] ↔ u = .set) ∧ wantText [.set, .set, .set] = "any<set>") ∧
      ((¬∃ t, ∀ u, u ∈ [TypeName.string, .number, .string] ↔ u = t) ∧
        wantText [.string, .number, .string] = "any<number, string>") ∧
      wantText [.string, .number, .string] = wantText [.number, .string] := by
  obtain ⟨-, -, honly, -, -⟩ := wantText_tells_types [.set, .set, .set]
  obtain ⟨names, hnames, -, hseveral, hsame⟩ := wantText_tells_types [.string, .number, .string]
  have hset : ∀ u, u ∈ [TypeName.set, .set, .set] ↔ u = .set := by simp
  have htwo : ¬∃ t, ∀ u, u ∈ [TypeName.string, .number, .string] ↔ u = t := by
    rintro ⟨t, ht⟩
    have hstring := (ht .string).mp (by decide)
    have hnumber := (ht .number).mp (by decide)
    rw [← hstring] at hnumber
    contradiction
  have hlist : names = ["number", "string"] := by
    refine hnames.unique ⟨?_, fun x => ⟨fun hx => ?_, ?_⟩⟩
    · unfold Ascending.IsAscending
      decide
    · rcases List.mem_pair.mp hx with rfl | rfl
      · exact ⟨.number, by decide, rfl⟩
      · exact ⟨.string, by decide, rfl⟩
    · rintro ⟨t, ht, rfl⟩
      revert ht
      cases t <;> decide
  refine ⟨⟨hset, honly .set hset⟩, ⟨htwo, ?_⟩, ?_⟩
  · rw [hseveral htwo, hlist]
    decide
  · rw [hsame]
    exact ⟨fun t => by cases t <;> decide, by decide⟩

theorem wantText_of_type_listed_twice :
    ¬∀ types types' : List TypeName, (∀ t, t ∈ types ↔ t ∈ types') → wantText types = wantText types' := by
  intro h
  have heq : wantText [.string, .string] = wantText [.string] := h _ _ fun t => by simp
  revert heq
  decide

end PolicyYaml
