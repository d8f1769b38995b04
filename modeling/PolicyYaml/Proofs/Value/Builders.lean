import PolicyYaml.Codec.Basic
import PolicyYaml.Proofs.Ascending
import PolicyYaml.Proofs.Value.OrderLaws
import PolicyYaml.Proofs.Value.WellFormed

namespace PolicyYaml.Value

variable {α : Type}

/-- That of the members whose keys are equal the last one is kept and no other, in ascending order of the keys. -/
structure KeepsLast (key : α → Value) (members kept : List α) : Prop where
  ascending : Ascending.IsAscending (fun a b => compare (key a) (key b)) kept
  mem_iff : ∀ a, a ∈ kept ↔
    ∃ before after, members = before ++ a :: after ∧ ∀ b ∈ after, (key b).equal (key a) = false
  existsUnique : ∀ a ∈ members, ∃! b, b ∈ kept ∧ (key b).equal (key a) = true

theorem transCmp_key (key : α → Value) : Std.TransCmp fun a b => compare (key a) (key b) :=
  LawfulAt.transCmp fun a => (lawfulAt_compare (key a)).comap

theorem equal_eq_false_iff (a b : Value) : equal a b = false ↔ compare a b ≠ .eq := by
  rw [← Bool.not_eq_true, equal_iff_compare_eq]

theorem keepsLast_ofList (key : α → Value) (members : List α) :
    KeepsLast key members (Ascending.ofList (fun a b => compare (key a) (key b)) members) := by
  let order (a b : α) : Ordering := compare (key a) (key b)
  have : Std.TransCmp order := transCmp_key key
  have hascending : Ascending.IsAscending order (Ascending.ofList order members) := Ascending.isAscending_ofList members
  have hmem (a : α) : a ∈ Ascending.ofList order members ↔ Ascending.IsLast order members a :=
    Ascending.mem_ofList_iff members a
  refine ⟨hascending, fun a => ?_, fun a ha => ?_⟩
  · simp only [equal_eq_false_iff]
    exact hmem a
  · obtain ⟨b, hlast, hequal⟩ : ∃ b, Ascending.IsLast order members b ∧ order b a = .eq := Ascending.exists_isLast ha
    refine ⟨b, ⟨(hmem b).mpr hlast, (equal_iff_compare_eq _ _).mpr hequal⟩, ?_⟩
    rintro c ⟨hc, hequal'⟩
    rw [equal_iff_compare_eq] at hequal'
    have hsame : order c b = .eq := Std.TransCmp.eq_trans hequal' (Std.OrientedCmp.eq_symm hequal)
    exact Ascending.eq_of_mem hascending hc ((hmem b).mpr hlast) hsame

theorem keepsLast_ofFields (fields : List (Value × Value)) :
    ∃ kept, ofFields fields = .object kept ∧ KeepsLast Prod.fst fields kept :=
  ⟨_, rfl, keepsLast_ofList Prod.fst fields⟩

theorem keepsLast_ofMembers (elements : List Value) :
    ∃ kept, ofMembers elements = .set kept ∧ KeepsLast id elements kept :=
  ⟨_, rfl, keepsLast_ofList id elements⟩

theorem KeepsLast.mem {key : α → Value} {members kept : List α} (h : KeepsLast key members kept) {a : α} (ha : a ∈ kept) :
    a ∈ members := by
  obtain ⟨before, after, rfl, -⟩ := (h.mem_iff a).mp ha
  exact List.mem_append_right before List.mem_cons_self

theorem keepsLast_ofElements (elements : List Value) :
    ∃ kept, ofElements elements = .set kept ∧ KeepsLast id (elements.filter fun v => !v.isUndefined) kept ∧
      .undefined ∉ kept := by
  obtain ⟨kept, hset, hkept⟩ := keepsLast_ofMembers (elements.filter fun v => !v.isUndefined)
  refine ⟨kept, hset, hkept, fun hmem => ?_⟩
  have hdefined := (List.mem_filter.mp (hkept.mem hmem)).2
  contradiction

theorem ofElements_of_ofMembers {elements kept : List Value} (h : ofMembers elements = .set kept) :
    ofElements kept = ofElements elements := by
  have hdefined : ∀ v w : Value, compare v w = .eq → (!v.isUndefined) = !w.isUndefined := by
    intro v w heq
    rw [← equal_iff_compare_eq] at heq
    cases v <;> cases w <;> first | rfl | contradiction
  rw [ofMembers, set.injEq] at h
  subst h
  rw [ofElements, ofElements, ofMembers, ofMembers, Ascending.ofList_filter hdefined,
    Ascending.ofList_of_isAscending (Ascending.isAscending_ofList elements), Ascending.ofList_filter hdefined]

theorem ofFields_of_isAscending {fields : List (Value × Value)}
    (h : Ascending.IsAscending (fun f g => compare f.1 g.1) fields) : ofFields fields = .object fields := by
  have := transCmp_key (Prod.fst : Value × Value → Value)
  rw [ofFields, Ascending.ofList_of_isAscending h]

theorem ofFields_eq_of_perm {fields fields' : List (Value × Value)} (hperm : fields.Perm fields')
    (h : fields.Pairwise fun f g => f.1.equal g.1 = false) : ofFields fields = ofFields fields' := by
  have := transCmp_key (Prod.fst : Value × Value → Value)
  simp only [equal_eq_false_iff] at h
  rw [ofFields, ofFields, Ascending.ofList_eq_of_perm hperm h]

theorem ofElements_eq_of_perm {elements elements' : List Value} (hperm : elements.Perm elements')
    (h : elements.Pairwise fun v w => v.equal w = false) : ofElements elements = ofElements elements' := by
  simp only [equal_eq_false_iff] at h
  rw [ofElements, ofElements, ofMembers, ofMembers,
    Ascending.ofList_eq_of_perm (hperm.filter _) (h.sublist List.filter_sublist)]

theorem wellFormed_ofFields {fields : List (Value × Value)} (h : ∀ f ∈ fields, f.1.WellFormed ∧ f.2.WellFormed) :
    (ofFields fields).WellFormed := by
  obtain ⟨kept, hobject, hkept⟩ := keepsLast_ofFields fields
  rw [hobject]
  exact .object (fun f hf => (h f (hkept.mem hf)).1) (fun f hf => (h f (hkept.mem hf)).2) hkept.ascending

theorem ofFields_string (fields : List (String × Value)) :
    ofFields (fields.map fun f => (.string f.1, f.2)) =
      Codec.TextFields.toObject (Ascending.ofList Text.compareNames fields) := by
  rw [ofFields, Codec.TextFields.toObject]
  congr 1
  refine (Ascending.map_ofList ?_ fields).symm
  intro f g
  rw [compare, Text.compareNames]

theorem builders_canonical :
    (∀ fields, ∃ kept, ofFields fields = .object kept ∧ KeepsLast Prod.fst fields kept) ∧
    (∀ elements, ∃ kept, ofElements elements = .set kept ∧
      KeepsLast id (elements.filter fun v => !v.isUndefined) kept ∧ .undefined ∉ kept) ∧
    (∀ kept, Ascending.IsAscending (fun f g => compare f.1 g.1) kept → ofFields kept = .object kept) ∧
    (∀ elements kept, ofMembers elements = .set kept → ofElements kept = ofElements elements) ∧
    (∀ fields fields' : List (Value × Value), fields.Perm fields' →
      fields.Pairwise (fun f g => f.1.equal g.1 = false) →
      ofFields fields = ofFields fields' ∧ Codec.marshal (ofFields fields) = Codec.marshal (ofFields fields')) ∧
    ∀ elements elements' : List Value, elements.Perm elements' →
      elements.Pairwise (fun v w => v.equal w = false) →
      ofElements elements = ofElements elements' ∧
        Codec.marshal (ofElements elements) = Codec.marshal (ofElements elements') := by
  refine ⟨keepsLast_ofFields, keepsLast_ofElements, fun kept => ofFields_of_isAscending,
    fun elements kept => ofElements_of_ofMembers, ?_, ?_⟩
  · intro fields fields' hperm h
    have hsame := ofFields_eq_of_perm hperm h
    exact ⟨hsame, congrArg Codec.marshal hsame⟩
  · intro elements elements' hperm h
    have hsame := ofElements_eq_of_perm hperm h
    exact ⟨hsame, congrArg Codec.marshal hsame⟩

theorem builders_canonical_on_nested_numbers :
    let one : Value := .array [.number (.int 1)]
    let float : Value := .array [.number (.float ⟨false, 1023, 0⟩)]
    let fields : List (Value × Value) := [(.string "b", one), (one, .null), (.boolean true, .undefined)]
    let elements : List Value := [.string "b", .undefined, float]
    one.equal float = true ∧
      ofFields [(one, .null), (float, .boolean true)] = .object [(float, .boolean true)] ∧
      ofFields [(float, .boolean true)] = .object [(float, .boolean true)] ∧
      ofElements [.string "b", one, .undefined] = ofElements [one, .undefined, float, .string "b", one] ∧
      (ofFields fields = ofFields fields.reverse ∧
        Codec.marshal (ofFields fields) = Codec.marshal (ofFields fields.reverse)) ∧
      ofElements elements = ofElements elements.reverse ∧
        Codec.marshal (ofElements elements) = Codec.marshal (ofElements elements.reverse) := by
  intro one float fields elements
  obtain ⟨-, -, hfields, hmembers, hpermFields, hpermElements⟩ := builders_canonical
  refine ⟨by decide, by rfl, hfields _ (List.pairwise_singleton _ _), ?_, ?_, ?_⟩
  · exact hmembers [one, .undefined, float, .string "b", one] [.string "b", one, .undefined] (by rfl)
  · exact hpermFields _ _ (List.reverse_perm fields).symm (by decide)
  · exact hpermElements _ _ (List.reverse_perm elements).symm (by decide)

end PolicyYaml.Value
