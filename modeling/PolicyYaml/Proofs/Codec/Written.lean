import Mathlib.Data.List.Forall2
import PolicyYaml.Proofs.Codec.NormalForm
import PolicyYaml.Proofs.Document.BlankText
import PolicyYaml.Proofs.Document.ReadBack
import PolicyYaml.Proofs.Value.Nesting

namespace PolicyYaml

namespace Tree

theorem distinctKeys_of_nodup {entries : List (Tree × Tree)} {names : List String}
    (hkeys : entries.map Prod.fst = names.map Tree.string) (h : names.Nodup) : distinctKeys entries = true := by
  induction entries generalizing names with
  | nil => rfl
  | cons e rest ih =>
    obtain ⟨k, t⟩ := e
    cases names with
    | nil => contradiction
    | cons name names =>
      rw [List.map_cons, List.map_cons, List.cons.injEq] at hkeys
      obtain ⟨rfl, hkeys⟩ := hkeys
      rw [List.nodup_cons] at h
      rw [distinctKeys, ih hkeys h.2, Bool.and_true, List.all_eq_true]
      intro e he
      have hmem : e.1 ∈ names.map Tree.string := hkeys ▸ List.mem_map_of_mem he
      obtain ⟨other, hother, heq⟩ := List.mem_map.mp hmem
      rw [← heq, alike, Bool.not_eq_true', beq_eq_false_iff_ne]
      rintro rfl
      exact h.1 hother

end Tree

namespace Codec

def IsWritten (v : Value) (t : Tree) : Prop := ∃ path, encodeAt path v = .ok t

theorem isWritten_items {path : Path} {index : Nat} {items : List Value} {trees : List Tree}
    (h : encodeItems path index items = .ok trees) : List.Forall₂ IsWritten items trees := by
  induction items generalizing index trees with
  | nil =>
    rw [encodeItems] at h
    cases h
    exact .nil
  | cons v rest ih =>
    rw [encodeItems_cons] at h
    obtain ⟨first, hfirst, h⟩ := bind_eq_ok_iff.mp h
    obtain ⟨others, hothers, rfl⟩ := map_eq_ok_iff.mp h
    exact .cons ⟨_, hfirst⟩ (ih hothers)

theorem isWritten_fields {path : Path} {seen : List String} {fields : List (Value × Value)}
    {entries : List (Tree × Tree)} (h : encodeFields path seen fields = .ok entries) :
    List.Forall₂ (fun f e => e.1 = .string (keyText f.1) ∧ IsWritten f.2 e.2) fields entries := by
  induction fields generalizing seen entries with
  | nil =>
    rw [encodeFields] at h
    cases h
    exact .nil
  | cons f rest ih =>
    obtain ⟨k, v⟩ := f
    rw [encodeFields_cons] at h
    split at h
    · contradiction
    split at h
    · contradiction
    · obtain ⟨first, hfirst, h⟩ := bind_eq_ok_iff.mp h
      obtain ⟨others, hothers, rfl⟩ := map_eq_ok_iff.mp h
      exact .cons ⟨rfl, _, hfirst⟩ (ih hothers)

theorem forall_mem_of_forall₂ {α β : Type} {R : α → β → Prop} {P : β → Prop} {as : List α} {bs : List β}
    (h : List.Forall₂ R as bs) (hP : ∀ a ∈ as, ∀ b, R a b → P b) : ∀ b ∈ bs, P b := by
  induction h with
  | nil => simp
  | cons hab _ ih =>
    rw [List.forall_mem_cons] at hP ⊢
    exact ⟨hP.1 _ hab, ih hP.2⟩

theorem map_fst_of_written {fields : List (Value × Value)} {entries : List (Tree × Tree)}
    (h : List.Forall₂ (fun f e => e.1 = .string (keyText f.1) ∧ IsWritten f.2 e.2) fields entries) :
    entries.map Prod.fst = (fields.map fun f => keyText f.1).map Tree.string := by
  induction h with
  | nil => rfl
  | cons he _ ih => rw [List.map_cons, List.map_cons, List.map_cons, he.1, ih]

theorem isWritableScalar_encodeNumber (n : Number) : (encodeNumber n).IsWritableScalar := by
  cases n with
  | int i =>
    apply Tree.IsWritableScalar.integer
    rw [fitsBits, Bool.and_eq_true, decide_eq_true_iff, decide_eq_true_iff]
    exact ⟨i.le_toInt, lt_trans i.toInt_lt (by decide)⟩
  | float d => exact .float (Double.oneNaN_oneNaN d)

theorem isWritable_of_isWritten {v : Value} {t : Tree} (h : IsWritten v t) : t.IsWritable := by
  obtain ⟨path, h⟩ := h
  induction v using Value.structuralInduction generalizing path t with
  | null =>
    cases h
    exact .scalar .null
  | boolean b =>
    cases h
    exact .scalar (.boolean b)
  | number n =>
    cases h
    exact .scalar (isWritableScalar_encodeNumber n)
  | string s =>
    cases h
    exact .scalar (.string s)
  | array items ih | set items ih =>
    rw [encodeAt] at h
    obtain ⟨trees, htrees, rfl⟩ := map_eq_ok_iff.mp h
    refine .sequence (forall_mem_of_forall₂ (isWritten_items htrees) ?_)
    rintro v hv t ⟨path, h⟩
    exact ih v hv path h
  | object fields ih =>
    rw [encodeAt] at h
    obtain ⟨entries, hentries, rfl⟩ := map_eq_ok_iff.mp h
    have hwritten := isWritten_fields hentries
    refine .mapping ?_ ?_ ?_
    · exact forall_mem_of_forall₂ hwritten fun f _ e he => ⟨_, he.1⟩
    · refine forall_mem_of_forall₂ hwritten ?_
      rintro f hf e ⟨-, path, h⟩
      exact (ih f hf).2 path h
    · exact Tree.distinctKeys_of_nodup (map_fst_of_written hwritten) (encodeFields_eq_ok hentries).1
  | undefined => contradiction

theorem itemNesting_of_forall₂ {items : List Value} {trees : List Tree} (h : List.Forall₂ IsWritten items trees)
    (hv : ∀ v ∈ items, ∀ t, IsWritten v t → t.nesting = v.nesting) :
    Tree.itemNesting trees = Value.itemNesting items := by
  induction h with
  | nil => rfl
  | cons ht _ ih =>
    rw [List.forall_mem_cons] at hv
    rw [Tree.itemNesting, Value.itemNesting, hv.1 _ ht, ih hv.2]

theorem entryNesting_of_forall₂ {fields : List (Value × Value)} {entries : List (Tree × Tree)}
    (h : List.Forall₂ (fun f e => e.1 = .string (keyText f.1) ∧ IsWritten f.2 e.2) fields entries)
    (hf : ∀ f ∈ fields, ∀ t, IsWritten f.2 t → t.nesting = f.2.nesting) :
    Tree.entryNesting entries = Value.fieldNesting fields := by
  induction h with
  | nil => rfl
  | @cons f e _ _ he _ ih =>
    rw [List.forall_mem_cons] at hf
    have hkey : e.1.nesting = 0 := by rw [he.1, Tree.nesting]
    rw [Tree.entryNesting, Value.fieldNesting, hkey, hf.1 _ he.2, ih hf.2, Nat.zero_max]

theorem nesting_of_isWritten {v : Value} {t : Tree} (h : IsWritten v t) : t.nesting = v.nesting := by
  obtain ⟨path, h⟩ := h
  induction v using Value.structuralInduction generalizing path t with
  | null | boolean | string =>
    cases h
    rfl
  | number n =>
    cases h
    cases n <;> rfl
  | array items ih | set items ih =>
    rw [encodeAt] at h
    obtain ⟨trees, htrees, rfl⟩ := map_eq_ok_iff.mp h
    rw [Tree.nesting, Value.nesting, itemNesting_of_forall₂ (isWritten_items htrees)]
    rintro v hv t ⟨path, h⟩
    exact ih v hv path h
  | object fields ih =>
    rw [encodeAt] at h
    obtain ⟨entries, hentries, rfl⟩ := map_eq_ok_iff.mp h
    rw [Tree.nesting, Value.nesting, entryNesting_of_forall₂ (isWritten_fields hentries)]
    rintro f hf t ⟨path, h⟩
    exact (ih f hf).2 path h
  | undefined => contradiction

theorem isBlank_text {t : Tree} (h : t.IsWritable) : isBlank t.text = false := by
  rw [Bool.eq_false_iff]
  intro hblank
  rw [isBlank, Tree.text, String.toList_ofList, List.all_eq_true] at hblank
  obtain ⟨first, more, htokens, -⟩ := Document.nodeTokens_opens false t
  rcases Document.tokens?_of_isFiller hblank with hnone | hempty
  · rw [Document.tokens?_chars h] at hnone
    contradiction
  · rw [Document.tokens?_chars h, htokens] at hempty
    cases hempty

theorem unmarshal_written {v : Value} {text : String} (h : marshal v = .ok text) :
    unmarshal text = if v.nesting ≤ Document.maxDepth then .ok v.normalForm else .error malformed := by
  obtain ⟨t, ht, rfl⟩ := map_eq_ok_iff.mp h
  have hwritten : IsWritten v t := ⟨_, ht⟩
  have hwritable := isWritable_of_isWritten hwritten
  rw [unmarshal, isBlank_text hwritable, if_neg Bool.false_ne_true, readTree, Tree.text, String.toList_ofList,
    Tree.read?_chars hwritable, nesting_of_isWritten hwritten]
  by_cases hdepth : v.nesting ≤ Document.maxDepth
  · rw [if_pos hdepth, if_pos hdepth]
    exact decode_encodeAt ht
  · rw [if_neg hdepth, if_neg hdepth]
    rfl

end Codec

end PolicyYaml
