import PolicyYaml.Proofs.Codec.NormalForm
import PolicyYaml.Proofs.Value.Undefined

/-!
A value whose keys are scalars can be written with those scalars as keys, in place of their texts. Read back, such
a tree gives what the written one gives, and two of its keys clash exactly if writing the value fails.
-/

namespace PolicyYaml

namespace Value

def isScalar : Value → Bool
  | .null | .boolean _ | .number _ | .string _ => true
  | .array _ | .object _ | .set _ | .undefined => false

inductive HasScalarKeys : Value → Prop
  | null : HasScalarKeys .null
  | boolean (b : Bool) : HasScalarKeys (.boolean b)
  | number (n : Number) : HasScalarKeys (.number n)
  | string (s : String) : HasScalarKeys (.string s)
  | array {items : List Value} : (∀ v ∈ items, HasScalarKeys v) → HasScalarKeys (.array items)
  | object {fields : List (Value × Value)} :
    (∀ f ∈ fields, f.1.isScalar = true) → (∀ f ∈ fields, HasScalarKeys f.2) → HasScalarKeys (.object fields)
  | set {elements : List Value} : (∀ v ∈ elements, HasScalarKeys v) → HasScalarKeys (.set elements)
  | undefined : HasScalarKeys .undefined

theorem hasScalarKeys_object {fields : List (Value × Value)} (hkey : fields.all (fun f => f.1.isScalar) = true)
    (hv : ∀ f ∈ fields, f.2.HasScalarKeys) : (object fields).HasScalarKeys :=
  .object (List.all_eq_true.mp hkey) hv

mutual

def rawTree : Value → Tree
  | .null | .undefined => .null
  | .boolean b => .boolean b
  | .number n => Codec.encodeNumber n
  | .string s => .string s
  | .array items => .sequence (rawItems items)
  | .object fields => .mapping (rawFields fields)
  | .set elements => .sequence (rawItems elements)

def rawItems : List Value → List Tree
  | [] => []
  | v :: rest => v.rawTree :: rawItems rest

def rawFields : List (Value × Value) → List (Tree × Tree)
  | [] => []
  | (k, v) :: rest => (k.rawTree, v.rawTree) :: rawFields rest

end

end Value

theorem Number.text_float_oneNaN (d : Double) : (float d.oneNaN).text = (float d).text := by
  rw [text, text, chars, chars]
  by_cases hd : d.isNaN = true
  · rw [Double.oneNaN_of_isNaN hd, floatText_of_isNaN hd, floatText_of_isNaN Double.isNaN_nan]
  · rw [Double.oneNaN, if_neg hd]

namespace Codec

theorem treeKey_encodeNumber (n : Number) : treeKey (encodeNumber n) = .ok n.text := by
  cases n with
  | int i => rw [encodeNumber, treeKey, decodeInteger_toInt]
  | float d => rw [encodeNumber, treeKey, Number.text_float_oneNaN]

theorem treeKey_rawTree {k : Value} (h : k.isScalar = true) : treeKey k.rawTree = .ok (keyText k) := by
  cases k with
  | null => rfl
  | boolean b => cases b <;> rfl
  | number n => exact treeKey_encodeNumber n
  | string s => rfl
  | array | object | set | undefined => contradiction

theorem isUnwritableKey_of_isScalar {k : Value} (h : k.isScalar = true) : isUnwritableKey k = false := by
  cases k with
  | null | boolean | number | string => rfl
  | array | object | set | undefined => contradiction

/-- Reading the one tree and writing the other either both succeed, and then reading what was written gives the
same, or both stop at two keys of one text. -/
inductive Meets {α β : Type} (read : β → Except CodecError α) : Except CodecError α → Except CodecError β → Prop
  | done {a : α} {b : β} : read b = .ok a → Meets read (.ok a) (.ok b)
  | clash (path : Path) (key : String) :
    Meets read (.error (duplicateKey key)) (.error (.keyCollision (Path.text (path ++ [key]))))

section Chains

variable {α β γ δ : Type} {read : β → Except CodecError α} {read' : δ → Except CodecError γ}
  {x : Except CodecError α} {y : Except CodecError β}

theorem meets_bind {f : α → Except CodecError γ} {g : β → Except CodecError δ} (h : Meets read x y)
    (hf : ∀ a b, read b = .ok a → Meets read' (f a) (g b)) : Meets read' (x >>= f) (y >>= g) := by
  cases h with
  | done hread => exact hf _ _ hread
  | clash path key => exact .clash path key

theorem meets_map {f : α → γ} {g : β → δ} (h : Meets read x y)
    (hf : ∀ a b, read b = .ok a → read' (g b) = .ok (f a)) : Meets read' (x.map f) (y.map g) := by
  cases h with
  | done hread => exact .done (hf _ _ hread)
  | clash path key => exact .clash path key

end Chains

theorem meets_items {items : List Value} (hv : ∀ v ∈ items, ∀ path, Meets decode (decode v.rawTree) (encodeAt path v))
    (path : Path) (index : Nat) :
    Meets decodeItems (decodeItems (Value.rawItems items)) (encodeItems path index items) := by
  induction items generalizing index with
  | nil =>
    rw [Value.rawItems, encodeItems, decodeItems]
    apply Meets.done
    rfl
  | cons v rest ih =>
    have hfirst := hv v (by simp) (path ++ [segment index])
    have hrest := ih (fun w hw => hv w (List.mem_cons_of_mem _ hw)) (index + 1)
    rw [Value.rawItems, decodeItems_cons, encodeItems_cons]
    apply meets_bind hfirst
    intro value tree hread
    apply meets_map hrest
    intro values trees hreads
    rw [decodeItems_cons, hread, hreads]
    rfl

theorem meets_sequence {x : Except CodecError (List Value)} {y : Except CodecError (List Tree)}
    (h : Meets decodeItems x y) : Meets decode (x.map .array) (y.map .sequence) := by
  apply meets_map h
  intro values trees hreads
  rw [decode, hreads]
  rfl

theorem contains_eq_of_names {kept : TextFields} {seen : List String}
    (h : ∀ key, key ∈ kept.map Prod.fst ↔ key ∈ seen) (key : String) : kept.contains key = seen.contains key := by
  rw [Bool.eq_iff_iff, contains_eq_true_iff, List.contains_iff_mem]
  exact h key

theorem mem_names_insert_iff {kept : TextFields} {seen : List String}
    (h : ∀ key, key ∈ kept.map Prod.fst ↔ key ∈ seen) (text : String) (v : Value) (key : String) :
    key ∈ (kept.insert text v).map Prod.fst ↔ key ∈ text :: seen := by
  rw [TextFields.insert, Text.mem_names_insert, h, List.mem_cons]

theorem decodeEntries_rawFields_cons {k : Value} (hk : k.isScalar = true) (kept : TextFields) (v : Value)
    (rest : List (Value × Value)) :
    decodeEntries kept (Value.rawFields ((k, v) :: rest)) =
      if kept.contains (keyText k) then .error (duplicateKey (keyText k))
      else decode v.rawTree >>= fun value => decodeEntries (kept.insert (keyText k) value) (Value.rawFields rest) := by
  rw [Value.rawFields, decodeEntries_cons, treeKey_rawTree hk]
  rfl

theorem meets_fields {fields : List (Value × Value)} (hkey : ∀ f ∈ fields, f.1.isScalar = true)
    (hv : ∀ f ∈ fields, ∀ path, Meets decode (decode f.2.rawTree) (encodeAt path f.2)) (path : Path)
    {kept : TextFields} {seen : List String} (hkept : ∀ key, key ∈ kept.map Prod.fst ↔ key ∈ seen) :
    Meets (decodeEntries kept) (decodeEntries kept (Value.rawFields fields)) (encodeFields path seen fields) := by
  induction fields generalizing kept seen with
  | nil =>
    rw [Value.rawFields, encodeFields, decodeEntries]
    apply Meets.done
    rw [decodeEntries]
  | cons f rest ih =>
    obtain ⟨k, v⟩ := f
    have hscalar : k.isScalar = true := hkey (k, v) (by simp)
    have hfirst := hv (k, v) (by simp) (path ++ [keyText k])
    have hkey := fun g hg => hkey g (List.mem_cons_of_mem (k, v) hg)
    have hv := fun g hg => hv g (List.mem_cons_of_mem (k, v) hg)
    rw [decodeEntries_rawFields_cons hscalar, encodeFields_cons, isUnwritableKey_of_isScalar hscalar,
      ← contains_eq_of_names hkept (keyText k), if_neg Bool.false_ne_true]
    by_cases hclash : kept.contains (keyText k) = true
    · rw [if_pos hclash, if_pos hclash]
      exact .clash path (keyText k)
    · rw [if_neg hclash, if_neg hclash]
      apply meets_bind hfirst
      intro value tree hread
      have hrest := ih hkey hv (mem_names_insert_iff hkept (keyText k) value)
      -- The entries read on are those of the whole mapping, so only the written side is mapped.
      rw [← id_map (decodeEntries (kept.insert (keyText k) value) (Value.rawFields rest))]
      apply meets_map hrest
      intro fields' entries hreads
      rw [decodeEntries_cons, treeKey, id_eq, ← hreads]
      simp only [bind, Except.bind, hclash, Bool.false_eq_true, ↓reduceIte, hread]

theorem meets_decode {v : Value} (hkeys : v.HasScalarKeys) (hdefined : ¬v.HasUndefined) (path : Path) :
    Meets decode (decode v.rawTree) (encodeAt path v) := by
  induction v using Value.structuralInduction generalizing path with
  | null | boolean | string =>
    rw [Value.rawTree, decode, encodeAt]
    exact .done (by rw [decode])
  | number n =>
    rw [Value.rawTree, encodeAt, decode_encodeNumber]
    exact .done (decode_encodeNumber n)
  | undefined => exact absurd .here hdefined
  | array items ih =>
    cases hkeys with
    | array hitems =>
      have hmeets := meets_items (fun v hv => ih v hv (hitems v hv) fun h => hdefined (.item hv h)) path 0
      rw [Value.rawTree, decode, encodeAt]
      exact meets_sequence hmeets
  | set elements ih =>
    cases hkeys with
    | set helements =>
      have hmeets := meets_items (fun v hv => ih v hv (helements v hv) fun h => hdefined (.element hv h)) path 0
      rw [Value.rawTree, decode, encodeAt]
      exact meets_sequence hmeets
  | object fields ih =>
    cases hkeys with
    | object hscalar hfields =>
      have hvalues := fun f hf => (ih f hf).2 (hfields f hf) fun h => hdefined (.field hf h)
      have hnames : ∀ key, key ∈ List.map Prod.fst ([] : TextFields) ↔ key ∈ ([] : List String) := by simp
      have hmeets := meets_fields hscalar hvalues path hnames
      rw [Value.rawTree, decode, encodeAt]
      apply meets_map hmeets
      intro fields' entries hreads
      rw [decode, hreads]
      rfl

theorem decode_rawTree :
    (∀ k : Value, k.isScalar = true → treeKey k.rawTree = .ok (keyText k)) ∧
      ∀ v : Value, v.HasScalarKeys → v.containsUndefined = false →
        ((∃ x, decode v.rawTree = .ok x) ↔ ∃ t, encode v = .ok t) ∧
        (∀ t, encode v = .ok t → decode v.rawTree = decode t) ∧
        ((∃ key, decode v.rawTree = .error (duplicateKey key)) ↔ ∃ path, encode v = .error (.keyCollision path)) ∧
        ∀ e e', decode v.rawTree = .error e → encode v = .error e' →
          ∃ path key, e = duplicateKey key ∧ e' = .keyCollision (Path.text (path ++ [key])) := by
  refine ⟨fun k => treeKey_rawTree, ?_⟩
  intro v hkeys hdefined
  have hno : ¬v.HasUndefined := by
    rw [← Value.containsUndefined_iff, hdefined]
    exact Bool.false_ne_true
  have hmeets : Meets decode (decode v.rawTree) (encode v) := meets_decode hkeys hno []
  generalize decode v.rawTree = raw at hmeets
  generalize encode v = written at hmeets
  cases hmeets with
  | @done x t hread =>
    refine ⟨iff_of_true ⟨x, rfl⟩ ⟨t, rfl⟩, ?_, iff_of_false ?_ ?_, ?_⟩
    · intro t' ht
      cases ht
      exact hread.symm
    · rintro ⟨key, h⟩
      contradiction
    · rintro ⟨path, h⟩
      contradiction
    · intro e e' h
      contradiction
  | clash path key =>
    refine ⟨iff_of_false ?_ ?_, ?_, iff_of_true ⟨key, rfl⟩ ⟨_, rfl⟩, ?_⟩
    · rintro ⟨x, h⟩
      contradiction
    · rintro ⟨t, h⟩
      contradiction
    · intro t h
      contradiction
    · intro e e' he he'
      cases he
      cases he'
      exact ⟨path, key, rfl, rfl⟩

theorem decode_rawTree_with_number_keys :
    let nan := Value.number (.float ⟨true, 2047, 1⟩)
    let v := Value.object [(.null, .set [.object [(.boolean true, nan)]]), (.number (.int 1), .string "a"), (nan, .null)]
    let t := Tree.mapping [(.string "null", .sequence [.mapping [(.string "true", .float .nan)]]),
      (.string "1", .string "a"), (.string "NaN", .null)]
    let clash := Value.object [(.number (.int 1), .null), (.string "1", .null)]
    (treeKey nan.rawTree = .ok "NaN" ∧ encode v = .ok t ∧ v.rawTree ≠ t ∧ decode v.rawTree = decode t) ∧
      encode (.array [v, clash]) = .error (.keyCollision "/1/1") ∧
      ∃ key, decode (Value.rawTree (.array [v, clash])) = .error (duplicateKey key) := by
  intro nan v t clash
  obtain ⟨hkey, hvalue⟩ := decode_rawTree
  have hv : v.HasScalarKeys := by
    apply Value.hasScalarKeys_object rfl
    have hinner : Value.HasScalarKeys (.object [(.boolean true, nan)]) :=
      Value.hasScalarKeys_object rfl (by simpa using .number _)
    simpa using ⟨.set (by simpa using hinner), .string "a", .null⟩
  have hclash : clash.HasScalarKeys := Value.hasScalarKeys_object rfl (by simpa using .null)
  have hitems : Value.HasScalarKeys (.array [v, clash]) := .array (by simpa using ⟨hv, hclash⟩)
  have hencode : encode v = .ok t := rfl
  have hcollision : encode (.array [v, clash]) = .error (.keyCollision "/1/1") := rfl
  refine ⟨⟨hkey nan rfl, hencode, by decide, ?_⟩, hcollision, ?_⟩
  · exact (hvalue v hv rfl).2.1 t hencode
  · exact (hvalue _ hitems rfl).2.2.1.mpr ⟨_, hcollision⟩

end Codec

end PolicyYaml
