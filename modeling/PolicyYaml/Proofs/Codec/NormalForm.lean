import PolicyYaml.Codec.Basic
import PolicyYaml.Proofs.Codec.Failure
import PolicyYaml.Proofs.Document.TreeEquality
import PolicyYaml.Proofs.Text.NameOrder
import PolicyYaml.Proofs.Value.OneNaN

namespace PolicyYaml

namespace Value

mutual

/-- Sets become arrays, and keys become their text forms, by which the entries are sorted. Every NaN becomes
the one NaN. -/
def normalForm : Value → Value
  | .null => .null
  | .boolean b => .boolean b
  | .number n => .number n.oneNaN
  | .string s => .string s
  | .array items => .array (normalItems items)
  | .object fields => Codec.TextFields.toObject (Text.sortNames (normalFields fields))
  | .set elements => .array (normalItems elements)
  | .undefined => .undefined

def normalItems : List Value → List Value
  | [] => []
  | v :: rest => v.normalForm :: normalItems rest

def normalFields : List (Value × Value) → List (String × Value)
  | [] => []
  | (k, v) :: rest => (Codec.keyText k, v.normalForm) :: normalFields rest

end

theorem normalItems_eq_map (items : List Value) : normalItems items = items.map normalForm := by
  induction items with
  | nil => rfl
  | cons v rest ih => rw [normalItems, ih, List.map_cons]

theorem normalFields_eq_map (fields : List (Value × Value)) :
    normalFields fields = fields.map fun f => (Codec.keyText f.1, f.2.normalForm) := by
  induction fields with
  | nil => rfl
  | cons f rest ih => rw [normalFields, ih, List.map_cons]

mutual

def memberCount : Value → Nat
  | .array items => itemCount items
  | .object fields => fieldCount fields
  | .set elements => itemCount elements
  | .null | .boolean _ | .number _ | .string _ | .undefined => 0

def itemCount : List Value → Nat
  | [] => 0
  | v :: rest => 1 + v.memberCount + itemCount rest

def fieldCount : List (Value × Value) → Nat
  | [] => 0
  | (_, v) :: rest => 1 + v.memberCount + fieldCount rest

end

end Value

namespace Codec

theorem decodeItems_encodeItems {items : List Value}
    (hv : ∀ v ∈ items, ∀ path t, encodeAt path v = .ok t → decode t = .ok v.normalForm) {path : Path} {index : Nat}
    {trees : List Tree} (h : encodeItems path index items = .ok trees) :
    decodeItems trees = .ok (Value.normalItems items) := by
  induction items generalizing index trees with
  | nil =>
    rw [encodeItems] at h
    cases h
    rfl
  | cons v rest ih =>
    rw [encodeItems_cons, bind_eq_ok_iff] at h
    obtain ⟨first, hfirst, h⟩ := h
    obtain ⟨others, hothers, rfl⟩ := map_eq_ok_iff.mp h
    rw [decodeItems_cons, hv v (by simp) _ _ hfirst, ih (fun w hw => hv w (List.mem_cons_of_mem _ hw)) hothers]
    rfl

theorem encodeFields_eq_ok {path : Path} {seen : List String} {fields : List (Value × Value)}
    {entries : List (Tree × Tree)} (h : encodeFields path seen fields = .ok entries) :
    (fields.map fun f => keyText f.1).Nodup ∧ ∀ key ∈ fields.map fun f => keyText f.1, key ∉ seen := by
  induction fields generalizing seen entries with
  | nil => simp
  | cons f rest ih =>
    obtain ⟨k, v⟩ := f
    rw [encodeFields_cons] at h
    split at h
    · contradiction
    split at h
    · contradiction
    · rename_i hseen
      obtain ⟨first, -, h⟩ := bind_eq_ok_iff.mp h
      obtain ⟨others, hothers, -⟩ := map_eq_ok_iff.mp h
      obtain ⟨hnodup, hfresh⟩ := ih hothers
      rw [List.map_cons, List.nodup_cons, List.forall_mem_cons]
      refine ⟨⟨fun hmem => hfresh _ hmem (by simp), hnodup⟩, ?_, ?_⟩
      · simpa using hseen
      · intro key hkey hmem
        exact hfresh key hkey (List.mem_cons_of_mem _ hmem)

theorem decodeEntries_encodeFields {fields : List (Value × Value)}
    (hv : ∀ f ∈ fields, ∀ path t, encodeAt path f.2 = .ok t → decode t = .ok f.2.normalForm) {path : Path}
    {seen : List String} {entries : List (Tree × Tree)} (h : encodeFields path seen fields = .ok entries)
    {kept : TextFields} (hkept : ∀ key ∈ kept.map Prod.fst, key ∈ seen) :
    decodeEntries kept entries =
      .ok ((Value.normalFields fields).foldl (fun kept f => Ascending.insert Text.compareNames f kept) kept) := by
  induction fields generalizing seen entries kept with
  | nil =>
    rw [encodeFields] at h
    cases h
    rfl
  | cons f rest ih =>
    obtain ⟨k, v⟩ := f
    rw [encodeFields_cons] at h
    split at h
    · contradiction
    split at h
    · contradiction
    · rename_i hseen
      obtain ⟨first, hfirst, h⟩ := bind_eq_ok_iff.mp h
      obtain ⟨others, hothers, rfl⟩ := map_eq_ok_iff.mp h
      have hfresh : keyText k ∉ kept.map Prod.fst := by
        intro hmem
        exact hseen (List.contains_iff_mem.mpr (hkept _ hmem))
      have hnext : ∀ key ∈ (kept.insert (keyText k) v.normalForm).map Prod.fst, key ∈ keyText k :: seen := by
        intro key hkey
        rcases (Text.mem_names_insert _ _ _).mp hkey with rfl | hkey
        · exact List.mem_cons_self
        · exact List.mem_cons_of_mem _ (hkept key hkey)
      rw [decodeEntries_cons_of_fresh rfl hfresh, hv (k, v) (by simp) _ _ hfirst]
      exact ih (fun g hg => hv g (List.mem_cons_of_mem _ hg)) hothers hnext

theorem decodeInteger_toInt (i : Int64) : decodeInteger i.toInt = .int i := by
  have hi : isInt64 i.toInt = true := (isInt64_iff _).mpr ⟨i.le_toInt, i.toInt_lt⟩
  rw [decodeInteger, if_pos hi, Int64.ofInt_toInt]

theorem decode_encodeNumber (n : Number) : decode (encodeNumber n) = .ok (.number n.oneNaN) := by
  cases n with
  | int i => rw [encodeNumber, decode, decodeInteger_toInt, Number.oneNaN]
  | float d => rw [encodeNumber, decode, Number.oneNaN]

theorem decode_encodeAt {v : Value} {path : Path} {t : Tree} (h : encodeAt path v = .ok t) :
    decode t = .ok v.normalForm := by
  induction v using Value.structuralInduction generalizing path t with
  | null | boolean | string =>
    rw [encodeAt] at h
    cases h
    rfl
  | number n =>
    rw [encodeAt] at h
    cases h
    exact decode_encodeNumber n
  | array items ih | set items ih =>
    rw [encodeAt] at h
    obtain ⟨trees, htrees, rfl⟩ := map_eq_ok_iff.mp h
    rw [decode, decodeItems_encodeItems (fun v hv path t => ih v hv) htrees]
    rfl
  | object fields ih =>
    rw [encodeAt] at h
    obtain ⟨entries, hentries, rfl⟩ := map_eq_ok_iff.mp h
    have hnodup : ((Value.normalFields fields).map Prod.fst).Nodup := by
      rw [Value.normalFields_eq_map, List.map_map]
      exact (encodeFields_eq_ok hentries).1
    have hkept : ∀ key ∈ List.map Prod.fst ([] : TextFields), key ∈ ([] : List String) := by simp
    rw [decode, decodeEntries_encodeFields (fun f hf path t => (ih f hf).2) hentries hkept, Value.normalForm,
      ← Text.ofList_eq_sortNames hnodup]
    rfl
  | undefined => contradiction

end Codec

end PolicyYaml
