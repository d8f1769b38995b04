import PolicyYaml.Proofs.Codec.Canonical
import PolicyYaml.Proofs.Value.Builders
import PolicyYaml.Proofs.Value.Plain
import PolicyYaml.Value.FromJson

namespace PolicyYaml

namespace JsonNumber

def integer? : JsonNumber → Option Int
  | .natural n => some n.toNat
  | .signed i => some i.toInt
  | .float _ => none

def toTree : JsonNumber → Tree
  | .natural n => .integer n.toNat
  | .signed i => .integer i.toInt
  | .float d => .float d

end JsonNumber

namespace Json

@[elab_as_elim]
theorem structuralInduction {P : Json → Prop} (null : P .null) (boolean : ∀ b, P (.boolean b))
    (number : ∀ n, P (.number n)) (text : ∀ s, P (.text s)) (array : ∀ items, (∀ j ∈ items, P j) → P (.array items))
    (object : ∀ members, (∀ m ∈ members, P m.2) → P (.object members)) (j : Json) : P j := by
  apply @Json.rec P (fun items => ∀ j ∈ items, P j) (fun members => ∀ m ∈ members, P m.2) (fun m => P m.2)
    null boolean number text array object
  · exact fun j hj => absurd hj List.not_mem_nil
  · intro j rest hj hrest
    exact List.forall_mem_cons.mpr ⟨hj, hrest⟩
  · exact fun m hm => absurd hm List.not_mem_nil
  · intro m rest hm hrest
    exact List.forall_mem_cons.mpr ⟨hm, hrest⟩
  · exact fun _ _ hj => hj

mutual

def toTree : Json → Tree
  | .null => .null
  | .boolean b => .boolean b
  | .number n => n.toTree
  | .text s => .string s
  | .array items => .sequence (itemTrees items)
  | .object members => .mapping (memberTrees members)

def itemTrees : List Json → List Tree
  | [] => []
  | j :: rest => j.toTree :: itemTrees rest

def memberTrees : List (String × Json) → List (Tree × Tree)
  | [] => []
  | (key, j) :: rest => (.string key, j.toTree) :: memberTrees rest

end

theorem itemTrees_eq_map (items : List Json) : itemTrees items = items.map toTree := by
  induction items with
  | nil => rfl
  | cons j rest ih => rw [itemTrees, ih, List.map_cons]

theorem memberTrees_eq_map (members : List (String × Json)) :
    memberTrees members = members.map fun m => (.string m.1, m.2.toTree) := by
  induction members with
  | nil => rfl
  | cons m rest ih => rw [memberTrees, ih, List.map_cons]

inductive HasDistinctKeys : Json → Prop
  | null : HasDistinctKeys .null
  | boolean (b : Bool) : HasDistinctKeys (.boolean b)
  | number (n : JsonNumber) : HasDistinctKeys (.number n)
  | text (s : String) : HasDistinctKeys (.text s)
  | array {items : List Json} : (∀ j ∈ items, HasDistinctKeys j) → HasDistinctKeys (.array items)
  | object {members : List (String × Json)} : (members.map Prod.fst).Nodup → (∀ m ∈ members, HasDistinctKeys m.2) →
    HasDistinctKeys (.object members)

end Json

namespace Value

theorem ofJsonItems_eq_map (items : List Json) : ofJsonItems items = items.map ofJson := by
  induction items with
  | nil => rfl
  | cons j rest ih => rw [ofJsonItems, ih, List.map_cons]

theorem ofJsonMembers_eq_map (members : List (String × Json)) :
    ofJsonMembers members = members.map fun m => (.string m.1, ofJson m.2) := by
  induction members with
  | nil => rfl
  | cons m rest ih => rw [ofJsonMembers, ih, List.map_cons]

theorem ofJson_object (members : List (String × Json)) :
    ofJson (.object members) =
      Codec.TextFields.toObject (Ascending.ofList Text.compareNames (members.map fun m => (m.1, ofJson m.2))) := by
  rw [ofJson, ofJsonMembers_eq_map, ← ofFields_string, List.map_map]
  rfl

theorem wellFormed_ofJson (j : Json) : (ofJson j).WellFormed := by
  induction j using Json.structuralInduction with
  | null => exact .null
  | boolean b => exact .boolean b
  | number n => exact .number _
  | text s => exact .string s
  | array items ih =>
    rw [ofJson, ofJsonItems_eq_map]
    exact .array (List.forall_mem_map.mpr ih)
  | object members ih =>
    rw [ofJson, ofJsonMembers_eq_map]
    apply wellFormed_ofFields
    rw [List.forall_mem_map]
    exact fun m hm => ⟨.string m.1, ih m hm⟩

theorem isPlain_ofJson (j : Json) : (ofJson j).IsPlain := by
  induction j using Json.structuralInduction with
  | null => exact .null
  | boolean b => exact .boolean b
  | number n => exact .number _
  | text s => exact .string s
  | array items ih =>
    rw [ofJson, ofJsonItems_eq_map]
    exact .array (List.forall_mem_map.mpr ih)
  | object members ih =>
    rw [ofJson_object, Codec.TextFields.toObject]
    refine .object ?_ ?_
    · rw [List.forall_mem_map]
      exact fun f _ => ⟨f.1, rfl⟩
    · rw [List.forall_mem_map]
      intro f hf
      obtain ⟨m, hm, rfl⟩ := List.mem_map.mp (Ascending.mem_of_mem_ofList hf)
      exact ih m hm

end Value

namespace Codec

theorem decodeInteger_eq_int_iff (i : Int) (n : Int64) : decodeInteger i = .int n ↔ i = n.toInt := by
  constructor
  · intro h
    rw [decodeInteger] at h
    split at h
    · rename_i hi
      have hrange := (isInt64_iff i).mp hi
      cases h
      exact (Int64.toInt_ofInt_of_le hrange.1 hrange.2).symm
    · contradiction
  · rintro rfl
    exact decodeInteger_toInt n

theorem decodeInteger_eq_float_iff (i : Int) (d : Double) :
    decodeInteger i = .float d ↔ isInt64 i = false ∧ d = Double.ofInt i := by
  rw [decodeInteger]
  cases isInt64 i <;> simp [eq_comm]

end Codec

namespace JsonNumber

theorem ofJson_of_integer? {n : JsonNumber} {i : Int} (h : n.integer? = some i) :
    Number.ofJson n = Codec.decodeInteger i := by
  cases n with
  | natural n =>
    cases h
    rfl
  | signed n =>
    cases h
    exact (Codec.decodeInteger_toInt n).symm
  | float d => contradiction

theorem decode_toTree (n : JsonNumber) : Codec.decode n.toTree = .ok (.number (Number.ofJson n)) := by
  cases n with
  | natural n | signed n => rw [toTree, Codec.decode, ofJson_of_integer? rfl]
  | float d => rw [toTree, Codec.decode, Number.ofJson]

theorem ofJson_eq_int_iff (n : JsonNumber) (i : Int64) : Number.ofJson n = .int i ↔ n.integer? = some i.toInt := by
  cases hn : n.integer? with
  | some k => rw [ofJson_of_integer? hn, Codec.decodeInteger_eq_int_iff, Option.some.injEq]
  | none =>
    cases n with
    | natural | signed => contradiction
    | float d => simp [Number.ofJson]

theorem ofJson_eq_float_iff (n : JsonNumber) (d : Double) :
    Number.ofJson n = .float d ↔
      n = .float d ∨ ∃ i, n.integer? = some i ∧ isInt64 i = false ∧ d = Double.ofInt i := by
  cases n with
  | natural | signed =>
    rw [ofJson_of_integer? rfl, Codec.decodeInteger_eq_float_iff]
    simp [integer?]
  | float e => simp [Number.ofJson, integer?]

end JsonNumber

namespace Codec

theorem decodeItems_map {α : Type} {tree : α → Tree} {value : α → Value} {members : List α}
    (h : ∀ a ∈ members, decode (tree a) = .ok (value a)) :
    decodeItems (members.map tree) = .ok (members.map value) := by
  induction members with
  | nil => rw [List.map_nil, decodeItems, List.map_nil]
  | cons a rest ih =>
    rw [List.map_cons, decodeItems_cons, h a List.mem_cons_self, ih fun b hb => h b (List.mem_cons_of_mem _ hb)]
    rfl

theorem decodeEntries_map {α : Type} {tree : α → Tree} {value : α → Value} {members : List (String × α)}
    (h : ∀ m ∈ members, decode (tree m.2) = .ok (value m.2)) (hnodup : (members.map Prod.fst).Nodup)
    {kept : TextFields} (hfresh : ∀ key ∈ members.map Prod.fst, key ∉ kept.map Prod.fst) :
    decodeEntries kept (members.map fun m => (.string m.1, tree m.2)) =
      .ok ((members.map fun m => (m.1, value m.2)).foldl
        (fun kept f => Ascending.insert Text.compareNames f kept) kept) := by
  induction members generalizing kept with
  | nil => rw [List.map_nil, decodeEntries, List.map_nil, List.foldl_nil]
  | cons m rest ih =>
    obtain ⟨key, a⟩ := m
    rw [List.map_cons, List.nodup_cons] at hnodup
    rw [List.map_cons, List.forall_mem_cons] at hfresh
    -- The keys of the members left are also new beside the key of this one.
    have hnext : ∀ name ∈ rest.map Prod.fst, name ∉ (kept.insert key (value a)).map Prod.fst := by
      intro name hname hmem
      rcases (Text.mem_names_insert _ _ _).mp hmem with rfl | hmem
      · exact hnodup.1 hname
      · exact hfresh.2 name hname hmem
    rw [List.map_cons, decodeEntries_cons_of_fresh rfl hfresh.1, h _ List.mem_cons_self]
    exact ih (fun m hm => h m (List.mem_cons_of_mem _ hm)) hnodup.2 hnext

end Codec

namespace Json

theorem decode_toTree {j : Json} (h : j.HasDistinctKeys) : Codec.decode j.toTree = .ok (Value.ofJson j) := by
  induction j using structuralInduction with
  | null | boolean | text => rfl
  | number n => exact n.decode_toTree
  | array items ih =>
    cases h with
    | array hitems =>
      have hdecode := Codec.decodeItems_map fun j hj => ih j hj (hitems j hj)
      rw [toTree, itemTrees_eq_map, Codec.decode, hdecode, Value.ofJson, Value.ofJsonItems_eq_map]
      rfl
  | object members ih =>
    cases h with
    | object hnodup hmembers =>
      have hfresh : ∀ key ∈ members.map Prod.fst, key ∉ List.map Prod.fst ([] : Codec.TextFields) := by simp
      have hdecode := Codec.decodeEntries_map (fun m hm => ih m hm (hmembers m hm)) hnodup hfresh
      rw [toTree, memberTrees_eq_map, Codec.decode, hdecode, Value.ofJson_object]
      rfl

theorem hasDistinctKeys_of_holds {j : Json} (h : ∀ m, j.toTree.Holds m → Codec.HasDistinctTexts m) :
    j.HasDistinctKeys := by
  induction j using structuralInduction with
  | null => exact .null
  | boolean b => exact .boolean b
  | number n => exact .number n
  | text s => exact .text s
  | array items ih =>
    rw [toTree, itemTrees_eq_map] at h
    refine .array fun j hj => ih j hj fun m hm => h m ?_
    exact .item (List.mem_map_of_mem hj) hm
  | object members ih =>
    rw [toTree, memberTrees_eq_map] at h
    refine .object ?_ fun m hm => ih m hm fun entries hentries => h entries ?_
    · have hnodup := (h _ (.here _)).2
      rw [List.map_map] at hnodup
      exact List.Nodup.of_map some (by rwa [List.map_map])
    · exact .value (List.mem_map_of_mem hm) hentries

theorem hasDistinctKeys_of_decode {j : Json} {v : Value} (h : Codec.decode j.toTree = .ok v) :
    j.HasDistinctKeys := by
  have hnone : Codec.failure? (Codec.decode j.toTree) = none := Codec.failure?_eq_none_iff.mpr ⟨v, h⟩
  rw [Codec.failure?_decode, List.head?_eq_none_iff, Codec.keyOffences_eq_nil_iff] at hnone
  exact hasDistinctKeys_of_holds hnone

theorem hasDistinctKeys_ofMembers {members : List (String × Json)} (h : ∀ m ∈ members, m.2.HasDistinctKeys) :
    (ofMembers members).HasDistinctKeys := by
  refine .object ?_ fun m hm => h m (Ascending.mem_of_mem_ofList hm)
  exact Text.nodup_of_isAscending (Ascending.isAscending_ofList members)

theorem conversions_agree :
    (∀ j : Json, j.HasDistinctKeys →
      Codec.decode j.toTree = .ok (Value.ofJson j) ∧
      Codec.encode (Value.ofJson j) = .ok j.toTree.canonical ∧
      Codec.marshal (Value.ofJson j) = .ok j.toTree.canonical.text) ∧
    (∀ j : Json, (∃ v, Codec.decode j.toTree = .ok v) ↔ j.HasDistinctKeys) ∧
    ∀ n : JsonNumber, Codec.decode n.toTree = .ok (.number (Number.ofJson n)) ∧
      (∀ i, Number.ofJson n = .int i ↔ n.integer? = some i.toInt) ∧
      ∀ d, Number.ofJson n = .float d ↔
        n = .float d ∨ ∃ i, n.integer? = some i ∧ isInt64 i = false ∧ d = Double.ofInt i := by
  refine ⟨?_, ?_, fun n => ⟨n.decode_toTree, n.ofJson_eq_int_iff, n.ofJson_eq_float_iff⟩⟩
  · intro j h
    have hdecode := decode_toTree h
    have hencode : Codec.encode (Value.ofJson j) = .ok j.toTree.canonical := Codec.encodeAt_decode hdecode []
    refine ⟨hdecode, hencode, ?_⟩
    rw [Codec.marshal, hencode]
    rfl
  · intro j
    constructor
    · rintro ⟨v, h⟩
      exact hasDistinctKeys_of_decode h
    · exact fun h => ⟨_, decode_toTree h⟩

theorem conversions_agree_on_huge_and_nested :
    let numbers := [.natural 18446744073709551615, .natural 9223372036854775807, .signed (-1), .float ⟨false, 1023, 0⟩]
    let j := ofMembers [("n", .array (numbers.map .number)), ("a", ofMembers [("b", .null), ("", .text "x")])]
    let v := Value.object [(.string "a", .object [(.string "", .string "x"), (.string "b", .null)]),
      (.string "n", .array [.number (.float ⟨false, 1087, 0⟩), .number (.int 9223372036854775807),
        .number (.int (-1)), .number (.float ⟨false, 1023, 0⟩)])]
    let text := "a:\n  '': x\n  b: null\nn:\n- 1.8446744073709552e19\n- 9223372036854775807\n- -1\n- 1.0\n"
    j.HasDistinctKeys ∧ Value.ofJson j = v ∧ Codec.decode j.toTree = .ok v ∧ Codec.marshal v = .ok text := by
  intro numbers j v text
  have hnumbers : (array (numbers.map number)).HasDistinctKeys := by
    apply HasDistinctKeys.array
    rw [List.forall_mem_map]
    exact fun n _ => .number n
  have hinner : (ofMembers [("b", .null), ("", .text "x")]).HasDistinctKeys :=
    hasDistinctKeys_ofMembers (by simpa using ⟨.null, .text "x"⟩)
  have hj : j.HasDistinctKeys := hasDistinctKeys_ofMembers (by simpa using ⟨hnumbers, hinner⟩)
  have hv : Value.ofJson j = v := rfl
  obtain ⟨hdecode, hencode, hmarshal⟩ := conversions_agree.1 j hj
  rw [hv] at hdecode hencode hmarshal
  have htext : (Codec.encode v).map Tree.text = .ok text := by decide +kernel
  rw [hencode] at htext
  exact ⟨hj, hv, hdecode, hmarshal.trans htext⟩

end Json

end PolicyYaml
