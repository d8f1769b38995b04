import PolicyYaml.Proofs.Codec.KeyOffence
import PolicyYaml.Proofs.Codec.NormalForm
import PolicyYaml.Proofs.Codec.ReadEntry
import PolicyYaml.Proofs.Document.ReadNaN

/-!
What is left of a tree after it was read and written back: its canonical tree. Doing that once more changes
nothing.
-/

namespace PolicyYaml

namespace Tree

mutual

/-- Without tags, with texts for keys, by which the entries are sorted, and with floats for the integers outside
of 64 bits. Every NaN becomes the one NaN. -/
def canonical : Tree → Tree
  | .null => .null
  | .boolean b => .boolean b
  | .integer i => if isInt64 i then .integer i else .float (Double.ofInt i)
  | .float d => .float d.oneNaN
  | .string s => .string s
  | .sequence items => .sequence (canonicalItems items)
  | .mapping entries => .mapping ((Text.sortNames (canonicalEntries entries)).map fun e => (.string e.1, e.2))
  | .tagged _ content => content.canonical

def canonicalItems : List Tree → List Tree
  | [] => []
  | t :: rest => t.canonical :: canonicalItems rest

def canonicalEntries : List (Tree × Tree) → List (String × Tree)
  | [] => []
  | (k, v) :: rest => (k.scalarText?.getD "", v.canonical) :: canonicalEntries rest

end

theorem canonicalItems_eq_map (items : List Tree) : canonicalItems items = items.map canonical := by
  induction items with
  | nil => rfl
  | cons t rest ih => rw [canonicalItems, ih, List.map_cons]

theorem canonicalEntries_eq_map (entries : List (Tree × Tree)) :
    canonicalEntries entries = entries.map fun e => (e.1.scalarText?.getD "", e.2.canonical) := by
  induction entries with
  | nil => rfl
  | cons e rest ih => rw [canonicalEntries, ih, List.map_cons]

theorem canonical_canonical (y : Tree) : y.canonical.canonical = y.canonical := by
  induction y using structuralInduction with
  | null | boolean | string => rfl
  | integer i =>
    by_cases hi : isInt64 i = true
    · rw [canonical, if_pos hi, canonical, if_pos hi]
    · rw [canonical, if_neg hi, canonical, Double.oneNaN_ofInt]
  | float d => rw [canonical, canonical, Double.oneNaN_oneNaN]
  | sequence items ih =>
    rw [canonical, canonical, canonicalItems_eq_map, canonicalItems_eq_map, List.map_map]
    congr 1
    exact List.map_congr_left ih
  | mapping entries ih =>
    have hmembers : (canonicalEntries entries).map (fun e => (e.1, e.2.canonical)) = canonicalEntries entries := by
      rw [canonicalEntries_eq_map, List.map_map]
      apply List.map_congr_left
      intro e he
      rw [Function.comp_apply, (ih e he).2]
    have hentries : canonicalEntries ((Text.sortNames (canonicalEntries entries)).map fun e => (.string e.1, e.2)) =
        Text.sortNames (canonicalEntries entries) := by
      rw [canonicalEntries_eq_map, List.map_map]
      exact (Text.map_sortNames canonical _).trans (congrArg Text.sortNames hmembers)
    rw [canonical, canonical, hentries, Text.sortNames_sortNames]
  | tagged tag content ih => exact ih

end Tree

namespace Codec

theorem canonicalEntries_source (es : List ReadEntry) :
    Tree.canonicalEntries (es.map ReadEntry.source) = es.map fun e => (e.text, e.tree.canonical) := by
  rw [Tree.canonicalEntries_eq_map, List.map_map]
  apply List.map_congr_left
  intro e _
  rw [Function.comp_apply, ReadEntry.source, (treeKey_eq_ok_iff e.key e.text).mp e.treeKey_key]
  rfl

theorem encodeItems_map {members : List (Tree × Value)}
    (hm : ∀ m ∈ members, ∀ path, encodeAt path m.2 = .ok m.1.canonical) (path : Path) (index : Nat) :
    encodeItems path index (members.map Prod.snd) = .ok (members.map fun m => m.1.canonical) := by
  induction members generalizing index with
  | nil =>
    rw [List.map_nil, encodeItems]
    rfl
  | cons m rest ih =>
    rw [List.map_cons, encodeItems_cons, hm m (by simp), ih fun n hn => hm n (List.mem_cons_of_mem _ hn)]
    rfl

theorem encodeFields_map {α : Type} (value : α → Value) (tree : α → Tree) {members : List (String × α)}
    (hv : ∀ a ∈ members, ∀ path, encodeAt path (value a.2) = .ok (tree a.2)) {seen : List String}
    (hnodup : (members.map Prod.fst).Nodup) (hseen : ∀ a ∈ members, a.1 ∉ seen) (path : Path) :
    encodeFields path seen (members.map fun a => (.string a.1, value a.2)) =
      .ok (members.map fun a => (.string a.1, tree a.2)) := by
  induction members generalizing seen with
  | nil => rw [List.map_nil, encodeFields]; rfl
  | cons a rest ih =>
    rw [List.map_cons, List.nodup_cons] at hnodup
    have hfresh : seen.contains a.1 = false := by simpa using hseen a (by simp)
    have hrest : ∀ b ∈ rest, b.1 ∉ a.1 :: seen := by
      intro b hb hmem
      rcases List.mem_cons.mp hmem with heq | hmem
      · exact hnodup.1 (heq ▸ List.mem_map_of_mem hb)
      · exact hseen b (List.mem_cons_of_mem _ hb) hmem
    rw [List.map_cons, encodeFields_cons, isUnwritableKey, keyText, hfresh, hv a (by simp),
      ih (fun b hb => hv b (List.mem_cons_of_mem _ hb)) hnodup.2 hrest]
    rfl

theorem canonical_sortEntries (es : List ReadEntry) :
    (Tree.mapping (es.map ReadEntry.source)).canonical =
      .mapping ((sortEntries es).map fun a => (.string a.1, a.2.tree.canonical)) := by
  rw [Tree.canonical, canonicalEntries_source, ← map_sortEntries fun e => e.tree.canonical, List.map_map]
  rfl

theorem encodeNumber_decodeInteger (i : Int) :
    encodeNumber (decodeInteger i) = (Tree.integer i).canonical := by
  rw [decodeInteger, Tree.canonical]
  by_cases hi : isInt64 i = true
  · have hrange := (isInt64_iff i).mp hi
    rw [if_pos hi, if_pos hi, encodeNumber, Int64.toInt_ofInt_of_le hrange.1 hrange.2]
  · rw [if_neg hi, if_neg hi, encodeNumber, Double.oneNaN_ofInt]

theorem encodeAt_decode {y : Tree} {v : Value} (h : decode y = .ok v) (path : Path) :
    encodeAt path v = .ok y.canonical := by
  replace h := decodes_of_decode h
  induction h generalizing path with
  | null | boolean | string | float => rfl
  | integer i => rw [encodeAt, encodeNumber_decodeInteger]
  | sequence _ ih =>
    rw [encodeAt, encodeItems_map ih, Tree.canonical, Tree.canonicalItems_eq_map, List.map_map]
    rfl
  | mapping hnodup _ ih =>
    rw [canonical_sortEntries, encodeAt,
      encodeFields_map ReadEntry.value (fun e => e.tree.canonical) (forall_mem_sortEntries ih)
        (nodup_sortEntries hnodup) (by simp)]
    rfl
  | tagged _ _ ih => exact ih path

theorem normalForm_sortEntries (es : List ReadEntry) :
    (Value.object ((sortEntries es).map fun a => (.string a.1, a.2.value))).normalForm =
      .object ((sortEntries es).map fun a => (.string a.1, a.2.value.normalForm)) := by
  have hsorted : Value.normalFields ((sortEntries es).map fun a => (.string a.1, a.2.value)) =
      Text.sortNames (es.map fun e => (e.text, e.value.normalForm)) := by
    rw [← map_sortEntries fun e => e.value.normalForm, Value.normalFields_eq_map, List.map_map]
    rfl
  rw [Value.normalForm, hsorted, Text.sortNames_sortNames, ← map_sortEntries fun e => e.value.normalForm,
    TextFields.toObject, List.map_map]
  rfl

theorem normalForm_decode {y : Tree} {v : Value} (h : decode y = .ok v) : v.normalForm = v.oneNaN := by
  replace h := decodes_of_decode h
  induction h with
  | null | boolean | string | float | integer => rfl
  | sequence _ ih =>
    rw [Value.normalForm, Value.normalItems_eq_map, Value.oneNaN, Value.oneNaNItems_eq_map, Value.array.injEq]
    exact List.map_congr_left (List.forall_mem_map.mpr ih)
  | mapping _ _ ih =>
    rw [normalForm_sortEntries, Value.oneNaN, Value.oneNaNFields_eq_map, List.map_map, Value.object.injEq]
    apply List.map_congr_left
    intro a ha
    rw [forall_mem_sortEntries ih a ha]
    rfl
  | tagged _ _ ih => exact ih

theorem oneNaN_decode {y : Tree} {v : Value} (h : decode y = .ok v) (hy : y.HasOneNaN) : v.oneNaN = v := by
  replace h := decodes_of_decode h
  induction h with
  | null | boolean | string => rfl
  | float d =>
    cases hy with
    | float hd => rw [Value.oneNaN, Number.oneNaN, hd]
  | integer i =>
    rw [Value.oneNaN, decodeInteger]
    split
    · rfl
    · rw [Number.oneNaN, Double.oneNaN_ofInt]
  | sequence _ ih =>
    cases hy with
    | sequence hitems =>
      rw [List.forall_mem_map] at hitems
      rw [Value.oneNaN, Value.oneNaNItems_eq_map, Value.array.injEq, List.map_map]
      exact List.map_congr_left fun m hm => ih m hm (hitems m hm)
  | mapping _ _ ih =>
    cases hy with
    | mapping hentries =>
      rw [List.forall_mem_map] at hentries
      rw [Value.oneNaN, Value.oneNaNFields_eq_map, List.map_map, Value.object.injEq]
      apply List.map_congr_left
      intro a ha
      rw [Function.comp_apply, forall_mem_sortEntries (fun e he => ih e he (hentries e he)) a ha, Value.oneNaN]
  | tagged _ _ ih =>
    cases hy with
    | tagged hcontent => exact ih hcontent

theorem decode_canonical_eq {y : Tree} {v : Value} (h : decode y = .ok v) : decode y.canonical = .ok v.oneNaN := by
  rw [← normalForm_decode h]
  exact decode_encodeAt (encodeAt_decode h [])

theorem exists_decode_of_unmarshal {text : String} {v : Value} (h : unmarshal text = .ok v) :
    ∃ y, decode y = .ok v ∧ y.HasOneNaN := by
  obtain ⟨y, hy, rfl | hread⟩ := exists_tree_of_unmarshal h
  · exact ⟨.null, hy, .null⟩
  · exact ⟨y, hy, Tree.hasOneNaN_of_read? hread⟩

theorem decode_canonical :
    (∀ y, ((∃ v, decode y = .ok v) ↔ ∀ m, y.Holds m → HasDistinctTexts m) ∧
      (∀ e, decode y = .error e ↔ (keyOffences y).head? = some e) ∧
      (∀ e, e ∈ keyOffences y ↔ IsKeyOffence y e) ∧
      (∀ v, decode y = .ok v → encode v = .ok y.canonical ∧ decode y.canonical = .ok v.oneNaN) ∧
      y.canonical.canonical = y.canonical) ∧
    ∀ text v, unmarshal text = .ok v → ∃ text', marshal v = .ok text' ∧
      ∀ doc, encode v = .ok doc → isBlank text' = false → Tree.read? text'.toList = some doc →
        unmarshal text' = .ok v ∧ unmarshal text' >>= marshal = .ok text' := by
  refine ⟨fun y => ⟨?_, ?_, mem_keyOffences_iff y, ?_, y.canonical_canonical⟩, ?_⟩
  · rw [← failure?_eq_none_iff, failure?_decode, List.head?_eq_none_iff, keyOffences_eq_nil_iff]
  · intro e
    rw [← failure?_eq_some_iff, failure?_decode]
  · intro v h
    exact ⟨encodeAt_decode h [], decode_canonical_eq h⟩
  · intro text v h
    obtain ⟨y, hy, hnan⟩ := exists_decode_of_unmarshal h
    have hmarshal : marshal v = .ok y.canonical.text := by
      rw [marshal, encode, encodeAt_decode hy]
      rfl
    refine ⟨_, hmarshal, ?_⟩
    intro doc hdoc hblank hread
    rw [encode, encodeAt_decode hy] at hdoc
    cases hdoc
    have hback : unmarshal y.canonical.text = .ok v := by
      rw [unmarshal, hblank, readTree, hread, ← oneNaN_decode hy hnan]
      exact decode_canonical_eq hy
    refine ⟨hback, ?_⟩
    rw [hback]
    exact hmarshal

theorem decode_canonical_tagged_and_huge :
    let text := "b: .nan\n!t 1: 18446744073709551615\na: !u [x]\n"
    let text' := "'1': 1.8446744073709552e19\na:\n- x\nb: .nan\n"
    let y := Tree.mapping [(.string "b", .float .nan), (.tagged "t" (.integer 1), .integer 18446744073709551615),
      (.string "a", .tagged "u" (.sequence [.string "x"]))]
    let v := Value.object [(.string "1", .number (.float ⟨false, 1087, 0⟩)), (.string "a", .array [.string "x"]),
      (.string "b", .number (.float .nan))]
    let doc := Tree.mapping [(.string "1", .float ⟨false, 1087, 0⟩), (.string "a", .sequence [.string "x"]),
      (.string "b", .float .nan)]
    decode y = .ok v ∧ y.canonical = doc ∧ unmarshal text = .ok v ∧ marshal v = .ok text' ∧
      unmarshal text' = .ok v ∧ decode (.sequence [y, .mapping [(.sequence [], .null)]]) = .error sequenceKey := by
  intro text text' y v doc
  have hdecode : decode y = .ok v := rfl
  have hencode : encode v = .ok doc := rfl
  have hread : Tree.read? text.toList = some y := by decide +kernel
  have hblank : isBlank text = false := by decide +kernel
  have hunmarshal : unmarshal text = .ok v := by
    rw [unmarshal, hblank, readTree, hread]
    exact hdecode
  have htext : doc.text = text' := by decide +kernel
  have hmarshal : marshal v = .ok text' := by
    rw [marshal, hencode, ← htext]
    rfl
  have hblank' : isBlank text' = false := by decide +kernel
  have hread' : Tree.read? text'.toList = some doc := by decide +kernel
  refine ⟨hdecode, ?_, hunmarshal, hmarshal, ?_, ?_⟩
  · have hcanonical := ((decode_canonical.1 y).2.2.2.1 v hdecode).1
    rw [hencode] at hcanonical
    exact (Except.ok.inj hcanonical).symm
  · obtain ⟨text'', htext'', hback⟩ := decode_canonical.2 text v hunmarshal
    rw [hmarshal] at htext''
    cases htext''
    exact (hback doc hencode hblank' hread').1
  · exact ((decode_canonical.1 _).2.1 _).mpr rfl

end Codec

end PolicyYaml
