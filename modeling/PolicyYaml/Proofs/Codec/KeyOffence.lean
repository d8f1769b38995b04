import PolicyYaml.Proofs.Codec.KeyWalk
import PolicyYaml.Proofs.Text.NameOrder

namespace PolicyYaml.Codec

theorem treeKey_eq_ok_iff (k : Tree) (text : String) : treeKey k = .ok text ↔ k.scalarText? = some text := by
  induction k using Tree.structuralInduction with
  | tagged tag content ih => exact ih
  | sequence | mapping => simp [treeKey, Tree.scalarText?, Tree.untagged]
  | null | boolean | integer | float | string => simp [treeKey, Tree.scalarText?, Tree.untagged]

def offenceOfKind (k : Tree) : List CodecError :=
  match k.untagged with
  | .sequence _ => [sequenceKey]
  | .mapping _ => [mappingKey]
  | .null | .boolean _ | .integer _ | .float _ | .string _ | .tagged _ _ => []

theorem offenceOfKind_eq (k : Tree) : offenceOfKind k = (failure? (treeKey k)).toList := by
  induction k using Tree.structuralInduction with
  | tagged tag content ih => exact ih
  | null | boolean | integer | float | string | sequence | mapping => rfl

theorem mem_offenceOfKind_iff (k : Tree) (e : CodecError) :
    e ∈ offenceOfKind k ↔
      (∃ items, k.untagged = .sequence items ∧ e = sequenceKey) ∨
        ∃ entries, k.untagged = .mapping entries ∧ e = mappingKey := by
  rw [offenceOfKind]
  cases k.untagged <;> simp

def offencesOfKey (earlier : List Tree) (k : Tree) : List CodecError :=
  offenceOfKind k ++
    match k.scalarText? with
    | some text => if (earlier.map Tree.scalarText?).contains (some text) then [duplicateKey text] else []
    | none => []

def keyOffences (y : Tree) : List CodecError := (keyStops y).flatMap fun stop => offencesOfKey stop.1 stop.2

theorem offencesOfKey_of_error {k : Tree} {e : CodecError} (h : treeKey k = .error e) (earlier : List Tree) :
    offencesOfKey earlier k = [e] := by
  have hnone : k.scalarText? = none := by
    rw [Option.eq_none_iff_forall_ne_some]
    intro text htext
    rw [(treeKey_eq_ok_iff k text).mpr htext] at h
    contradiction
  rw [offencesOfKey, offenceOfKind_eq, h, hnone]
  rfl

theorem offencesOfKey_of_ok {k : Tree} {text : String} (h : treeKey k = .ok text) (earlier : List Tree) :
    offencesOfKey earlier k =
      if (earlier.map Tree.scalarText?).contains (some text) then [duplicateKey text] else [] := by
  rw [offencesOfKey, offenceOfKind_eq, h, (treeKey_eq_ok_iff k text).mp h]
  rfl

theorem failure?_decodeItems {items : List Tree}
    (ht : ∀ t ∈ items, failure? (decode t) = (keyOffences t).head?) :
    failure? (decodeItems items) =
      ((itemStops items).flatMap fun stop => offencesOfKey stop.1 stop.2).head? := by
  induction items with
  | nil => rw [decodeItems, itemStops]; rfl
  | cons t rest ih =>
    rw [decodeItems_cons, itemStops, List.flatMap_append]
    apply failure?_bind (ht t (by simp))
    intro first _
    rw [failure?_map]
    exact ih fun u hu => ht u (List.mem_cons_of_mem _ hu)

theorem failure?_decodeEntries {entries : List (Tree × Tree)}
    (ht : ∀ e ∈ entries, failure? (decode e.2) = (keyOffences e.2).head?) {fields : TextFields}
    {earlier : List Tree}
    (hkept : ∀ text, text ∈ fields.map Prod.fst ↔ some text ∈ earlier.map Tree.scalarText?) :
    failure? (decodeEntries fields entries) =
      ((entryStops earlier entries).flatMap fun stop => offencesOfKey stop.1 stop.2).head? := by
  induction entries generalizing fields earlier with
  | nil => rw [decodeEntries, entryStops]; rfl
  | cons e rest ih =>
    obtain ⟨k, v⟩ := e
    rw [decodeEntries_cons, entryStops, List.flatMap_cons]
    cases hk : treeKey k with
    | error e =>
      rw [offencesOfKey_of_error hk]
      rfl
    | ok text =>
      have hclash : fields.contains text = (earlier.map Tree.scalarText?).contains (some text) := by
        rw [Bool.eq_iff_iff, contains_eq_true_iff, List.contains_iff_mem, hkept]
      rw [offencesOfKey_of_ok hk, ← hclash]
      simp only [bind, Except.bind]
      cases fields.contains text with
      | true => rfl
      | false =>
        simp only [Bool.false_eq_true, ↓reduceIte, List.nil_append, List.flatMap_append]
        apply failure?_bind (ht (k, v) (by simp))
        intro value _
        apply ih fun f hf => ht f (List.mem_cons_of_mem _ hf)
        intro text'
        rw [TextFields.insert, Text.mem_names_insert, hkept, List.map_append, List.mem_append, List.map_singleton,
          List.mem_singleton, (treeKey_eq_ok_iff k text).mp hk, Option.some.injEq, or_comm]

theorem failure?_decode (y : Tree) : failure? (decode y) = (keyOffences y).head? := by
  induction y using Tree.structuralInduction with
  | sequence items ih =>
    rw [decode, failure?_map, keyOffences, keyStops]
    exact failure?_decodeItems ih
  | mapping entries ih =>
    rw [decode, failure?_map, keyOffences, keyStops]
    exact failure?_decodeEntries (fun e he => (ih e he).2) (by simp)
  | tagged tag content ih =>
    rw [decode, keyOffences, keyStops]
    exact ih
  | null | boolean | integer | float | string =>
    rw [decode, keyOffences, keyStops]
    rfl

inductive IsKeyOffence (y : Tree) : CodecError → Prop
  | sequence {m : List (Tree × Tree)} {e : Tree × Tree} {items : List Tree} :
    y.Holds m → e ∈ m → e.1.untagged = .sequence items → IsKeyOffence y sequenceKey
  | mapping {m : List (Tree × Tree)} {e : Tree × Tree} {entries : List (Tree × Tree)} :
    y.Holds m → e ∈ m → e.1.untagged = .mapping entries → IsKeyOffence y mappingKey
  | duplicate {before after : List (Tree × Tree)} {e f : Tree × Tree} {text : String} :
    y.Holds (before ++ f :: after) → e ∈ before → e.1.scalarText? = some text → f.1.scalarText? = some text →
      IsKeyOffence y (duplicateKey text)

theorem mem_offencesOfKey_iff (earlier : List Tree) (k : Tree) (e : CodecError) :
    e ∈ offencesOfKey earlier k ↔
      e ∈ offenceOfKind k ∨
        ∃ text, k.scalarText? = some text ∧ some text ∈ earlier.map Tree.scalarText? ∧ e = duplicateKey text := by
  rw [offencesOfKey, List.mem_append]
  apply or_congr_right
  cases k.scalarText? with
  | none => simp
  | some text => simp

theorem mem_keyOffences_iff (y : Tree) (e : CodecError) : e ∈ keyOffences y ↔ IsKeyOffence y e := by
  rw [keyOffences, List.mem_flatMap]
  constructor
  · rintro ⟨⟨earlier, k⟩, hstop, he⟩
    obtain ⟨before, v, after, hm, rfl⟩ := (mem_keyStops_iff y earlier k).mp hstop
    rcases (mem_offencesOfKey_iff _ k e).mp he with he | ⟨text, htext, hclash, rfl⟩
    · rcases (mem_offenceOfKind_iff k e).mp he with ⟨items, hk, rfl⟩ | ⟨entries, hk, rfl⟩
      · exact .sequence (e := (k, v)) hm (by simp) hk
      · exact .mapping (e := (k, v)) hm (by simp) hk
    · rw [List.map_map, List.mem_map] at hclash
      obtain ⟨f, hf, hftext⟩ := hclash
      exact .duplicate hm hf hftext htext
  · have hmem {before after : List (Tree × Tree)} {f : Tree × Tree} (hm : y.Holds (before ++ f :: after))
        (he : e ∈ offencesOfKey (before.map Prod.fst) f.1) :
        ∃ stop ∈ keyStops y, e ∈ offencesOfKey stop.1 stop.2 :=
      ⟨_, (mem_keyStops_iff y _ _).mpr ⟨before, f.2, after, hm, rfl⟩, he⟩
    intro h
    cases h with
    | sequence hm he hk =>
      obtain ⟨before, after, rfl⟩ := List.append_of_mem he
      exact hmem hm ((mem_offencesOfKey_iff _ _ _).mpr
        (.inl ((mem_offenceOfKind_iff _ _).mpr (.inl ⟨_, hk, rfl⟩))))
    | mapping hm he hk =>
      obtain ⟨before, after, rfl⟩ := List.append_of_mem he
      exact hmem hm ((mem_offencesOfKey_iff _ _ _).mpr
        (.inl ((mem_offenceOfKind_iff _ _).mpr (.inr ⟨_, hk, rfl⟩))))
    | duplicate hm he htext hftext =>
      refine hmem hm ((mem_offencesOfKey_iff _ _ _).mpr (.inr ⟨_, hftext, ?_, rfl⟩))
      rw [List.map_map, List.mem_map]
      exact ⟨_, he, htext⟩

theorem isSome_scalarText?_of_not_isKeyOffence {y : Tree} (h : ∀ err, ¬IsKeyOffence y err) {m : List (Tree × Tree)}
    (hm : y.Holds m) {e : Tree × Tree} (he : e ∈ m) : e.1.scalarText?.isSome = true := by
  cases hk : treeKey e.1 with
  | ok text =>
    rw [(treeKey_eq_ok_iff e.1 text).mp hk]
    rfl
  | error err =>
    have herr : err ∈ offenceOfKind e.1 := by
      rw [offenceOfKind_eq, hk]
      exact List.mem_singleton_self err
    rcases (mem_offenceOfKind_iff e.1 err).mp herr with ⟨items, hkind, -⟩ | ⟨entries, hkind, -⟩
    · exact absurd (.sequence hm he hkind) (h _)
    · exact absurd (.mapping hm he hkind) (h _)

/-- Only scalars as keys, under any number of tags, and no two with the same text. -/
def HasDistinctTexts (m : List (Tree × Tree)) : Prop :=
  (∀ e ∈ m, e.1.scalarText?.isSome = true) ∧ (m.map fun e => e.1.scalarText?).Nodup

theorem keyOffences_eq_nil_iff (y : Tree) : keyOffences y = [] ↔ ∀ m, y.Holds m → HasDistinctTexts m := by
  rw [List.eq_nil_iff_forall_not_mem]
  simp only [mem_keyOffences_iff]
  constructor
  · intro h m hm
    refine ⟨fun e he => isSome_scalarText?_of_not_isKeyOffence h hm he, ?_⟩
    rw [List.Nodup, List.pairwise_map, List.pairwise_iff_getElem]
    intro i j hi hj hij heq
    have hsplit : m = m.take j ++ m[j] :: m.drop (j + 1) := by simp
    have hbefore : m[i] ∈ m.take j := List.mem_take_iff_getElem.mpr ⟨i, by omega, rfl⟩
    obtain ⟨text, htext⟩ :=
      Option.isSome_iff_exists.mp (isSome_scalarText?_of_not_isKeyOffence h hm (List.getElem_mem hi))
    exact h _ (.duplicate (hsplit ▸ hm) hbefore htext (heq ▸ htext))
  · intro h err herr
    cases herr with
    | sequence hm he hk =>
      have hsome := (h _ hm).1 _ he
      rw [Tree.scalarText?, hk] at hsome
      contradiction
    | mapping hm he hk =>
      have hsome := (h _ hm).1 _ he
      rw [Tree.scalarText?, hk] at hsome
      contradiction
    | duplicate hm he htext hftext =>
      have hnodup := (h _ hm).2
      rw [List.map_append, List.map_cons] at hnodup
      have hfresh := (List.nodup_append.mp hnodup).2.2
      exact hfresh _ (List.mem_map_of_mem he) _ List.mem_cons_self (htext.trans hftext.symm)

end PolicyYaml.Codec
