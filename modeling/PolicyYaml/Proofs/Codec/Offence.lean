import PolicyYaml.Codec.Basic
import PolicyYaml.Proofs.Codec.Walk
import PolicyYaml.Proofs.Value.Undefined

/-!
What stops a value from being written, in document order. Writing fails with the first such offence and with
nothing else.
-/

namespace PolicyYaml.Codec

namespace Stop

def isUndefined : Stop → Bool
  | .value _ v => v.isUndefined
  | .key _ _ k => k.asString?.isNone && k.containsUndefined

def isClash : Stop → Bool
  | .value _ _ => false
  | .key _ earlier k => earlier.any fun k' => (Step.key k').text == (Step.key k).text

def offences : Stop → List CodecError
  | .value place v => if (value place v).isUndefined then [.unsupportedValue place.text] else []
  | .key place earlier k =>
    (if (key place earlier k).isUndefined then [.unsupportedValue place.text] else []) ++
      if (key place earlier k).isClash then [.keyCollision (Place.text (place ++ [.key k]))] else []

theorem isUndefined_key_iff (place : Place) (earlier : List Value) (k : Value) :
    (key place earlier k).isUndefined = true ↔ k.asString? = none ∧ k.HasUndefined := by
  rw [isUndefined, Bool.and_eq_true, Option.isNone_iff_eq_none, Value.containsUndefined_iff]

theorem isUndefined_key_eq (place : Place) (earlier : List Value) (k : Value) :
    (key place earlier k).isUndefined = isUnwritableKey k := by
  cases k <;> simp [isUndefined, isUnwritableKey, Value.asString?]

theorem isClash_key_iff (place : Place) (earlier : List Value) (k : Value) :
    (key place earlier k).isClash = true ↔ ∃ k' ∈ earlier, (Step.key k').text = (Step.key k).text := by
  simp [isClash]

end Stop

def offencesAt (place : Place) (v : Value) : List CodecError := (walk place v).flatMap Stop.offences

def offences (v : Value) : List CodecError := offencesAt [] v

theorem failure?_encodeItems {items : List Value}
    (hv : ∀ v ∈ items, ∀ place, failure? (encodeAt place.path v) = (offencesAt place v).head?) (place : Place)
    (index : Nat) :
    failure? (encodeItems place.path index items) = ((walkItems place index items).flatMap Stop.offences).head? := by
  induction items generalizing index with
  | nil => rw [encodeItems, walkItems]; rfl
  | cons v rest ih =>
    rw [encodeItems_cons, walkItems, List.flatMap_append, ← Place.path_append_index]
    apply failure?_bind (hv v (by simp) _)
    intro first _
    rw [failure?_map]
    exact ih (fun w hw => hv w (List.mem_cons_of_mem _ hw)) _

theorem failure?_encodeFields {fields : List (Value × Value)}
    (hv : ∀ f ∈ fields, ∀ place, failure? (encodeAt place.path f.2) = (offencesAt place f.2).head?) (place : Place)
    {seen : List String} {earlier : List Value} (hseen : ∀ key, key ∈ seen ↔ ∃ k ∈ earlier, keyText k = key) :
    failure? (encodeFields place.path seen fields) =
      ((walkFields place earlier fields).flatMap Stop.offences).head? := by
  induction fields generalizing seen earlier with
  | nil => rw [encodeFields, walkFields]; rfl
  | cons f rest ih =>
    obtain ⟨k, v⟩ := f
    have hclash : seen.contains (keyText k) = (Stop.key place earlier k).isClash := by
      rw [Bool.eq_iff_iff, List.contains_iff_mem, hseen, Stop.isClash_key_iff]
      simp only [keyText_eq]
    rw [encodeFields_cons, walkFields, List.flatMap_cons, Stop.offences, Stop.isUndefined_key_eq, hclash,
      ← Place.path_append_key, ← Place.text_eq, ← Place.text_eq]
    cases isUnwritableKey k with
    | true => rfl
    | false =>
      cases (Stop.key place earlier k).isClash with
      | true => rfl
      | false =>
        simp only [Bool.false_eq_true, ↓reduceIte, List.nil_append, List.flatMap_append]
        apply failure?_bind (hv (k, v) (by simp) _)
        intro first _
        rw [failure?_map]
        apply ih (fun g hg => hv g (List.mem_cons_of_mem _ hg))
        intro key
        rw [List.mem_cons, hseen]
        simp only [List.mem_append, List.mem_singleton]
        grind

theorem failure?_encodeAt (place : Place) (v : Value) :
    failure? (encodeAt place.path v) = (offencesAt place v).head? := by
  induction v using Value.structuralInduction generalizing place with
  | array items ih =>
    rw [encodeAt, failure?_map, offencesAt, walk, List.flatMap_cons]
    exact failure?_encodeItems ih place 0
  | set elements ih =>
    rw [encodeAt, failure?_map, offencesAt, walk, List.flatMap_cons]
    exact failure?_encodeItems ih place 0
  | object fields ih =>
    rw [encodeAt, failure?_map, offencesAt, walk, List.flatMap_cons]
    exact failure?_encodeFields (fun f hf => (ih f hf).2) place (by simp)
  | undefined =>
    rw [encodeAt, offencesAt, walk, ← Place.text_eq]
    rfl
  | null | boolean | number | string =>
    rw [encodeAt, offencesAt, walk]
    rfl

theorem failure?_marshal (v : Value) : failure? (marshal v) = (offences v).head? := by
  rw [marshal, failure?_map, encode, offences, ← failure?_encodeAt]
  rfl

inductive IsOffence (v : Value) : CodecError → Prop
  | undefinedValue {p : Place} : Reaches v p .undefined → IsOffence v (.unsupportedValue p.text)
  | undefinedKey {p : Place} {fields : List (Value × Value)} {k w : Value} :
    Reaches v p (.object fields) → (k, w) ∈ fields → k.asString? = none → k.HasUndefined →
      IsOffence v (.unsupportedValue p.text)
  | collision {p : Place} {before after : List (Value × Value)} {k w k' w' : Value} :
    Reaches v p (.object (before ++ (k, w) :: after)) → (k', w') ∈ before →
      (Step.key k').text = (Step.key k).text → IsOffence v (.keyCollision (Place.text (p ++ [.key k])))

theorem mem_offences_iff (v : Value) (e : CodecError) : e ∈ offences v ↔ IsOffence v e := by
  rw [offences, offencesAt, List.mem_flatMap]
  constructor
  · rintro ⟨stop, hstop, he⟩
    obtain ⟨p, x, hp, hx⟩ := (mem_walk_iff [] v stop).mp hstop
    rw [List.nil_append] at hx
    cases hx with
    | value =>
      cases x with
      | undefined =>
        rw [List.mem_singleton.mp he]
        exact .undefinedValue hp
      | _ => contradiction
    | key before after k w =>
      rcases List.mem_append.mp he with he | he
      · split at he
        · rename_i hk
          obtain ⟨hstring, hundefined⟩ := (Stop.isUndefined_key_iff _ _ k).mp hk
          rw [List.mem_singleton.mp he]
          exact .undefinedKey (w := w) hp (by simp) hstring hundefined
        · contradiction
      · split at he
        · rename_i hk
          obtain ⟨k', hmem, htext⟩ := (Stop.isClash_key_iff _ _ k).mp hk
          obtain ⟨f, hf, rfl⟩ := List.mem_map.mp hmem
          rw [List.mem_singleton.mp he]
          exact .collision hp hf htext
        · contradiction
  · intro h
    cases h with
    | undefinedValue hp =>
      refine ⟨_, (mem_walk_iff [] v _).mpr ⟨_, _, hp, .value _⟩, ?_⟩
      rw [List.nil_append]
      exact List.mem_singleton_self _
    | @undefinedKey p fields k w hp hmem hstring hundefined =>
      obtain ⟨before, after, rfl⟩ := List.append_of_mem hmem
      refine ⟨_, (mem_walk_iff [] v _).mpr ⟨_, _, hp, .key before after k w⟩, ?_⟩
      rw [List.nil_append, Stop.offences, if_pos ((Stop.isUndefined_key_iff _ _ k).mpr ⟨hstring, hundefined⟩)]
      simp
    | @collision p before after k w k' w' hp hmem htext =>
      refine ⟨_, (mem_walk_iff [] v _).mpr ⟨_, _, hp, .key before after k w⟩, ?_⟩
      have hclash : (Stop.key p (before.map Prod.fst) k).isClash = true :=
        (Stop.isClash_key_iff _ _ k).mpr ⟨k', List.mem_map_of_mem hmem, htext⟩
      rw [List.nil_append, Stop.offences, if_pos hclash]
      simp

theorem marshal_first_offence (v : Value) :
    ((∃ text, marshal v = .ok text) ↔ offences v = []) ∧
      (∀ e, marshal v = .error e ↔ (offences v).head? = some e) ∧
      ∀ e, e ∈ offences v ↔ IsOffence v e := by
  refine ⟨?_, ?_, mem_offences_iff v⟩
  · rw [← failure?_eq_none_iff, failure?_marshal, List.head?_eq_none_iff]
  · intro e
    rw [← failure?_eq_some_iff, failure?_marshal]

theorem marshal_first_offence_at_nested_places :
    let numbered := Value.object [(.number (.int 7), .array [.null, .undefined])]
    let clash := Value.object [(.string "a", .array [.object [(.boolean true, .null), (.string "true", .undefined)]])]
    let heldInKey := Value.object [(.string "a", .object [(.set [.undefined], .undefined)]), (.string "b", .undefined)]
    let clashInKey := Value.object [(.object [(.number (.int 1), .null), (.string "1", .null)], .set [.null])]
    marshal numbered = .error (.unsupportedValue "/7/1") ∧
      marshal clash = .error (.keyCollision "/a/0/true") ∧ IsOffence clash (.unsupportedValue "/a/0/true") ∧
      marshal heldInKey = .error (.unsupportedValue "/a") ∧
      ∃ text, marshal clashInKey = .ok text := by
  intro numbered clash heldInKey clashInKey
  refine ⟨?_, ?_, ?_, ?_, ?_⟩
  · exact ((marshal_first_offence numbered).2.1 _).mpr (by decide)
  · exact ((marshal_first_offence clash).2.1 _).mpr (by decide)
  · exact ((marshal_first_offence clash).2.2 _).mp (by decide)
  · exact ((marshal_first_offence heldInKey).2.1 _).mpr (by decide)
  · exact (marshal_first_offence clashInKey).1.mpr (by decide)

end PolicyYaml.Codec
