import PolicyYaml.Proofs.Codec.Failure
import PolicyYaml.Proofs.Codec.Place
import PolicyYaml.Proofs.Value.Induction

namespace PolicyYaml.Codec

inductive Stop where
  | value (place : Place) (v : Value)
  | key (place : Place) (earlier : List Value) (k : Value)

mutual

/-- The stops of a value in document order. Nothing inside of a key is walked. -/
def walk (place : Place) (v : Value) : List Stop :=
  .value place v ::
    match v with
    | .array items => walkItems place 0 items
    | .set elements => walkItems place 0 elements
    | .object fields => walkFields place [] fields
    | .null | .boolean _ | .number _ | .string _ | .undefined => []

def walkItems (place : Place) (index : Nat) : List Value → List Stop
  | [] => []
  | v :: rest => walk (place ++ [.index index]) v ++ walkItems place (index + 1) rest

def walkFields (place : Place) (earlier : List Value) : List (Value × Value) → List Stop
  | [] => []
  | (k, v) :: rest =>
    .key place earlier k :: (walk (place ++ [.key k]) v ++ walkFields place (earlier ++ [k]) rest)

end

inductive Stop.IsAt (place : Place) : Value → Stop → Prop
  | value (v : Value) : IsAt place v (.value place v)
  | key (before after : List (Value × Value)) (k w : Value) :
    IsAt place (.object (before ++ (k, w) :: after)) (.key place (before.map Prod.fst) k)

def Stop.IsFrom (place : Place) (v : Value) (stop : Stop) : Prop :=
  ∃ p x, Reaches v p x ∧ stop.IsAt (place ++ p) x

theorem isFrom_iff (place : Place) (v : Value) (stop : Stop) :
    stop.IsFrom place v ↔ stop.IsAt place v ∨ ∃ s w, Enters v s w ∧ stop.IsFrom (place ++ [s]) w := by
  constructor
  · rintro ⟨p, x, hp, hx⟩
    cases hp with
    | here => exact .inl (List.append_nil place ▸ hx)
    | @step _ w _ s q hm hq =>
      refine .inr ⟨s, w, hm, q, x, hq, ?_⟩
      rwa [List.append_assoc]
  · rintro (h | ⟨s, w, hm, p, x, hp, hx⟩)
    · exact ⟨[], v, .here v, (List.append_nil place).symm ▸ h⟩
    · refine ⟨s :: p, x, .step hm hp, ?_⟩
      rwa [List.append_assoc] at hx

theorem mem_walkItems_iff (place : Place) (index : Nat) (items : List Value) (stop : Stop) :
    stop ∈ walkItems place index items ↔
      ∃ i w, items[i]? = some w ∧ stop ∈ walk (place ++ [.index (index + i)]) w := by
  induction items generalizing index with
  | nil => simp [walkItems]
  | cons v rest ih =>
    rw [walkItems, List.mem_append, ih]
    constructor
    · rintro (h | ⟨i, w, hw, h⟩)
      · exact ⟨0, v, rfl, h⟩
      · exact ⟨i + 1, w, hw, by rwa [← Nat.add_assoc, Nat.add_right_comm]⟩
    · rintro ⟨i, w, hw, h⟩
      cases i with
      | zero =>
        cases hw
        exact .inl h
      | succ i => exact .inr ⟨i, w, hw, by rwa [Nat.add_right_comm, Nat.add_assoc]⟩

theorem mem_walkFields_iff (place : Place) (earlier : List Value) (fields : List (Value × Value)) (stop : Stop) :
    stop ∈ walkFields place earlier fields ↔
      ∃ before f after, fields = before ++ f :: after ∧
        (stop = .key place (earlier ++ before.map Prod.fst) f.1 ∨
          stop ∈ walk (place ++ [.key f.1]) f.2) := by
  induction fields generalizing earlier with
  | nil => simp [walkFields]
  | cons f rest ih =>
    rw [walkFields, List.mem_cons, List.mem_append, ih, exists_eq_append_cons_iff]
    simp only [List.map_nil, List.append_nil, List.map_cons, List.append_assoc, List.singleton_append, or_assoc]

theorem enters_iff {v : Value} {items : List Value} (hv : v = .array items ∨ v = .set items) {s : Step} {w : Value} :
    Enters v s w ↔ ∃ i, items[i]? = some w ∧ s = .index i := by
  constructor
  · intro h
    rcases hv with rfl | rfl
    · cases h with
      | item hw => exact ⟨_, hw, rfl⟩
    · cases h with
      | element hw => exact ⟨_, hw, rfl⟩
  · rintro ⟨i, hw, rfl⟩
    rcases hv with rfl | rfl
    · exact .item hw
    · exact .element hw

theorem mem_walkItems_iff_isFrom {v : Value} {items : List Value} {place : Place} {stop : Stop}
    (hv : v = .array items ∨ v = .set items)
    (hwalk : ∀ w ∈ items, ∀ p, stop ∈ walk p w ↔ stop.IsFrom p w) :
    stop ∈ walkItems place 0 items ↔ ∃ s w, Enters v s w ∧ stop.IsFrom (place ++ [s]) w := by
  rw [mem_walkItems_iff]
  constructor
  · rintro ⟨i, w, hw, h⟩
    rw [Nat.zero_add] at h
    exact ⟨_, w, (enters_iff hv).mpr ⟨i, hw, rfl⟩, (hwalk w (List.mem_of_getElem? hw) _).mp h⟩
  · rintro ⟨s, w, hm, h⟩
    obtain ⟨i, hw, rfl⟩ := (enters_iff hv).mp hm
    exact ⟨i, w, hw, by rwa [Nat.zero_add, hwalk w (List.mem_of_getElem? hw)]⟩

theorem isAt_iff_of_not_object {place : Place} {v : Value} {stop : Stop} (h : ∀ fields, v ≠ .object fields) :
    stop.IsAt place v ↔ stop = .value place v := by
  constructor
  · intro hs
    cases hs with
    | value => rfl
    | key before after k w => exact absurd rfl (h _)
  · rintro rfl
    exact .value v

theorem mem_walk_iff (place : Place) (v : Value) (stop : Stop) : stop ∈ walk place v ↔ stop.IsFrom place v := by
  induction v using Value.structuralInduction generalizing place with
  | array items ih =>
    rw [walk, List.mem_cons, isFrom_iff, isAt_iff_of_not_object (by simp)]
    exact or_congr_right (mem_walkItems_iff_isFrom (.inl rfl) ih)
  | set elements ih =>
    rw [walk, List.mem_cons, isFrom_iff, isAt_iff_of_not_object (by simp)]
    exact or_congr_right (mem_walkItems_iff_isFrom (.inr rfl) ih)
  | object fields ih =>
    rw [walk, List.mem_cons, mem_walkFields_iff, isFrom_iff]
    constructor
    · rintro (rfl | ⟨before, f, after, rfl, rfl | h⟩)
      · exact .inl (.value _)
      · exact .inl (.key before after f.1 f.2)
      · have hmem : f ∈ before ++ f :: after := by simp
        exact .inr ⟨_, f.2, .field hmem, ((ih _ hmem).2 _).mp h⟩
    · rintro (h | ⟨s, w, hm, h⟩)
      · cases h with
        | value => exact .inl rfl
        | key before after k w => exact .inr ⟨before, (k, w), after, rfl, .inl rfl⟩
      · cases hm with
        | field hmem =>
          obtain ⟨before, after, hfields⟩ := List.append_of_mem hmem
          exact .inr ⟨before, _, after, hfields, .inr (((ih _ hmem).2 _).mpr h)⟩
  | null | boolean | number | string | undefined =>
    rw [walk, isFrom_iff, isAt_iff_of_not_object (by simp), List.mem_singleton]
    refine (or_iff_left ?_).symm
    rintro ⟨s, w, hm, -⟩
    cases hm

end PolicyYaml.Codec
