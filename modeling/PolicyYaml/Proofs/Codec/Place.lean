import PolicyYaml.Codec.Encode

/-!
Places inside of a value, and the ways that lead there. A place is written by a rule of its own, so that what the
encoder reports can be held against it.
-/

namespace PolicyYaml.Codec

inductive Step where
  | index (i : Nat)
  | key (k : Value)

abbrev Place := List Step

/-- A position in decimal, a string key as it is, and any other key as it is displayed. -/
def Step.text : Step → String
  | .index i => toString i
  | .key (.string s) => s
  | .key k => k.text

def Place.text (place : Place) : String := String.join (place.map fun step => "/" ++ step.text)

inductive Enters : Value → Step → Value → Prop
  | item {items : List Value} {i : Nat} {w : Value} : items[i]? = some w → Enters (.array items) (.index i) w
  | element {elements : List Value} {i : Nat} {w : Value} :
    elements[i]? = some w → Enters (.set elements) (.index i) w
  | field {fields : List (Value × Value)} {k w : Value} : (k, w) ∈ fields → Enters (.object fields) (.key k) w

def Member (v : Value) (segment : String) (w : Value) : Prop := ∃ s, Enters v s w ∧ s.text = segment

inductive Trail {σ : Type} (R : Value → σ → Value → Prop) : Value → List σ → Value → Prop
  | here (v : Value) : Trail R v [] v
  | step {v w x : Value} {s : σ} {p : List σ} : R v s w → Trail R w p x → Trail R v (s :: p) x

abbrev Reaches : Value → Place → Value → Prop := Trail Enters

abbrev Leads : Value → Path → Value → Prop := Trail Member

theorem Trail.invariant {σ : Type} {R : Value → σ → Value → Prop} {P : Value → Prop} {v x : Value} {p : List σ}
    (hp : Trail R v p x) (hkept : ∀ {v s w}, R v s w → P v → P w) (hv : P v) : P x := by
  induction hp with
  | here => exact hv
  | step hm _ ih => exact ih (hkept hm hv)

def Place.path (place : Place) : Path := place.map Step.text

theorem segment_eq (i : Nat) : segment i = (Step.index i).text := rfl

theorem keyText_eq (k : Value) : keyText k = (Step.key k).text := by
  cases k <;> rfl

namespace Place

theorem text_eq (place : Place) : place.text = place.path.text := by
  rw [text, Path.text, path, List.map_map]
  rfl

theorem path_append_index (place : Place) (i : Nat) : path (place ++ [.index i]) = place.path ++ [segment i] := by
  rw [path, List.map_append, segment_eq]
  rfl

theorem path_append_key (place : Place) (k : Value) : path (place ++ [.key k]) = place.path ++ [keyText k] := by
  rw [path, List.map_append, keyText_eq]
  rfl

end Place

theorem Trail.leads {v x : Value} {p : Place} (hp : Reaches v p x) : Leads v p.path x := by
  induction hp with
  | here => exact .here _
  | step hm _ ih => exact .step ⟨_, hm, rfl⟩ ih

end PolicyYaml.Codec
