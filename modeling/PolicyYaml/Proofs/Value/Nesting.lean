import PolicyYaml.Proofs.Value.Induction
import PolicyYaml.Value.Order

namespace PolicyYaml.Value

mutual

def nesting : Value → Nat
  | .array items => itemNesting items + 1
  | .set elements => itemNesting elements + 1
  | .object fields => fieldNesting fields + 1
  | .null | .boolean _ | .number _ | .string _ | .undefined => 0

def itemNesting : List Value → Nat
  | [] => 0
  | v :: rest => max v.nesting (itemNesting rest)

def fieldNesting : List (Value × Value) → Nat
  | [] => 0
  | (_, v) :: rest => max v.nesting (fieldNesting rest)

end

theorem itemNesting_le_iff (items : List Value) (n : Nat) : itemNesting items ≤ n ↔ ∀ v ∈ items, v.nesting ≤ n := by
  induction items with
  | nil => simp [itemNesting]
  | cons v rest ih => rw [itemNesting, Nat.max_le, ih, List.forall_mem_cons]

theorem fieldNesting_le_iff (fields : List (Value × Value)) (n : Nat) :
    fieldNesting fields ≤ n ↔ ∀ f ∈ fields, f.2.nesting ≤ n := by
  induction fields with
  | nil => simp [fieldNesting]
  | cons f rest ih => rw [fieldNesting, Nat.max_le, ih, List.forall_mem_cons]

theorem itemNesting_eq_of_equalItems {items items' : List Value}
    (hv : ∀ v ∈ items, ∀ w, equal v w = true → v.nesting = w.nesting) (h : equalItems items items' = true) :
    itemNesting items = itemNesting items' := by
  induction items generalizing items' with
  | nil =>
    cases items' with
    | nil => rfl
    | cons w rest' => simp [equalItems] at h
  | cons v rest ih =>
    cases items' with
    | nil => simp [equalItems] at h
    | cons w rest' =>
      rw [equalItems, Bool.and_eq_true] at h
      rw [itemNesting, itemNesting, hv v (by simp) w h.1, ih (fun x hx => hv x (List.mem_cons_of_mem _ hx)) h.2]

theorem fieldNesting_eq_of_equalFields {fields fields' : List (Value × Value)}
    (hf : ∀ f ∈ fields, ∀ w, equal f.2 w = true → f.2.nesting = w.nesting) (h : equalFields fields fields' = true) :
    fieldNesting fields = fieldNesting fields' := by
  induction fields generalizing fields' with
  | nil =>
    cases fields' with
    | nil => rfl
    | cons g rest' => simp [equalFields] at h
  | cons f rest ih =>
    cases fields' with
    | nil => simp [equalFields] at h
    | cons g rest' =>
      rw [equalFields, Bool.and_eq_true, Bool.and_eq_true] at h
      rw [fieldNesting, fieldNesting, hf f (by simp) g.2 h.1.2, ih (fun x hx => hf x (List.mem_cons_of_mem _ hx)) h.2]

theorem nesting_eq_of_equal {a b : Value} (h : equal a b = true) : a.nesting = b.nesting := by
  induction a using structuralInduction generalizing b with
  | array items ih | set items ih =>
    cases b with
    | array items' | set items' =>
      first
      | rw [nesting, nesting, itemNesting_eq_of_equalItems (fun v hv w => ih v hv) h]
      | simp [equal] at h
    | _ => simp [equal] at h
  | object fields ih =>
    cases b with
    | object fields' => rw [nesting, nesting, fieldNesting_eq_of_equalFields (fun f hf w => (ih f hf).2) h]
    | _ => simp [equal] at h
  | null | boolean | number | string | undefined => cases b <;> first | rfl | simp [equal] at h

end PolicyYaml.Value
