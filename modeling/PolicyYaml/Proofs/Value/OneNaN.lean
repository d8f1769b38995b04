import PolicyYaml.Proofs.Number.Text
import PolicyYaml.Proofs.Value.Induction

namespace PolicyYaml

theorem Number.oneNaN_oneNaN (n : Number) : n.oneNaN.oneNaN = n.oneNaN := by
  cases n with
  | int i => rfl
  | float d => rw [oneNaN, oneNaN, Double.oneNaN_oneNaN]

namespace Value

mutual

def oneNaN : Value → Value
  | .null => .null
  | .boolean b => .boolean b
  | .number n => .number n.oneNaN
  | .string s => .string s
  | .array items => .array (oneNaNItems items)
  | .object fields => .object (oneNaNFields fields)
  | .set elements => .set (oneNaNItems elements)
  | .undefined => .undefined

def oneNaNItems : List Value → List Value
  | [] => []
  | v :: rest => v.oneNaN :: oneNaNItems rest

def oneNaNFields : List (Value × Value) → List (Value × Value)
  | [] => []
  | (k, v) :: rest => (k.oneNaN, v.oneNaN) :: oneNaNFields rest

end

theorem oneNaNItems_eq_map (items : List Value) : oneNaNItems items = items.map oneNaN := by
  induction items with
  | nil => rfl
  | cons v rest ih => rw [oneNaNItems, ih, List.map_cons]

theorem oneNaNFields_eq_map (fields : List (Value × Value)) :
    oneNaNFields fields = fields.map fun f => (f.1.oneNaN, f.2.oneNaN) := by
  induction fields with
  | nil => rfl
  | cons f rest ih => rw [oneNaNFields, ih, List.map_cons]

theorem oneNaN_oneNaN (v : Value) : v.oneNaN.oneNaN = v.oneNaN := by
  induction v using structuralInduction with
  | null | boolean | string | undefined => rfl
  | number n => rw [oneNaN, oneNaN, Number.oneNaN_oneNaN]
  | array items ih | set items ih =>
    simp only [oneNaN, oneNaNItems_eq_map, List.map_map]
    congr 1
    exact List.map_congr_left fun v hv => ih v hv
  | object fields ih =>
    simp only [oneNaN, oneNaNFields_eq_map, List.map_map]
    congr 1
    apply List.map_congr_left
    intro f hf
    rw [Function.comp_apply, (ih f hf).1, (ih f hf).2]

end Value

end PolicyYaml
