import PolicyYaml.Text.ByteOrder
import PolicyYaml.Value.Basic

namespace PolicyYaml.Value

def kindRank : Value → Nat
  | .null => 0
  | .boolean _ => 1
  | .number _ => 2
  | .string _ => 3
  | .array _ => 4
  | .object _ => 5
  | .set _ => 6
  | .undefined => 7

mutual

def compare : Value → Value → Ordering
  | .boolean a, .boolean b => Ord.compare a b
  | .number a, .number b => a.compare b
  | .string a, .string b => Text.compareBytes a b
  | .array a, .array b => compareItems a b
  | .object a, .object b => compareFields a b
  | .set a, .set b => compareItems a b
  | a, b => Ord.compare a.kindRank b.kindRank

def compareItems : List Value → List Value → Ordering
  | [], [] => .eq
  | [], _ :: _ => .lt
  | _ :: _, [] => .gt
  | a :: as, b :: bs => (compare a b).then (compareItems as bs)

def compareFields : List (Value × Value) → List (Value × Value) → Ordering
  | [], [] => .eq
  | [], _ :: _ => .lt
  | _ :: _, [] => .gt
  | (k, v) :: as, (k', v') :: bs => ((compare k k').then (compare v v')).then (compareFields as bs)

end

def thenPartial : Option Ordering → Option Ordering → Option Ordering
  | some .eq, next => next
  | first, _ => first

mutual

def partialCompare : Value → Value → Option Ordering
  | .boolean a, .boolean b => some (Ord.compare a b)
  | .number a, .number b => a.partialCompare b
  | .string a, .string b => some (Text.compareBytes a b)
  | .array a, .array b => partialCompareItems a b
  | .object a, .object b => partialCompareFields a b
  | .set a, .set b => partialCompareItems a b
  | a, b => some (Ord.compare a.kindRank b.kindRank)

def partialCompareItems : List Value → List Value → Option Ordering
  | [], [] => some .eq
  | [], _ :: _ => some .lt
  | _ :: _, [] => some .gt
  | a :: as, b :: bs => thenPartial (partialCompare a b) (partialCompareItems as bs)

def partialCompareFields : List (Value × Value) → List (Value × Value) → Option Ordering
  | [], [] => some .eq
  | [], _ :: _ => some .lt
  | _ :: _, [] => some .gt
  | (k, v) :: as, (k', v') :: bs =>
    thenPartial (thenPartial (partialCompare k k') (partialCompare v v')) (partialCompareFields as bs)

end

instance : LE Value := ⟨fun a b => (a.partialCompare b).any Ordering.isLE = true⟩

instance (a b : Value) : Decidable (a ≤ b) := inferInstanceAs (Decidable (_ = true))

mutual

def equal : Value → Value → Bool
  | .null, .null => true
  | .boolean a, .boolean b => a == b
  | .number a, .number b => a.equal b
  | .string a, .string b => a == b
  | .array a, .array b => equalItems a b
  | .object a, .object b => equalFields a b
  | .set a, .set b => equalItems a b
  | .undefined, .undefined => true
  | _, _ => false

def equalItems : List Value → List Value → Bool
  | [], [] => true
  | a :: as, b :: bs => equal a b && equalItems as bs
  | _, _ => false

def equalFields : List (Value × Value) → List (Value × Value) → Bool
  | [], [] => true
  | (k, v) :: as, (k', v') :: bs => equal k k' && equal v v' && equalFields as bs
  | _, _ => false

end

/-- The object with these fields. Of fields with equal keys the last one stays, with its own key. -/
def ofFields (fields : List (Value × Value)) : Value :=
  .object (Ascending.ofList (fun a b => compare a.1 b.1) fields)

def ofMembers (elements : List Value) : Value := .set (Ascending.ofList compare elements)

def ofElements (elements : List Value) : Value :=
  ofMembers (elements.filter fun v => !v.isUndefined)

def sort (values : List Value) : List Value := values.mergeSort fun a b => compare a b != .gt

end PolicyYaml.Value
