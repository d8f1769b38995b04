import PolicyYaml.Proofs.Value.OneNaN
import PolicyYaml.Value.Order

namespace PolicyYaml

theorem Double.compare_eq_of_oneNaN {d e : Double} (h : d.oneNaN = e.oneNaN) : d.compare e = .eq := by
  cases hd : d.isNaN <;> cases he : e.isNaN
  · have hde : d = e := by simpa [oneNaN, hd, he] using h
    rw [hde, compare, he]
    exact Std.ReflOrd.compare_self
  · have hd' : d = nan := by simpa [oneNaN, hd, he] using h
    rw [hd', isNaN_nan] at hd
    contradiction
  · have he' : nan = e := by simpa [oneNaN, hd, he] using h
    rw [← he', isNaN_nan] at he
    contradiction
  · rw [compare, hd, he]

theorem Number.compare_eq_of_oneNaN {m n : Number} (h : m.oneNaN = n.oneNaN) : m.compare n = .eq := by
  cases m with
  | int i =>
    cases n with
    | int j =>
      rw [oneNaN, oneNaN, int.injEq] at h
      rw [h, compare]
      exact Std.ReflCmp.compare_self
    | float e => contradiction
  | float d =>
    cases n with
    | int j => contradiction
    | float e =>
      rw [oneNaN, oneNaN, float.injEq] at h
      exact Double.compare_eq_of_oneNaN h

namespace Value

theorem compareItems_eq_of_oneNaN {items items' : List Value}
    (hcompare : ∀ v ∈ items, ∀ w, v.oneNaN = w.oneNaN → compare v w = .eq)
    (h : oneNaNItems items = oneNaNItems items') : compareItems items items' = .eq := by
  induction items generalizing items' with
  | nil =>
    cases items' with
    | nil => rfl
    | cons w rest' => contradiction
  | cons v rest ih =>
    cases items' with
    | nil => contradiction
    | cons w rest' =>
      rw [oneNaNItems, oneNaNItems, List.cons.injEq] at h
      rw [compareItems, hcompare v (by simp) w h.1]
      exact ih (fun x hx => hcompare x (List.mem_cons_of_mem _ hx)) h.2

theorem compareFields_eq_of_oneNaN {fields fields' : List (Value × Value)}
    (hcompare : ∀ f ∈ fields, (∀ w, f.1.oneNaN = w.oneNaN → compare f.1 w = .eq) ∧
      ∀ w, f.2.oneNaN = w.oneNaN → compare f.2 w = .eq)
    (h : oneNaNFields fields = oneNaNFields fields') : compareFields fields fields' = .eq := by
  induction fields generalizing fields' with
  | nil =>
    cases fields' with
    | nil => rfl
    | cons g rest' => contradiction
  | cons f rest ih =>
    cases fields' with
    | nil => contradiction
    | cons g rest' =>
      rw [oneNaNFields, oneNaNFields, List.cons.injEq, Prod.mk.injEq] at h
      obtain ⟨hk, hv⟩ := hcompare f (by simp)
      rw [compareFields, hk g.1 h.1.1, hv g.2 h.1.2]
      exact ih (fun x hx => hcompare x (List.mem_cons_of_mem _ hx)) h.2

theorem compare_eq_of_oneNaN {a b : Value} (h : a.oneNaN = b.oneNaN) : compare a b = .eq := by
  induction a using structuralInduction generalizing b with
  | null => cases b <;> simp [oneNaN] at h; rfl
  | undefined => cases b <;> simp [oneNaN] at h; rfl
  | boolean a =>
    cases b with
    | boolean b =>
      rw [oneNaN, oneNaN, boolean.injEq] at h
      rw [h, compare]
      exact Std.ReflCmp.compare_self
    | _ => simp [oneNaN] at h
  | number m =>
    cases b with
    | number n =>
      rw [oneNaN, oneNaN, number.injEq] at h
      rw [compare]
      exact Number.compare_eq_of_oneNaN h
    | _ => simp [oneNaN] at h
  | string s =>
    cases b with
    | string t =>
      rw [oneNaN, oneNaN, string.injEq] at h
      rw [compare]
      exact Text.compareBytes_eq_iff.mpr h
    | _ => simp [oneNaN] at h
  | array items ih =>
    cases b with
    | array items' =>
      rw [oneNaN, oneNaN, array.injEq] at h
      rw [compare]
      exact compareItems_eq_of_oneNaN (fun v hv w => ih v hv) h
    | _ => simp [oneNaN] at h
  | object fields ih =>
    cases b with
    | object fields' =>
      rw [oneNaN, oneNaN, object.injEq] at h
      rw [compare]
      exact compareFields_eq_of_oneNaN (fun f hf => ⟨fun w => (ih f hf).1, fun w => (ih f hf).2⟩) h
    | _ => simp [oneNaN] at h
  | set elements ih =>
    cases b with
    | set elements' =>
      rw [oneNaN, oneNaN, set.injEq] at h
      rw [compare]
      exact compareItems_eq_of_oneNaN (fun v hv w => ih v hv) h
    | _ => simp [oneNaN] at h

theorem equalItems_iff {items items' : List Value}
    (hequal : ∀ v ∈ items, ∀ w, equal v w = true ↔ compare v w = .eq) :
    equalItems items items' = true ↔ compareItems items items' = .eq := by
  induction items generalizing items' with
  | nil => cases items' <;> simp [equalItems, compareItems]
  | cons v rest ih =>
    cases items' with
    | nil => simp [equalItems, compareItems]
    | cons w rest' =>
      rw [equalItems, compareItems, Bool.and_eq_true, Ordering.then_eq_eq, hequal v (by simp),
        ih fun x hx => hequal x (List.mem_cons_of_mem _ hx)]

theorem equalFields_iff {fields fields' : List (Value × Value)}
    (hequal : ∀ f ∈ fields, (∀ w, equal f.1 w = true ↔ compare f.1 w = .eq) ∧
      ∀ w, equal f.2 w = true ↔ compare f.2 w = .eq) :
    equalFields fields fields' = true ↔ compareFields fields fields' = .eq := by
  induction fields generalizing fields' with
  | nil => cases fields' <;> simp [equalFields, compareFields]
  | cons f rest ih =>
    cases fields' with
    | nil => simp [equalFields, compareFields]
    | cons g rest' =>
      obtain ⟨hk, hv⟩ := hequal f (by simp)
      rw [equalFields, compareFields, Bool.and_eq_true, Bool.and_eq_true, Ordering.then_eq_eq,
        Ordering.then_eq_eq, hk, hv, ih fun x hx => hequal x (List.mem_cons_of_mem _ hx)]

theorem equal_iff_compare_eq (a b : Value) : equal a b = true ↔ compare a b = .eq := by
  induction a using structuralInduction generalizing b with
  | null => cases b <;> simp [equal, compare, kindRank]
  | undefined => cases b <;> simp [equal, compare, kindRank]
  | boolean a => cases b <;> simp [equal, compare, kindRank]
  | number m => cases b <;> simp [equal, compare, kindRank, Number.equal]
  | string s => cases b <;> simp [equal, compare, kindRank, Text.compareBytes_eq_iff]
  | array items ih =>
    cases b with
    | array items' =>
      rw [equal, compare]
      exact equalItems_iff ih
    | _ => simp [equal, compare, kindRank]
  | object fields ih =>
    cases b with
    | object fields' =>
      rw [equal, compare]
      exact equalFields_iff ih
    | _ => simp [equal, compare, kindRank]
  | set elements ih =>
    cases b with
    | set elements' =>
      rw [equal, compare]
      exact equalItems_iff ih
    | _ => simp [equal, compare, kindRank]

end Value

end PolicyYaml
