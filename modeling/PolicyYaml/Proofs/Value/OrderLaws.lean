import PolicyYaml.Proofs.LawfulAt
import PolicyYaml.Proofs.Number.Order
import PolicyYaml.Proofs.Value.Equal

namespace PolicyYaml.Value

def compareField : Value × Value → Value × Value → Ordering :=
  compareLex (fun f g => compare f.1 g.1) fun f g => compare f.2 g.2

theorem compareItems_eq_compareLex (as bs : List Value) :
    compareItems as bs = List.compareLex compare as bs := by
  induction as generalizing bs with
  | nil => cases bs <;> rfl
  | cons a as ih =>
    cases bs with
    | nil => rfl
    | cons b bs => rw [compareItems, List.compareLex_cons_cons, ih]

theorem compareFields_eq_compareLex (as bs : List (Value × Value)) :
    compareFields as bs = List.compareLex compareField as bs := by
  induction as generalizing bs with
  | nil => cases bs <;> rfl
  | cons a as ih =>
    cases bs with
    | nil => rfl
    | cons b bs =>
      rw [compareFields, List.compareLex_cons_cons, ih]
      rfl

theorem compare_of_kindRank_ne {a b : Value} (h : a.kindRank ≠ b.kindRank) :
    compare a b = Ord.compare a.kindRank b.kindRank := by
  cases a <;> cases b <;> first | rfl | exact absurd rfl h

theorem compare_of_kindRank_lt {a b : Value} (h : a.kindRank < b.kindRank) : compare a b = .lt := by
  rw [compare_of_kindRank_ne (Nat.ne_of_lt h)]
  exact Nat.compare_eq_lt.mpr h

theorem kindRank_le_of_isLE {a b : Value} (h : (compare a b).isLE = true) : a.kindRank ≤ b.kindRank := by
  by_contra hlt
  rw [compare_of_kindRank_ne (by omega), Nat.compare_eq_gt.mpr (by omega)] at h
  contradiction

theorem lawfulAt_of_kind {α : Type} (make : α → Value) (order : α → α → Ordering) (x : α)
    (hcompare : ∀ y z, compare (make y) (make z) = order y z)
    (hkind : ∀ v, v.kindRank = (make x).kindRank → ∃ y, v = make y) (h : LawfulAt order x) :
    LawfulAt compare (make x) := by
  constructor
  · intro b
    by_cases hb : b.kindRank = (make x).kindRank
    · obtain ⟨y, rfl⟩ := hkind b hb
      rw [hcompare, hcompare, h.swap]
    · rw [compare_of_kindRank_ne hb, compare_of_kindRank_ne (Ne.symm hb)]
      exact Std.OrientedCmp.eq_swap
  · intro b c hab hbc
    have hkab := kindRank_le_of_isLE hab
    have hkbc := kindRank_le_of_isLE hbc
    by_cases hb : b.kindRank = (make x).kindRank
    · by_cases hc : c.kindRank = (make x).kindRank
      · obtain ⟨y, rfl⟩ := hkind b hb
        obtain ⟨z, rfl⟩ := hkind c hc
        rw [hcompare] at hab hbc
        rw [hcompare, hcompare, hcompare]
        exact h.chain y z hab hbc
      · rw [compare_of_kindRank_lt (a := make x) (b := c) (by omega),
          compare_of_kindRank_lt (a := b) (b := c) (by omega)]
        cases hord : compare (make x) b with
        | lt | eq => rfl
        | gt =>
          rw [hord] at hab
          contradiction
    · rw [compare_of_kindRank_lt (a := make x) (b := c) (by omega),
        compare_of_kindRank_lt (a := make x) (b := b) (by omega)]
      rfl

theorem lawfulAt_compare (a : Value) : LawfulAt compare a := by
  induction a using structuralInduction with
  | null =>
    apply lawfulAt_of_kind (fun _ : Unit => .null) (fun _ _ => .eq) ()
    · exact fun _ _ => rfl
    · intro v h
      cases v <;> simp [kindRank] at h ⊢
    · exact ⟨fun _ => rfl, fun _ _ _ _ => rfl⟩
  | undefined =>
    apply lawfulAt_of_kind (fun _ : Unit => .undefined) (fun _ _ => .eq) ()
    · exact fun _ _ => rfl
    · intro v h
      cases v <;> simp [kindRank] at h ⊢
    · exact ⟨fun _ => rfl, fun _ _ _ _ => rfl⟩
  | boolean b =>
    apply lawfulAt_of_kind .boolean Ord.compare b
    · intro y z
      rw [compare]
    · intro v h
      cases v <;> simp [kindRank] at h ⊢
    · exact LawfulAt.of_transCmp b
  | number n =>
    apply lawfulAt_of_kind .number Number.compare n
    · intro y z
      rw [compare]
    · intro v h
      cases v <;> simp [kindRank] at h ⊢
    · exact LawfulAt.of_transCmp n
  | string s =>
    apply lawfulAt_of_kind .string Text.compareBytes s
    · intro y z
      rw [compare]
    · intro v h
      cases v <;> simp [kindRank] at h ⊢
    · exact LawfulAt.of_transCmp s
  | array items ih =>
    apply lawfulAt_of_kind .array (List.compareLex compare) items
    · intro y z
      rw [compare, compareItems_eq_compareLex]
    · intro v h
      cases v <;> simp [kindRank] at h ⊢
    · exact LawfulAt.list ih
  | set elements ih =>
    apply lawfulAt_of_kind .set (List.compareLex compare) elements
    · intro y z
      rw [compare, compareItems_eq_compareLex]
    · intro v h
      cases v <;> simp [kindRank] at h ⊢
    · exact LawfulAt.list ih
  | object fields ih =>
    apply lawfulAt_of_kind .object (List.compareLex compareField) fields
    · intro y z
      rw [compare, compareFields_eq_compareLex]
    · intro v h
      cases v <;> simp [kindRank] at h ⊢
    · apply LawfulAt.list
      intro f hf
      obtain ⟨hkey, hvalue⟩ := ih f hf
      exact LawfulAt.lex hkey.comap hvalue.comap

instance : Std.TransCmp compare := LawfulAt.transCmp lawfulAt_compare

theorem thenPartial_some (o p : Ordering) : thenPartial (some o) (some p) = some (o.then p) := by
  cases o <;> rfl

theorem partialCompareItems_eq {as bs : List Value}
    (h : ∀ a ∈ as, ∀ b, partialCompare a b = some (compare a b)) :
    partialCompareItems as bs = some (compareItems as bs) := by
  induction as generalizing bs with
  | nil => cases bs <;> rfl
  | cons a as ih =>
    cases bs with
    | nil => rfl
    | cons b bs =>
      rw [partialCompareItems, compareItems, h a (by simp), ih fun x hx => h x (List.mem_cons_of_mem _ hx),
        thenPartial_some]

theorem partialCompareFields_eq {as bs : List (Value × Value)}
    (h : ∀ f ∈ as, (∀ b, partialCompare f.1 b = some (compare f.1 b)) ∧
      ∀ b, partialCompare f.2 b = some (compare f.2 b)) :
    partialCompareFields as bs = some (compareFields as bs) := by
  induction as generalizing bs with
  | nil => cases bs <;> rfl
  | cons f as ih =>
    cases bs with
    | nil => rfl
    | cons g bs =>
      obtain ⟨hkey, hvalue⟩ := h f (by simp)
      rw [partialCompareFields, compareFields, hkey, hvalue, ih fun x hx => h x (List.mem_cons_of_mem _ hx),
        thenPartial_some, thenPartial_some]

theorem partialCompare_eq (a b : Value) : partialCompare a b = some (compare a b) := by
  induction a using structuralInduction generalizing b with
  | null | undefined | boolean | string => cases b <;> simp [partialCompare, compare]
  | number m => cases b <;> simp [partialCompare, compare, Number.partialCompare]
  | array items ih => cases b <;> simp [partialCompare, compare, partialCompareItems_eq ih]
  | set elements ih => cases b <;> simp [partialCompare, compare, partialCompareItems_eq ih]
  | object fields ih => cases b <;> simp [partialCompare, compare, partialCompareFields_eq ih]

theorem le_iff_isLE (a b : Value) : a ≤ b ↔ (compare a b).isLE = true := by
  change (partialCompare a b).any Ordering.isLE = true ↔ _
  rw [partialCompare_eq, Option.any_some]

def kindsAscending : List TypeName := [.null, .boolean, .number, .string, .array, .object, .set, .undefined]

theorem kindRank_eq_idxOf (a : Value) : a.kindRank = kindsAscending.idxOf a.typeName := by
  cases a <;> rfl

theorem equal_equivalence : Equivalence fun a b : Value => equal a b = true := by
  simp only [equal_iff_compare_eq]
  refine ⟨fun _ => Std.ReflCmp.compare_self, fun h => Std.OrientedCmp.eq_symm h, ?_⟩
  intro a b c hab hbc
  exact Std.TransCmp.eq_trans hab hbc

theorem compare_congr {a a' b b' : Value} (ha : equal a a' = true) (hb : equal b b' = true) :
    compare a b = compare a' b' := by
  rw [equal_iff_compare_eq] at ha hb
  rw [Std.TransCmp.congr_left ha, Std.TransCmp.congr_right hb]

/-- A total order in step with an equality: first by kind, then by the bytes of strings and the members of
collections. -/
structure IsLawfulOrder (order : Value → Value → Ordering) (equal : Value → Value → Bool)
    (partialOrder : Value → Value → Option Ordering) : Prop where
  eq_swap (a b : Value) : order b a = (order a b).swap
  le_iff (a b : Value) : a ≤ b ↔ order a b ≠ .gt
  le_total (a b : Value) : a ≤ b ∨ b ≤ a
  le_trans (a b c : Value) : a ≤ b → b ≤ c → a ≤ c
  equal_iff (a b : Value) : equal a b = true ↔ order a b = .eq
  equivalence : Equivalence fun a b : Value => equal a b = true
  congr (a a' b b' : Value) : equal a a' = true → equal b b' = true → order a b = order a' b'
  partial_eq (a b : Value) : partialOrder a b = some (order a b)
  lt_of_kind (a b : Value) :
    kindsAscending.idxOf a.typeName < kindsAscending.idxOf b.typeName → order a b = .lt
  string_eq (s t : String) :
    order (.string s) (.string t) = List.compareLex Ord.compare (Text.bytes s) (Text.bytes t)
  array_eq (as bs : List Value) : order (.array as) (.array bs) = List.compareLex order as bs
  object_eq (as bs : List (Value × Value)) : order (.object as) (.object bs) =
    List.compareLex (compareLex (fun f g => order f.1 g.1) fun f g => order f.2 g.2) as bs
  set_eq (as bs : List Value) : order (.set as) (.set bs) = List.compareLex order as bs

theorem compare_lawful : IsLawfulOrder compare equal partialCompare := by
  refine ⟨fun a b => Std.OrientedCmp.eq_swap, ?_, ?_, ?_, equal_iff_compare_eq, equal_equivalence,
    fun a a' b b' => compare_congr, partialCompare_eq, ?_, ?_, ?_, ?_, ?_⟩
  · intro a b
    rw [le_iff_isLE, Ordering.isLE_iff_ne_gt]
  · intro a b
    have hswap : compare b a = (compare a b).swap := Std.OrientedCmp.eq_swap
    rw [le_iff_isLE, le_iff_isLE, hswap]
    cases compare a b <;> decide
  · intro a b c
    rw [le_iff_isLE, le_iff_isLE, le_iff_isLE]
    exact Std.TransCmp.isLE_trans
  · intro a b h
    rw [← kindRank_eq_idxOf, ← kindRank_eq_idxOf] at h
    exact compare_of_kindRank_lt h
  · intro s t
    rw [compare]
    rfl
  · intro as bs
    rw [compare, compareItems_eq_compareLex]
  · intro as bs
    rw [compare, compareFields_eq_compareLex]
    rfl
  · intro as bs
    rw [compare, compareItems_eq_compareLex]

theorem compare_lawful_nested :
    let a := Value.object [(.set [.number (.int 1)], .number (.float ⟨true, 2047, 1⟩))]
    let b := Value.object [(.set [.number (.float ⟨false, 1023, 0⟩)], .number (.float .nan))]
    let c := Value.set [.number (.float ⟨true, 0, 0⟩)]
    (a ≤ b ∧ b ≤ c ∧ a ≤ c) ∧ (equal a b = true ∧ equal c (.set [.number (.int 0)]) = true ∧
      compare a c = compare b (.set [.number (.int 0)])) ∧ compare a c = .lt := by
  intro a b c
  have hab : a ≤ b := by decide
  have hbc : b ≤ c := by decide
  have hequal : equal a b = true := by decide
  have hzero : equal c (.set [.number (.int 0)]) = true := by decide +kernel
  refine ⟨⟨hab, hbc, compare_lawful.le_trans a b c hab hbc⟩, ⟨hequal, hzero, ?_⟩, ?_⟩
  · exact compare_lawful.congr a b c (.set [.number (.int 0)]) hequal hzero
  · exact compare_lawful.lt_of_kind a c (by decide)

end PolicyYaml.Value
