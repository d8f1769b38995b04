import PolicyYaml.Proofs.Number.Order
import PolicyYaml.Proofs.Value.Equal
import PolicyYaml.Value.HashInput

/-!
Values are equal exactly if they write the same to a hasher. What a value writes shows where it ends, so the
writes of members that follow each other can be told apart.
-/

namespace PolicyYaml

theorem Double.word_injective {d e : Double} (h : d.word = e.word) : d = e := by
  have hd := d.rank_lt
  have he := e.rank_lt
  rw [word, word] at h
  have hrank : d.rank = e.rank := by
    split at h <;> split at h <;> omega
  refine eq_of_rank ?_ hrank
  cases hdn : d.negative <;> cases hen : e.negative <;>
    simp only [hdn, hen, hiddenBit, Bool.false_eq_true, ↓reduceIte] at h ⊢ <;> omega

theorem Double.eq_of_units_eq {d e : Double} (hd : d.isNaN = false) (he : e.isNaN = false) (h : d.units = e.units)
    (hne : d.units ≠ 0) : d = e := by
  rw [units_of_isNaN_eq_false hd] at h hne
  rw [units_of_isNaN_eq_false he] at h
  have hlt := magnitudeUnits_lt_iff d e
  have hgt := magnitudeUnits_lt_iff e d
  cases hdn : d.negative <;> cases hen : e.negative <;>
    simp only [hdn, hen, Bool.false_eq_true, ↓reduceIte] at h hne
  · exact eq_of_rank (hdn.trans hen.symm) (by omega)
  · omega
  · omega
  · exact eq_of_rank (hdn.trans hen.symm) (by omega)

namespace Number

theorem toInt64?_congr {m n : Number} (h : m.compare n = .eq) : m.toInt64? = n.toInt64? := by
  obtain ⟨hnan, hunits⟩ := (compare_eq_iff m n).mp h
  apply Option.ext
  intro i
  rw [toInt64?_eq_some_iff, toInt64?_eq_some_iff, hnan, hunits]

theorem exists_float_of_toInt64?_eq_none {n : Number} (h : n.toInt64? = none) : ∃ d, n = float d := by
  cases n with
  | int i => contradiction
  | float d => exact ⟨d, rfl⟩

theorem eq_of_compare_eq {d e : Double} (hd : d.isNaN = false) (hnone : (float d).toInt64? = none)
    (h : (float d).compare (float e) = .eq) : d = e := by
  obtain ⟨hnan, hunits⟩ := (compare_eq_iff _ _).mp h
  have he : e.isNaN = false := hnan.symm.trans hd
  apply Double.eq_of_units_eq hd he hunits
  intro hzero
  have hsome : (float d).toInt64? = some 0 := by
    rw [toInt64?_eq_some_iff]
    refine ⟨hd, ?_⟩
    rw [units, hzero]
    exact (Int.zero_mul _).symm
  rw [hnone] at hsome
  contradiction

theorem hashWrites_of_toInt64? {n : Number} {i : Int64} (h : n.toInt64? = some i) :
    n.hashWrites = [.byte 0, .word i.toUInt64.toNat] := by
  rw [hashWrites, h]

theorem hashWrites_of_isNaN {d : Double} (h : d.isNaN = true) : (float d).hashWrites = [.byte 1] := by
  have hnone : (float d).toInt64? = none := by
    rw [Option.eq_none_iff_forall_ne_some]
    intro i hi
    have hnan := ((toInt64?_eq_some_iff _ _).mp hi).1
    rw [isNaN, h] at hnan
    contradiction
  simp only [hashWrites, hnone, toDouble, h, ↓reduceIte]

theorem hashWrites_of_toInt64?_eq_none {d : Double} (h : (float d).toInt64? = none) (hd : d.isNaN = false) :
    (float d).hashWrites = [.byte 2, .word d.word] := by
  simp only [hashWrites, h, toDouble, hd, Bool.false_eq_true, ↓reduceIte]

theorem hashWrites_of_compare_eq {m n : Number} (h : m.compare n = .eq) : m.hashWrites = n.hashWrites := by
  have hint := toInt64?_congr h
  cases hn : n.toInt64? with
  | some i => rw [hashWrites_of_toInt64? (hint.trans hn), hashWrites_of_toInt64? hn]
  | none =>
    obtain ⟨e, rfl⟩ := exists_float_of_toInt64?_eq_none hn
    obtain ⟨d, rfl⟩ := exists_float_of_toInt64?_eq_none (hint.trans hn)
    have hnan : d.isNaN = e.isNaN := ((compare_eq_iff _ _).mp h).1
    cases hd : d.isNaN with
    | true => rw [hashWrites_of_isNaN hd, hashWrites_of_isNaN (hnan.symm.trans hd)]
    | false => rw [eq_of_compare_eq hd (hint.trans hn) h]

theorem hashWrites_cases (n : Number) :
    (∃ i, n.toInt64? = some i ∧ n.hashWrites = [.byte 0, .word i.toUInt64.toNat]) ∨
      (n.isNaN = true ∧ n.hashWrites = [.byte 1]) ∨
      ∃ d, n = float d ∧ n.hashWrites = [.byte 2, .word d.word] := by
  cases hn : n.toInt64? with
  | some i => exact .inl ⟨i, rfl, hashWrites_of_toInt64? hn⟩
  | none =>
    obtain ⟨d, rfl⟩ := exists_float_of_toInt64?_eq_none hn
    cases hd : d.isNaN with
    | true => exact .inr (.inl ⟨hd, hashWrites_of_isNaN hd⟩)
    | false => exact .inr (.inr ⟨d, rfl, hashWrites_of_toInt64?_eq_none hn hd⟩)

theorem toUInt64_injective {i j : Int64} (h : i.toUInt64.toNat = j.toUInt64.toNat) : i = j := by
  rw [← Int64.toInt64_toUInt64 i, UInt64.toNat_inj.mp h, Int64.toInt64_toUInt64]

theorem hashWrites_append_inj {m n : Number} {r s : List HashWrite} (h : m.hashWrites ++ r = n.hashWrites ++ s) :
    m.compare n = .eq ∧ r = s := by
  rcases hashWrites_cases m with ⟨i, hm, hmw⟩ | ⟨hm, hmw⟩ | ⟨d, rfl, hmw⟩
  · rcases hashWrites_cases n with ⟨j, hn, hnw⟩ | ⟨hn, hnw⟩ | ⟨e, rfl, hnw⟩
    · simp only [hmw, hnw, List.cons_append, List.nil_append, List.cons.injEq, HashWrite.word.injEq, true_and] at h
      obtain ⟨hmn, hmu⟩ := (toInt64?_eq_some_iff m i).mp hm
      obtain ⟨hnn, hnu⟩ := (toInt64?_eq_some_iff n j).mp hn
      rw [compare_eq_iff, hmn, hnn, hmu, hnu, toUInt64_injective h.1]
      exact ⟨⟨rfl, rfl⟩, h.2⟩
    · simp [hmw, hnw] at h
    · simp [hmw, hnw] at h
  · rcases hashWrites_cases n with ⟨j, hn, hnw⟩ | ⟨hn, hnw⟩ | ⟨e, rfl, hnw⟩
    · simp [hmw, hnw] at h
    · simp only [hmw, hnw, List.cons_append, List.nil_append, List.cons.injEq, true_and] at h
      rw [compare_eq_iff, hm, hn, units_of_isNaN hm, units_of_isNaN hn]
      exact ⟨⟨rfl, rfl⟩, h⟩
    · simp [hmw, hnw] at h
  · rcases hashWrites_cases n with ⟨j, hn, hnw⟩ | ⟨hn, hnw⟩ | ⟨e, rfl, hnw⟩
    · simp [hmw, hnw] at h
    · simp [hmw, hnw] at h
    · simp only [hmw, hnw, List.cons_append, List.nil_append, List.cons.injEq, HashWrite.word.injEq, true_and] at h
      rw [Double.word_injective h.1]
      exact ⟨Std.ReflCmp.compare_self, h.2⟩

end Number

namespace Value

/-- Whatever follows, the writes of the value are those of equal values only, and end where theirs end. -/
def HashesApart (a : Value) : Prop :=
  ∀ (b : Value) (r s : List HashWrite), a.hashWrites ++ r = b.hashWrites ++ s → equal a b = true ∧ r = s

theorem hashItems_append_inj {items items' : List Value} {r s : List HashWrite}
    (hapart : ∀ v ∈ items, v.HashesApart) (hlength : items.length = items'.length)
    (h : hashItems items ++ r = hashItems items' ++ s) : equalItems items items' = true ∧ r = s := by
  induction items generalizing items' with
  | nil =>
    cases items' with
    | nil => exact ⟨rfl, h⟩
    | cons w rest' => contradiction
  | cons v rest ih =>
    cases items' with
    | nil => contradiction
    | cons w rest' =>
      rw [hashItems, hashItems, List.append_assoc, List.append_assoc] at h
      obtain ⟨hv, hrest⟩ := hapart v (by simp) w _ _ h
      obtain ⟨hitems, hrs⟩ :=
        ih (fun x hx => hapart x (List.mem_cons_of_mem _ hx)) (Nat.succ.inj hlength) hrest
      rw [equalItems, hv, hitems]
      exact ⟨rfl, hrs⟩

theorem hashFields_append_inj {fields fields' : List (Value × Value)} {r s : List HashWrite}
    (hapart : ∀ f ∈ fields, f.1.HashesApart ∧ f.2.HashesApart) (hlength : fields.length = fields'.length)
    (h : hashFields fields ++ r = hashFields fields' ++ s) : equalFields fields fields' = true ∧ r = s := by
  induction fields generalizing fields' with
  | nil =>
    cases fields' with
    | nil => exact ⟨rfl, h⟩
    | cons g rest' => contradiction
  | cons f rest ih =>
    cases fields' with
    | nil => contradiction
    | cons g rest' =>
      obtain ⟨hkey, hvalue⟩ := hapart f (by simp)
      simp only [hashFields, List.append_assoc] at h
      obtain ⟨hk, h⟩ := hkey g.1 _ _ h
      obtain ⟨hv, h⟩ := hvalue g.2 _ _ h
      obtain ⟨hfields, hrs⟩ := ih (fun x hx => hapart x (List.mem_cons_of_mem _ hx)) (Nat.succ.inj hlength) h
      rw [equalFields, hk, hv, hfields]
      exact ⟨rfl, hrs⟩

theorem hashesApart (a : Value) : a.HashesApart := by
  -- The writes of a member go on with those of the members behind it, so what follows stays general.
  induction a using structuralInduction with
  | null | undefined =>
    intro b r s h
    cases b <;> simp [hashWrites, kindRank] at h
    exact ⟨rfl, h⟩
  | boolean a =>
    intro b r s h
    cases b with
    | boolean b =>
      cases a <;> cases b <;> simp [hashWrites] at h
      · exact ⟨rfl, h⟩
      · exact ⟨rfl, h⟩
    | _ => simp [hashWrites, kindRank] at h
  | number m =>
    intro b r s h
    cases b with
    | number n =>
      simp only [hashWrites, List.cons_append, List.cons.injEq] at h
      obtain ⟨hmn, hrs⟩ := Number.hashWrites_append_inj h.2
      rw [equal_iff_compare_eq, compare, hmn]
      exact ⟨rfl, hrs⟩
    | _ => simp [hashWrites, kindRank] at h
  | string s =>
    intro b r r' h
    cases b with
    | string t =>
      simp only [hashWrites, List.cons_append, List.nil_append, List.cons.injEq, HashWrite.run.injEq, true_and] at h
      rw [Text.bytes_injective h.2.1]
      exact ⟨by rw [equal, beq_self_eq_true], h.2.2⟩
    | _ => simp [hashWrites, kindRank] at h
  | array items ih =>
    intro b r s h
    cases b with
    | array items' =>
      simp only [hashWrites, List.cons_append, List.cons.injEq, HashWrite.word.injEq] at h
      rw [equal]
      exact hashItems_append_inj ih h.2.1 h.2.2
    | _ => simp [hashWrites, kindRank] at h
  | object fields ih =>
    intro b r s h
    cases b with
    | object fields' =>
      simp only [hashWrites, List.cons_append, List.cons.injEq, HashWrite.word.injEq] at h
      rw [equal]
      exact hashFields_append_inj ih h.2.1 h.2.2
    | _ => simp [hashWrites, kindRank] at h
  | set elements ih =>
    intro b r s h
    cases b with
    | set elements' =>
      simp only [hashWrites, List.cons_append, List.cons.injEq, HashWrite.word.injEq] at h
      rw [equal]
      exact hashItems_append_inj ih h.2.1 h.2.2
    | _ => simp [hashWrites, kindRank] at h

theorem hashItems_of_equal {items items' : List Value}
    (hwrites : ∀ v ∈ items, ∀ w, equal v w = true → v.hashWrites = w.hashWrites)
    (h : equalItems items items' = true) :
    items.length = items'.length ∧ hashItems items = hashItems items' := by
  induction items generalizing items' with
  | nil =>
    cases items' with
    | nil => exact ⟨rfl, rfl⟩
    | cons w rest' => contradiction
  | cons v rest ih =>
    cases items' with
    | nil => contradiction
    | cons w rest' =>
      rw [equalItems, Bool.and_eq_true] at h
      obtain ⟨hlength, hrest⟩ := ih (fun x hx => hwrites x (List.mem_cons_of_mem _ hx)) h.2
      rw [hashItems, hashItems, hwrites v (by simp) w h.1, hrest, List.length_cons, List.length_cons, hlength]
      exact ⟨rfl, rfl⟩

theorem hashFields_of_equal {fields fields' : List (Value × Value)}
    (hwrites : ∀ f ∈ fields, (∀ w, equal f.1 w = true → f.1.hashWrites = w.hashWrites) ∧
      ∀ w, equal f.2 w = true → f.2.hashWrites = w.hashWrites)
    (h : equalFields fields fields' = true) :
    fields.length = fields'.length ∧ hashFields fields = hashFields fields' := by
  induction fields generalizing fields' with
  | nil =>
    cases fields' with
    | nil => exact ⟨rfl, rfl⟩
    | cons g rest' => contradiction
  | cons f rest ih =>
    cases fields' with
    | nil => contradiction
    | cons g rest' =>
      rw [equalFields, Bool.and_eq_true, Bool.and_eq_true] at h
      obtain ⟨hkey, hvalue⟩ := hwrites f (by simp)
      obtain ⟨hlength, hrest⟩ := ih (fun x hx => hwrites x (List.mem_cons_of_mem _ hx)) h.2
      rw [hashFields, hashFields, hkey g.1 h.1.1, hvalue g.2 h.1.2, hrest, List.length_cons, List.length_cons,
        hlength]
      exact ⟨rfl, rfl⟩

theorem hashWrites_of_equal {a b : Value} (h : equal a b = true) : a.hashWrites = b.hashWrites := by
  induction a using structuralInduction generalizing b with
  | null | undefined => cases b <;> simp [equal] at h; rfl
  | boolean a =>
    cases b with
    | boolean b =>
      rw [equal, beq_iff_eq] at h
      rw [h]
    | _ => simp [equal] at h
  | number m =>
    cases b with
    | number n =>
      rw [equal_iff_compare_eq, compare] at h
      rw [hashWrites, hashWrites, Number.hashWrites_of_compare_eq h, kindRank, kindRank]
    | _ => simp [equal] at h
  | string s =>
    cases b with
    | string t =>
      rw [equal, beq_iff_eq] at h
      rw [h]
    | _ => simp [equal] at h
  | array items ih =>
    cases b with
    | array items' =>
      rw [equal] at h
      obtain ⟨hlength, hitems⟩ := hashItems_of_equal (fun v hv w => ih v hv) h
      rw [hashWrites, hashWrites, hlength, hitems, kindRank, kindRank]
    | _ => simp [equal] at h
  | object fields ih =>
    cases b with
    | object fields' =>
      rw [equal] at h
      obtain ⟨hlength, hfields⟩ :=
        hashFields_of_equal (fun f hf => ⟨fun w => (ih f hf).1, fun w => (ih f hf).2⟩) h
      rw [hashWrites, hashWrites, hlength, hfields, kindRank, kindRank]
    | _ => simp [equal] at h
  | set elements ih =>
    cases b with
    | set elements' =>
      rw [equal] at h
      obtain ⟨hlength, helements⟩ := hashItems_of_equal (fun v hv w => ih v hv) h
      rw [hashWrites, hashWrites, hlength, helements, kindRank, kindRank]
    | _ => simp [equal] at h

theorem hashWrites_number_eq {m n : Number} (hnan : m.isNaN = n.isNaN) (hunits : m.units = n.units) :
    (number m).hashWrites = (number n).hashWrites := by
  apply hashWrites_of_equal
  rw [equal_iff_compare_eq, compare, Number.compare_eq_iff]
  exact ⟨hnan, hunits⟩

theorem equal_iff_hashWrites_eq :
    (∀ a b : Value, equal a b = true ↔ a.hashWrites = b.hashWrites) ∧
      (∀ (i : Int64) (d : Double), d.isNaN = false → d.units = i.toInt * Double.unitsPerOne →
        (number (.int i)).hashWrites = (number (.float d)).hashWrites) ∧
      (∀ d e : Double, d.isZero = true → e.isZero = true →
        (number (.float d)).hashWrites = (number (.float e)).hashWrites) ∧
      ∀ d e : Double, d.isNaN = true → e.isNaN = true →
        (number (.float d)).hashWrites = (number (.float e)).hashWrites := by
  refine ⟨?iff, ?integer, ?zero, ?nan⟩
  case iff =>
    intro a b
    constructor
    · exact hashWrites_of_equal
    · intro h
      exact (hashesApart a b [] [] (congrArg (· ++ []) h)).1
  case integer =>
    intro i d hd hunits
    apply hashWrites_number_eq
    · rw [Number.isNaN, Number.isNaN, hd]
    · rw [Number.units, Number.units, hunits]
  case zero =>
    intro d e hd he
    apply hashWrites_number_eq
    · rw [Number.isNaN, Number.isNaN, Double.isNaN_of_isZero hd, Double.isNaN_of_isZero he]
    · rw [Number.units, Number.units, Double.units_of_isZero hd, Double.units_of_isZero he]
  case nan =>
    intro d e hd he
    apply hashWrites_number_eq
    · rw [Number.isNaN, Number.isNaN, hd, he]
    · rw [Number.units, Number.units, Double.units_of_isNaN hd, Double.units_of_isNaN he]

theorem equal_iff_hashWrites_eq_under_set_key :
    let a := Value.object [(.set [.number (.int 1)], .array [.number (.float ⟨true, 2047, 1⟩), .number (.int 0)])]
    let b := Value.object [(.set [.number (.float ⟨false, 1023, 0⟩)],
      .array [.number (.float .nan), .number (.float ⟨true, 0, 0⟩)])]
    a.hashWrites = b.hashWrites ∧ a.hashWrites ≠ (Value.set [a]).hashWrites ∧
      (number (.int 1)).hashWrites = (number (.float ⟨false, 1023, 0⟩)).hashWrites ∧
      (number (.float ⟨false, 0, 0⟩)).hashWrites = (number (.float ⟨true, 0, 0⟩)).hashWrites ∧
      (number (.float ⟨true, 2047, 1⟩)).hashWrites = (number (.float .nan)).hashWrites := by
  intro a b
  obtain ⟨hiff, hinteger, hzero, hnan⟩ := equal_iff_hashWrites_eq
  refine ⟨(hiff a b).mp (by decide +kernel), ?_, hinteger 1 _ rfl (by decide +kernel), hzero _ _ rfl rfl,
    hnan _ _ rfl rfl⟩
  intro h
  have hequal := (hiff a (.set [a])).mpr h
  contradiction

end Value

end PolicyYaml
