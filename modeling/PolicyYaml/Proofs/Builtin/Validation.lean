import Mathlib.Data.List.Forall2
import PolicyYaml.Builtin.Signature
import PolicyYaml.Proofs.Number.Exact
import PolicyYaml.Proofs.Value.OrderLaws

namespace PolicyYaml

namespace Param

/-- Whether a parameter takes an argument: the type of it is allowed, or integers are and it equals one. -/
def Takes (p : Param) (v : Value) : Prop :=
  v.typeName ∈ p.types ∨ TypeName.integer ∈ p.types ∧ ∃ i : Int64, v.equal (.number (.int i)) = true

theorem takes_number_iff (p : Param) (n : Number) :
    p.Takes (.number n) ↔ TypeName.number ∈ p.types ∨ TypeName.integer ∈ p.types ∧ n.isInteger = true := by
  simp only [Takes, Value.typeName, Value.equal, Number.isInteger_iff_equal]

theorem takes_iff_of_not_number {p : Param} {v : Value} (h : v.typeName ≠ .number) :
    p.Takes v ↔ v.typeName ∈ p.types := by
  cases v with
  | number n => contradiction
  | _ => simp [Takes, Value.equal]

theorem observedType_of_not_number {v : Value} (h : v.typeName ≠ .number) (types : List TypeName) :
    observedType v types = v.typeName := by
  cases v with
  | number n => contradiction
  | _ => rfl

theorem observedType_number (n : Number) (types : List TypeName) :
    observedType (.number n) types =
      if n.isInteger = true ∧ TypeName.integer ∈ types ∧ TypeName.number ∉ types then .integer else .number := by
  simp only [observedType, Bool.and_eq_true, List.contains_iff_mem, Bool.not_eq_true', ← Bool.not_eq_true, and_assoc]

theorem exists_number_of_typeName {v : Value} (h : v.typeName = .number) : ∃ n, v = .number n := by
  cases v with
  | number n => exact ⟨n, rfl⟩
  | _ => contradiction

theorem accepts_observedType (p : Param) (v : Value) : p.accepts (observedType v p.types) = true ↔ p.Takes v := by
  rw [accepts, List.contains_iff_mem]
  by_cases hv : v.typeName = .number
  · obtain ⟨n, rfl⟩ := exists_number_of_typeName hv
    rw [takes_number_iff, observedType_number]
    split
    · rename_i h
      exact iff_of_true h.2.1 (.inr ⟨h.2.1, h.1⟩)
    · rename_i h
      refine ⟨.inl, ?_⟩
      rintro (hnumber | ⟨hinteger, hn⟩)
      · exact hnumber
      · by_contra hnot
        exact h ⟨hn, hinteger, hnot⟩
  · rw [takes_iff_of_not_number hv, observedType_of_not_number hv]

theorem observedType_of_not_takes {p : Param} {v : Value} (h : ¬p.Takes v) : observedType v p.types = v.typeName := by
  by_cases hv : v.typeName = .number
  · obtain ⟨n, rfl⟩ := exists_number_of_typeName hv
    rw [takes_number_iff, not_or] at h
    rw [observedType_number, if_neg fun hinteger => h.2 ⟨hinteger.2.1, hinteger.1⟩]
    rfl
  · exact observedType_of_not_number hv _

theorem takes_of_subset {p q : Param} {v : Value} (h : ∀ t ∈ p.types, t ∈ q.types) (hv : p.Takes v) : q.Takes v :=
  hv.imp (h _) fun hinteger => ⟨h _ hinteger.1, hinteger.2⟩

end Param

theorem Value.typeName_ne_integer (v : Value) : v.typeName ≠ .integer := by
  cases v <;> simp [typeName]

theorem Value.typeName_eq_of_equal {v w : Value} (h : v.equal w = true) : v.typeName = w.typeName := by
  cases v <;> cases w <;> first | rfl | (simp [Value.equal] at h)

theorem Param.takes_congr {v w : Value} (h : v.equal w = true) (p : Param) : p.Takes v ↔ p.Takes w := by
  have hsame : ∀ i : Int64, v.equal (.number (.int i)) = true ↔ w.equal (.number (.int i)) = true := by
    intro i
    exact ⟨Value.equal_equivalence.trans (Value.equal_equivalence.symm h), Value.equal_equivalence.trans h⟩
  simp only [Takes, Value.typeName_eq_of_equal h, hsame]

theorem checkTypes_of_takes {p : Param} {v : Value} (h : p.Takes v) (args : List Value) (params : Signature) :
    checkTypes (v :: args) (p :: params) = checkTypes args params := by
  rw [checkTypes, if_pos ((p.accepts_observedType v).mpr h)]

theorem checkTypes_of_not_takes {p : Param} {v : Value} (h : ¬p.Takes v) (args : List Value) (params : Signature) :
    checkTypes (v :: args) (p :: params) = .error (.argumentType p.name v.typeName.name (wantText p.types)) := by
  rw [checkTypes, if_neg fun haccepts => h ((p.accepts_observedType v).mp haccepts), Param.observedType_of_not_takes h,
    BuiltinError.typeMismatch]

theorem checkTypes_eq_ok_iff {args : List Value} {signature : Signature} (h : args.length = signature.length) :
    checkTypes args signature = .ok () ↔ List.Forall₂ (fun v p => p.Takes v) args signature := by
  induction args generalizing signature with
  | nil =>
    obtain rfl := List.length_eq_zero_iff.mp h.symm
    exact iff_of_true rfl .nil
  | cons v args ih =>
    cases signature with
    | nil => contradiction
    | cons p params =>
      rw [List.forall₂_cons, ← ih (Nat.succ.inj h)]
      by_cases hp : p.Takes v
      · rw [checkTypes_of_takes hp, and_iff_right hp]
      · rw [checkTypes_of_not_takes hp]
        exact iff_of_false (by simp) fun hboth => hp hboth.1

theorem checkTypes_of_leftmost {args : List Value} {signature : Signature} {i : Nat} (hi : i < args.length)
    (hi' : i < signature.length) (hbefore : ∀ j (hj : j < i), signature[j].Takes args[j])
    (h : ¬signature[i].Takes args[i]) :
    checkTypes args signature =
      .error (.argumentType signature[i].name args[i].typeName.name (wantText signature[i].types)) := by
  induction i generalizing args signature with
  | zero =>
    obtain ⟨v, args, rfl⟩ := List.exists_cons_of_length_pos hi
    obtain ⟨p, params, rfl⟩ := List.exists_cons_of_length_pos hi'
    exact checkTypes_of_not_takes h args params
  | succ i ih =>
    obtain ⟨v, args, rfl⟩ := List.exists_cons_of_length_pos (Nat.zero_lt_of_lt hi)
    obtain ⟨p, params, rfl⟩ := List.exists_cons_of_length_pos (Nat.zero_lt_of_lt hi')
    have hfirst : p.Takes v := hbefore 0 i.succ_pos
    rw [checkTypes_of_takes hfirst]
    exact ih (Nat.lt_of_succ_lt_succ hi) (Nat.lt_of_succ_lt_succ hi')
      (fun j hj => hbefore (j + 1) (Nat.succ_lt_succ hj)) h

theorem checkTypes_congr {args args' : List Value} (h : List.Forall₂ (fun v w => v.equal w = true) args args')
    (signature : Signature) : checkTypes args signature = checkTypes args' signature := by
  induction h generalizing signature with
  | nil => rfl
  | @cons v w args args' hvw _ ih =>
    cases signature with
    | nil => rfl
    | cons p params =>
      have hsame := p.takes_congr hvw
      by_cases hp : p.Takes v
      · rw [checkTypes_of_takes hp, checkTypes_of_takes (hsame.mp hp), ih]
      · rw [checkTypes_of_not_takes hp, checkTypes_of_not_takes fun hw => hp (hsame.mpr hw),
          Value.typeName_eq_of_equal hvw]

theorem validate_of_length_ne {args : List Value} {signature : Signature} (h : args.length ≠ signature.length) :
    validate args signature = .error (.argumentCount args.length signature.length) := if_pos h

theorem validate_of_length_eq {args : List Value} {signature : Signature} (h : args.length = signature.length) :
    validate args signature = checkTypes args signature := if_neg fun hne => hne h

theorem validate_eq_ok_iff (args : List Value) (signature : Signature) :
    validate args signature = .ok () ↔ List.Forall₂ (fun v p => p.Takes v) args signature := by
  by_cases h : args.length = signature.length
  · rw [validate_of_length_eq h, checkTypes_eq_ok_iff h]
  · rw [validate_of_length_ne h]
    exact iff_of_false (by simp) fun htakes => h htakes.length_eq

theorem validate_mono {signature signature' : Signature}
    (h : List.Forall₂ (fun p q => ∀ t ∈ p.types, t ∈ q.types) signature signature') {args : List Value}
    (hok : validate args signature = .ok ()) : validate args signature' = .ok () := by
  rw [validate_eq_ok_iff] at hok ⊢
  induction hok generalizing signature' with
  | nil =>
    cases h
    exact .nil
  | cons htakes _ ih =>
    cases h with
    | cons hp hrest => exact .cons (Param.takes_of_subset hp htakes) (ih hrest)

theorem validate_congr {args args' : List Value} (h : List.Forall₂ (fun v w => v.equal w = true) args args')
    (signature : Signature) : validate args signature = validate args' signature := by
  rw [validate, validate, h.length_eq, checkTypes_congr h]

theorem validate_positionwise (signature : Signature) :
    (∀ args : List Value, validate args signature = .ok () ↔
      args.length = signature.length ∧
        ∀ i (_ : i < args.length) (_ : i < signature.length), signature[i].Takes args[i]) ∧
    (∀ args : List Value, args.length ≠ signature.length →
      validate args signature = .error (.argumentCount args.length signature.length)) ∧
    (∀ args : List Value, args.length = signature.length → ∀ i (_ : i < args.length) (_ : i < signature.length),
      (∀ j (_ : j < i), signature[j].Takes args[j]) → ¬signature[i].Takes args[i] →
      validate args signature =
        .error (.argumentType signature[i].name args[i].typeName.name (wantText signature[i].types)) ∧
      args[i].typeName.name ≠ TypeName.integer.name) ∧
    (∀ args args' : List Value, List.Forall₂ (fun v w => v.equal w = true) args args' →
      validate args signature = validate args' signature) ∧
    (∀ signature', List.Forall₂ (fun p q => ∀ t, t ∈ p.types ↔ t ∈ q.types) signature signature' → ∀ args,
      validate args signature = .ok () ↔ validate args signature' = .ok ()) ∧
    ∀ signature', List.Forall₂ (fun p q => ∀ t ∈ p.types, t ∈ q.types) signature signature' →
      ∀ args, validate args signature = .ok () → validate args signature' = .ok () := by
  refine ⟨?_, fun args => validate_of_length_ne, ?_, fun args args' h => validate_congr h signature, ?_, ?_⟩
  · intro args
    rw [validate_eq_ok_iff, List.forall₂_iff_get]
    rfl
  · intro args hlength i hi hi' hbefore h
    rw [validate_of_length_eq hlength, checkTypes_of_leftmost hi hi' hbefore h]
    exact ⟨rfl, fun hname => args[i].typeName_ne_integer (TypeName.name_injective hname)⟩
  · intro signature' h args
    constructor
    · exact validate_mono (h.imp fun p q hpq t => (hpq t).mp)
    · exact validate_mono (h.flip.imp fun q p hpq t => (hpq t).mpr)
  · intro signature' h args
    exact validate_mono h

theorem validate_positionwise_at_integers :
    let signature : Signature := [⟨"a", [.string, .array]⟩, ⟨"n", [.integer]⟩]
    let three : Value := .number (.float ⟨false, 1024, 2251799813685248⟩)
    let half : Value := .number (.float ⟨false, 1022, 0⟩)
    validate [.string "s", three] signature = .ok () ∧
      validate [.null] signature = .error (.argumentCount 1 2) ∧
      validate [.string "s", half] signature = .error (.argumentType "n" "number" "number[integer]") ∧
      validate [.string "s", three] signature = validate [.string "s", .number (.int 3)] signature ∧
      validate [.string "s", three] [⟨"a", [.array, .string, .array]⟩, ⟨"n", [.integer, .integer]⟩] = .ok () ∧
      validate [.string "s", three] [⟨"a", [.null, .array, .string]⟩, ⟨"n", [.number, .integer]⟩] = .ok () := by
  intro signature three half
  obtain ⟨hok, hcount, htype, hequal, hsame, hmore⟩ := validate_positionwise signature
  have hthree : three.equal (.number (.int 3)) = true := by decide +kernel
  have haccepted : validate [.string "s", three] signature = .ok () := by
    refine (hok _).mpr ⟨rfl, fun i hi hi' => ?_⟩
    match i with
    | 0 => exact .inl List.mem_cons_self
    | 1 => exact .inr ⟨List.mem_cons_self, 3, hthree⟩
  refine ⟨haccepted, hcount _ (by decide), ?_, ?_, ?_, ?_⟩
  · refine (htype [.string "s", half] rfl 1 (by decide) (by decide) ?_ ?_).1
    · intro j hj
      obtain rfl : j = 0 := by omega
      exact .inl List.mem_cons_self
    · change ¬(Param.mk "n" [.integer]).Takes half
      rw [Param.takes_number_iff]
      decide +kernel
  · exact hequal _ _ (.cons (by decide) (.cons hthree .nil))
  · refine (hsame _ ?_ _).mp haccepted
    refine .cons (fun t => ?_) (.cons (fun t => ?_) .nil)
    · cases t <;> decide
    · cases t <;> decide
  · refine hmore _ ?_ _ haccepted
    exact .cons (by decide) (.cons (by decide) .nil)

end PolicyYaml
