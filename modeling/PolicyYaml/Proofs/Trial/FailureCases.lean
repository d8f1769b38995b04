import PolicyYaml.Proofs.Ascending
import PolicyYaml.Proofs.Builtin.Contract
import PolicyYaml.Proofs.Builtin.WantText
import PolicyYaml.Trial.Failures

/-!
The generated failure cases expect of a builtin that checks its arguments what the check reports.
-/

namespace PolicyYaml

def Builtin.ChecksFirst (b : Builtin) (signature : Signature) : Prop :=
  ∀ context args e, validate args signature = .error e → (b context args).result = .error e

namespace TrialCase

def ExpectsRefusal (c : TrialCase) (signature : Signature) (e : BuiltinError) : Prop :=
  c.expected = .error e ∧ validate c.args signature = .error e

theorem result_run_of_expectsRefusal {c : TrialCase} {signature : Signature} {e : BuiltinError}
    (h : c.ExpectsRefusal signature e) {r : Registry} {b : Builtin} (hlookup : r.lookup c.builtin = some b)
    (hb : b.ChecksFirst signature) : (c.run r).result = true := by
  obtain ⟨hexpected, hrefused⟩ := h
  have houtcome : (r.invoke .unlimited c.builtin c.args true).result = .error e := by
    rw [Registry.result_invoke_strict hlookup, hb _ _ _ hrefused]
  simp only [run, Journaled.result_bind, Journaled.result_pure, accepts, houtcome, hexpected, beq_self_eq_true]

end TrialCase

namespace ArgumentTrial

theorem allowedText_of_length_ne {names : List String} (h : names.length ≠ 1) :
    allowedText names =
      "any<" ++ ", ".intercalate (names.mergeSort fun a b => Text.compareBytes a b != .gt) ++ ">" := by
  match names with
  | [] | _ :: _ :: _ => rfl
  | [_] => contradiction

theorem allowedText_eq_wantText {names : List String} {types : List TypeName} (hdistinct : types.Nodup)
    (hperm : names.Perm (types.map TypeName.name)) : allowedText names = wantText types := by
  have hlength : names.length = types.length := hperm.length_eq.trans (List.length_map _)
  by_cases hone : types.length = 1
  · obtain ⟨t, rfl⟩ := List.length_eq_one_iff.mp hone
    rw [List.perm_singleton.mp hperm]
    rfl
  · have hnames : names.Pairwise fun a b => Text.compareBytes a b ≠ .eq := by
      have hnodup : names.Nodup := hperm.nodup_iff.mpr (hdistinct.map fun _ _ => TypeName.name_injective)
      exact hnodup.imp fun hne heq => hne (Text.compareBytes_eq_iff.mp heq)
    rw [allowedText_of_length_ne (hlength ▸ hone), wantText_of_length_ne hone, distinctNames,
      Ascending.mergeSort_eq_ofList hnames, Ascending.ofList_eq_of_perm hperm hnames]

def sampledTypes (integers : Bool) : List TypeName :=
  [.array, .boolean, .null, if integers then .integer else .number, .object, .set, .string, .undefined]

def sampleOf : TypeName → Value
  | .array => .array [.number (.int 1), .number (.int 2), .number (.int 3)]
  | .boolean => .boolean false
  | .null => .null
  | .number | .integer => .number (.int 123)
  | .object => Value.ofFields [(.string "a", .number (.int 1))]
  | .set => Value.ofElements [.number (.int 0)]
  | .string => .string "hello"
  | .undefined => .undefined

theorem samples_eq_map (integers : Bool) :
    samples integers = (sampledTypes integers).map fun t => (t.name, sampleOf t) := by
  cases integers <;> rfl

theorem typeName_sampleOf {t : TypeName} (h : t ≠ .integer) : (sampleOf t).typeName = t := by
  cases t <;> first | rfl | contradiction

theorem ne_number_of_mem_sampledTypes {t : TypeName} (h : t ∈ sampledTypes true) : t ≠ .number := by
  rintro rfl
  revert h
  decide

theorem ne_integer_of_mem_sampledTypes {t : TypeName} (h : t ∈ sampledTypes false) : t ≠ .integer := by
  rintro rfl
  revert h
  decide

theorem sampleOf_ne_number {t : TypeName} (hnumber : t ≠ .number) (hinteger : t ≠ .integer) (i : Int64) :
    (sampleOf t).equal (.number (.int i)) = false := by
  cases t <;> first | rfl | contradiction

theorem not_takes_sampleOf {p : Param} {integers : Bool} (hintegers : integers = true ↔ .integer ∈ p.types)
    {t : TypeName} (hsampled : t ∈ sampledTypes integers) (hrefused : t ∉ p.types) :
    t ≠ .integer ∧ ¬p.Takes (sampleOf t) := by
  have hinteger : t ≠ .integer := by
    cases integers with
    | false => exact ne_integer_of_mem_sampledTypes hsampled
    | true => exact fun ht => hrefused (ht ▸ hintegers.mp rfl)
  refine ⟨hinteger, ?_⟩
  rintro (htype | ⟨hallowed, i, hequal⟩)
  · rw [typeName_sampleOf hinteger] at htype
    exact hrefused htype
  · rw [← hintegers] at hallowed
    subst hallowed
    rw [sampleOf_ne_number (ne_number_of_mem_sampledTypes hsampled) hinteger] at hequal
    contradiction

end ArgumentTrial

theorem length_eq_of_validate {args : List Value} {signature : Signature} (h : validate args signature = .ok ()) :
    args.length = signature.length := by
  rw [validate_eq_ok_iff] at h
  exact h.length_eq

theorem validate_set_of_not_takes {args : List Value} {signature : Signature} (h : validate args signature = .ok ())
    {i : Nat} {p : Param} (hp : signature[i]? = some p) {v : Value} (hv : ¬p.Takes v) :
    validate (args.set i v) signature = .error (.argumentType p.name v.typeName.name (wantText p.types)) := by
  have hlength := length_eq_of_validate h
  obtain ⟨hi', rfl⟩ := List.getElem?_eq_some_iff.mp hp
  have hi : i < (args.set i v).length := by rwa [List.length_set, hlength]
  have hself : (args.set i v)[i] = v := List.getElem_set_self hi
  rw [validate_eq_ok_iff, List.forall₂_iff_get] at h
  rw [validate_of_length_eq (by rwa [List.length_set]), checkTypes_of_leftmost hi hi' ?_ (by rwa [hself]), hself]
  intro j hj
  rw [List.getElem_set_ne (Nat.ne_of_gt hj)]
  exact h.2 j _ _

namespace ArgumentTrial

/-- That a parameter of a signature is tried out on a call that is let through, with what it allows as it lists
it, in any order. -/
structure IsFor (t : ArgumentTrial) (signature : Signature) (p : Param) : Prop where
  accepted : validate t.sample signature = .ok ()
  position : signature[t.index]? = some p
  distinct : p.types.Nodup
  param_eq : t.param = p.name
  allowed_perm : t.allowed.Perm (p.types.map TypeName.name)
  want_eq : t.want = none
  numberAsInteger_iff : t.numberAsInteger = true ↔ .integer ∈ p.types

variable {t : ArgumentTrial} {signature : Signature} {p : Param}

theorem IsFor.contains_allowed (h : t.IsFor signature p) (type : TypeName) :
    t.allowed.contains type.name = true ↔ type ∈ p.types := by
  rw [List.contains_iff_mem, h.allowed_perm.mem_iff, List.mem_map]
  constructor
  · rintro ⟨other, hother, hname⟩
    rwa [← TypeName.name_injective hname]
  · exact fun hmem => ⟨type, hmem, rfl⟩

def refused (t : ArgumentTrial) : List (String × Value) :=
  (samples t.numberAsInteger).filter fun s => !t.allowed.contains s.1

theorem IsFor.exists_type_of_mem_refused (h : t.IsFor signature p) {s : String × Value} (hs : s ∈ t.refused) :
    s.2.typeName.name = s.1 ∧ ¬p.Takes s.2 := by
  obtain ⟨hsample, hnot⟩ := List.mem_filter.mp hs
  rw [samples_eq_map] at hsample
  obtain ⟨type, htype, rfl⟩ := List.mem_map.mp hsample
  rw [Bool.not_eq_true', ← Bool.not_eq_true, h.contains_allowed] at hnot
  obtain ⟨hinteger, htakes⟩ := not_takes_sampleOf h.numberAsInteger_iff htype hnot
  exact ⟨congrArg TypeName.name (typeName_sampleOf hinteger), htakes⟩

theorem IsFor.typeCases_eq (h : t.IsFor signature p) :
    t.typeCases = some (t.refused.map fun s => t.typeCase (wantText p.types) s.1 s.2) := by
  have hindex : t.index < t.sample.length := by
    rw [length_eq_of_validate h.accepted]
    exact (List.getElem?_eq_some_iff.mp h.position).1
  rw [typeCases, h.want_eq, Option.getD_none, allowedText_eq_wantText h.distinct h.allowed_perm]
  exact if_pos (.inr hindex)

theorem IsFor.expectsRefusal_typeCase (h : t.IsFor signature p) {s : String × Value} (hs : s ∈ t.refused) :
    (t.typeCase (wantText p.types) s.1 s.2).ExpectsRefusal signature
      (.argumentType p.name s.1 (wantText p.types)) := by
  obtain ⟨hname, htakes⟩ := h.exists_type_of_mem_refused hs
  refine ⟨by rw [typeCase, h.param_eq], ?_⟩
  rw [typeCase, validate_set_of_not_takes h.accepted h.position htakes, hname]

theorem args_countCases (builtin : String) {sample : List Value} (h : sample.length = signature.length) :
    (countCases builtin sample).map TrialCase.args =
      (if signature = [] then [] else [[]]) ++ [sample ++ [.null]] := by
  cases sample with
  | nil =>
    obtain rfl := List.length_eq_zero_iff.mp h.symm
    rfl
  | cons v rest =>
    have hne : signature ≠ [] := List.ne_nil_of_length_eq_add_one h.symm
    rw [if_neg hne]
    rfl

theorem mem_countCases {builtin : String} {sample : List Value} {c : TrialCase} (hc : c ∈ countCases builtin sample) :
    c.builtin = builtin ∧ c.expected = .error (.argumentCount c.args.length sample.length) ∧
      c.args.length ≠ sample.length := by
  cases sample with
  | nil =>
    rw [List.mem_singleton.mp hc]
    exact ⟨rfl, rfl, Nat.one_ne_zero⟩
  | cons v rest =>
    rcases List.mem_pair.mp hc with rfl | rfl
    · exact ⟨rfl, rfl, Nat.zero_ne_add_one _⟩
    · rw [List.length_append]
      exact ⟨rfl, rfl, Nat.succ_ne_self _⟩

theorem expectsRefusal_of_mem_countCases {builtin : String} {sample : List Value}
    (h : sample.length = signature.length) {c : TrialCase} (hc : c ∈ countCases builtin sample) :
    c.ExpectsRefusal signature (.argumentCount c.args.length signature.length) := by
  obtain ⟨-, hexpected, hlength⟩ := mem_countCases hc
  rw [h] at hexpected hlength
  exact ⟨hexpected, validate_of_length_ne hlength⟩

theorem IsFor.cases_eq (h : t.IsFor signature p) :
    t.cases = some ((if t.withCounts then countCases t.builtin t.sample else []) ++
      t.refused.map fun s => t.typeCase (wantText p.types) s.1 s.2) := by
  rw [cases, h.typeCases_eq]
  rfl

theorem IsFor.expectsRefusal_of_mem (h : t.IsFor signature p) {cases : List TrialCase} (hcases : t.cases = some cases)
    {c : TrialCase} (hc : c ∈ cases) : c.builtin = t.builtin ∧ ∃ e, c.ExpectsRefusal signature e := by
  rw [h.cases_eq, Option.some.injEq] at hcases
  subst hcases
  rcases List.mem_append.mp hc with hcount | htype
  · split at hcount
    · exact ⟨(mem_countCases hcount).1, _, expectsRefusal_of_mem_countCases (length_eq_of_validate h.accepted) hcount⟩
    · contradiction
  · obtain ⟨s, hs, rfl⟩ := List.mem_map.mp htype
    exact ⟨rfl, _, h.expectsRefusal_typeCase hs⟩

theorem failure_cases_right (signature : Signature) :
    (∀ sample, validate sample signature = .ok () → ∀ builtin,
      (countCases builtin sample).map TrialCase.args =
        (if signature = [] then [] else [[]]) ++ [sample ++ [.null]] ∧
      ∀ c ∈ countCases builtin sample, c.builtin = builtin ∧
        c.ExpectsRefusal signature (.argumentCount c.args.length signature.length) ∧
        ∀ (r : Registry) (b : Builtin), r.lookup builtin = some b → b.ChecksFirst signature →
          (c.run r).result = true) ∧
    (∀ integers, ((samples integers).map Prod.fst).Pairwise fun a b => Text.compareBytes a b = .lt) ∧
    ∀ (t : ArgumentTrial) (p : Param), t.IsFor signature p →
      allowedText t.allowed = wantText p.types ∧
      ∃ types, t.cases = some ((if t.withCounts then countCases t.builtin t.sample else []) ++ types) ∧
        List.Forall₂ (fun s c => c.description = p.name ++ " argument has incorrect type - " ++ s.1 ∧
            c.builtin = t.builtin ∧ c.args = t.sample.set t.index s.2 ∧
            c.ExpectsRefusal signature (.argumentType p.name s.1 (wantText p.types)))
          ((samples t.numberAsInteger).filter fun s => !t.allowed.contains s.1) types ∧
        ∀ (r : Registry) (b : Builtin), r.lookup t.builtin = some b → b.ChecksFirst signature →
          ∀ c ∈ (if t.withCounts then countCases t.builtin t.sample else []) ++ types, (c.run r).result = true := by
  refine ⟨?_, ?_, ?_⟩
  · intro sample hok builtin
    have hlength := length_eq_of_validate hok
    refine ⟨args_countCases builtin hlength, fun c hc => ?_⟩
    obtain ⟨rfl, -⟩ := mem_countCases hc
    have hrefusal := expectsRefusal_of_mem_countCases hlength hc
    exact ⟨rfl, hrefusal, fun r b hlookup hb => TrialCase.result_run_of_expectsRefusal hrefusal hlookup hb⟩
  · intro integers
    cases integers <;> decide
  · intro t p h
    refine ⟨allowedText_eq_wantText h.distinct h.allowed_perm, _, h.cases_eq, ?_, ?_⟩
    · change List.Forall₂ _ t.refused _
      rw [List.forall₂_map_right_iff, List.forall₂_same]
      intro s hs
      exact ⟨by rw [typeCase, h.param_eq], rfl, rfl, h.expectsRefusal_typeCase hs⟩
    · intro r b hlookup hb c hc
      obtain ⟨hbuiltin, e, hrefusal⟩ := h.expectsRefusal_of_mem h.cases_eq hc
      exact TrialCase.result_run_of_expectsRefusal hrefusal (hbuiltin ▸ hlookup) hb

theorem failure_cases_right_at_integers :
    let signature : Signature := [⟨"a", [.array]⟩, ⟨"n", [.string, .integer]⟩]
    let sample : List Value := [.array [], .number (.float ⟨false, 1024, 2251799813685248⟩)]
    let b : Builtin := fun _ args => pure ((validate args signature).map fun _ => .null)
    let r : Registry := ⟨NameMap.ofList [("b", b)], false⟩
    let t : ArgumentTrial := ⟨"b", sample, 1, "n", ["number[integer]", "string"], none, true, true⟩
    ((countCases "b" sample).map TrialCase.args = [[], sample ++ [.null]] ∧
      ∀ c ∈ countCases "b" sample, (c.run r).result = true) ∧
    (t.IsFor signature ⟨"n", [.string, .integer]⟩ ∧ allowedText t.allowed = wantText [.string, .integer]) ∧
      ∃ cases, t.cases = some cases ∧ cases.length = 8 ∧ ∀ c ∈ cases, (c.run r).result = true := by
  intro signature sample b r t
  obtain ⟨hcounts, -, htrials⟩ := failure_cases_right signature
  have haccepted : validate sample signature = .ok () := by decide +kernel
  have hlookup : r.lookup "b" = some b := NameMap.get?_insert ∅ "b" b "b"
  have hchecks : b.ChecksFirst signature := by
    intro context args e h
    change (validate args signature).map _ = _
    rw [h]
    rfl
  have hfor : t.IsFor signature ⟨"n", [.string, .integer]⟩ :=
    { accepted := haccepted
      position := rfl
      distinct := by decide
      param_eq := rfl
      allowed_perm := .swap _ _ _
      want_eq := rfl
      numberAsInteger_iff := by decide }
  obtain ⟨hargs, hcases⟩ := hcounts sample haccepted "b"
  obtain ⟨hwant, types, heq, htypes, hrun⟩ := htrials t _ hfor
  refine ⟨⟨hargs, fun c hc => (hcases c hc).2.2 r b hlookup hchecks⟩, ⟨hfor, hwant⟩, _, heq, ?_, hrun r b hlookup hchecks⟩
  rw [List.length_append, ← htypes.length_eq]
  decide

end ArgumentTrial

end PolicyYaml
