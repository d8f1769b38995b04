import PolicyYaml.Proofs.Builtin.Merge
import PolicyYaml.Proofs.Builtin.Validation
import PolicyYaml.Proofs.Codec.Outcome

namespace PolicyYaml

theorem validate_anyParam (v : Value) : validate [v] Builtin.anyParam = .ok () := by
  rw [validate_eq_ok_iff]
  exact .cons (.inl ((TypeName.mem_ofValues_iff _).mpr v.typeName_ne_integer)) .nil

theorem validate_textParam_of_not_string {v : Value} (h : v.asString? = none) :
    validate [v] Builtin.textParam = .error (.argumentType "x" v.typeName.name TypeName.string.name) := by
  have hrefused : ¬(Param.mk "x" [.string]).Takes v := by
    rintro (htype | ⟨hinteger, -⟩)
    · cases v <;> contradiction
    · contradiction
  exact checkTypes_of_not_takes hrefused [] []

namespace Builtin

theorem textArg_of_length_ne {args : List Value} (h : args.length ≠ 1) :
    textArg args = .error (.argumentCount args.length 1) := by
  match args with
  | [] => rfl
  | v :: _ :: _ => cases v <;> rfl
  | [_] => contradiction

theorem onlyArg_of_length_ne {args : List Value} (h : args.length ≠ 1) :
    onlyArg args = .error (.argumentCount args.length 1) := by
  match args with
  | [] | _ :: _ :: _ => rfl
  | [_] => contradiction

theorem textArg_of_not_string {v : Value} (h : v.asString? = none) :
    textArg [v] = .error (.argumentType "x" v.typeName.name TypeName.string.name) := by
  cases v <;> first | rfl | contradiction

theorem validate_textParam (args : List Value) :
    validate args textParam = (textArg args).map fun _ => () := by
  by_cases hlength : args.length = 1
  · obtain ⟨v, rfl⟩ := List.length_eq_one_iff.mp hlength
    cases hv : v.asString? with
    | none => rw [validate_textParam_of_not_string hv, textArg_of_not_string hv]; rfl
    | some s => cases v <;> first | rfl | contradiction
  · rw [validate_of_length_ne hlength, textArg_of_length_ne hlength]
    rfl

theorem validate_anyParam_eq (args : List Value) :
    validate args anyParam = (onlyArg args).map fun _ => () := by
  by_cases hlength : args.length = 1
  · obtain ⟨v, rfl⟩ := List.length_eq_one_iff.mp hlength
    exact validate_anyParam v
  · rw [validate_of_length_ne hlength, onlyArg_of_length_ne hlength]
    rfl

theorem result_isValid (context : CallContext) (args : List Value) :
    (isValid context args).result = (textArg args).map fun text => .boolean (Codec.isValid text) := by
  rw [isValid, validate_textParam]
  cases textArg args <;> rfl

theorem result_unmarshal (context : CallContext) (args : List Value) :
    (unmarshal context args).result = textArg args >>= fun text => (Codec.unmarshal text).mapError .codec := by
  rw [unmarshal, validate_textParam]
  cases textArg args with
  | error e => rfl
  | ok text =>
    simp only [Except.map, Journaled.result_pure, bind, Except.bind]
    cases Codec.unmarshal text <;> rfl

theorem result_marshal (context : CallContext) (args : List Value) :
    (marshal context args).result =
      onlyArg args >>= fun v => ((Codec.marshal v).map .string).mapError .codec := by
  rw [marshal, validate_anyParam_eq]
  cases onlyArg args with
  | error e => rfl
  | ok v =>
    simp only [Except.map, Journaled.result_pure, bind, Except.bind]
    cases Codec.marshal v <;> rfl

end Builtin

theorem Registry.result_invoke_strict {r : Registry} {name : String} {b : Builtin} (h : r.lookup name = some b)
    (context : CallContext) (args : List Value) :
    (r.invoke context name args true).result = (b context args).result := by
  rw [invoke, h]
  simp only [Journaled.result_bind]
  cases (b context args).result <;> rfl

/-- That a call which takes one text is answered by an error for other arguments, and for a text as `onText` has
it. -/
structure AnswersText (args : List Value) (answer : Except BuiltinError Value) (onText : String → Prop) : Prop where
  of_count : args.length ≠ 1 → answer = .error (.argumentCount args.length 1)
  of_type : ∀ v, args = [v] → v.asString? = none → answer = .error (.argumentType "x" v.typeName.name "string")
  of_text : ∀ s, args = [.string s] → onText s

theorem answersText {args : List Value} {answer : Except BuiltinError Value} {onText : String → Prop}
    {read : String → Except BuiltinError Value} (hanswer : answer = Builtin.textArg args >>= read)
    (hread : ∀ s, answer = read s → onText s) : AnswersText args answer onText := by
  refine ⟨?_, ?_, ?_⟩
  · intro hlength
    rw [hanswer, Builtin.textArg_of_length_ne hlength]
    rfl
  · rintro v rfl hv
    rw [hanswer, Builtin.textArg_of_not_string hv]
    rfl
  · rintro s rfl
    exact hread s hanswer

namespace Builtin

theorem answersText_isValid (context : CallContext) (args : List Value) :
    AnswersText args (isValid context args).result fun s =>
      (isValid context args).result = .ok (.boolean (Codec.isValid s)) := by
  have hanswer : (isValid context args).result =
      textArg args >>= fun s => .ok (.boolean (Codec.isValid s)) := by
    rw [result_isValid]
    cases textArg args <;> rfl
  exact answersText hanswer fun s h => h

theorem answersText_unmarshal (context : CallContext) (args : List Value) :
    AnswersText args (unmarshal context args).result fun s =>
      (∃ v, (unmarshal context args).result = .ok v ∧ Codec.unmarshal s = .ok v ∧ v.IsPlain) ∨
        ∃ reason, (unmarshal context args).result = .error (.codec (.parseFailure reason)) ∧
          Codec.unmarshal s = .error (.parseFailure reason) := by
  apply answersText (result_unmarshal context args)
  intro s hanswer
  cases hs : Codec.unmarshal s with
  | ok v =>
    rw [hs] at hanswer
    exact .inl ⟨v, hanswer, rfl, Codec.isPlain_of_unmarshal hs⟩
  | error e =>
    obtain ⟨reason, rfl⟩ := Codec.exists_parseFailure_of_unmarshal hs
    rw [hs] at hanswer
    exact .inr ⟨reason, hanswer, rfl⟩

theorem result_marshal_cases (context : CallContext) (v : Value) :
    (∃ text, (marshal context [v]).result = .ok (.string text) ∧ Codec.marshal v = .ok text) ∨
      (∃ path, (marshal context [v]).result = .error (.codec (.unsupportedValue path)) ∧
        Codec.marshal v = .error (.unsupportedValue path)) ∨
      ∃ path, (marshal context [v]).result = .error (.codec (.keyCollision path)) ∧
        Codec.marshal v = .error (.keyCollision path) := by
  have hanswer : (marshal context [v]).result = ((Codec.marshal v).map .string).mapError .codec :=
    result_marshal context [v]
  rw [hanswer]
  cases hv : Codec.marshal v with
  | ok text => exact .inl ⟨text, rfl, rfl⟩
  | error e =>
    rcases (Codec.isOffence_of_marshal hv).cases_error with ⟨path, rfl⟩ | ⟨path, rfl⟩
    · exact .inr (.inl ⟨path, rfl, rfl⟩)
    · exact .inr (.inr ⟨path, rfl, rfl⟩)

theorem call_contract (r : Registry) (context : CallContext) (args : List Value) :
    (r.lookup Catalog.isValidName = some isValid →
      let answer := (r.invoke context Catalog.isValidName args true).result
      AnswersText args answer fun s => answer = .ok (.boolean (Codec.isValid s))) ∧
    (r.lookup Catalog.unmarshalName = some unmarshal →
      let answer := (r.invoke context Catalog.unmarshalName args true).result
      AnswersText args answer fun s =>
        (∃ v, answer = .ok v ∧ Codec.unmarshal s = .ok v ∧ v.IsPlain) ∨
          ∃ reason, answer = .error (.codec (.parseFailure reason)) ∧
            Codec.unmarshal s = .error (.parseFailure reason)) ∧
    (r.lookup Catalog.marshalName = some marshal →
      let answer := (r.invoke context Catalog.marshalName args true).result
      (args.length ≠ 1 → answer = .error (.argumentCount args.length 1)) ∧
        ∀ v, args = [v] →
          (∃ text, answer = .ok (.string text) ∧ Codec.marshal v = .ok text) ∨
          (∃ path, answer = .error (.codec (.unsupportedValue path)) ∧
            Codec.marshal v = .error (.unsupportedValue path)) ∨
          ∃ path, answer = .error (.codec (.keyCollision path)) ∧
            Codec.marshal v = .error (.keyCollision path)) ∧
    (validate args textParam = .ok () ↔ ∃ s, textArg args = .ok s) ∧
    (validate args anyParam = .ok () ↔ ∃ v, onlyArg args = .ok v) := by
  refine ⟨?_, ?_, ?_, ?_, ?_⟩
  · intro hlookup
    rw [Registry.result_invoke_strict hlookup]
    exact answersText_isValid context args
  · intro hlookup
    rw [Registry.result_invoke_strict hlookup]
    exact answersText_unmarshal context args
  · intro hlookup
    rw [Registry.result_invoke_strict hlookup]
    refine ⟨?_, ?_⟩
    · intro hlength
      rw [result_marshal, onlyArg_of_length_ne hlength]
      rfl
    · rintro v rfl
      exact result_marshal_cases context v
  · rw [validate_textParam]
    cases textArg args <;> simp [Except.map]
  · rw [validate_anyParam_eq]
    cases onlyArg args <;> simp [Except.map]

theorem call_contract_of_catalog :
    let r := Registry.ofTable BuiltinTable.catalog
    let answer (name : String) (args : List Value) := (r.invoke .unlimited name args true).result
    answer Catalog.isValidName [.null, .string "a"] = .error (.argumentCount 2 1) ∧
      answer Catalog.unmarshalName [.set [.null]] = .error (.argumentType "x" "set" "string") ∧
      (∃ v, answer Catalog.unmarshalName [.string "1: !t [a]"] = .ok v ∧ v.IsPlain) ∧
      answer Catalog.marshalName [.undefined] = .error (.codec (.unsupportedValue "")) := by
  intro r answer
  have hisValid : r.lookup Catalog.isValidName = some isValid :=
    BuiltinTable.get?_catalog_of_mem List.mem_cons_self
  have hmarshal : r.lookup Catalog.marshalName = some marshal :=
    BuiltinTable.get?_catalog_of_mem (List.mem_cons_of_mem _ List.mem_cons_self)
  have hunmarshal : r.lookup Catalog.unmarshalName = some unmarshal :=
    BuiltinTable.get?_catalog_of_mem (List.mem_cons_of_mem _ (List.mem_cons_of_mem _ List.mem_cons_self))
  refine ⟨?_, ?_, ?_, ?_⟩
  · exact ((call_contract r .unlimited [.null, .string "a"]).1 hisValid).of_count (by decide)
  · exact ((call_contract r .unlimited [.set [.null]]).2.1 hunmarshal).of_type _ rfl rfl
  · rcases ((call_contract r .unlimited [.string "1: !t [a]"]).2.1 hunmarshal).of_text _ rfl with
      ⟨v, hv, -, hplain⟩ | ⟨reason, -, hfailure⟩
    · exact ⟨v, hv, hplain⟩
    · have hread : Tree.read? "1: !t [a]".toList =
          some (.mapping [(.integer 1, .tagged "t" (.sequence [.string "a"]))]) := by decide +kernel
      have hblank : Codec.isBlank "1: !t [a]" = false := by decide +kernel
      rw [Codec.unmarshal, hblank, Codec.readTree, hread] at hfailure
      contradiction
  · have hfails : Codec.marshal .undefined = .error (.unsupportedValue "") := rfl
    rcases ((call_contract r .unlimited [.undefined]).2.2.1 hmarshal).2 _ rfl with
      ⟨text, -, hsame⟩ | ⟨path, hpath, hsame⟩ | ⟨path, -, hsame⟩
    · rw [hfails] at hsame
      cases hsame
    · rw [hfails] at hsame
      cases hsame
      exact hpath
    · rw [hfails] at hsame
      cases hsame

end Builtin

end PolicyYaml
