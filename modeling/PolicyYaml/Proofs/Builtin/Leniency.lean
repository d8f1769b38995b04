import PolicyYaml.Proofs.Builtin.Contract

/-!
A lenient call is the strict call with its failure turned into `undefined`, and it says so by one more event.
-/

namespace PolicyYaml

def Event.isDowngrade : Event → Bool
  | .unknownIgnored _ | .failureIgnored _ => true
  | _ => false

namespace Registry

def call (r : Registry) (context : CallContext) (name : String) (args : List Value) :
    Journaled (Except BuiltinError Value) :=
  match r.lookup name with
  | none => pure (.error (.unknownBuiltin name))
  | some b => b context args

def failureEvents (r : Registry) (name : String) (e : BuiltinError) : List Event :=
  match r.lookup name with
  | none => []
  | some _ => [.failed name e]

def downgradeEvent (r : Registry) (name : String) : Event :=
  match r.lookup name with
  | none => .unknownIgnored name
  | some _ => .failureIgnored name

variable {r : Registry} {context : CallContext} {name : String} {args : List Value}

theorem call_of_lookup_eq_none (h : r.lookup name = none) :
    r.call context name args = pure (.error (.unknownBuiltin name)) := by
  rw [call, h]

theorem call_of_lookup_eq_some {b : Builtin} (h : r.lookup name = some b) :
    r.call context name args = b context args := by
  rw [call, h]

theorem countP_failureEvents (e : BuiltinError) : (r.failureEvents name e).countP Event.isDowngrade = 0 := by
  rw [failureEvents]
  cases r.lookup name <;> rfl

theorem isDowngrade_downgradeEvent : (r.downgradeEvent name).isDowngrade = true := by
  rw [downgradeEvent]
  cases r.lookup name <;> rfl

theorem invoke_of_ok {v : Value} (h : (r.call context name args).result = .ok v) (strict : Bool) :
    r.invoke context name args strict = ⟨.invoked name args :: (r.call context name args).events, .ok v⟩ := by
  rw [call] at h ⊢
  rw [invoke]
  cases hlookup : r.lookup name with
  | none =>
    rw [hlookup] at h
    contradiction
  | some b =>
    simp only [hlookup] at h
    simp [bind, Journaled.note, h, pure]

theorem invoke_of_error {e : BuiltinError} (h : (r.call context name args).result = .error e) (strict : Bool) :
    r.invoke context name args strict =
      ⟨.invoked name args :: ((r.call context name args).events ++ r.failureEvents name e ++
          if strict then [] else [r.downgradeEvent name]),
        if strict then .error e else .ok .undefined⟩ := by
  rw [call] at h ⊢
  rw [invoke, failureEvents, downgradeEvent]
  cases hlookup : r.lookup name with
  | none =>
    simp only [hlookup] at h
    cases h
    cases strict <;> rfl
  | some b =>
    simp only [hlookup] at h
    cases strict <;> simp [bind, Journaled.note, h, pure]

theorem result_invoke_true : (r.invoke context name args true).result = (r.call context name args).result := by
  cases h : (r.call context name args).result with
  | ok v => rw [invoke_of_ok h]
  | error e =>
    rw [invoke_of_error h]
    rfl

theorem countP_invoke_of_ok {v : Value} (h : (r.call context name args).result = .ok v) (strict : Bool) :
    (r.invoke context name args strict).events.countP Event.isDowngrade =
      (r.call context name args).events.countP Event.isDowngrade := by
  rw [invoke_of_ok h]
  exact List.countP_cons_of_neg Bool.false_ne_true

theorem countP_invoke_of_error {e : BuiltinError} (h : (r.call context name args).result = .error e) (strict : Bool) :
    (r.invoke context name args strict).events.countP Event.isDowngrade =
      (r.call context name args).events.countP Event.isDowngrade + if strict then 0 else 1 := by
  rw [invoke_of_error h, List.countP_cons_of_neg Bool.false_ne_true, List.countP_append,
    List.countP_append, countP_failureEvents]
  cases strict <;> simp [isDowngrade_downgradeEvent]

theorem countP_isDowngrade (r : Registry) (context : CallContext) (name : String) (args : List Value) :
    let own := (r.call context name args).events.countP Event.isDowngrade
    let downgrades (strict : Bool) := (r.invoke context name args strict).events.countP Event.isDowngrade
    downgrades true = own ∧
      ((∃ e, (r.invoke context name args true).result = .error e) ↔ downgrades false = own + 1) ∧
      ((∃ v, (r.invoke context name args true).result = .ok v) ↔ downgrades false = own) := by
  intro own downgrades
  rw [result_invoke_true]
  cases h : (r.call context name args).result with
  | ok v =>
    have hlenient : downgrades false = own := countP_invoke_of_ok h false
    refine ⟨countP_invoke_of_ok h true, ?_, ?_⟩
    · exact iff_of_false (by simp) (by omega)
    · exact iff_of_true ⟨v, rfl⟩ hlenient
  | error e =>
    have hlenient : downgrades false = own + 1 := countP_invoke_of_error h false
    refine ⟨countP_invoke_of_error h true, ?_, ?_⟩
    · exact iff_of_true ⟨e, rfl⟩ hlenient
    · exact iff_of_false (by simp) (by omega)

theorem lenient_undefined_iff (h : (r.call context name args).result ≠ .ok .undefined) :
    (r.invoke context name args false).result = .ok .undefined ↔
      ∃ e, (r.invoke context name args true).result = .error e := by
  rw [result_invoke_true]
  cases hcall : (r.call context name args).result with
  | ok v =>
    rw [invoke_of_ok hcall]
    exact iff_of_false (hcall ▸ h) (by simp)
  | error e =>
    rw [invoke_of_error hcall]
    exact iff_of_true rfl ⟨e, rfl⟩

end Registry

namespace Builtin

theorem result_ne_undefined {d : Declaration} (h : d ∈ Catalog.all) (context : CallContext) (args : List Value) :
    (d.builtin context args).result ≠ .ok .undefined := by
  simp only [Catalog.all, List.mem_cons, List.not_mem_nil, or_false] at h
  rcases h with rfl | rfl | rfl
  · change (isValid context args).result ≠ _
    rw [result_isValid]
    cases textArg args <;> simp [Except.map]
  · change (marshal context args).result ≠ _
    rw [result_marshal]
    cases onlyArg args with
    | error e => exact nofun
    | ok v => cases hv : Codec.marshal v <;> simp [bind, Except.bind, hv, Except.map, Except.mapError]
  · change (unmarshal context args).result ≠ _
    rw [result_unmarshal, ne_eq, Codec.bind_eq_ok_iff]
    rintro ⟨text, -, hundefined⟩
    cases hv : Codec.unmarshal text with
    | error e =>
      rw [hv] at hundefined
      contradiction
    | ok v =>
      rw [hv] at hundefined
      cases hundefined
      exact nomatch Codec.isPlain_of_unmarshal hv

theorem events_isValid (context : CallContext) (args : List Value) :
    ∀ event ∈ (isValid context args).events, ∃ e, event = .documentRejected e := by
  rw [isValid]
  cases validate args textParam >>= fun _ => textArg args with
  | error e => simp
  | ok text =>
    simp only [Journaled.events_bind, Journaled.events_pure, List.append_nil, Codec.checkDocument]
    cases Codec.readTree text <;> simp [Journaled.note]

theorem events_of_catalog {d : Declaration} (h : d ∈ Catalog.all) (context : CallContext) (args : List Value) :
    ∀ event ∈ (d.builtin context args).events, ∃ e, event = .documentRejected e := by
  simp only [Catalog.all, List.mem_cons, List.not_mem_nil, or_false] at h
  rcases h with rfl | rfl | rfl
  · exact events_isValid context args
  · exact fun event h => absurd h List.not_mem_nil
  · exact fun event h => absurd h List.not_mem_nil

end Builtin

namespace Registry

theorem lenient_downgrades_strict (r : Registry) (context : CallContext) (name : String) (args : List Value) :
    let own := (r.call context name args).events
    let strict := r.invoke context name args true
    let lenient := r.invoke context name args false
    (r.lookup name = none → strict.result = .error (.unknownBuiltin name) ∧ own = []) ∧
    (∀ b, r.lookup name = some b → strict.result = (b context args).result ∧ own = (b context args).events) ∧
    r.invokeDefault context name args = r.invoke context name args r.strict ∧
    (∀ v, strict.result = .ok v → lenient = strict ∧ strict.events = .invoked name args :: own) ∧
    (∀ e, strict.result = .error e → lenient.result = .ok .undefined ∧
      ∃ failures downgrade, strict.events = .invoked name args :: (own ++ failures) ∧
        lenient.events = strict.events ++ [downgrade] ∧
        (r.lookup name = none → failures = [] ∧ downgrade = .unknownIgnored name) ∧
        ∀ b, r.lookup name = some b → failures = [.failed name e] ∧ downgrade = .failureIgnored name) ∧
    (strict.events.countP Event.isDowngrade = own.countP Event.isDowngrade ∧
      ((∃ e, strict.result = .error e) ↔
        lenient.events.countP Event.isDowngrade = own.countP Event.isDowngrade + 1) ∧
      ((∃ v, strict.result = .ok v) ↔ lenient.events.countP Event.isDowngrade = own.countP Event.isDowngrade)) ∧
    ∀ d ∈ Catalog.all, r.lookup name = some d.builtin →
      (lenient.result = .ok .undefined ↔ ∃ e, strict.result = .error e) ∧
        ∀ event ∈ own, ∃ e, event = .documentRejected e := by
  intro own strict lenient
  have hresult : strict.result = (r.call context name args).result := result_invoke_true
  refine ⟨?_, ?_, rfl, ?_, ?_, countP_isDowngrade r context name args, ?_⟩
  · intro h
    have hcall : r.call context name args = _ := call_of_lookup_eq_none h
    rw [hresult]
    exact ⟨congrArg Journaled.result hcall, congrArg Journaled.events hcall⟩
  · intro b h
    have hcall : r.call context name args = _ := call_of_lookup_eq_some h
    rw [hresult]
    exact ⟨congrArg Journaled.result hcall, congrArg Journaled.events hcall⟩
  · intro v h
    rw [hresult] at h
    have hstrict : strict = _ := invoke_of_ok h true
    exact ⟨(invoke_of_ok h false).trans hstrict.symm, congrArg Journaled.events hstrict⟩
  · intro e h
    rw [hresult] at h
    have hstrict : strict.events = .invoked name args :: (own ++ r.failureEvents name e) := by
      simp [strict, own, invoke_of_error h]
    have hlenient : lenient.events = strict.events ++ [r.downgradeEvent name] := by
      simp [lenient, strict, invoke_of_error h]
    refine ⟨by simp [lenient, invoke_of_error h], _, _, hstrict, hlenient, ?_, ?_⟩
    · intro hlookup
      rw [failureEvents, downgradeEvent, hlookup]
      exact ⟨rfl, rfl⟩
    · intro b hlookup
      rw [failureEvents, downgradeEvent, hlookup]
      exact ⟨rfl, rfl⟩
  · intro d hd hlookup
    have hcall : r.call context name args = d.builtin context args := call_of_lookup_eq_some hlookup
    refine ⟨lenient_undefined_iff ?_, ?_⟩
    · rw [hcall]
      exact Builtin.result_ne_undefined hd context args
    · have hown : own = (d.builtin context args).events := congrArg Journaled.events hcall
      rw [hown]
      exact Builtin.events_of_catalog hd context args

theorem lenient_downgrades_strict_over_own_undefined :
    let fail : Builtin := fun _ _ => pure (.error (.unknownBuiltin "inner"))
    let first : Builtin := fun _ args => pure (.ok (args.head?.getD .undefined))
    let entries := [("fail", fail), ("first", first), (Catalog.unmarshalName, Builtin.unmarshal)]
    let r : Registry := ⟨NameMap.ofList entries, false⟩
    let strict (name : String) (args : List Value) := r.invoke .unlimited name args true
    let lenient (name : String) (args : List Value) := r.invoke .unlimited name args false
    (strict "absent" []).result = .error (.unknownBuiltin "absent") ∧
      (lenient "fail" [.null]).events =
        [.invoked "fail" [.null], .failed "fail" (.unknownBuiltin "inner"), .failureIgnored "fail"] ∧
      (lenient "first" [] = strict "first" [] ∧ (lenient "first" []).result = .ok .undefined ∧
        (lenient "first" []).events = [.invoked "first" []]) ∧
      ∃ e, (strict Catalog.unmarshalName [.null]).result = .error e := by
  intro fail first entries r strict lenient
  have hlookup : ∀ e ∈ entries, r.lookup e.1 = some e.2 := fun e => NameMap.get?_ofList_of_mem (by decide)
  have hfail : r.lookup "fail" = some fail := hlookup ("fail", fail) List.mem_cons_self
  have hfirst : r.lookup "first" = some first := hlookup ("first", first) (List.mem_cons_of_mem _ List.mem_cons_self)
  have hunmarshal : r.lookup Catalog.unmarshalName = some Builtin.unmarshal :=
    hlookup (_, _) (List.mem_cons_of_mem _ (List.mem_cons_of_mem _ List.mem_cons_self))
  have habsent : r.lookup "absent" = none := NameMap.get?_ofList_of_not_mem (by decide)
  refine ⟨((lenient_downgrades_strict r .unlimited "absent" []).1 habsent).1, ?_, ?_, ?_⟩
  · obtain ⟨-, hknown, -, -, herror, -⟩ := lenient_downgrades_strict r .unlimited "fail" [.null]
    obtain ⟨hresult, hown⟩ := hknown fail hfail
    obtain ⟨-, failures, downgrade, hstrict, hlenient, -, hevents⟩ := herror _ hresult
    obtain ⟨rfl, rfl⟩ := hevents fail hfail
    rw [hlenient, hstrict, hown]
    rfl
  · obtain ⟨-, hknown, -, hok, -⟩ := lenient_downgrades_strict r .unlimited "first" []
    obtain ⟨hresult, hown⟩ := hknown first hfirst
    obtain ⟨hsame, hstrict⟩ := hok .undefined hresult
    refine ⟨hsame, (congrArg Journaled.result hsame).trans hresult, ?_⟩
    rw [congrArg Journaled.events hsame, hstrict, hown]
    rfl
  · obtain ⟨-, -, -, -, -, -, hcatalog⟩ := lenient_downgrades_strict r .unlimited Catalog.unmarshalName [.null]
    obtain ⟨hiff, -⟩ := hcatalog _ (List.mem_cons_of_mem _ (List.mem_cons_of_mem _ List.mem_cons_self)) hunmarshal
    refine hiff.mp ?_
    rw [invoke, hunmarshal]
    rfl

end Registry

end PolicyYaml
