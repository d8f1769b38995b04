import PolicyYaml.Proofs.Builtin.Merge
import PolicyYaml.Proofs.Codec.Failure
import PolicyYaml.Settings.Resolve
import PolicyYaml.Trial.SampleHost

/-!
From a settings file to the calls of the registry that it asks for. A file is refused for its schema, and else for
the first name in its list that is not in the catalog. The registry of any other file depends on the set of the
disabled names alone.
-/

namespace PolicyYaml

theorem Catalog.isNone_find?_iff (name : String) : (find? name).isNone = true ↔ name ∉ names := by
  rw [Option.isNone_iff_eq_none, find?, List.find?_eq_none, names, List.mem_map]
  simp

namespace SettingsFile

theorem disabledSet_of_mem {name : String} (h : name ∈ Catalog.names) (rest : List String) (kept : NameSet) :
    disabledSet (name :: rest) kept = disabledSet rest (kept.insert name ()) := by
  rw [disabledSet, if_neg fun hnone => (Catalog.isNone_find?_iff name).mp hnone h]

theorem disabledSet_of_not_mem {name : String} (h : name ∉ Catalog.names) (rest : List String) (kept : NameSet) :
    disabledSet (name :: rest) kept = .error (.unknownBuiltin name) := by
  rw [disabledSet, if_pos ((Catalog.isNone_find?_iff name).mpr h)]

theorem disabledSet_append {before : List String} (h : ∀ y ∈ before, y ∈ Catalog.names) (after : List String)
    (kept : NameSet) :
    disabledSet (before ++ after) kept =
      disabledSet after (before.foldl (fun kept name => kept.insert name ()) kept) := by
  induction before generalizing kept with
  | nil => rfl
  | cons name rest ih =>
    rw [List.cons_append, disabledSet_of_mem (h name List.mem_cons_self), List.foldl_cons]
    exact ih (fun y hy => h y (List.mem_cons_of_mem _ hy)) _

theorem disabledSet_of_known {names : List String} (h : ∀ x ∈ names, x ∈ Catalog.names) :
    disabledSet names ∅ = .ok (NameSet.ofNames names) := by
  have happend := disabledSet_append h [] ∅
  rw [List.append_nil, NameSet.foldl_insert_eq_ofNames] at happend
  exact happend

theorem disabledSet_of_first_unknown {before after : List String} {x : String}
    (h : ∀ y ∈ before, y ∈ Catalog.names) (hx : x ∉ Catalog.names) (kept : NameSet) :
    disabledSet (before ++ x :: after) kept = .error (.unknownBuiltin x) := by
  rw [disabledSet_append h, disabledSet_of_not_mem hx]

def settings (file : SettingsFile) : Settings :=
  ⟨file.strict.getD true, NameSet.ofNames file.builtins.disabled⟩

def HasKnownSchema (file : SettingsFile) : Prop := ∀ s, file.schema = some s → s = schemaName

def HasKnownNames (file : SettingsFile) : Prop := ∀ x ∈ file.builtins.disabled, x ∈ Catalog.names

theorem resolve_of_schema {file : SettingsFile} {s : String} (h : file.schema = some s) (hne : s ≠ schemaName) :
    file.resolve = .error (.unsupportedSchema s) := by
  rw [resolve, h]
  simp only [if_pos hne]
  rfl

theorem resolve_of_hasKnownSchema {file : SettingsFile} (h : file.HasKnownSchema) :
    file.resolve =
      (disabledSet file.builtins.disabled ∅).map fun disabled => ⟨file.strict.getD true, disabled⟩ := by
  rw [resolve]
  cases hs : file.schema with
  | none => cases disabledSet file.builtins.disabled ∅ <;> rfl
  | some s =>
    simp only [if_neg fun hne : s ≠ schemaName => hne (h s hs)]
    cases disabledSet file.builtins.disabled ∅ <;> rfl

theorem resolve_of_known {file : SettingsFile} (hschema : file.HasKnownSchema) (hnames : file.HasKnownNames) :
    file.resolve = .ok file.settings := by
  rw [resolve_of_hasKnownSchema hschema, disabledSet_of_known hnames]
  rfl

theorem resolve_of_first_unknown {file : SettingsFile} (hschema : file.HasKnownSchema) {before after : List String}
    {x : String} (hsplit : file.builtins.disabled = before ++ x :: after) (h : ∀ y ∈ before, y ∈ Catalog.names)
    (hx : x ∉ Catalog.names) : file.resolve = .error (.unknownBuiltin x) := by
  rw [resolve_of_hasKnownSchema hschema, hsplit, disabledSet_of_first_unknown h hx]
  rfl

theorem exists_first_unknown {names : List String} (h : ∃ x ∈ names, x ∉ Catalog.names) :
    ∃ before x after, names = before ++ x :: after ∧ (∀ y ∈ before, y ∈ Catalog.names) ∧ x ∉ Catalog.names := by
  obtain ⟨y, hy, hunknown⟩ := h
  have hsome : (names.find? fun x => decide (x ∉ Catalog.names)).isSome = true := by
    rw [List.find?_isSome]
    exact ⟨y, hy, decide_eq_true hunknown⟩
  obtain ⟨x, hx⟩ := Option.isSome_iff_exists.mp hsome
  obtain ⟨hfirst, before, after, hsplit, hbefore⟩ := List.find?_eq_some_iff_append.mp hx
  exact ⟨before, x, after, hsplit, fun z hz => by simpa using hbefore z hz, of_decide_eq_true hfirst⟩

theorem resolve_eq_ok_iff (file : SettingsFile) (s : Settings) :
    file.resolve = .ok s ↔ file.HasKnownSchema ∧ file.HasKnownNames ∧ s = file.settings := by
  by_cases hschema : file.HasKnownSchema
  · by_cases hnames : file.HasKnownNames
    · rw [resolve_of_known hschema hnames, Except.ok.injEq, eq_comm]
      exact ⟨fun hs => ⟨hschema, hnames, hs⟩, fun hall => hall.2.2⟩
    · have hunknown : ∃ x ∈ file.builtins.disabled, x ∉ Catalog.names := by
        simpa [HasKnownNames] using hnames
      obtain ⟨before, x, after, hsplit, hbefore, hx⟩ := exists_first_unknown hunknown
      rw [resolve_of_first_unknown hschema hsplit hbefore hx]
      exact iff_of_false (by simp) fun hall => hnames hall.2.1
  · obtain ⟨schema, hs, hne⟩ : ∃ schema, file.schema = some schema ∧ schema ≠ schemaName := by
      simpa [HasKnownSchema] using hschema
    rw [resolve_of_schema hs hne]
    exact iff_of_false (by simp) fun hall => hschema hall.1

theorem exists_resolve_eq_error_iff (file : SettingsFile) :
    (∃ e, file.resolve = .error e) ↔ ¬file.HasKnownSchema ∨ ¬file.HasKnownNames := by
  have hok := file.resolve_eq_ok_iff
  rw [← not_and_or]
  cases hresolve : file.resolve with
  | ok s =>
    rw [hresolve] at hok
    have hknown := (hok s).mp rfl
    exact iff_of_false (by simp) fun hnot => hnot ⟨hknown.1, hknown.2.1⟩
  | error e =>
    rw [hresolve] at hok
    exact iff_of_true ⟨e, rfl⟩ fun hknown => by simpa using (hok file.settings).mpr ⟨hknown.1, hknown.2, rfl⟩

theorem isEnabled_settings_iff (file : SettingsFile) (x : String) :
    file.settings.isEnabled x = true ↔ x ∉ file.builtins.disabled := by
  rw [Settings.isEnabled, Bool.not_eq_true', ← Bool.not_eq_true, settings, NameSet.contains_ofNames_iff]

theorem resolve_eq_ok_congr (file : SettingsFile) {names : List String}
    (h : ∀ x, x ∈ names ↔ x ∈ file.builtins.disabled) (s : Settings) :
    SettingsFile.resolve { file with builtins := ⟨names⟩ } = .ok s ↔ file.resolve = .ok s := by
  rw [resolve_eq_ok_iff, resolve_eq_ok_iff, settings, settings, NameSet.ofNames_congr h]
  simp only [HasKnownSchema, HasKnownNames, h]

end SettingsFile

namespace Registry

def ofFile (file : SettingsFile) (host : Host) : Journaled (Except SettingsError Registry) :=
  match file.resolve with
  | .error e => pure (.error e)
  | .ok settings => do
    let registry ← withSettings settings host
    .note (.registryReady registry.size registry.strict settings.disabled.size)
    return .ok registry

theorem load_eq (text : String) (host : Host) :
    load text host = (SettingsFile.read? text).elim (pure (.error .unreadable)) fun file => ofFile file host := by
  rw [load, SettingsFile.read]
  cases SettingsFile.read? text <;> rfl

theorem result_ofFile (file : SettingsFile) (host : Host) :
    (ofFile file host).result = file.resolve.map fun settings => (withSettings settings host).result := by
  rw [ofFile]
  cases file.resolve <;> rfl

theorem lookup_withSettings (settings : Settings) (host : Host) (x : String) :
    (withSettings settings host).result.lookup x =
      (if settings.isEnabled x = true then BuiltinTable.catalog.get? x else none).or (host.resolve x) := by
  rw [← NameMap.get?_filterNames]
  exact BuiltinTable.get?_merge _ host x

/-- That calls go where a file has them go: to the builtins of the catalog that it leaves in, and with other names
to those of the host. -/
structure Follows (registry : Registry) (file : SettingsFile) (host : Host) : Prop where
  strict_eq : registry.strict = file.strict.getD true
  lookup_enabled : ∀ d ∈ Catalog.all, d.name ∉ file.builtins.disabled → registry.lookup d.name = some d.builtin
  lookup_other : ∀ x, x ∉ Catalog.names ∨ x ∈ file.builtins.disabled →
    registry.lookup x = if x ∈ host.listed then host.lookup x else none

theorem follows_withSettings (file : SettingsFile) (host : Host) :
    (withSettings file.settings host).result.Follows file host where
  strict_eq := rfl
  lookup_enabled d hd henabled := by
    rw [lookup_withSettings, if_pos ((file.isEnabled_settings_iff _).mpr henabled),
      BuiltinTable.get?_catalog_of_mem hd, Option.some_or]
  lookup_other x hx := by
    have hnone : (if file.settings.isEnabled x = true then BuiltinTable.catalog.get? x else none) = none := by
      rcases hx with hunknown | hdisabled
      · rw [BuiltinTable.get?_catalog_of_not_mem hunknown, ite_self]
      · exact if_neg fun henabled => (file.isEnabled_settings_iff x).mp henabled hdisabled
    rw [lookup_withSettings, hnone, Option.none_or, Host.resolve]

/-- How a file is resolved over a host: what is wrong with it is reported in order, and a file with nothing wrong
gives a registry that follows it and depends on the set of the disabled names alone. -/
structure ResolvesOver (host : Host) (file : SettingsFile) : Prop where
  fails_iff : (∃ e, file.resolve = .error e) ↔
    (∃ s, file.schema = some s ∧ s ≠ schemaName) ∨ ∃ x ∈ file.builtins.disabled, x ∉ Catalog.names
  error_of_resolve : ∀ e, file.resolve = .error e → ofFile file host = pure (.error e)
  schema_first : ∀ s, file.schema = some s → s ≠ schemaName → file.resolve = .error (.unsupportedSchema s)
  first_unknown : (∀ s, file.schema = some s → s = schemaName) → ∀ before x after,
    file.builtins.disabled = before ++ x :: after → (∀ y ∈ before, y ∈ Catalog.names) → x ∉ Catalog.names →
    file.resolve = .error (.unknownBuiltin x)
  follows : ∀ s, file.resolve = .ok s →
    ∃ registry, (ofFile file host).result = .ok registry ∧ registry.Follows file host
  resolve_congr : ∀ names : List String, (∀ x, x ∈ names ↔ x ∈ file.builtins.disabled) →
    ∀ s, SettingsFile.resolve { file with builtins := ⟨names⟩ } = .ok s ↔ file.resolve = .ok s
  registry_congr : ∀ names : List String, (∀ x, x ∈ names ↔ x ∈ file.builtins.disabled) →
    ∀ registry, (ofFile { file with builtins := ⟨names⟩ } host).result = .ok registry ↔
      (ofFile file host).result = .ok registry

theorem resolvesOver (host : Host) (file : SettingsFile) : ResolvesOver host file where
  fails_iff := by
    rw [file.exists_resolve_eq_error_iff]
    simp [SettingsFile.HasKnownSchema, SettingsFile.HasKnownNames]
  error_of_resolve e h := by rw [ofFile, h]
  schema_first _ := SettingsFile.resolve_of_schema
  first_unknown hschema _ _ _ := SettingsFile.resolve_of_first_unknown hschema
  follows s h := by
    obtain ⟨-, -, rfl⟩ := (file.resolve_eq_ok_iff s).mp h
    refine ⟨_, ?_, follows_withSettings file host⟩
    rw [result_ofFile, h]
    rfl
  resolve_congr _ := file.resolve_eq_ok_congr
  registry_congr names h registry := by
    rw [result_ofFile, result_ofFile, Codec.map_eq_ok_iff, Codec.map_eq_ok_iff]
    simp only [file.resolve_eq_ok_congr h]

theorem load_dispatch (host : Host) :
    (∀ text, SettingsFile.read? text = none → load text host = pure (.error .unreadable)) ∧
    (∀ text file, SettingsFile.read? text = some file → load text host = ofFile file host) ∧
    ∀ file, ResolvesOver host file := by
  refine ⟨?_, ?_, resolvesOver host⟩
  · intro text h
    rw [load_eq, h]
    rfl
  · intro text file h
    rw [load_eq, h]
    rfl

theorem load_dispatch_over_lying_host :
    let hidden := "hidden"
    let host : Host :=
      ⟨fun x => if x = Catalog.marshalName then some SampleHost.marshal else if x = hidden then some SampleHost.upper
        else none, ["ghost", Catalog.marshalName]⟩
    let text := "strict = false\nschema = \"rego-sdk.config.v1\"\n[builtins]\n" ++
      "disabled = [\"yaml.marshal\", \"yaml.unmarshal\", \"yaml.marshal\"]\n"
    let names := [Catalog.marshalName, Catalog.unmarshalName, Catalog.marshalName]
    let file : SettingsFile := ⟨some schemaName, some false, ⟨names⟩⟩
    let unknown := ["yaml.marshal", "no.such", "nor.this"]
    load "strict = maybe" host = pure (.error .unreadable) ∧
      load text host = ofFile file host ∧
      (∃ registry, (ofFile file host).result = .ok registry ∧ registry.strict = false ∧
        registry.lookup Catalog.isValidName = some Builtin.isValid ∧
        registry.lookup Catalog.marshalName = some SampleHost.marshal ∧
        registry.lookup Catalog.unmarshalName = none ∧
        registry.lookup "ghost" = none ∧ registry.lookup hidden = none ∧
        (ofFile { file with builtins := ⟨[Catalog.unmarshalName, Catalog.marshalName]⟩ } host).result =
          .ok registry) ∧
      ofFile ⟨some "v2", none, ⟨unknown⟩⟩ host = pure (.error (.unsupportedSchema "v2")) ∧
      ofFile ⟨none, none, ⟨unknown⟩⟩ host = pure (.error (.unknownBuiltin "no.such")) := by
  intro hidden host text names file unknown
  obtain ⟨hunreadable, hread, hfile⟩ := load_dispatch host
  have hschema := hfile ⟨some "v2", none, ⟨unknown⟩⟩
  have hname := hfile ⟨none, none, ⟨unknown⟩⟩
  have hnames : ∀ x ∈ names, x ∈ Catalog.names := by decide
  have hresolve : file.resolve = .ok file.settings :=
    SettingsFile.resolve_of_known (fun s hs => (Option.some.inj hs).symm) hnames
  obtain ⟨registry, hregistry, hcalls⟩ := (hfile file).follows file.settings hresolve
  refine ⟨hunreadable _ (by decide +kernel), hread _ _ (by decide +kernel), ⟨registry, hregistry, ?_⟩, ?_, ?_⟩
  · refine ⟨hcalls.strict_eq, ?_, ?_, ?_, ?_, ?_, ?_⟩
    · exact hcalls.lookup_enabled _ List.mem_cons_self (by decide)
    · exact hcalls.lookup_other _ (.inr (by decide))
    · exact hcalls.lookup_other _ (.inr (by decide))
    · exact hcalls.lookup_other _ (.inl (by decide))
    · exact hcalls.lookup_other _ (.inl (by decide))
    · have hsame : ∀ x, x ∈ [Catalog.unmarshalName, Catalog.marshalName] ↔ x ∈ names := by
        intro x
        simp only [names, List.mem_cons, List.not_mem_nil, or_false]
        tauto
      exact ((hfile file).registry_congr _ hsame registry).mpr hregistry
  · exact hschema.error_of_resolve _ (hschema.schema_first "v2" rfl (by decide))
  · apply hname.error_of_resolve
    exact hname.first_unknown (by simp) [Catalog.marshalName] "no.such" ["nor.this"] rfl (by decide) (by decide)

end Registry

end PolicyYaml
