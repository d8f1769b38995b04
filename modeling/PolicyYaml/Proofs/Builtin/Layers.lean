import PolicyYaml.Proofs.Builtin.Merge
import PolicyYaml.Trial.SampleHost

/-!
Tables merged one over the other, over a host that may list what it cannot resolve and resolve what it does not
list. A name belongs to the outermost table that defines it, and else to the host.
-/

namespace PolicyYaml

inductive HostForm where
  | table
  | registry (strict : Bool)

def HostForm.host : HostForm → BuiltinTable → Host
  | .table, t => Host.ofTable t
  | .registry strict, t => (Registry.mk t strict).toHost

theorem HostForm.host_eq (form : HostForm) (t : BuiltinTable) : form.host t = Host.ofTable t := by
  cases form <;> rfl

namespace BuiltinTable

def layered (host : Host) (innermost : BuiltinTable) (others : List (HostForm × BuiltinTable)) : BuiltinTable :=
  others.foldl (fun table layer => (merge layer.2 (layer.1.host table)).result) (merge innermost host).result

def configured (host : Host) (innermost : Settings) (others : List (HostForm × Settings)) : BuiltinTable :=
  others.foldl (fun table layer => (withSettings layer.2 (layer.1.host table)).result)
    (withSettings innermost host).result

theorem get?_merge_host (extension : BuiltinTable) (form : HostForm) (table : BuiltinTable) (x : String) :
    (merge extension (form.host table)).result.get? x = (extension.get? x).or (table.get? x) := by
  rw [get?_merge, HostForm.host_eq, Host.resolve_ofTable]

theorem layered_concat (host : Host) (innermost : BuiltinTable) (others : List (HostForm × BuiltinTable))
    (form : HostForm) (extension : BuiltinTable) :
    layered host innermost (others ++ [(form, extension)]) =
      (merge extension (form.host (layered host innermost others))).result := by
  rw [layered, List.foldl_concat, layered]

theorem get?_layered (host : Host) (innermost : BuiltinTable) (others : List (HostForm × BuiltinTable))
    (x : String) :
    (layered host innermost others).get? x =
      ((innermost :: others.map Prod.snd).reverse.findSome? fun extension => extension.get? x).or
        (host.resolve x) := by
  induction others using List.reverseRecOn with
  | nil =>
    rw [layered, List.foldl_nil, get?_merge]
    simp
  | append_singleton before layer ih =>
    rw [layered_concat, get?_merge_host, ih, List.map_append, List.map_singleton, ← List.cons_append,
      List.reverse_concat, List.findSome?_cons]
    cases layer.2.get? x <;> rfl

theorem merge_empty_host (form : HostForm) (table : BuiltinTable) :
    (merge ∅ (form.host table)).result = table := by
  apply NameMap.ext_get?
  intro x
  rw [get?_merge_host, NameMap.get?_empty, Option.none_or]

theorem merge_again (extension : BuiltinTable) (host : Host) (form : HostForm) :
    (merge extension (form.host (merge extension host).result)).result = (merge extension host).result := by
  apply NameMap.ext_get?
  intro x
  rw [get?_merge_host, get?_merge, ← Option.or_assoc, Option.or_self]

theorem merge_assoc (a b : BuiltinTable) (host : Host) (form form' : HostForm) :
    (merge a (form.host (merge b host).result)).result =
      (merge (merge a (form'.host b)).result host).result := by
  apply NameMap.ext_get?
  intro x
  rw [get?_merge_host, get?_merge, get?_merge, get?_merge_host, Option.or_assoc]

theorem configured_eq_layered (host : Host) (innermost : Settings) (others : List (HostForm × Settings)) :
    configured host innermost others =
      layered host (catalog.filterNames innermost.isEnabled)
        (others.map fun layer => (layer.1, catalog.filterNames layer.2.isEnabled)) := by
  rw [configured, layered, List.foldl_map]
  rfl

theorem findSome?_ite {σ β : Type} (p : σ → Bool) (c : Option β) (members : List σ) :
    (members.findSome? fun s => if p s = true then c else none) = if members.any p = true then c else none := by
  induction members with
  | nil => rfl
  | cons s rest ih =>
    rw [List.findSome?_cons, ih, List.any_cons]
    cases p s <;> cases c <;> simp

theorem get?_configured (host : Host) (innermost : Settings) (others : List (HostForm × Settings)) (x : String) :
    (configured host innermost others).get? x =
      (if (innermost :: others.map Prod.snd).any (fun s => s.isEnabled x) = true then catalog.get? x else none).or
        (host.resolve x) := by
  have hextensions : catalog.filterNames innermost.isEnabled ::
      (others.map fun layer => (layer.1, catalog.filterNames layer.2.isEnabled)).map Prod.snd =
        (innermost :: others.map Prod.snd).map fun s => catalog.filterNames s.isEnabled := by
    rw [List.map_map, List.map_cons, List.map_map]
    rfl
  rw [configured_eq_layered, get?_layered, hextensions, ← List.map_reverse, List.findSome?_map, ← List.any_reverse,
    ← findSome?_ite]
  simp only [Function.comp_def, NameMap.get?_filterNames]

theorem merge_outermost (host : Host) (innermost : BuiltinTable) (others : List (HostForm × BuiltinTable))
    (form : HostForm) :
    (merge ((innermost :: others.map Prod.snd).getLast (List.cons_ne_nil _ _))
      (form.host (layered host innermost others))).result = layered host innermost others := by
  rcases List.eq_nil_or_concat others with rfl | ⟨before, layer, rfl⟩
  · exact merge_again innermost host form
  · simp only [List.concat_eq_append, List.map_append, List.map_singleton, ← List.cons_append, List.getLast_append_singleton]
    rw [layered_concat]
    exact merge_again _ _ _

end BuiltinTable

/-- The views of a registry agree. It lists what it contains, which is what it resolves, each name once and in
order. -/
structure Registry.Coherent (r : Registry) : Prop where
  mem_listed_iff : ∀ x, x ∈ r.toHost.listed ↔ r.contains x = true
  contains_iff : ∀ x, r.contains x = true ↔ ∃ b, r.lookup x = some b
  ascending : r.names.Pairwise fun a b => Text.compareBytes a b = .lt
  size_eq : r.size = r.names.length

theorem Registry.coherent (r : Registry) : r.Coherent where
  mem_listed_iff x := (r.builtins.mem_names_iff x).trans (r.builtins.contains_iff x).symm
  contains_iff x := r.builtins.contains_iff x
  ascending := r.builtins.pairwise_names
  size_eq := r.builtins.length_names.symm

namespace BuiltinTable

theorem layered_resolves_outermost (host : Host) :
    (∀ (innermost : BuiltinTable) (others : List (HostForm × BuiltinTable)),
      (∀ x, (layered host innermost others).get? x =
        ((innermost :: others.map Prod.snd).reverse.findSome? fun extension => extension.get? x).or
          (if x ∈ host.listed then host.lookup x else none)) ∧
      (∀ strict, (Registry.mk (layered host innermost others) strict).Coherent) ∧
      ∀ form : HostForm,
        (merge ∅ (form.host (layered host innermost others))).result = layered host innermost others ∧
        (merge ((innermost :: others.map Prod.snd).getLast (List.cons_ne_nil _ _))
          (form.host (layered host innermost others))).result = layered host innermost others) ∧
      (∀ (a b : BuiltinTable) (form form' : HostForm),
        (merge a (form.host (merge b host).result)).result =
          (merge (merge a (form'.host b)).result host).result) ∧
      (∀ (innermost : Settings) (others : List (HostForm × Settings)),
        (∀ d ∈ Catalog.all, (configured host innermost others).get? d.name =
          if (innermost :: others.map Prod.snd).any (fun s => s.isEnabled d.name) = true then some d.builtin
          else if d.name ∈ host.listed then host.lookup d.name else none) ∧
        ∀ x ∉ Catalog.names, (configured host innermost others).get? x =
          if x ∈ host.listed then host.lookup x else none) ∧
      ∀ settings, (Registry.withSettings settings host).result =
        ⟨(withSettings settings host).result, settings.strict⟩ := by
  refine ⟨fun innermost others => ⟨?_, ?_, ?_⟩, fun a b => merge_assoc a b host,
    fun innermost others => ⟨?_, ?_⟩, fun _ => rfl⟩
  · exact get?_layered host innermost others
  · exact fun strict => Registry.coherent _
  · exact fun form => ⟨merge_empty_host form _, merge_outermost host innermost others form⟩
  · intro d hd
    rw [get?_configured, get?_catalog_of_mem hd, Host.resolve]
    split <;> rfl
  · intro x hx
    rw [get?_configured, get?_catalog_of_not_mem hx, ite_self, Option.none_or, Host.resolve]

theorem layered_resolves_outermost_over_lying_host :
    let hidden := "hidden"
    let host : Host :=
      ⟨fun x => if x = Catalog.marshalName then some SampleHost.marshal else if x = hidden then some SampleHost.upper
        else none, ["ghost", Catalog.marshalName]⟩
    let table := configured host ⟨true, NameSet.ofNames [Catalog.marshalName, Catalog.unmarshalName]⟩
      [(.registry false, ⟨false, NameSet.ofNames [Catalog.isValidName, Catalog.marshalName]⟩)]
    table.get? Catalog.isValidName = some Builtin.isValid ∧
      table.get? Catalog.unmarshalName = some Builtin.unmarshal ∧
      table.get? Catalog.marshalName = some SampleHost.marshal ∧
      ("ghost" ∉ Catalog.names ∧ table.get? "ghost" = none) ∧
      hidden ∉ Catalog.names ∧ table.get? hidden = none := by
  intro hidden host table
  obtain ⟨-, -, hconfigured, -⟩ := layered_resolves_outermost host
  obtain ⟨hcatalog, hother⟩ := hconfigured ⟨true, NameSet.ofNames [Catalog.marshalName, Catalog.unmarshalName]⟩
    [(.registry false, ⟨false, NameSet.ofNames [Catalog.isValidName, Catalog.marshalName]⟩)]
  have hghost : "ghost" ∉ Catalog.names := by decide
  have hhidden : hidden ∉ Catalog.names := by decide
  refine ⟨?_, ?_, ?_, ⟨hghost, ?_⟩, hhidden, ?_⟩
  · exact hcatalog _ List.mem_cons_self
  · exact hcatalog _ (List.mem_cons_of_mem _ (List.mem_cons_of_mem _ List.mem_cons_self))
  · exact hcatalog _ (List.mem_cons_of_mem _ List.mem_cons_self)
  · exact hother _ hghost
  · exact hother _ hhidden

end BuiltinTable

end PolicyYaml
