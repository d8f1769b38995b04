import PolicyYaml.Builtin.Registry
import PolicyYaml.Proofs.NameMap

namespace PolicyYaml

def Host.resolve (host : Host) (x : String) : Option Builtin := if x ∈ host.listed then host.lookup x else none

theorem Host.resolve_ofTable (table : BuiltinTable) (x : String) : (ofTable table).resolve x = table.get? x := by
  rw [resolve, ofTable]
  split
  · rfl
  · rename_i h
    rw [NameMap.mem_names_iff, ← Option.isSome_iff_exists, Option.not_isSome_iff_eq_none] at h
    exact h.symm

namespace BuiltinTable

theorem get?_addListed (host : Host) (names : List String) (table : BuiltinTable) (x : String) :
    (addListed host names table).result.get? x =
      (if x ∈ names then host.lookup x else none).or (table.get? x) := by
  induction names generalizing table with
  | nil => rfl
  | cons name rest ih =>
    rw [addListed]
    by_cases hx : x = name
    · subst hx
      rw [if_pos List.mem_cons_self]
      cases hlookup : host.lookup x with
      | some b =>
        simp only [ih, NameMap.get?_insert, hlookup]
        split <;> rfl
      | none =>
        simp only [Journaled.result_bind, ih, hlookup, ite_self]
    · simp only [List.mem_cons, or_iff_right hx]
      cases hlookup : host.lookup name with
      | some b => simp only [ih, NameMap.get?_insert, if_neg hx]
      | none => simp only [Journaled.result_bind, ih]

theorem get?_addOver {entries : List (String × Builtin)} (h : Ascending.IsAscending Text.compareNames entries)
    (table : BuiltinTable) (shadowed : Nat) (x : String) :
    (addOver entries table shadowed).result.1.get? x = (entries.lookup x).or (table.get? x) := by
  induction entries generalizing table shadowed with
  | nil => rfl
  | cons e rest ih =>
    obtain ⟨name, b⟩ := e
    specialize ih (List.pairwise_cons.mp h).2 (table.insert name b)
    have hinsert : (rest.lookup x).or ((table.insert name b).get? x) =
        (((name, b) :: rest).lookup x).or (table.get? x) := by
      rw [NameMap.lookup_cons_eq, NameMap.get?_insert]
      by_cases hx : x = name
      · have hnone : rest.lookup x = none := hx ▸ NameMap.lookup_of_isAscending h
        rw [if_pos hx, if_pos hx, hnone]
        rfl
      · rw [if_neg hx, if_neg hx]
    rw [addOver, ← hinsert]
    split
    · rw [Journaled.result_bind, ih]
    · exact ih shadowed

def ofHost (host : Host) : BuiltinTable := (addListed host (NameSet.ofNames host.listed).names ∅).result

theorem get?_ofHost (host : Host) (x : String) : (ofHost host).get? x = host.resolve x := by
  simp only [ofHost, get?_addListed, NameMap.get?_empty, Option.or_none, Host.resolve, NameSet.mem_names_ofNames]

theorem get?_merge (extension : BuiltinTable) (host : Host) (x : String) :
    (merge extension host).result.get? x = (extension.get? x).or (host.resolve x) := by
  rw [← get?_ofHost]
  exact get?_addOver extension.ascending (ofHost host) 0 x

theorem get?_catalog_of_mem {d : Declaration} (h : d ∈ Catalog.all) : catalog.get? d.name = some d.builtin := by
  have hnames : Catalog.names.Nodup := by decide
  rw [catalog]
  refine NameMap.get?_ofList_of_mem (e := (d.name, d.builtin)) ?_ (List.mem_map_of_mem h)
  rwa [List.map_map]

theorem get?_catalog_of_not_mem {x : String} (h : x ∉ Catalog.names) : catalog.get? x = none := by
  rw [catalog]
  apply NameMap.get?_ofList_of_not_mem
  rwa [List.map_map]

end BuiltinTable

end PolicyYaml
