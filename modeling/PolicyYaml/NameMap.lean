import PolicyYaml.Ascending
import PolicyYaml.Text.ByteOrder

namespace PolicyYaml

structure NameMap (α : Type) where
  entries : List (String × α)
  ascending : Ascending.IsAscending Text.compareNames entries

namespace NameMap

variable {α : Type}

def empty : NameMap α := ⟨[], Ascending.isAscending_nil _⟩

instance : EmptyCollection (NameMap α) := ⟨empty⟩

def get? (m : NameMap α) (name : String) : Option α := m.entries.lookup name

def contains (m : NameMap α) (name : String) : Bool := (m.get? name).isSome

def insert (m : NameMap α) (name : String) (a : α) : NameMap α :=
  ⟨Ascending.insert Text.compareNames (name, a) m.entries, Ascending.isAscending_insert _ m.ascending⟩

def ofList (entries : List (String × α)) : NameMap α :=
  ⟨Ascending.ofList Text.compareNames entries, Ascending.isAscending_ofList _⟩

def names (m : NameMap α) : List String := m.entries.map Prod.fst

def size (m : NameMap α) : Nat := m.entries.length

def filterNames (m : NameMap α) (p : String → Bool) : NameMap α :=
  ⟨m.entries.filter fun e => p e.1, m.ascending.sublist List.filter_sublist⟩

theorem ext_entries {m n : NameMap α} (h : m.entries = n.entries) : m = n := by
  cases m; cases n; cases h; rfl

end NameMap

abbrev NameSet := NameMap Unit

namespace NameSet

def ofNames (names : List String) : NameSet := NameMap.ofList (names.map fun name => (name, ()))

end NameSet

end PolicyYaml
