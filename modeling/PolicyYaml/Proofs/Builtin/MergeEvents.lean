import PolicyYaml.Proofs.Builtin.Merge

/-!
What a merge tells: each name that the host lists in vain, each name of the host that an extension hides, and the
sizes of the tables, which account for one another.
-/

namespace PolicyYaml.BuiltinTable

theorem events_addListed (host : Host) (names : List String) (table : BuiltinTable) :
    (addListed host names table).events =
      (names.filter fun x => (host.lookup x).isNone).map .hostNameSkipped := by
  induction names generalizing table with
  | nil => rfl
  | cons name rest ih =>
    rw [addListed, List.filter_cons]
    cases hlookup : host.lookup name with
    | some b => simp only [ih, Option.isNone_some, Bool.false_eq_true, if_false]
    | none =>
      simp only [Journaled.events_bind, ih, Option.isNone_none, if_true, List.map_cons]
      rfl

theorem filter_contains_insert {names : List String} {name : String} (h : name ∉ names) (table : BuiltinTable)
    (b : Builtin) : names.filter (table.insert name b).contains = names.filter table.contains := by
  apply List.filter_congr
  intro x hx
  have hne : x ≠ name := by
    rintro rfl
    exact h hx
  rw [NameMap.contains_insert, if_neg hne]

theorem events_addOver {entries : List (String × Builtin)} (h : Ascending.IsAscending Text.compareNames entries)
    (table : BuiltinTable) (shadowed : Nat) :
    (addOver entries table shadowed).events =
      ((entries.map Prod.fst).filter table.contains).map .hostNameShadowed := by
  induction entries generalizing table shadowed with
  | nil => rfl
  | cons e rest ih =>
    obtain ⟨name, b⟩ := e
    have hname : name ∉ rest.map Prod.fst := (List.nodup_cons.mp (Text.nodup_of_isAscending h)).1
    specialize ih (List.pairwise_cons.mp h).2 (table.insert name b)
    rw [filter_contains_insert hname] at ih
    rw [addOver, List.map_cons, List.filter_cons]
    split
    · rw [Journaled.events_bind, ih]
      rfl
    · exact ih shadowed

theorem shadowed_addOver (entries : List (String × Builtin)) (table : BuiltinTable) (shadowed : Nat) :
    (addOver entries table shadowed).result.2 = shadowed + (addOver entries table shadowed).events.length := by
  induction entries generalizing table shadowed with
  | nil => rfl
  | cons e rest ih =>
    rw [addOver]
    split
    · rw [Journaled.result_bind, Journaled.events_bind, ih, List.length_append, Nat.add_assoc]
      rfl
    · exact ih _ shadowed

theorem size_addOver (entries : List (String × Builtin)) (table : BuiltinTable) (shadowed : Nat) :
    (addOver entries table shadowed).result.1.size + (addOver entries table shadowed).events.length =
      table.size + entries.length := by
  induction entries generalizing table shadowed with
  | nil => rfl
  | cons e rest ih =>
    obtain ⟨name, b⟩ := e
    rw [addOver, List.length_cons]
    split
    · rename_i hname
      have hnext := ih (table.insert name b) (shadowed + 1)
      rw [NameMap.size_insert, if_pos hname] at hnext
      rw [Journaled.result_bind, Journaled.events_bind, List.length_append]
      change _ + (1 + _) = _
      omega
    · rename_i hname
      rw [ih, NameMap.size_insert, if_neg hname]
      omega

def skipped (host : Host) : List String :=
  (NameSet.ofNames host.listed).names.filter fun x => (host.lookup x).isNone

def shadowed (extension : BuiltinTable) (host : Host) : List String := extension.names.filter (ofHost host).contains

theorem enumerates_skipped (host : Host) :
    Ascending.Enumerates Text.compareBytes (skipped host) fun x => x ∈ host.listed ∧ host.lookup x = none := by
  simpa only [skipped, Option.isNone_iff_eq_none] using
    (NameSet.enumerates_ofNames host.listed).filter fun x => (host.lookup x).isNone

theorem enumerates_ofHost (host : Host) :
    Ascending.Enumerates Text.compareBytes (ofHost host).names
      fun x => x ∈ host.listed ∧ ∃ b, host.lookup x = some b where
  ascending := (ofHost host).pairwise_names
  mem_iff x := by
    rw [NameMap.mem_names_iff, get?_ofHost, Host.resolve]
    split
    · rename_i hx
      rw [and_iff_right hx]
    · rename_i hx
      exact iff_of_false (by simp) fun h => hx h.1

theorem enumerates_shadowed (extension : BuiltinTable) (host : Host) :
    Ascending.Enumerates Text.compareBytes (shadowed extension host)
      fun x => extension.contains x = true ∧ x ∈ host.listed ∧ ∃ b, host.lookup x = some b := by
  have hhost : ∀ x, (ofHost host).contains x = true ↔ x ∈ host.listed ∧ ∃ b, host.lookup x = some b := by
    intro x
    rw [NameMap.contains_iff, ← NameMap.mem_names_iff, (enumerates_ofHost host).mem_iff]
  simpa only [shadowed, hhost] using extension.enumerates_names.filter (ofHost host).contains

theorem events_addOver_ofHost (extension : BuiltinTable) (host : Host) :
    (addOver extension.entries (ofHost host) 0).events = (shadowed extension host).map .hostNameShadowed :=
  events_addOver extension.ascending (ofHost host) 0

theorem events_merge (extension : BuiltinTable) (host : Host) :
    (merge extension host).events =
      (skipped host).map .hostNameSkipped ++ (shadowed extension host).map .hostNameShadowed ++
        [.tablesMerged (ofHost host).size extension.size (shadowed extension host).length
          (merge extension host).result.size] := by
  have hcount : (addOver extension.entries (ofHost host) 0).result.2 = (shadowed extension host).length := by
    rw [shadowed_addOver, events_addOver_ofHost, List.length_map, Nat.zero_add]
  rw [← hcount, ← events_addOver_ofHost, skipped, ← events_addListed host _ ∅, List.append_assoc]
  rfl

theorem size_merge (extension : BuiltinTable) (host : Host) :
    (merge extension host).result.size + (shadowed extension host).length =
      (ofHost host).size + extension.size := by
  have hsize := size_addOver extension.entries (ofHost host) 0
  rwa [events_addOver_ofHost, List.length_map] at hsize

theorem merge_accounts_for_names (extension : BuiltinTable) (host : Host) :
    ∃ skipped resolved shadowed : List String,
      Ascending.Enumerates Text.compareBytes skipped (fun x => x ∈ host.listed ∧ host.lookup x = none) ∧
      Ascending.Enumerates Text.compareBytes resolved (fun x => x ∈ host.listed ∧ ∃ b, host.lookup x = some b) ∧
      Ascending.Enumerates Text.compareBytes shadowed
        (fun x => extension.contains x = true ∧ x ∈ host.listed ∧ ∃ b, host.lookup x = some b) ∧
      (merge extension host).events =
        skipped.map .hostNameSkipped ++ shadowed.map .hostNameShadowed ++
          [.tablesMerged resolved.length extension.size shadowed.length (merge extension host).result.size] ∧
      (merge extension host).result.size = resolved.length + extension.size - shadowed.length ∧
      shadowed.length ≤ resolved.length ∧ shadowed.length ≤ extension.size := by
  have hshadowed := enumerates_shadowed extension host
  have hsize := size_merge extension host
  refine ⟨_, _, _, enumerates_skipped host, enumerates_ofHost host, hshadowed, ?_, ?_, ?_, ?_⟩
  · rw [NameMap.length_names]
    exact events_merge extension host
  · rw [NameMap.length_names]
    omega
  · exact hshadowed.length_le (enumerates_ofHost host) fun _ => And.right
  · rw [← extension.length_names]
    exact hshadowed.length_le extension.enumerates_names fun _ => And.left

end PolicyYaml.BuiltinTable
