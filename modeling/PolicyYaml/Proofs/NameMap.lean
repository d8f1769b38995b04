import Mathlib.Data.List.Induction
import Mathlib.Data.List.Perm.Basic
import PolicyYaml.NameMap
import PolicyYaml.Proofs.Text.NameOrder

namespace PolicyYaml

variable {α : Type}

namespace NameMap

theorem lookup_cons_eq (e : String × α) (rest : List (String × α)) (x : String) :
    (e :: rest).lookup x = if x = e.1 then some e.2 else rest.lookup x := by
  obtain ⟨name, a⟩ := e
  rw [List.lookup_cons]
  by_cases hx : x = name
  · rw [beq_iff_eq.mpr hx, if_pos hx]
  · rw [beq_eq_false_iff_ne.mpr hx, if_neg hx]

theorem lookup_insert (name : String) (a : α) (entries : List (String × α)) (x : String) :
    (Ascending.insert Text.compareNames (name, a) entries).lookup x =
      if x = name then some a else entries.lookup x := by
  induction entries with
  | nil => rw [Ascending.insert, lookup_cons_eq]
  | cons e rest ih =>
    rw [Ascending.insert]
    cases hname : Text.compareNames (name, a) e with
    | lt => exact lookup_cons_eq _ _ _
    | eq =>
      have he : name = e.1 := Text.compareNames_eq_iff.mp hname
      rw [lookup_cons_eq, lookup_cons_eq, ← he]
      split <;> rfl
    | gt =>
      have he : name ≠ e.1 := Text.ne_of_compareNames_gt hname
      rw [lookup_cons_eq, lookup_cons_eq, ih]
      by_cases hx : x = e.1
      · rw [if_pos hx, if_pos hx, if_neg fun h => he (h.symm.trans hx)]
      · rw [if_neg hx, if_neg hx]

@[simp]
theorem get?_empty (x : String) : (∅ : NameMap α).get? x = none := rfl

theorem get?_insert (m : NameMap α) (name : String) (a : α) (x : String) :
    (m.insert name a).get? x = if x = name then some a else m.get? x :=
  lookup_insert name a m.entries x

theorem contains_insert (m : NameMap α) (name : String) (a : α) (x : String) :
    (m.insert name a).contains x = if x = name then true else m.contains x := by
  rw [contains, get?_insert]
  split <;> rfl

theorem get?_ofList (entries : List (String × α)) (x : String) :
    (ofList entries).get? x = entries.reverse.lookup x := by
  induction entries using List.reverseRecOn with
  | nil => rfl
  | append_singleton before e ih =>
    have hinsert : ofList (before ++ [e]) = (ofList before).insert e.1 e.2 :=
      ext_entries (Ascending.ofList_append_singleton _ _ _)
    rw [hinsert, get?_insert, ih, List.reverse_concat, lookup_cons_eq]

theorem get?_ofList_of_not_mem {entries : List (String × α)} {x : String} (h : x ∉ entries.map Prod.fst) :
    (ofList entries).get? x = none := by
  rw [get?_ofList, List.lookup_eq_none_iff]
  intro e he
  rw [bne_iff_ne]
  rintro rfl
  exact h (List.mem_map_of_mem (List.mem_reverse.mp he))

theorem get?_ofList_of_mem {entries : List (String × α)} (h : (entries.map Prod.fst).Nodup) {e : String × α}
    (he : e ∈ entries) : (ofList entries).get? e.1 = some e.2 := by
  obtain ⟨before, after, rfl⟩ := List.append_of_mem he
  have hafter : after.reverse.lookup e.1 = none := by
    rw [List.map_append, List.map_cons] at h
    rw [← get?_ofList]
    exact get?_ofList_of_not_mem (List.nodup_cons.mp (List.nodup_append.mp h).2.1).1
  rw [get?_ofList, List.reverse_append, List.reverse_cons, List.append_assoc, List.lookup_append, hafter,
    Option.none_or, List.singleton_append, lookup_cons_eq, if_pos rfl]

theorem lookup_filter (p : String → Bool) (entries : List (String × α)) (x : String) :
    (entries.filter fun e => p e.1).lookup x = if p x = true then entries.lookup x else none := by
  induction entries with
  | nil => rw [List.filter_nil, List.lookup_nil, ite_self]
  | cons e rest ih =>
    rw [List.filter_cons, lookup_cons_eq]
    by_cases hx : x = e.1
    · rw [if_pos hx, ← hx]
      split
      · rw [lookup_cons_eq, if_pos hx]
      · rename_i hp
        rw [ih, if_neg hp]
    · rw [if_neg hx]
      split
      · rw [lookup_cons_eq, if_neg hx, ih]
      · exact ih

theorem get?_filterNames (m : NameMap α) (p : String → Bool) (x : String) :
    (m.filterNames p).get? x = if p x = true then m.get? x else none :=
  lookup_filter p m.entries x

theorem mem_names_iff (m : NameMap α) (x : String) : x ∈ m.names ↔ ∃ a, m.get? x = some a := by
  rw [names, get?, List.mem_map, ← Option.isSome_iff_exists, List.lookup_isSome_iff]
  simp only [beq_iff_eq, eq_comm (a := x)]

theorem contains_iff (m : NameMap α) (x : String) : m.contains x = true ↔ ∃ a, m.get? x = some a := by
  rw [contains, Option.isSome_iff_exists]

theorem length_names (m : NameMap α) : m.names.length = m.size := List.length_map _

theorem pairwise_names (m : NameMap α) : m.names.Pairwise fun a b => Text.compareBytes a b = .lt := by
  rw [names, List.pairwise_map]
  exact m.ascending

theorem lookup_of_isAscending {e : String × α} {rest : List (String × α)}
    (h : Ascending.IsAscending Text.compareNames (e :: rest)) : rest.lookup e.1 = none := by
  rw [List.lookup_eq_none_iff]
  intro f hf
  rw [bne_iff_ne]
  intro heq
  have hnodup := Text.nodup_of_isAscending h
  rw [List.map_cons, List.nodup_cons, heq] at hnodup
  exact hnodup.1 (List.mem_map_of_mem hf)

theorem length_insert {entries : List (String × α)} (h : Ascending.IsAscending Text.compareNames entries)
    (name : String) (a : α) :
    (Ascending.insert Text.compareNames (name, a) entries).length =
      if (entries.lookup name).isSome = true then entries.length else entries.length + 1 := by
  induction entries with
  | nil => rfl
  | cons e rest ih =>
    have hascending := Ascending.isAscending_insert (name, a) h
    rw [Ascending.insert] at hascending ⊢
    cases hname : Text.compareNames (name, a) e with
    | lt =>
      rw [hname] at hascending
      rw [lookup_of_isAscending hascending]
      rfl
    | eq =>
      rw [lookup_cons_eq, if_pos (Text.compareNames_eq_iff.mp hname)]
      rfl
    | gt =>
      have he : name ≠ e.1 := Text.ne_of_compareNames_gt hname
      rw [List.length_cons, ih (List.pairwise_cons.mp h).2, lookup_cons_eq, if_neg he, List.length_cons]
      split <;> rfl

theorem size_insert (m : NameMap α) (name : String) (a : α) :
    (m.insert name a).size = if m.contains name = true then m.size else m.size + 1 :=
  length_insert m.ascending name a

theorem mem_iff_lookup {entries : List (String × α)} (h : Ascending.IsAscending Text.compareNames entries)
    (e : String × α) : e ∈ entries ↔ entries.lookup e.1 = some e.2 := by
  induction entries with
  | nil => simp
  | cons f rest ih =>
    specialize ih (List.pairwise_cons.mp h).2
    rw [List.mem_cons, lookup_cons_eq, ih]
    by_cases he : e.1 = f.1
    · rw [if_pos he, he, lookup_of_isAscending h, Prod.ext_iff, and_iff_right he, eq_comm]
      simp
    · rw [if_neg he, or_iff_right fun heq => he (congrArg Prod.fst heq)]

theorem mem_entries_iff (m : NameMap α) (e : String × α) : e ∈ m.entries ↔ m.get? e.1 = some e.2 :=
  mem_iff_lookup m.ascending e

theorem enumerates_names (m : NameMap α) :
    Ascending.Enumerates Text.compareBytes m.names fun x => m.contains x = true where
  ascending := m.pairwise_names
  mem_iff x := (m.mem_names_iff x).trans (m.contains_iff x).symm

theorem ext_get? {m n : NameMap α} (h : ∀ x, m.get? x = n.get? x) : m = n := by
  apply ext_entries
  apply Ascending.ext_mem m.ascending n.ascending
  intro e
  rw [mem_entries_iff, mem_entries_iff, h]

end NameMap

namespace NameSet

theorem mem_names_ofNames (names : List String) (x : String) : x ∈ (ofNames names).names ↔ x ∈ names := by
  rw [NameMap.mem_names_iff, ofNames, ← Option.isSome_iff_exists, NameMap.get?_ofList, List.lookup_isSome_iff]
  simp

theorem enumerates_ofNames (names : List String) :
    Ascending.Enumerates Text.compareBytes (ofNames names).names fun x => x ∈ names where
  ascending := (ofNames names).pairwise_names
  mem_iff := mem_names_ofNames names

theorem contains_ofNames_iff (names : List String) (x : String) : (ofNames names).contains x = true ↔ x ∈ names := by
  rw [NameMap.contains_iff, ← NameMap.mem_names_iff, mem_names_ofNames]

theorem foldl_insert_eq_ofNames (names : List String) :
    names.foldl (fun kept name => kept.insert name ()) ∅ = ofNames names := by
  induction names using List.reverseRecOn with
  | nil => rfl
  | append_singleton before name ih =>
    rw [List.foldl_concat, ih]
    apply NameMap.ext_entries
    rw [ofNames, ofNames, List.map_append]
    exact (Ascending.ofList_append_singleton _ _ _).symm

theorem ofNames_congr {names names' : List String} (h : ∀ x, x ∈ names ↔ x ∈ names') :
    ofNames names = ofNames names' := by
  apply NameMap.ext_get?
  intro x
  have hiff : ((ofNames names).get? x).isSome = ((ofNames names').get? x).isSome := by
    rw [Bool.eq_iff_iff]
    exact (contains_ofNames_iff names x).trans ((h x).trans (contains_ofNames_iff names' x).symm)
  cases hx : (ofNames names).get? x <;> cases hx' : (ofNames names').get? x <;> simp [hx, hx'] at hiff ⊢

end NameSet

end PolicyYaml
