import PolicyYaml.Proofs.Codec.Failure
import PolicyYaml.Proofs.Document.TreeEquality

namespace PolicyYaml

namespace Tree

def scalarText? (t : Tree) : Option String :=
  match t.untagged with
  | .null => some "null"
  | .boolean b => some (if b then "true" else "false")
  | .integer i => some (Codec.decodeInteger i).text
  | .float d => some (Number.float d).text
  | .string s => some s
  | .sequence _ | .mapping _ | .tagged _ _ => none

inductive Holds : Tree → List (Tree × Tree) → Prop
  | here (entries : List (Tree × Tree)) : Holds (.mapping entries) entries
  | item {items : List Tree} {t : Tree} {m : List (Tree × Tree)} :
    t ∈ items → Holds t m → Holds (.sequence items) m
  | value {entries m : List (Tree × Tree)} {e : Tree × Tree} :
    e ∈ entries → Holds e.2 m → Holds (.mapping entries) m
  | tagged {tag : String} {content : Tree} {m : List (Tree × Tree)} :
    Holds content m → Holds (.tagged tag content) m

end Tree

namespace Codec

mutual

/-- Every key at a value position in document order, after the keys of its mapping before it. -/
def keyStops : Tree → List (List Tree × Tree)
  | .sequence items => itemStops items
  | .mapping entries => entryStops [] entries
  | .tagged _ content => keyStops content
  | .null | .boolean _ | .integer _ | .float _ | .string _ => []

def itemStops : List Tree → List (List Tree × Tree)
  | [] => []
  | t :: rest => keyStops t ++ itemStops rest

def entryStops (earlier : List Tree) : List (Tree × Tree) → List (List Tree × Tree)
  | [] => []
  | (k, v) :: rest => (earlier, k) :: (keyStops v ++ entryStops (earlier ++ [k]) rest)

end

theorem mem_itemStops_iff (items : List Tree) (stop : List Tree × Tree) :
    stop ∈ itemStops items ↔ ∃ t ∈ items, stop ∈ keyStops t := by
  induction items with
  | nil => simp [itemStops]
  | cons t rest ih => simp only [itemStops, List.mem_append, ih, List.mem_cons, exists_eq_or_imp]

theorem mem_entryStops_iff (earlier : List Tree) (entries : List (Tree × Tree)) (stop : List Tree × Tree) :
    stop ∈ entryStops earlier entries ↔
      ∃ before e after, entries = before ++ e :: after ∧
        (stop = (earlier ++ before.map Prod.fst, e.1) ∨ stop ∈ keyStops e.2) := by
  induction entries generalizing earlier with
  | nil => simp [entryStops]
  | cons e rest ih =>
    rw [entryStops, List.mem_cons, List.mem_append, ih, exists_eq_append_cons_iff]
    simp only [List.map_nil, List.append_nil, List.map_cons, List.append_assoc, List.singleton_append, or_assoc]

theorem mem_keyStops_iff (y : Tree) (earlier : List Tree) (k : Tree) :
    (earlier, k) ∈ keyStops y ↔
      ∃ before v after, y.Holds (before ++ (k, v) :: after) ∧ earlier = before.map Prod.fst := by
  induction y using Tree.structuralInduction with
  | sequence items ih =>
    rw [keyStops, mem_itemStops_iff]
    constructor
    · rintro ⟨t, ht, h⟩
      obtain ⟨before, v, after, hm, rfl⟩ := (ih t ht).mp h
      exact ⟨before, v, after, .item ht hm, rfl⟩
    · rintro ⟨before, v, after, hm, rfl⟩
      cases hm with
      | item ht hm => exact ⟨_, ht, (ih _ ht).mpr ⟨before, v, after, hm, rfl⟩⟩
  | mapping entries ih =>
    rw [keyStops, mem_entryStops_iff]
    constructor
    · rintro ⟨before, e, after, rfl, h | h⟩
      · cases h
        exact ⟨before, e.2, after, .here _, rfl⟩
      · have hmem : e ∈ before ++ e :: after := by simp
        obtain ⟨before', v', after', hm, rfl⟩ := (ih _ hmem).2.mp h
        exact ⟨before', v', after', .value hmem hm, rfl⟩
    · rintro ⟨before, v, after, hm, rfl⟩
      cases hm with
      | here => exact ⟨before, (k, v), after, rfl, .inl rfl⟩
      | @value _ _ e he hm =>
        obtain ⟨before', after', hentries⟩ := List.append_of_mem he
        exact ⟨before', e, after', hentries, .inr ((ih e he).2.mpr ⟨before, v, after, hm, rfl⟩)⟩
  | tagged tag content ih =>
    rw [keyStops, ih]
    constructor
    · rintro ⟨before, v, after, hm, rfl⟩
      exact ⟨before, v, after, .tagged hm, rfl⟩
    · rintro ⟨before, v, after, hm, rfl⟩
      cases hm with
      | tagged hm => exact ⟨before, v, after, hm, rfl⟩
  | null | boolean | integer | float | string =>
    rw [keyStops]
    refine iff_of_false List.not_mem_nil ?_
    rintro ⟨before, v, after, hm, -⟩
    cases hm

end Codec

end PolicyYaml
