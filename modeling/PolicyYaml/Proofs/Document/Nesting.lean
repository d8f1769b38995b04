import PolicyYaml.Proofs.Document.Yields

namespace PolicyYaml

namespace Tree

mutual

def nesting : Tree → Nat
  | .sequence items => itemNesting items + 1
  | .mapping entries => entryNesting entries + 1
  | .tagged _ content => content.nesting
  | .null | .boolean _ | .integer _ | .float _ | .string _ => 0

def itemNesting : List Tree → Nat
  | [] => 0
  | t :: rest => max t.nesting (itemNesting rest)

def entryNesting : List (Tree × Tree) → Nat
  | [] => 0
  | (k, v) :: rest => max (max k.nesting v.nesting) (entryNesting rest)

end

theorem itemNesting_le_iff (items : List Tree) (n : Nat) : itemNesting items ≤ n ↔ ∀ t ∈ items, t.nesting ≤ n := by
  induction items with
  | nil => simp [itemNesting]
  | cons t rest ih => rw [itemNesting, Nat.max_le, ih, List.forall_mem_cons]

theorem entryNesting_le_iff (entries : List (Tree × Tree)) (n : Nat) :
    entryNesting entries ≤ n ↔ ∀ e ∈ entries, e.1.nesting ≤ n ∧ e.2.nesting ≤ n := by
  induction entries with
  | nil => simp [entryNesting]
  | cons e rest ih => rw [entryNesting, Nat.max_le, Nat.max_le, ih, List.forall_mem_cons]

end Tree

namespace Document

theorem nesting_of_resolvePlain {cs : List Char} {t : Tree} (h : resolvePlain cs = some t) : t.nesting = 0 := by
  unfold resolvePlain at h
  repeat' split at h
  all_goals first | contradiction | (cases h; rfl)

theorem nesting_of_scalarTree {tag : Option Tag} {plain : Bool} {content : List Char} {t : Tree}
    (h : scalarTree tag plain content = some t) : t.nesting = 0 := by
  unfold scalarTree at h
  split at h
  · obtain ⟨b, -, rfl⟩ := Option.map_eq_some_iff.mp h
    rfl
  · split at h
    · cases h
      rfl
    · contradiction
  · obtain ⟨d, -, rfl⟩ := Option.map_eq_some_iff.mp h
    rfl
  · split at h
    · cases h
      rfl
    · contradiction
  · cases h
    rfl
  · split at h
    · exact nesting_of_resolvePlain h
    · cases h
      rfl
  · split at h
    · exact nesting_of_resolvePlain h
    · cases h
      rfl

theorem isBuiltUp_nesting_le : IsBuiltUp fun depth t => t.nesting ≤ depth where
  scalar depth tag plain content t h := by
    rw [nesting_of_scalarTree h]
    exact Nat.zero_le depth
  sequence depth items h := by
    rwa [Tree.nesting, Nat.add_le_add_iff_right, Tree.itemNesting_le_iff]
  mapping depth entries h := by
    rwa [Tree.nesting, Nat.add_le_add_iff_right, Tree.entryNesting_le_iff]
  tagged depth tag t h := by
    rwa [Tree.nesting]

end Document

theorem Tree.nesting_le_of_read? {cs : List Char} {t : Tree} (h : read? cs = some t) :
    t.nesting ≤ Document.maxDepth :=
  Document.isBuiltUp_nesting_le.of_read? h

end PolicyYaml
