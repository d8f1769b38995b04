import PolicyYaml.Proofs.Document.Nesting
import PolicyYaml.Proofs.Document.ParseTokens
import PolicyYaml.Proofs.Document.TreeEquality
import PolicyYaml.Proofs.Document.WrittenTokens

/-!
A tree is read back from its text, unless it nests deeper than the reader follows. Then nothing is.
-/

namespace PolicyYaml

namespace Document

theorem itemNodes_eq_map {ρ : Type} (items : List Tree) : (itemNodes items : List (Node ρ)) = items.map nodeOf := by
  induction items with
  | nil => rw [itemNodes]; rfl
  | cons t rest ih => rw [itemNodes, ih, List.map_cons]

theorem entryNodes_eq_map {ρ : Type} (entries : List (Tree × Tree)) :
    (entryNodes entries : List (Node ρ × Node ρ)) = entries.map fun e => (nodeOf e.1, nodeOf e.2) := by
  induction entries with
  | nil => rw [entryNodes]; rfl
  | cons e rest ih => rw [entryNodes, ih, List.map_cons]

theorem link_nodeOf (t : Tree) (numbers : AnchorNumbers) : link numbers (nodeOf t) = some ⟨nodeOf t, numbers, []⟩ := by
  induction t using Tree.structuralInduction generalizing numbers with
  | null | boolean | integer | float | string => rfl
  | tagged => rw [nodeOf, nodeOf] <;> first | rfl | simp
  | sequence items ih =>
    have hitems : linkItems numbers (itemNodes items) = some ⟨itemNodes items, numbers, []⟩ := by
      induction items with
      | nil => rfl
      | cons t rest ihRest =>
        rw [List.forall_mem_cons] at ih
        simp only [itemNodes, linkItems, ih.1, ihRest ih.2, Option.bind_eq_bind, Option.bind_some, List.append_nil]
    simp only [nodeOf, link, Linked.anchored, hitems, Option.map_some]
  | mapping entries ih =>
    have hentries : linkEntries numbers (entryNodes entries) = some ⟨entryNodes entries, numbers, []⟩ := by
      induction entries with
      | nil => rfl
      | cons e rest ihRest =>
        rw [List.forall_mem_cons] at ih
        simp only [entryNodes, linkEntries, ih.1.1, ih.1.2, ihRest ih.2, Option.bind_eq_bind, Option.bind_some,
          List.append_nil]
    simp only [nodeOf, link, Linked.anchored, hentries, Option.map_some]

/-- The expansion gives one thing if a condition holds and else nothing, and follows no alias. -/
def Gives {α : Type} (m : Expansion α) (condition : Bool) (a : α) : Prop :=
  ∀ left, m left = if condition then some (a, left) else none

section Steps

variable {α β : Type} {condition condition' : Bool}

theorem gives_pure (a : α) : Gives (pure a) true a := fun _ => rfl

theorem gives_failure (a : α) : Gives failure false a := fun _ => rfl

theorem gives_bind {m : Expansion α} {f : α → Expansion β} {a : α} {b : β} (hm : Gives m condition a)
    (hf : Gives (f a) condition' b) : Gives (m >>= f) (condition && condition') b := by
  intro left
  show ((m left).bind fun r => f r.1 r.2) = _
  rw [hm left]
  cases condition with
  | true => exact hf left
  | false => rfl

theorem gives_mapM {f : β → Expansion α} {g : α → β} {condition : α → Bool} {members : List α}
    (h : ∀ a ∈ members, Gives (f (g a)) (condition a) a) :
    Gives ((members.map g).mapM f) (members.all condition) members := by
  induction members with
  | nil => exact gives_pure []
  | cons a rest ih =>
    rw [List.forall_mem_cons] at h
    rw [List.map_cons, List.mapM_cons, List.all_cons]
    refine gives_bind h.1 ?_
    rw [← Bool.and_true (rest.all condition)]
    exact gives_bind (ih h.2) (gives_pure (a :: rest))

end Steps

theorem follow_nodeOf (targets : List (Nat × LinkedNode)) (t : Tree) : follow targets (nodeOf t) = pure (nodeOf t) := by
  cases t <;> rw [nodeOf] <;> first | rfl | simp

theorem localTag?_nodeOf {ρ : Type} (t : Tree) : (nodeOf t : Node ρ).localTag? = none := by
  cases t <;> rw [nodeOf] <;> first | rfl | simp

theorem gives_expand {t : Tree} {condition : Bool} (targets : List (Nat × LinkedNode)) {depth : Nat}
    (h : Gives (contentTree (if depth = 0 then none else some (expand targets (depth - 1))) (nodeOf t)) condition t) :
    Gives (expand targets depth (nodeOf t)) condition t := by
  -- The two cases of the depth take the same steps and differ in how they expand the members.
  have hsteps : Gives (do
      let n ← follow targets (nodeOf t)
      let tree ← contentTree (if depth = 0 then none else some (expand targets (depth - 1))) n
      return tagTree n.localTag? tree) (true && (condition && true)) t := by
    refine gives_bind ?_ (gives_bind h ?_)
    · rw [follow_nodeOf]
      exact gives_pure _
    · rw [localTag?_nodeOf]
      exact gives_pure t
  rw [Bool.true_and, Bool.and_true] at hsteps
  cases depth <;> exact hsteps

theorem gives_expand_scalar {t : Tree} (h : t.IsWritableScalar) (targets : List (Nat × LinkedNode)) (depth : Nat) :
    Gives (expand targets depth (nodeOf t)) (decide (t.nesting ≤ depth)) t := by
  have hnesting : t.nesting = 0 := by cases h <;> rfl
  rw [hnesting, decide_eq_true (Nat.zero_le depth)]
  apply gives_expand
  intro left
  rw [nodeOf_scalar h, contentTree, scalarTree_content h]
  rfl

theorem gives_expand_nodeOf {t : Tree} (h : t.IsWritable) (targets : List (Nat × LinkedNode)) (depth : Nat) :
    Gives (expand targets depth (nodeOf t)) (decide (t.nesting ≤ depth)) t := by
  induction h generalizing depth with
  | scalar h => exact gives_expand_scalar h targets depth
  | @sequence items _ ih =>
    apply gives_expand
    rw [nodeOf, itemNodes_eq_map]
    cases depth with
    | zero =>
      rw [decide_eq_false (by rw [Tree.nesting]; omega)]
      exact gives_failure _
    | succ depth =>
      have hcondition : decide ((Tree.sequence items).nesting ≤ depth + 1) =
          (items.all fun t => decide (t.nesting ≤ depth)) := by
        rw [Tree.nesting, Bool.eq_iff_iff, List.all_eq_true]
        simp [Tree.itemNesting_le_iff]
      rw [hcondition, ← Bool.and_true (items.all _)]
      exact gives_bind (gives_mapM fun t ht => ih t ht depth) (gives_pure _)
  | @mapping entries hkeys _ hdistinct ih =>
    apply gives_expand
    rw [nodeOf, entryNodes_eq_map]
    cases depth with
    | zero =>
      rw [decide_eq_false (by rw [Tree.nesting]; omega)]
      exact gives_failure _
    | succ depth =>
      have hcondition : decide ((Tree.mapping entries).nesting ≤ depth + 1) =
          (entries.all fun e => decide (e.1.nesting ≤ depth) && (decide (e.2.nesting ≤ depth) && true)) := by
        rw [Tree.nesting, Bool.eq_iff_iff, List.all_eq_true]
        simp [Tree.entryNesting_le_iff]
      rw [hcondition, ← Bool.and_true (entries.all _)]
      refine gives_bind (gives_mapM fun e he => ?_) ?_
      · obtain ⟨s, hs⟩ := hkeys e he
        refine gives_bind ?_ (gives_bind (ih e he depth) (gives_pure e))
        rw [hs]
        exact gives_expand_scalar (.string s) targets depth
      · rw [if_pos hdistinct]
        exact gives_pure _

theorem treeOf?_nodeOf {t : Tree} (h : t.IsWritable) :
    treeOf? (nodeOf t) = if t.nesting ≤ maxDepth then some t else none := by
  have hexpand := gives_expand_nodeOf h [] maxDepth (100 * eventCount (nodeOf t : SourceNode))
  simp only [treeOf?, link_nodeOf, Option.bind_eq_bind, Option.bind_some, StateT.run, hexpand, decide_eq_true_eq]
  split <;> rfl

end Document

theorem Tree.read?_chars {t : Tree} (h : t.IsWritable) :
    read? t.chars = if t.nesting ≤ Document.maxDepth then some t else none := by
  rw [read?, Document.tokens?_chars h]
  simp only [Option.bind_eq_bind, Option.bind_some, Document.singleDocument?_nodeTokens h]
  exact Document.treeOf?_nodeOf h

end PolicyYaml
