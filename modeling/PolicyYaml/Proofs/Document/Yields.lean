import PolicyYaml.Document.Read

/-!
What holds of every tree that the expansion of a node gives, by rules that follow its steps.
-/

namespace PolicyYaml.Document

def Yields {α : Type} (P : α → Prop) (m : Expansion α) : Prop := ∀ left a left', m left = some (a, left') → P a

section Steps

variable {α β : Type} {P : α → Prop} {Q : β → Prop}

theorem yields_pure {a : α} (h : P a) : Yields P (pure a) := by
  intro left b left' hb
  cases hb
  exact h

theorem yields_true (m : Expansion α) : Yields (fun _ => True) m := fun _ _ _ _ => trivial

theorem yields_failure : Yields P failure := by
  intro left a left' h
  contradiction

theorem yields_bind {m : Expansion α} {f : α → Expansion β} (hm : Yields P m) (hf : ∀ a, P a → Yields Q (f a)) :
    Yields Q (m >>= f) := by
  intro left b left' h
  obtain ⟨⟨a, middle⟩, ha, hb⟩ := Option.bind_eq_some_iff.mp h
  exact hf a (hm left a middle ha) middle b left' hb

theorem yields_mapM {f : α → Expansion β} (members : List α) (hf : ∀ a, Yields Q (f a)) :
    Yields (fun results => ∀ b ∈ results, Q b) (members.mapM f) := by
  induction members with
  | nil =>
    rw [List.mapM_nil]
    exact yields_pure (by simp)
  | cons a rest ih =>
    rw [List.mapM_cons]
    refine yields_bind (hf a) fun b hb => ?_
    refine yields_bind ih fun others hothers => ?_
    exact yields_pure (List.forall_mem_cons.mpr ⟨hb, hothers⟩)

end Steps

theorem yields_entry {P : Tree → Prop} {inner : LinkedNode → Expansion Tree} (hinner : ∀ n, Yields P (inner n))
    (key value : LinkedNode) :
    Yields (fun e : Tree × Tree => P e.1 ∧ P e.2) (do return (← inner key, ← inner value)) := by
  refine yields_bind (hinner key) fun k hk => ?_
  refine yields_bind (hinner value) fun v hv => ?_
  exact yields_pure ⟨hk, hv⟩

section Content

variable {P Q : Tree → Prop}

theorem yields_contentTree_none (hscalar : ∀ tag plain content t, scalarTree tag plain content = some t → Q t)
    (n : LinkedNode) : Yields Q (contentTree none n) := by
  unfold contentTree
  split
  · intro left t left' h
    obtain ⟨t', ht', hpair⟩ := Option.map_eq_some_iff.mp h
    cases hpair
    exact hscalar _ _ _ _ ht'
  · contradiction
  · contradiction
  · exact yields_failure

theorem yields_contentTree_some (hscalar : ∀ tag plain content t, scalarTree tag plain content = some t → Q t)
    (hsequence : ∀ items, (∀ t ∈ items, P t) → Q (.sequence items))
    (hmapping : ∀ entries, (∀ e ∈ entries, P e.1 ∧ P e.2) → Q (.mapping entries))
    {inner : LinkedNode → Expansion Tree} (hinner : ∀ n, Yields P (inner n)) (n : LinkedNode) :
    Yields Q (contentTree (some inner) n) := by
  unfold contentTree
  split
  · intro left t left' h
    obtain ⟨t', ht', hpair⟩ := Option.map_eq_some_iff.mp h
    cases hpair
    exact hscalar _ _ _ _ ht'
  · rename_i hsome
    cases hsome
    refine yields_bind (yields_mapM _ hinner) fun trees htrees => ?_
    exact yields_pure (hsequence trees htrees)
  · rename_i hsome
    cases hsome
    refine yields_bind (yields_mapM _ fun e => yields_entry hinner e.1 e.2) fun entries hentries => ?_
    split
    · exact yields_pure (hmapping entries hentries)
    · exact yields_failure
  · exact yields_failure

end Content

/-- That `P` holds of the tree of a node, with what is left of the depth, if it does of the trees inside of it. -/
structure IsBuiltUp (P : Nat → Tree → Prop) : Prop where
  scalar : ∀ depth tag plain content t, scalarTree tag plain content = some t → P depth t
  sequence : ∀ depth items, (∀ t ∈ items, P depth t) → P (depth + 1) (.sequence items)
  mapping : ∀ depth entries, (∀ e ∈ entries, P depth e.1 ∧ P depth e.2) → P (depth + 1) (.mapping entries)
  tagged : ∀ depth tag t, P depth t → P depth (.tagged tag t)

namespace IsBuiltUp

variable {P : Nat → Tree → Prop}

theorem tagTree (h : IsBuiltUp P) {depth : Nat} {tag : Option String} {t : Tree} (ht : P depth t) :
    P depth (tagTree tag t) := by
  cases tag with
  | none => exact ht
  | some name => exact h.tagged depth name t ht

theorem yields_expand (h : IsBuiltUp P) (targets : List (Nat × LinkedNode)) (depth : Nat) (n : LinkedNode) :
    Yields (P depth) (expand targets depth n) := by
  induction depth generalizing n with
  | zero =>
    refine yields_bind (yields_true _) fun n _ => ?_
    refine yields_bind (yields_contentTree_none (h.scalar 0) n) fun t ht => ?_
    exact yields_pure (h.tagTree ht)
  | succ depth ih =>
    refine yields_bind (yields_true _) fun n _ => ?_
    refine yields_bind
      (yields_contentTree_some (h.scalar (depth + 1)) (h.sequence depth) (h.mapping depth) ih n) fun t ht => ?_
    exact yields_pure (h.tagTree ht)

theorem of_read? (h : IsBuiltUp P) {cs : List Char} {t : Tree} (ht : Tree.read? cs = some t) : P maxDepth t := by
  obtain ⟨ts, -, hnode⟩ := Option.bind_eq_some_iff.mp ht
  obtain ⟨node, -, htree⟩ := Option.bind_eq_some_iff.mp hnode
  cases node with
  | none => exact h.scalar _ none true [] t htree
  | some node =>
    obtain ⟨linked, -, hexpand⟩ := Option.bind_eq_some_iff.mp htree
    obtain ⟨⟨t', left⟩, ht', hsome⟩ := Option.bind_eq_some_iff.mp hexpand
    cases hsome
    exact h.yields_expand _ _ _ _ _ _ ht'

end IsBuiltUp

end PolicyYaml.Document
