import Mathlib.Data.List.Induction
import Mathlib.Data.List.Pairwise
import Mathlib.Data.List.Perm.Basic
import PolicyYaml.Ascending

namespace PolicyYaml.Ascending

variable {α : Type} {order : α → α → Ordering}

def IsLast (order : α → α → Ordering) (members : List α) (a : α) : Prop :=
  ∃ before after, members = before ++ a :: after ∧ ∀ b ∈ after, order b a ≠ .eq

theorem IsLast.mem {members : List α} {a : α} (h : IsLast order members a) : a ∈ members := by
  obtain ⟨before, after, rfl, -⟩ := h
  exact List.mem_append_right before List.mem_cons_self

theorem isLast_append_singleton (members : List α) (a b : α) :
    IsLast order (members ++ [a]) b ↔ b = a ∨ IsLast order members b ∧ order a b ≠ .eq := by
  constructor
  · rintro ⟨before, after, hsplit, hafter⟩
    rcases List.eq_nil_or_concat after with rfl | ⟨after, c, rfl⟩
    · exact .inl (List.singleton_inj.mp (List.append_inj' hsplit rfl).2.symm)
    · rw [List.concat_eq_append] at hsplit hafter
      rw [← List.cons_append, ← List.append_assoc] at hsplit
      obtain ⟨rfl, hc⟩ := List.append_inj' hsplit rfl
      rw [List.singleton_inj] at hc
      subst hc
      refine .inr ⟨⟨before, after, rfl, fun c hc => hafter c ?_⟩, hafter a ?_⟩
      · exact List.mem_append_left _ hc
      · exact List.mem_append_right _ List.mem_cons_self
  · rintro (rfl | ⟨⟨before, after, rfl, hafter⟩, ha⟩)
    · exact ⟨members, [], rfl, fun c hc => absurd hc List.not_mem_nil⟩
    · refine ⟨before, after ++ [a], by simp, fun c hc => ?_⟩
      rcases List.mem_append.mp hc with hc | hc
      · exact hafter c hc
      · rwa [List.mem_singleton.mp hc]

theorem isLast_filter_iff {p : α → Bool} (hp : ∀ a b, order a b = .eq → p a = p b) (members : List α) (a : α) :
    IsLast order (members.filter p) a ↔ p a = true ∧ IsLast order members a := by
  constructor
  · rintro ⟨before, after, hsplit, hafter⟩
    obtain ⟨front, rest, rfl, -, hrest⟩ := List.filter_eq_append_iff.mp hsplit
    obtain ⟨skipped, back, rfl, -, ha, rfl⟩ := List.filter_eq_cons_iff.mp hrest
    refine ⟨ha, front ++ skipped, back, by rw [List.append_assoc], fun b hb heq => ?_⟩
    exact hafter b (List.mem_filter.mpr ⟨hb, (hp b a heq).trans ha⟩) heq
  · rintro ⟨ha, before, after, rfl, hafter⟩
    refine ⟨before.filter p, after.filter p, ?_, fun b hb => hafter b (List.mem_filter.mp hb).1⟩
    rw [List.filter_append, List.filter_cons_of_pos ha]

/-- That the members are just what has the property, each once and in ascending order. -/
structure Enumerates (order : α → α → Ordering) (members : List α) (p : α → Prop) : Prop where
  ascending : IsAscending order members
  mem_iff : ∀ a, a ∈ members ↔ p a

theorem Enumerates.filter {members : List α} {p : α → Prop} (h : Enumerates order members p) (q : α → Bool) :
    Enumerates order (members.filter q) fun a => p a ∧ q a = true where
  ascending := List.Pairwise.sublist List.filter_sublist h.ascending
  mem_iff a := by rw [List.mem_filter, h.mem_iff]

section Lawful

variable [Std.TransCmp order]

theorem ne_of_lt {a b : α} (h : order a b = .lt) : order a b ≠ .eq ∧ order b a ≠ .eq := by
  have hgt : order b a = .gt := Std.OrientedCmp.gt_iff_lt.mpr h
  rw [h, hgt]
  decide

theorem mem_insert_iff {kept : List α} (h : IsAscending order kept) (a b : α) :
    b ∈ insert order a kept ↔ b = a ∨ b ∈ kept ∧ order a b ≠ .eq := by
  induction kept with
  | nil => simp [insert]
  | cons c rest ih =>
    obtain ⟨hc, hrest⟩ := List.pairwise_cons.mp h
    rw [insert]
    cases hac : order a c with
    | lt =>
      have hkept : ∀ x ∈ c :: rest, order a x ≠ .eq := by
        refine List.forall_mem_cons.mpr ⟨(ne_of_lt hac).1, fun x hx => ?_⟩
        exact (ne_of_lt (Std.TransCmp.lt_trans hac (hc x hx))).1
      rw [List.mem_cons, and_iff_left_of_imp (hkept b)]
    | eq =>
      have hkept : ∀ x ∈ rest, order a x ≠ .eq :=
        fun x hx => (ne_of_lt (Std.TransCmp.lt_of_eq_of_lt hac (hc x hx))).1
      rw [List.mem_cons, List.mem_cons, or_and_right, and_iff_left_of_imp (hkept b)]
      refine or_congr_right (or_iff_right ?_).symm
      rintro ⟨rfl, hne⟩
      exact hne hac
    | gt =>
      have hne : order a c ≠ .eq := by simp [hac]
      rw [List.mem_cons, List.mem_cons, ih hrest, or_and_right, or_left_comm]
      exact or_congr_right (or_congr_left (and_iff_left_of_imp fun hb => hb ▸ hne).symm)

theorem mem_ofList_iff (members : List α) (a : α) : a ∈ ofList order members ↔ IsLast order members a := by
  induction members using List.reverseRecOn with
  | nil => exact iff_of_false List.not_mem_nil fun h => List.not_mem_nil h.mem
  | append_singleton before b ih =>
    rw [ofList_append_singleton, mem_insert_iff (isAscending_ofList before), ih, isLast_append_singleton]

theorem exists_isLast {members : List α} {a : α} (h : a ∈ members) : ∃ b, IsLast order members b ∧ order b a = .eq := by
  induction members using List.reverseRecOn with
  | nil => exact absurd h List.not_mem_nil
  | append_singleton before c ih =>
    by_cases hc : order c a = .eq
    · exact ⟨c, (isLast_append_singleton before c c).mpr (.inl rfl), hc⟩
    · have hbefore : a ∈ before := by
        refine (List.mem_append.mp h).resolve_right fun hlast => hc ?_
        rw [List.mem_singleton.mp hlast]
        exact Std.ReflCmp.compare_self
      obtain ⟨b, hb, heq⟩ := ih hbefore
      refine ⟨b, (isLast_append_singleton before c b).mpr (.inr ⟨hb, fun hcb => hc ?_⟩), heq⟩
      exact Std.TransCmp.eq_trans hcb heq

theorem nodup_of_isAscending {members : List α} (h : IsAscending order members) : members.Nodup := by
  refine List.Pairwise.imp ?_ h
  rintro a b hlt rfl
  exact (ne_of_lt hlt).1 Std.ReflCmp.compare_self

theorem eq_of_mem {members : List α} (h : IsAscending order members) {a b : α} (ha : a ∈ members) (hb : b ∈ members)
    (heq : order a b = .eq) : a = b := by
  have hsymm : Std.Symm fun a b : α => order a b ≠ .eq := ⟨fun a b hne heq => hne (Std.OrientedCmp.eq_symm heq)⟩
  by_contra hne
  exact (List.Pairwise.imp (fun hlt => (ne_of_lt hlt).1) h).forall ha hb hne heq

theorem ext_mem {members members' : List α} (h : IsAscending order members) (h' : IsAscending order members')
    (hmem : ∀ a, a ∈ members ↔ a ∈ members') : members = members' := by
  have hperm : members.Perm members' :=
    (List.perm_ext_iff_of_nodup (nodup_of_isAscending h) (nodup_of_isAscending h')).mpr hmem
  refine hperm.eq_of_pairwise ?_ h h'
  intro a b _ _ hab hba
  rw [Std.OrientedCmp.gt_iff_lt.mpr hba] at hab
  contradiction

theorem isLast_iff_mem {members : List α} (h : members.Pairwise fun a b => order a b ≠ .eq) (a : α) :
    IsLast order members a ↔ a ∈ members := by
  refine ⟨IsLast.mem, fun ha => ?_⟩
  obtain ⟨before, after, rfl⟩ := List.append_of_mem ha
  have hrest := (List.pairwise_cons.mp (List.pairwise_append.mp h).2.1).1
  exact ⟨before, after, rfl, fun b hb heq => hrest b hb (Std.OrientedCmp.eq_symm heq)⟩

theorem ofList_of_isAscending {members : List α} (h : IsAscending order members) : ofList order members = members := by
  apply ext_mem (isAscending_ofList members) h
  intro a
  rw [mem_ofList_iff, isLast_iff_mem (h.imp fun hlt => (ne_of_lt hlt).1)]

theorem ofList_eq_of_perm {members members' : List α} (hperm : members.Perm members')
    (h : members.Pairwise fun a b => order a b ≠ .eq) : ofList order members = ofList order members' := by
  have h' : members'.Pairwise fun a b => order a b ≠ .eq :=
    (hperm.pairwise_iff fun hne heq => hne (Std.OrientedCmp.eq_symm heq)).mp h
  apply ext_mem (isAscending_ofList members) (isAscending_ofList members')
  intro a
  rw [mem_ofList_iff, mem_ofList_iff, isLast_iff_mem h, isLast_iff_mem h', hperm.mem_iff]

theorem bne_gt_iff (o : Ordering) : (o != .gt) = true ↔ o.isLE = true := by cases o <;> decide

theorem pairwise_mergeSort (members : List α) :
    (members.mergeSort fun a b => order a b != .gt).Pairwise fun a b => (order a b != .gt) = true := by
  apply List.pairwise_mergeSort
  · intro a b c hab hbc
    rw [bne_gt_iff] at hab hbc ⊢
    exact Std.TransCmp.isLE_trans hab hbc
  · intro a b
    have hswap : order b a = (order a b).swap := Std.OrientedCmp.eq_swap
    rw [hswap]
    cases order a b <;> rfl

theorem mergeSort_eq_ofList {members : List α} (h : members.Pairwise fun a b => order a b ≠ .eq) :
    (members.mergeSort fun a b => order a b != .gt) = ofList order members := by
  have hperm := List.mergeSort_perm members fun a b => order a b != .gt
  have hdistinct := (hperm.pairwise_iff fun hne heq => hne (Std.OrientedCmp.eq_symm heq)).mpr h
  have hascending : IsAscending order (members.mergeSort fun a b => order a b != .gt) := by
    refine List.Pairwise.imp₂ ?_ (pairwise_mergeSort members) hdistinct
    intro a b hle hne
    cases hab : order a b with
    | lt => rfl
    | eq => exact absurd hab hne
    | gt =>
      rw [hab] at hle
      contradiction
  apply ext_mem hascending (isAscending_ofList members)
  intro a
  rw [hperm.mem_iff, mem_ofList_iff, isLast_iff_mem h]

theorem mem_ofList_iff_mem (heq : ∀ a b, order a b = .eq → a = b) (members : List α) (a : α) :
    a ∈ ofList order members ↔ a ∈ members := by
  refine ⟨mem_of_mem_ofList, fun ha => ?_⟩
  obtain ⟨b, hb, hba⟩ : ∃ b, IsLast order members b ∧ order b a = .eq := exists_isLast ha
  rwa [mem_ofList_iff, ← heq b a hba]

theorem Enumerates.unique {members members' : List α} {p : α → Prop} (h : Enumerates order members p)
    (h' : Enumerates order members' p) : members = members' :=
  ext_mem h.ascending h'.ascending fun a => (h.mem_iff a).trans (h'.mem_iff a).symm

theorem Enumerates.length_le {members members' : List α} {p p' : α → Prop} (h : Enumerates order members p)
    (h' : Enumerates order members' p') (himp : ∀ a, p a → p' a) : members.length ≤ members'.length := by
  have hsubset : members ⊆ members' := fun a ha => (h'.mem_iff a).mpr (himp a ((h.mem_iff a).mp ha))
  exact (List.subperm_of_subset (nodup_of_isAscending h.ascending) hsubset).length_le

theorem ofList_filter {p : α → Bool} (hp : ∀ a b, order a b = .eq → p a = p b) (members : List α) :
    ofList order (members.filter p) = (ofList order members).filter p := by
  apply ext_mem (isAscending_ofList _) (List.Pairwise.sublist List.filter_sublist (isAscending_ofList members))
  intro a
  rw [mem_ofList_iff, isLast_filter_iff hp, List.mem_filter, mem_ofList_iff, and_comm]

end Lawful

end PolicyYaml.Ascending
