import Mathlib.Data.List.Basic

namespace PolicyYaml.Text

def afterComma (members : List String) : List Char := members.flatMap fun s => ',' :: ' ' :: s.toList

theorem toList_intercalate_cons (s : String) (rest : List String) :
    (", ".intercalate (s :: rest)).toList = s.toList ++ afterComma rest := by
  induction rest generalizing s with
  | nil => simp [afterComma]
  | cons t rest ih =>
    rw [String.intercalate_cons_cons, String.toList_append, ih, String.toList_append]
    exact List.append_assoc _ _ _

theorem takeWhile_afterComma (members : List String) : (afterComma members).takeWhile (· != ',') = [] := by
  cases members <;> rfl

theorem takeWhile_append_afterComma {s : String} (h : ',' ∉ s.toList) (members : List String) :
    (s.toList ++ afterComma members).takeWhile (· != ',') = s.toList := by
  rw [List.takeWhile_append_of_pos, takeWhile_afterComma, List.append_nil]
  intro c hc
  rw [bne_iff_ne]
  rintro rfl
  exact h hc

theorem append_afterComma_inj {s t : String} {members members' : List String} (hs : ',' ∉ s.toList)
    (ht : ',' ∉ t.toList) (h : s.toList ++ afterComma members = t.toList ++ afterComma members') :
    s = t ∧ afterComma members = afterComma members' := by
  have hfirst := congrArg (List.takeWhile (· != ',')) h
  rw [takeWhile_append_afterComma hs, takeWhile_append_afterComma ht, String.toList_inj] at hfirst
  subst hfirst
  exact ⟨rfl, List.append_cancel_left h⟩

theorem afterComma_inj {members members' : List String} (h : ∀ s ∈ members, ',' ∉ s.toList)
    (h' : ∀ s ∈ members', ',' ∉ s.toList) (heq : afterComma members = afterComma members') : members = members' := by
  induction members generalizing members' with
  | nil =>
    cases members' with
    | nil => rfl
    | cons => contradiction
  | cons s rest ih =>
    cases members' with
    | nil => contradiction
    | cons t rest' =>
      obtain ⟨hs, hrest⟩ := List.forall_mem_cons.mp h
      obtain ⟨ht, hrest'⟩ := List.forall_mem_cons.mp h'
      have htail : s.toList ++ afterComma rest = t.toList ++ afterComma rest' :=
        (List.cons.inj (List.cons.inj heq).2).2
      obtain ⟨rfl, hafter⟩ := append_afterComma_inj hs ht htail
      rw [ih hrest hrest' hafter]

theorem intercalate_cons_ne_empty {s : String} (h : s ≠ "") (rest : List String) :
    ", ".intercalate (s :: rest) ≠ "" := by
  rw [ne_eq, ← String.toList_inj, toList_intercalate_cons]
  intro hnil
  exact h (String.toList_inj.mp (List.append_eq_nil_iff.mp hnil).1)

theorem intercalate_inj {members members' : List String} (h : ∀ s ∈ members, s ≠ "" ∧ ',' ∉ s.toList)
    (h' : ∀ s ∈ members', s ≠ "" ∧ ',' ∉ s.toList) (heq : ", ".intercalate members = ", ".intercalate members') :
    members = members' := by
  cases members with
  | nil =>
    cases members' with
    | nil => rfl
    | cons t rest' => exact absurd heq.symm (intercalate_cons_ne_empty (h' t List.mem_cons_self).1 rest')
  | cons s rest =>
    cases members' with
    | nil => exact absurd heq (intercalate_cons_ne_empty (h s List.mem_cons_self).1 rest)
    | cons t rest' =>
      rw [← String.toList_inj, toList_intercalate_cons, toList_intercalate_cons] at heq
      obtain ⟨hs, hrest⟩ := List.forall_mem_cons.mp h
      obtain ⟨ht, hrest'⟩ := List.forall_mem_cons.mp h'
      obtain ⟨rfl, hafter⟩ := append_afterComma_inj hs.2 ht.2 heq
      rw [afterComma_inj (fun u hu => (hrest u hu).2) (fun u hu => (hrest' u hu).2) hafter]

end PolicyYaml.Text
