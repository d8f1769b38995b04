import PolicyYaml.Document.Layout
import PolicyYaml.Document.Cursor

namespace PolicyYaml.Document

namespace Position

@[simp]
theorem next_advance (p : Position) (n : Nat) : p.next.advance n = p.advance (n + 1) := by
  simp only [next, advance, mk.injEq, true_and]
  omega

@[simp]
theorem advance_advance (p : Position) (m n : Nat) : (p.advance m).advance n = p.advance (m + n) := by
  simp only [advance, mk.injEq, true_and]
  omega

@[simp]
theorem advance_next (p : Position) (n : Nat) : (p.advance n).next = p.advance (n + 1) := by
  simp only [next, advance, mk.injEq, true_and]
  omega

def after (p : Position) : List Char → Position
  | [] => p
  | c :: cs => (if isBreak c then p.nextLine else p.next).after cs

theorem after_break {c : Char} (h : isBreak c = true) (p : Position) (cs : List Char) :
    p.after (c :: cs) = p.nextLine.after cs := by
  rw [after, if_pos h]

theorem after_char {c : Char} (h : isBreak c = false) (p : Position) (cs : List Char) :
    p.after (c :: cs) = p.next.after cs := by
  rw [after, h, if_neg Bool.false_ne_true]

theorem after_append (p : Position) (cs ds : List Char) : p.after (cs ++ ds) = (p.after cs).after ds := by
  induction cs generalizing p with
  | nil => rfl
  | cons c cs ih => exact ih _

theorem after_of_unbroken {cs : List Char} (h : ∀ c ∈ cs, isBreak c = false) (p : Position) :
    p.after cs = p.advance cs.length := by
  induction cs generalizing p with
  | nil => rfl
  | cons c cs ih =>
    rw [List.forall_mem_cons] at h
    rw [after_char h.1, ih h.2, next_advance, List.length_cons]

theorem after_spaces (p : Position) (n : Nat) : p.after (spaces n) = p.advance n := by
  have hspace : ∀ c ∈ spaces n, isBreak c = false := by
    intro c hc
    rw [List.eq_of_mem_replicate hc]
    rfl
  rw [after_of_unbroken hspace, spaces, List.length_replicate]

theorem line_le_after (p : Position) (cs : List Char) : p.line ≤ (p.after cs).line := by
  induction cs generalizing p with
  | nil => exact Nat.le_refl _
  | cons c cs ih =>
    refine Nat.le_trans ?_ (ih _)
    split
    · exact Nat.le_succ _
    · exact Nat.le_refl _

end Position

def IsEntryStart (c : Char) : Prop := isBlank c = false ∧ isBreak c = false ∧ c ≠ '#' ∧ c ≠ byteOrderMark

instance (c : Char) : Decidable (IsEntryStart c) := inferInstanceAs (Decidable (_ ∧ _ ∧ _ ∧ _))

inductive Follows : Int → List Char → Prop
  | nothing : Follows (-1) []
  | entry {column : Nat} {c : Char} {rest : List Char} : IsEntryStart c → Follows column (c :: rest)

end PolicyYaml.Document
