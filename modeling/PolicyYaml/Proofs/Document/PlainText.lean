import PolicyYaml.Document.ScalarText
import PolicyYaml.Proofs.Document.Position

namespace PolicyYaml.Document

structure IsPlainText (cs : List Char) : Prop where
  printable : ∀ c ∈ cs, isPrintable c = true
  unbroken : ∀ c ∈ cs, isBreak c = false
  indicator : Contents.hasIndicator cs = false
  opens : ∃ c rest, cs = c :: rest ∧ c ≠ ' '
  closes : cs.getLast? ≠ some ' '

theorem wordEnds_append {cs : List Char} (h : wordEnds cs = false) (tail : List Char) :
    wordEnds (cs ++ tail) = false := by
  cases cs with
  | nil => contradiction
  | cons c rest => exact h

theorem endsPlain_append {c : Char} {rest : List Char} (h : (c == ':' && wordEnds rest) = false) (tail : List Char) :
    endsPlain false c (rest ++ tail) = false := by
  rw [endsPlain, Bool.false_and, Bool.or_false]
  rw [Bool.and_eq_false_iff] at h ⊢
  exact h.imp_right fun h => wordEnds_append h tail

theorem ne_return {c : Char} (h : isPrintable c = true) : c ≠ '\r' := by
  rintro rfl
  contradiction

theorem ne_tab {c : Char} (h : isPrintable c = true) : c ≠ '\t' := by
  rintro rfl
  contradiction

theorem isBlank_of_isPrintable {c : Char} (h : isPrintable c = true) : isBlank c = (c == ' ') := by
  rw [isBlank, beq_eq_false_iff_ne.mpr (ne_tab h), Bool.or_false]

theorem breakContent_of_isBreak {c : Char} (hprintable : isPrintable c = true) (hbreak : isBreak c = true) :
    breakContent c = c := by
  simp only [isBreak, Bool.or_eq_true, beq_iff_eq] at hbreak
  rcases hbreak with (((rfl | rfl) | rfl) | rfl) | rfl <;> first | rfl | contradiction

theorem ne_return_of_unbroken {c : Char} (h : isBreak c = false) : c ≠ '\r' := by
  rintro rfl
  contradiction

theorem plainScalar_cons {c : Char} (h : c ≠ '\r') (inFlow : Bool) (indent : Nat) (rest : List Char) (p : Position)
    (gap : Gap) (read : List Char) :
    plainScalar inFlow indent (c :: rest) p gap read =
      if isBlank c then
        if gap.broken && decide (p.column < indent) && c == '\t' then none
        else plainScalar inFlow indent rest p.next (gap.addBlank c) read
      else if isBreak c then plainScalar inFlow indent rest p.nextLine (gap.addBreak c) read
      else if !gap.isNone && (!inFlow && decide (p.column < indent) || c == '#' ||
          p.column == 0 && isDocumentMarker (c :: rest)) then
        some ⟨read.reverse, ⟨c :: rest, p⟩, gap.broken⟩
      else if isStrayColon inFlow c rest then none
      else if endsPlain inFlow c rest then some ⟨read.reverse, ⟨c :: rest, p⟩, gap.broken⟩
      else plainScalar inFlow indent rest p.next .none (c :: (gap.folded ++ read)) := by
  rw [plainScalar]
  rintro rest' rfl
  exact absurd rfl h

theorem plainScalar_space (indent : Nat) (rest : List Char) (p : Position) (gap : Gap) (read : List Char) :
    plainScalar false indent (' ' :: rest) p gap read =
      plainScalar false indent rest p.next (gap.addBlank ' ') read := by
  rw [plainScalar_cons (by decide)]
  simp [isBlank]

theorem plainScalar_break (indent : Nat) (rest : List Char) (p : Position) (gap : Gap) (read : List Char) :
    plainScalar false indent ('\n' :: rest) p gap read =
      plainScalar false indent rest p.nextLine (gap.addBreak '\n') read := by
  rw [plainScalar_cons (by decide)]
  simp [isBlank, isBreak]

theorem plainScalar_word {c : Char} (hblank : isBlank c = false) (hbreak : isBreak c = false) (indent : Nat)
    (rest : List Char) (p : Position) (gap : Gap) (read : List Char) :
    plainScalar false indent (c :: rest) p gap read =
      if !gap.isNone && (decide (p.column < indent) || c == '#' || p.column == 0 && isDocumentMarker (c :: rest)) then
        some ⟨read.reverse, ⟨c :: rest, p⟩, gap.broken⟩
      else if endsPlain false c rest then some ⟨read.reverse, ⟨c :: rest, p⟩, gap.broken⟩
      else plainScalar false indent rest p.next .none (c :: (gap.folded ++ read)) := by
  rw [plainScalar_cons (ne_return_of_unbroken hbreak)]
  simp [hblank, hbreak, isStrayColon]

theorem Gap.folded_of_unbroken {gap : Gap} (h : gap.broken = false) : gap.folded = gap.blanks := by
  rw [folded, h]
  rfl

theorem Gap.addBlank_of_unbroken {gap : Gap} (h : gap.broken = false) (c : Char) :
    (gap.addBlank c).broken = false ∧ (gap.addBlank c).isNone = false ∧
      (gap.addBlank c).folded = c :: gap.folded := by
  have hadd : gap.addBlank c = { gap with blanks := c :: gap.blanks } := by
    rw [addBlank, h]
    rfl
  rw [hadd, folded_of_unbroken h, isNone]
  exact ⟨h, rfl, folded_of_unbroken h⟩

theorem getLast?_of_cons {α : Type} {a b : α} {rest : List α} (h : (a :: rest).getLast? ≠ some b) :
    rest.getLast? ≠ some b := by
  cases rest with
  | nil => simp
  | cons c rest => rwa [List.getLast?_cons_cons] at h

theorem plainScalar_line {cs : List Char} (hprintable : ∀ c ∈ cs, isPrintable c = true)
    (hunbroken : ∀ c ∈ cs, isBreak c = false) {indent : Nat} {p : Position} {gap : Gap} {read : List Char}
    (hgap : gap.broken = false) (hlater : Contents.laterIndicator (!gap.isNone) cs = false)
    (hcloses : cs.getLast? ≠ some ' ') (hend : cs = [] → gap = .none) (hcolumn : indent ≤ p.column)
    (hline : 0 < p.column) (tail : List Char) :
    plainScalar false indent (cs ++ tail) p gap read =
      plainScalar false indent tail (p.advance cs.length) .none (cs.reverse ++ (gap.folded ++ read)) := by
  induction cs generalizing p gap read with
  | nil =>
    rw [hend rfl]
    rfl
  | cons c rest ih =>
    rw [List.forall_mem_cons] at hprintable hunbroken
    have hnext : indent ≤ p.next.column ∧ 0 < p.next.column := by
      simp only [Position.next, Position.advance]
      omega
    rw [Contents.laterIndicator, Bool.or_eq_false_iff, Bool.or_eq_false_iff] at hlater
    obtain ⟨⟨hcolon, hhash⟩, hlater⟩ := hlater
    have hstep (gap' : Gap) (read' : List Char) (hfold : gap'.folded ++ read' = c :: (gap.folded ++ read))
        (hbroken : gap'.broken = false) (hnone : (!gap'.isNone) = (isBlank c || isBreak c))
        (hend : rest = [] → gap' = .none) :
        plainScalar false indent (rest ++ tail) p.next gap' read' = plainScalar false indent tail
          (p.advance (c :: rest).length) .none ((c :: rest).reverse ++ (gap.folded ++ read)) := by
      rw [ih hprintable.2 hunbroken.2 hbroken (hnone ▸ hlater) (getLast?_of_cons hcloses) hend hnext.1 hnext.2, hfold]
      simp
    rw [List.cons_append]
    by_cases hc : c = ' '
    · subst hc
      obtain ⟨hbroken, hnone, hfold⟩ := Gap.addBlank_of_unbroken hgap ' '
      have hmore : rest ≠ [] := by
        rintro rfl
        exact hcloses rfl
      rw [plainScalar_space]
      exact hstep _ _ (by rw [hfold]; rfl) hbroken (by rw [hnone]; rfl) fun h => absurd h hmore
    · have hblank : isBlank c = false := by rw [isBlank_of_isPrintable hprintable.1, beq_eq_false_iff_ne.mpr hc]
      have hstays : (!gap.isNone && (decide (p.column < indent) || c == '#' ||
          p.column == 0 && isDocumentMarker (c :: (rest ++ tail)))) = false := by
        rw [decide_eq_false (by omega), beq_eq_false_iff_ne.mpr (Nat.ne_of_gt hline), Bool.false_and, Bool.or_false,
          Bool.false_or, Bool.and_comm, hhash]
      rw [plainScalar_word hblank hunbroken.1, hstays, endsPlain_append hcolon]
      exact hstep _ _ rfl rfl (by rw [hblank, hunbroken.1]; rfl) fun _ => rfl

theorem IsPlainText.isBlank_head {c : Char} {rest : List Char} (h : IsPlainText (c :: rest)) : isBlank c = false := by
  obtain ⟨d, others, heq, hd⟩ := h.opens
  cases heq
  rw [isBlank_of_isPrintable (h.printable c List.mem_cons_self), beq_eq_false_iff_ne.mpr hd]

theorem plainScalar_text {cs : List Char} (h : IsPlainText cs) {indent : Nat} {p : Position}
    (hcolumn : indent ≤ p.column + 1) (tail : List Char) :
    plainScalar false indent (cs ++ tail) p .none [] =
      plainScalar false indent tail (p.advance cs.length) .none cs.reverse := by
  obtain ⟨c, rest, rfl, -⟩ := h.opens
  have hblank := h.isBlank_head
  have hbreak := h.unbroken c List.mem_cons_self
  have hindicator := h.indicator
  rw [Contents.hasIndicator, hblank, hbreak] at hindicator
  simp only [Bool.or_eq_false_iff] at hindicator
  obtain ⟨⟨-, hmark⟩, hlater⟩ := hindicator
  have hcolon : (c == ':' && wordEnds rest) = false := by
    rw [Bool.and_eq_false_iff, Bool.or_eq_false_iff, Bool.or_eq_false_iff] at hmark
    rw [Bool.and_eq_false_iff]
    exact hmark.imp_left fun h => h.1.2
  have hlater : Contents.laterIndicator (!Gap.none.isNone) rest = false := hlater
  rw [List.cons_append, plainScalar_word hblank hbreak]
  simp only [endsPlain_append hcolon]
  rw [plainScalar_line (fun x hx => h.printable x (List.mem_cons_of_mem _ hx))
    (fun x hx => h.unbroken x (List.mem_cons_of_mem _ hx)) rfl hlater (getLast?_of_cons h.closes) (fun _ => rfl)]
  · simp [Gap.none, Gap.folded, Gap.isNone]
  · exact hcolumn
  · exact Nat.succ_pos _

theorem plainScalar_colon (indent : Nat) {rest : List Char} (h : wordEnds rest = true) (p : Position)
    (read : List Char) :
    plainScalar false indent (':' :: rest) p .none read = some ⟨read.reverse, ⟨':' :: rest, p⟩, false⟩ := by
  rw [plainScalar_word rfl rfl, endsPlain, h]
  rfl

theorem Gap.addBlank_of_broken {gap : Gap} (h : gap.broken = true) (c : Char) : gap.addBlank c = gap := by
  rw [addBlank, if_pos h]

theorem plainScalar_spaces (indent n : Nat) (tail : List Char) (p : Position) {gap : Gap} (h : gap.broken = true)
    (read : List Char) :
    plainScalar false indent (spaces n ++ tail) p gap read = plainScalar false indent tail (p.advance n) gap read := by
  induction n generalizing p with
  | zero => rfl
  | succ n ih =>
    rw [spaces, List.replicate_succ, List.cons_append, plainScalar_space, Gap.addBlank_of_broken h]
    refine (ih p.next).trans ?_
    rw [Position.next_advance]

theorem plainScalar_ends {column : Int} {next : List Char} (hnext : Follows column next) {indent : Nat}
    (hcolumn : column < indent) (p : Position) (read : List Char) :
    plainScalar false indent ('\n' :: (spaces column.toNat ++ next)) p .none read =
      some ⟨read.reverse, ⟨next, p.nextLine.advance column.toNat⟩, true⟩ := by
  rw [plainScalar_break, plainScalar_spaces]
  · cases hnext with
    | nothing => rfl
    | @entry column c rest hstart =>
      have hlt : (p.nextLine.advance (column : Int).toNat).column < indent := by
        simp only [Position.advance, Position.nextLine]
        omega
      rw [plainScalar_word hstart.1 hstart.2.1, decide_eq_true hlt]
      rfl
  · rfl

end PolicyYaml.Document
