import Mathlib.Tactic.ByContra
import PolicyYaml.Proofs.Document.PlainText

namespace PolicyYaml.Document

theorem hasPair_cons {p q : Char → Bool} {c : Char} {rest : List Char}
    (h : Contents.hasPair p q (c :: rest) = false) :
    (p c = true → ∀ d ∈ rest.head?, q d = false) ∧ Contents.hasPair p q rest = false := by
  cases rest with
  | nil => simp [Contents.hasPair]
  | cons d rest =>
    rw [Contents.hasPair, Bool.or_eq_false_iff, Bool.and_eq_false_iff] at h
    refine ⟨?_, h.2⟩
    intro hc
    simpa [hc] using h.1

structure IsQuotable (cs : List Char) : Prop where
  printable : ∀ c ∈ cs, isPrintable c = true
  feedless : '\n' ∉ cs
  breakSpace : Contents.hasPair isBreak (· == ' ') cs = false
  spaceBreak : Contents.hasPair (· == ' ') isBreak cs = false

theorem IsQuotable.tail {c : Char} {rest : List Char} (h : IsQuotable (c :: rest)) : IsQuotable rest where
  printable x hx := h.printable x (List.mem_cons_of_mem _ hx)
  feedless hx := h.feedless (List.mem_cons_of_mem _ hx)
  breakSpace := (hasPair_cons h.breakSpace).2
  spaceBreak := (hasPair_cons h.spaceBreak).2

theorem singleQuotedScalar_cons {c : Char} (h : c ≠ '\r') {rest : List Char}
    (hquote : c = '\'' → rest.head? ≠ some '\'') (p : Position) (gap : Gap) (read : List Char) :
    singleQuotedScalar (c :: rest) p gap read =
      if isBlank c then singleQuotedScalar rest p.next (gap.addBlank c) read
      else if isBreak c then singleQuotedScalar rest p.nextLine (gap.addBreak c) read
      else if p.column == 0 && isDocumentMarker (c :: rest) then none
      else if c == '\'' then some ⟨(gap.folded ++ read).reverse, ⟨rest, p.next⟩, false⟩
      else singleQuotedScalar rest p.next .none (c :: (gap.folded ++ read)) := by
  rw [singleQuotedScalar]
  · rintro rest' rfl
    exact absurd rfl h
  · rintro rest' hc rfl
    exact hquote hc rfl

theorem singleQuotedScalar_space (rest : List Char) (p : Position) (gap : Gap) (read : List Char) :
    singleQuotedScalar (' ' :: rest) p gap read = singleQuotedScalar rest p.next (gap.addBlank ' ') read := by
  rw [singleQuotedScalar_cons (by decide) fun h => absurd h (by decide)]
  simp [isBlank]

theorem singleQuotedScalar_spaces (n : Nat) (tail : List Char) (p : Position) {gap : Gap} (h : gap.broken = true)
    (read : List Char) :
    singleQuotedScalar (spaces n ++ tail) p gap read = singleQuotedScalar tail (p.advance n) gap read := by
  induction n generalizing p with
  | zero => rfl
  | succ n ih =>
    rw [spaces, List.replicate_succ, List.cons_append, singleQuotedScalar_space, Gap.addBlank_of_broken h]
    refine (ih p.next).trans ?_
    rw [Position.next_advance]

theorem singleQuotedScalar_break {c : Char} (hprintable : isPrintable c = true) (hbreak : isBreak c = true)
    (rest : List Char) (p : Position) (gap : Gap) (read : List Char) :
    singleQuotedScalar (c :: rest) p gap read = singleQuotedScalar rest p.nextLine (gap.addBreak c) read := by
  have hblank : isBlank c = false := by
    simp only [isBreak, Bool.or_eq_true, beq_iff_eq] at hbreak
    rcases hbreak with (((rfl | rfl) | rfl) | rfl) | rfl <;> rfl
  have hquote : c ≠ '\'' := by
    rintro rfl
    contradiction
  rw [singleQuotedScalar_cons (ne_return hprintable) fun h => absurd h hquote]
  simp [hblank, hbreak]

theorem singleQuotedScalar_word {c : Char} (hblank : isBlank c = false) (hbreak : isBreak c = false) (hc : c ≠ '\'')
    (rest : List Char) {p : Position} (hline : 0 < p.column) (gap : Gap) (read : List Char) :
    singleQuotedScalar (c :: rest) p gap read = singleQuotedScalar rest p.next .none (c :: (gap.folded ++ read)) := by
  rw [singleQuotedScalar_cons (ne_return_of_unbroken hbreak) fun h => absurd h hc]
  simp [hblank, hbreak, hc, Nat.ne_of_gt hline]

theorem singleQuotedScalar_quote (rest : List Char) (p : Position) (gap : Gap) (read : List Char) :
    singleQuotedScalar ('\'' :: '\'' :: rest) p gap read =
      singleQuotedScalar rest (p.advance 2) .none ('\'' :: (gap.folded ++ read)) := rfl

theorem singleQuotedScalar_close {tail : List Char} (htail : tail.head? ≠ some '\'') {p : Position}
    (hline : 0 < p.column) (gap : Gap) (read : List Char) :
    singleQuotedScalar ('\'' :: tail) p gap read = some ⟨(gap.folded ++ read).reverse, ⟨tail, p.next⟩, false⟩ := by
  rw [singleQuotedScalar_cons (by decide) fun _ => htail]
  simp [isBlank, isBreak, Nat.ne_of_gt hline]

theorem Gap.addBreak_lasting {gap : Gap} {c : Char} (hcontent : breakContent c = c) (hc : c ≠ '\n')
    (hbroken : gap.broken = true → gap.firstBreak ≠ ['\n']) (hunbroken : gap.broken = false → gap.blanks = []) :
    (gap.addBreak c).broken = true ∧ (gap.addBreak c).firstBreak ≠ ['\n'] ∧
      (gap.addBreak c).folded = c :: gap.folded := by
  cases hgap : gap.broken with
  | true =>
    have hadd : gap.addBreak c = { gap with moreBreaks := c :: gap.moreBreaks } := by
      rw [addBreak, if_pos hgap, hcontent]
    have hfirst := hbroken hgap
    rw [hadd]
    refine ⟨hgap, hfirst, ?_⟩
    rw [folded, folded, if_pos hgap, if_pos hgap, if_neg hfirst, if_neg hfirst]
    rfl
  | false =>
    have hadd : gap.addBreak c = ⟨[], true, [c], []⟩ := by
      rw [addBreak, hgap, hcontent]
      rfl
    have hfirst : [c] ≠ ['\n'] := by simpa using hc
    rw [hadd]
    refine ⟨rfl, hfirst, ?_⟩
    rw [folded_of_unbroken hgap, hunbroken hgap, folded, if_pos rfl, if_neg hfirst]
    rfl

theorem singleQuotedScalar_indent {indent : Nat} (hindent : 0 < indent) {p : Position} {gap : Gap}
    {afterBreak : Bool} (hgap : gap.broken = afterBreak) (hline : afterBreak = false → 0 < p.column)
    (tail read : List Char) :
    singleQuotedScalar ((if afterBreak then spaces indent else []) ++ tail) p gap read =
        singleQuotedScalar tail (p.after (if afterBreak then spaces indent else [])) gap read ∧
      0 < (p.after (if afterBreak then spaces indent else [])).column := by
  cases afterBreak with
  | true =>
    rw [if_pos rfl, singleQuotedScalar_spaces indent tail p hgap, Position.after_spaces]
    exact ⟨rfl, Nat.lt_of_lt_of_le hindent (Nat.le_add_left _ _)⟩
  | false => exact ⟨rfl, hline rfl⟩

theorem singleQuotedBody_break {c : Char} (hbreak : isBreak c = true) (hc : c ≠ '\n') (indent : Nat)
    (afterBreak : Bool) (rest : List Char) :
    singleQuotedBody indent afterBreak (c :: rest) = c :: singleQuotedBody indent true rest := by
  have hspace : c ≠ ' ' := by
    rintro rfl
    contradiction
  simp [singleQuotedBody, hbreak, hc, hspace]

theorem singleQuotedBody_word {c : Char} (hbreak : isBreak c = false) (hspace : c ≠ ' ') (indent : Nat)
    (afterBreak : Bool) (rest : List Char) :
    singleQuotedBody indent afterBreak (c :: rest) = (if afterBreak then spaces indent else []) ++
      ((if c == '\'' then ['\'', '\''] else [c]) ++ singleQuotedBody indent false rest) := by
  simp [singleQuotedBody, hbreak, hspace]

theorem singleQuotedScalar_char {c : Char} (hblank : isBlank c = false) (hbreak : isBreak c = false)
    {p : Position} (hline : 0 < p.column) (tail : List Char) (gap : Gap) (read : List Char) :
    singleQuotedScalar ((if c == '\'' then ['\'', '\''] else [c]) ++ tail) p gap read =
        singleQuotedScalar tail (p.after (if c == '\'' then ['\'', '\''] else [c])) .none
          (c :: (gap.folded ++ read)) ∧
      0 < (p.after (if c == '\'' then ['\'', '\''] else [c])).column := by
  by_cases hc : c = '\''
  · subst hc
    exact ⟨singleQuotedScalar_quote tail p gap read, Nat.succ_pos _⟩
  · rw [beq_eq_false_iff_ne.mpr hc]
    refine ⟨?_, ?_⟩
    · rw [if_neg Bool.false_ne_true, Position.after, hbreak]
      exact singleQuotedScalar_word hblank hbreak hc tail hline gap read
    · rw [if_neg Bool.false_ne_true, Position.after, hbreak]
      exact Nat.succ_pos _

structure Gap.Precedes (gap : Gap) (afterBreak : Bool) (p : Position) (cs : List Char) : Prop where
  broken : gap.broken = afterBreak
  behindBreak : afterBreak = true → cs.head? ≠ some ' ' ∧ gap.firstBreak ≠ ['\n']
  inLine : afterBreak = false → 0 < p.column ∧ (gap.blanks ≠ [] → ∀ c ∈ cs.head?, isBreak c = false)

theorem Gap.precedes_none {p : Position} (hline : 0 < p.column) (cs : List Char) : Gap.none.Precedes false p cs where
  broken := rfl
  behindBreak h := absurd h Bool.false_ne_true
  inLine _ := ⟨hline, fun h => absurd rfl h⟩

section Steps

variable {gap : Gap} {afterBreak : Bool} {p : Position} {rest : List Char}

theorem Gap.Precedes.addSpace (hgap : gap.Precedes afterBreak p (' ' :: rest)) (h : IsQuotable (' ' :: rest)) :
    afterBreak = false ∧ (gap.addBlank ' ').Precedes false p.next rest ∧
      (gap.addBlank ' ').folded = ' ' :: gap.folded := by
  have hinLine : afterBreak = false := by
    rw [Bool.eq_false_iff]
    exact fun h => (hgap.behindBreak h).1 rfl
  obtain ⟨hspaceBreak, -⟩ := hasPair_cons h.spaceBreak
  obtain ⟨hbroken, -, hfold⟩ := addBlank_of_unbroken (hgap.broken.trans hinLine) ' '
  refine ⟨hinLine, ⟨hbroken, ?_, ?_⟩, hfold⟩
  · exact fun h => absurd h Bool.false_ne_true
  · exact fun _ => ⟨Nat.succ_pos _, fun _ => hspaceBreak rfl⟩

theorem Gap.Precedes.addBreak {c : Char} (hgap : gap.Precedes afterBreak p (c :: rest)) (h : IsQuotable (c :: rest))
    (hbreak : isBreak c = true) :
    (gap.addBreak c).Precedes true p.nextLine rest ∧ (gap.addBreak c).folded = c :: gap.folded := by
  have hcontent := breakContent_of_isBreak (h.printable c List.mem_cons_self) hbreak
  have hfeed : c ≠ '\n' := fun heq => h.feedless (heq ▸ List.mem_cons_self)
  have hblanks : gap.broken = false → gap.blanks = [] := by
    intro hunbroken
    by_contra hne
    have hunbroken' := (hgap.inLine (hgap.broken ▸ hunbroken)).2 hne c rfl
    rw [hbreak] at hunbroken'
    contradiction
  obtain ⟨hbroken, hfirst, hfold⟩ :=
    addBreak_lasting hcontent hfeed (fun h => (hgap.behindBreak (hgap.broken ▸ h)).2) hblanks
  refine ⟨⟨hbroken, fun _ => ⟨fun hhead => ?_, hfirst⟩, fun h => absurd h.symm Bool.false_ne_true⟩, hfold⟩
  have hnoSpace := (hasPair_cons h.breakSpace).1 hbreak ' ' hhead
  contradiction

end Steps

theorem singleQuotedScalar_rest {cs : List Char} (h : IsQuotable cs) {indent : Nat} (hindent : 0 < indent)
    {tail : List Char} (htail : tail.head? ≠ some '\'') {p : Position} {gap : Gap} {afterBreak : Bool}
    (hgap : gap.Precedes afterBreak p cs) (read : List Char) :
    singleQuotedScalar (singleQuotedBody indent afterBreak cs ++ '\'' :: tail) p gap read =
      some ⟨(gap.folded ++ read).reverse ++ cs, ⟨tail, p.after (singleQuotedBody indent afterBreak cs ++ ['\''])⟩,
        false⟩ := by
  -- Each character closes the gap or widens it, and `Gap.Precedes` says that nothing of it is lost.
  induction cs generalizing p gap afterBreak read with
  | nil =>
    obtain ⟨hskip, hline⟩ :=
      singleQuotedScalar_indent hindent hgap.broken (fun h => (hgap.inLine h).1) ('\'' :: tail) read
    rw [singleQuotedBody, hskip, singleQuotedScalar_close htail hline, Position.after_append, List.append_nil]
    rfl
  | cons c rest ih =>
    have hprintable := h.printable c List.mem_cons_self
    have hcontent : (gap.folded ++ read).reverse ++ c :: rest = (c :: (gap.folded ++ read)).reverse ++ rest := by simp
    rw [hcontent]
    by_cases hspace : c = ' '
    · subst hspace
      obtain ⟨rfl, hnext, hfold⟩ := hgap.addSpace h
      have hbody : singleQuotedBody indent false (' ' :: rest) = ' ' :: singleQuotedBody indent false rest := rfl
      rw [hbody, List.cons_append, singleQuotedScalar_space, ih h.tail hnext, hfold]
      rfl
    cases hbreak : isBreak c with
    | true =>
      obtain ⟨hnext, hfold⟩ := hgap.addBreak h hbreak
      have hfeed : c ≠ '\n' := fun heq => h.feedless (heq ▸ List.mem_cons_self)
      rw [singleQuotedBody_break hbreak hfeed, List.cons_append, singleQuotedScalar_break hprintable hbreak,
        ih h.tail hnext, hfold, List.cons_append, List.cons_append, Position.after_break hbreak]
    | false =>
      have hblank : isBlank c = false := by rw [isBlank_of_isPrintable hprintable, beq_eq_false_iff_ne.mpr hspace]
      obtain ⟨hskip, hline⟩ := singleQuotedScalar_indent hindent hgap.broken (fun h => (hgap.inLine h).1)
        ((if c == '\'' then ['\'', '\''] else [c]) ++ (singleQuotedBody indent false rest ++ '\'' :: tail)) read
      obtain ⟨hchar, hline⟩ := singleQuotedScalar_char hblank hbreak hline
        (singleQuotedBody indent false rest ++ '\'' :: tail) gap read
      rw [singleQuotedBody_word hbreak hspace, List.append_assoc, List.append_assoc, hskip, hchar,
        ih h.tail (Gap.precedes_none hline rest)]
      simp only [List.append_assoc, Position.after_append]
      rfl

theorem singleQuotedScalar_body {cs : List Char} (h : IsQuotable cs) {indent : Nat} (hindent : 0 < indent)
    (tail : List Char) (htail : tail.head? ≠ some '\'') {p : Position} (hline : 0 < p.column) :
    singleQuotedScalar (singleQuotedBody indent false cs ++ '\'' :: tail) p .none [] =
      some ⟨cs, ⟨tail, p.after (singleQuotedBody indent false cs ++ ['\''])⟩, false⟩ :=
  singleQuotedScalar_rest h hindent htail (Gap.precedes_none hline cs) []

end PolicyYaml.Document
