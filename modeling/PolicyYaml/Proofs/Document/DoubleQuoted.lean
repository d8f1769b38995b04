import Mathlib.Algebra.Group.Nat.Defs
import PolicyYaml.Proofs.Document.PlainText

namespace PolicyYaml.Document

theorem doubleQuotedScalar_outside {c : Char} (h : c ≠ '\r') (rest : List Char) (p : Position) (gap : Gap)
    (read : List Char) :
    doubleQuotedScalar (c :: rest) p gap .outside read =
      if isBlank c then doubleQuotedScalar rest p.next (gap.addBlank c) .outside read
      else if isBreak c then doubleQuotedScalar rest p.nextLine (gap.addBreak c) .outside read
      else if p.column == 0 && isDocumentMarker (c :: rest) then none
      else if c == '"' then some ⟨(gap.folded ++ read).reverse, ⟨rest, p.next⟩, false⟩
      else if c == '\\' then doubleQuotedScalar rest p.next .none .opened (gap.folded ++ read)
      else doubleQuotedScalar rest p.next .none .outside (c :: (gap.folded ++ read)) := by
  rw [doubleQuotedScalar]
  rintro rest' rfl
  exact absurd rfl h

theorem doubleQuotedScalar_opened {c : Char} (hbreak : isBreak c = false) (rest : List Char) (p : Position) (gap : Gap)
    (read : List Char) :
    doubleQuotedScalar (c :: rest) p gap .opened read =
      match hexLength? c, escaped? c with
      | some n, _ => doubleQuotedScalar rest p.next .none (.digits n 0) read
      | none, some e => doubleQuotedScalar rest p.next .none .outside (e :: read)
      | none, none => none := by
  rw [doubleQuotedScalar, hbreak]
  · rfl
  · rintro rest' rfl
    exact absurd rfl (ne_return_of_unbroken hbreak)

theorem doubleQuotedScalar_digits (c : Char) (left value : Nat) (rest : List Char) (p : Position) (gap : Gap)
    (read : List Char) :
    doubleQuotedScalar (c :: rest) p gap (.digits left value) read =
      match hexValue? c with
      | none => none
      | some d =>
        if left ≤ 1 then
          match char? (16 * value + d) with
          | none => none
          | some e => doubleQuotedScalar rest p.next .none .outside (e :: read)
        else doubleQuotedScalar rest p.next .none (.digits (left - 1) (16 * value + d)) read :=
  rfl

theorem doubleQuotedScalar_space (rest : List Char) (p : Position) (gap : Gap) (read : List Char) :
    doubleQuotedScalar (' ' :: rest) p gap .outside read =
      doubleQuotedScalar rest p.next (gap.addBlank ' ') .outside read := by
  rw [doubleQuotedScalar_outside (by decide)]
  simp [isBlank]

theorem doubleQuotedScalar_word {c : Char} (hblank : isBlank c = false) (hbreak : isBreak c = false)
    (hquote : c ≠ '"') (hslash : c ≠ '\\') (rest : List Char) {p : Position} (hline : 0 < p.column) (gap : Gap)
    (read : List Char) :
    doubleQuotedScalar (c :: rest) p gap .outside read =
      doubleQuotedScalar rest p.next .none .outside (c :: (gap.folded ++ read)) := by
  rw [doubleQuotedScalar_outside (ne_return_of_unbroken hbreak)]
  simp [hblank, hbreak, hquote, hslash, Nat.ne_of_gt hline]

theorem doubleQuotedScalar_close (tail : List Char) {p : Position} (hline : 0 < p.column) (gap : Gap)
    (read : List Char) :
    doubleQuotedScalar ('"' :: tail) p gap .outside read =
      some ⟨(gap.folded ++ read).reverse, ⟨tail, p.next⟩, false⟩ := by
  rw [doubleQuotedScalar_outside (by decide)]
  simp [isBlank, isBreak, Nat.ne_of_gt hline]

theorem doubleQuotedScalar_slash (rest : List Char) {p : Position} (hline : 0 < p.column) (gap : Gap)
    (read : List Char) :
    doubleQuotedScalar ('\\' :: rest) p gap .outside read =
      doubleQuotedScalar rest p.next .none .opened (gap.folded ++ read) := by
  rw [doubleQuotedScalar_outside (by decide)]
  simp [isBlank, isBreak, Nat.ne_of_gt hline]

theorem doubleQuotedScalar_letter {letter e : Char} (hbreak : isBreak letter = false)
    (hlength : hexLength? letter = none) (hescaped : escaped? letter = some e) (rest : List Char) (p : Position)
    (gap : Gap) (read : List Char) :
    doubleQuotedScalar (letter :: rest) p gap .opened read =
      doubleQuotedScalar rest p.next .none .outside (e :: read) := by
  rw [doubleQuotedScalar_opened hbreak, hlength, hescaped]

theorem doubleQuotedScalar_length {mark : Char} {n : Nat} (hbreak : isBreak mark = false)
    (hlength : hexLength? mark = some n) (rest : List Char) (p : Position) (gap : Gap) (read : List Char) :
    doubleQuotedScalar (mark :: rest) p gap .opened read =
      doubleQuotedScalar rest p.next .none (.digits n 0) read := by
  rw [doubleQuotedScalar_opened hbreak, hlength]

theorem hexValue?_digit {n : Nat} (h : n < 16) : hexValue? (Nat.digitChar n).toUpper = some n := by
  revert n
  decide

theorem char?_toNat (c : Char) : char? c.toNat = some c := by
  have hvalid : c.toNat.isValidChar := c.valid
  rw [char?, dif_pos hvalid]
  rfl

theorem doubleQuotedScalar_digit {n : Nat} (h : n < 16) {left : Nat} (hleft : 1 < left) (value : Nat)
    (rest : List Char) (p : Position) (gap : Gap) (read : List Char) :
    doubleQuotedScalar ((Nat.digitChar n).toUpper :: rest) p gap (.digits left value) read =
      doubleQuotedScalar rest p.next .none (.digits (left - 1) (16 * value + n)) read := by
  rw [doubleQuotedScalar_digits, hexValue?_digit h]
  exact if_neg (Nat.not_le_of_lt hleft)

theorem doubleQuotedScalar_lastDigit {n : Nat} (h : n < 16) {value : Nat} {c : Char} (hc : 16 * value + n = c.toNat)
    (rest : List Char) (p : Position) (gap : Gap) (read : List Char) :
    doubleQuotedScalar ((Nat.digitChar n).toUpper :: rest) p gap (.digits 1 value) read =
      doubleQuotedScalar rest p.next .none .outside (c :: read) := by
  rw [doubleQuotedScalar_digits, hexValue?_digit h]
  simp only [if_pos (Nat.le_refl 1), hc, char?_toNat]

theorem doubleQuotedScalar_hexDigits {count n : Nat} (h : n < 16 ^ count) {left : Nat} (hleft : 0 < left)
    (value : Nat) (rest : List Char) (p : Position) (read : List Char) :
    doubleQuotedScalar (hexDigits count n ++ rest) p .none (.digits (count + left) value) read =
      doubleQuotedScalar rest (p.advance count) .none (.digits left (16 ^ count * value + n)) read := by
  induction count generalizing n left rest with
  | zero =>
    have hzero : n = 0 := by omega
    rw [hzero, Nat.pow_zero, Nat.one_mul, Nat.zero_add]
    rfl
  | succ count ih =>
    have hdiv : n / 16 < 16 ^ count := by omega
    have hvalue : 16 * (16 ^ count * value + n / 16) + n % 16 = 16 ^ (count + 1) * value + n := by
      rw [Nat.pow_succ', Nat.mul_add, Nat.mul_assoc, Nat.add_assoc, Nat.div_add_mod]
    rw [hexDigits, List.append_assoc, Nat.add_right_comm, Nat.add_assoc, ih hdiv (Nat.succ_pos left),
      List.singleton_append, doubleQuotedScalar_digit (Nat.mod_lt n (by decide)) (by omega), hvalue]
    rfl

theorem doubleQuotedScalar_code {count : Nat} {c : Char} (h : c.toNat < 16 ^ (count + 1)) (rest : List Char)
    (p : Position) (read : List Char) :
    doubleQuotedScalar (hexDigits (count + 1) c.toNat ++ rest) p .none (.digits (count + 1) 0) read =
      doubleQuotedScalar rest (p.advance (count + 1)) .none .outside (c :: read) := by
  have hdiv : c.toNat / 16 < 16 ^ count := by omega
  rw [hexDigits, List.append_assoc, doubleQuotedScalar_hexDigits hdiv (Nat.succ_pos 0), List.singleton_append,
    doubleQuotedScalar_lastDigit (Nat.mod_lt _ (by decide)), Position.advance_next]
  rw [Nat.mul_zero, Nat.zero_add, Nat.div_add_mod]

theorem escaped?_escapeLetter? {c letter : Char} (h : escapeLetter? c = some letter) :
    isBreak letter = false ∧ hexLength? letter = none ∧ escaped? letter = some c := by
  obtain ⟨before, later, hlist, -⟩ := List.lookup_eq_some_iff.mp h
  have hmem : (c, letter) ∈ before ++ (c, letter) :: later := by simp
  rw [← hlist] at hmem
  have hall : ∀ e ∈ [('\x00', '0'), ('\x07', 'a'), ('\x08', 'b'), ('\t', 't'), ('\n', 'n'), ('\x0b', 'v'),
      ('\x0c', 'f'), ('\r', 'r'), ('\x1b', 'e'), ('"', '"'), ('\\', '\\'), ('\u0085', 'N'), ('\u00a0', '_'),
      ('\u2028', 'L'), ('\u2029', 'P')],
      isBreak e.2 = false ∧ hexLength? e.2 = none ∧ escaped? e.2 = some e.1 := by decide
  exact hall _ hmem

theorem doubleQuotedScalar_escape {c mark : Char} {count : Nat} (hmark : isBreak mark = false)
    (hlength : hexLength? mark = some (count + 1)) (hc : c.toNat < 16 ^ (count + 1)) (rest : List Char)
    {p : Position} (hline : 0 < p.column) (gap : Gap) (read : List Char) :
    doubleQuotedScalar ('\\' :: mark :: (hexDigits (count + 1) c.toNat ++ rest)) p gap .outside read =
      doubleQuotedScalar rest (p.advance (count + 3)) .none .outside (c :: (gap.folded ++ read)) := by
  rw [doubleQuotedScalar_slash _ hline, doubleQuotedScalar_length hmark hlength, doubleQuotedScalar_code hc,
    Position.next_advance, Position.next_advance]

theorem length_hexDigits (count n : Nat) : (hexDigits count n).length = count := by
  induction count generalizing n with
  | zero => rfl
  | succ count ih => rw [hexDigits, List.length_append, ih, List.length_singleton]

theorem doubleQuotedScalar_char (c : Char) (rest : List Char) {p : Position} (hline : 0 < p.column) {gap : Gap}
    (hgap : gap.broken = false) (read : List Char) :
    ∃ gap' read', doubleQuotedScalar (doubleQuotedChar c ++ rest) p gap .outside read =
        doubleQuotedScalar rest (p.advance (doubleQuotedChar c).length) gap' .outside read' ∧
      gap'.broken = false ∧ gap'.folded ++ read' = c :: (gap.folded ++ read) := by
  unfold doubleQuotedChar
  split
  · rename_i h
    simp only [Bool.and_eq_true, Bool.not_eq_true', bne_iff_ne] at h
    obtain ⟨⟨⟨hprintable, hbreak⟩, hquote⟩, hslash⟩ := h
    by_cases hspace : c = ' '
    · subst hspace
      obtain ⟨hbroken, -, hfold⟩ := Gap.addBlank_of_unbroken hgap ' '
      exact ⟨_, _, doubleQuotedScalar_space rest p gap read, hbroken, by rw [hfold]; rfl⟩
    · have hblank : isBlank c = false := by rw [isBlank_of_isPrintable hprintable, beq_eq_false_iff_ne.mpr hspace]
      exact ⟨_, _, doubleQuotedScalar_word hblank hbreak hquote hslash rest hline gap read, rfl, rfl⟩
  split
  · rename_i letter hletter
    obtain ⟨hbreak, hlength, hescaped⟩ := escaped?_escapeLetter? hletter
    refine ⟨.none, c :: (gap.folded ++ read), ?_, rfl, rfl⟩
    rw [List.cons_append, doubleQuotedScalar_slash _ hline, List.singleton_append,
      doubleQuotedScalar_letter hbreak hlength hescaped]
    rfl
  -- What has no letter is written by its code point, with as many digits as the largest one may need.
  refine ⟨.none, c :: (gap.folded ++ read), ?_, rfl, rfl⟩
  have hvalid : c.toNat < 0x110000 := by
    rcases (c.valid : c.toNat.isValidChar) with h | h
    · exact Nat.lt_trans h (by decide)
    · exact h.2
  split
  · rw [List.cons_append, List.cons_append, doubleQuotedScalar_escape rfl rfl (by omega) rest hline]
    rfl
  split
  · rw [List.cons_append, List.cons_append, doubleQuotedScalar_escape rfl rfl (by omega) rest hline]
    rfl
  · rw [List.cons_append, List.cons_append, doubleQuotedScalar_escape rfl rfl (by omega) rest hline]
    rfl

theorem doubleQuotedScalar_chars (cs : List Char) {tail : List Char} {p : Position} (hline : 0 < p.column)
    {gap : Gap} (hgap : gap.broken = false) (read : List Char) :
    doubleQuotedScalar (cs.flatMap doubleQuotedChar ++ '"' :: tail) p gap .outside read =
      some ⟨(gap.folded ++ read).reverse ++ cs, ⟨tail, p.advance ((cs.flatMap doubleQuotedChar).length + 1)⟩,
        false⟩ := by
  induction cs generalizing p gap read with
  | nil =>
    rw [List.flatMap_nil, List.nil_append, doubleQuotedScalar_close tail hline, List.append_nil]
    rfl
  | cons c rest ih =>
    obtain ⟨gap', read', hchar, hbroken, hfold⟩ :=
      doubleQuotedScalar_char c (rest.flatMap doubleQuotedChar ++ '"' :: tail) hline hgap read
    rw [List.flatMap_cons, List.append_assoc, hchar, ih (Nat.add_pos_left hline _) hbroken, hfold,
      Position.advance_advance, List.length_append, Nat.add_assoc]
    simp

theorem doubleQuotedScalar_body (cs tail : List Char) {p : Position} (hline : 0 < p.column) :
    doubleQuotedScalar (cs.flatMap doubleQuotedChar ++ '"' :: tail) p .none .outside [] =
      some ⟨cs, ⟨tail, p.advance ((cs.flatMap doubleQuotedChar).length + 1)⟩, false⟩ :=
  doubleQuotedScalar_chars cs hline rfl []

end PolicyYaml.Document
