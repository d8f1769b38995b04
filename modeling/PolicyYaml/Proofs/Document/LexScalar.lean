import PolicyYaml.Proofs.Document.DoubleQuoted
import PolicyYaml.Proofs.Document.LexerState
import PolicyYaml.Proofs.Document.Styles

namespace PolicyYaml.Document

theorem isMarker_of_mem {mark c : Char} {cs : List Char} (hc : c ∈ cs.take 3) (h : c ≠ mark) :
    isMarker mark cs = false := by
  unfold isMarker
  split
  · simp only [List.take_succ_cons, List.take_zero, List.mem_cons, List.not_mem_nil, or_false] at hc
    rcases hc with rfl | rfl | rfl <;> simp [h]
  · rfl

theorem isMarker_of_ne {mark c : Char} (h : c ≠ mark) (rest : List Char) : isMarker mark (c :: rest) = false :=
  isMarker_of_mem List.mem_cons_self h

namespace Lexer

theorem token_singleQuote (l : Lexer) (rest : List Char) :
    l.token '\'' rest = l.scalar false fun c => singleQuotedScalar (c.rest.drop 1) c.position.next .none [] := by
  have hmarker (mark : Char) (h : '\'' ≠ mark) : isMarker mark ('\'' :: rest) = false := isMarker_of_ne h rest
  simp [token, hmarker]

theorem token_doubleQuote (l : Lexer) (rest : List Char) :
    l.token '"' rest =
      l.scalar false fun c => doubleQuotedScalar (c.rest.drop 1) c.position.next .none .outside [] := by
  have hmarker (mark : Char) (h : '"' ≠ mark) : isMarker mark ('"' :: rest) = false := isMarker_of_ne h rest
  simp [token, hmarker]

theorem token_bar {l : Lexer} (h : l.inFlow = false) (rest : List Char) : l.token '|' rest = l.block false := by
  have hmarker (mark : Char) (h : '|' ≠ mark) : isMarker mark ('|' :: rest) = false := isMarker_of_ne h rest
  simp [token, hmarker, h]

theorem isMarker_append {cs tail : List Char} (hcs : Contents.startsMarker cs = false) (hne : cs ≠ []) {mark : Char}
    (hmark : mark ∈ ['-', '.']) (htail : tail.head? ≠ some mark) : isMarker mark (cs ++ tail) = false := by
  have hthree (a b c : Char) (rest : List Char) (h : Contents.startsMarker (a :: b :: c :: rest) = false) :
      ¬(a = mark ∧ b = mark ∧ c = mark) := by
    rintro ⟨rfl, rfl, rfl⟩
    simp only [List.mem_cons, List.not_mem_nil, or_false] at hmark
    rcases hmark with rfl | rfl <;> contradiction
  unfold isMarker
  split
  · rename_i a b c rest heq
    match cs, hne with
    | [_], _ =>
      cases heq
      simp_all
    | [_, _], _ =>
      cases heq
      simp_all
    | d :: e :: f :: others, _ =>
      cases heq
      have := hthree a b c others hcs
      simp only [Bool.and_eq_false_iff, beq_eq_false_iff_ne]
      grind
  · rfl

theorem word_append {c : Char} {rest : List Char}
    (h : (c == '?' || c == ':' || c == '-') = false ∨ wordEnds rest = false) {mark : Char}
    (hmark : mark ∈ ['?', ':', '-']) (tail : List Char) : (c == mark && wordEnds (rest ++ tail)) = false := by
  rw [Bool.and_eq_false_iff, beq_eq_false_iff_ne]
  rcases h with h | h
  · left
    rintro rfl
    simp only [List.mem_cons, List.not_mem_nil, or_false] at hmark
    rcases hmark with rfl | rfl | rfl <;> contradiction
  · exact .inr (wordEnds_append h tail)

theorem beginsPlain_of_word {c : Char} {rest : List Char} (hblank : isBlank c = false) (hbreak : isBreak c = false)
    (hleading : Contents.isLeadingIndicator c = false)
    (hmark : ∀ mark ∈ ['?', ':', '-'], (c == mark && wordEnds rest) = false) : beginsPlain false c rest = true := by
  unfold beginsPlain
  split
  · rename_i hdash
    have hword := hmark '-' (by decide)
    rw [hdash, Bool.true_and] at hword
    cases rest with
    | nil => contradiction
    | cons d others => simpa using (Bool.or_eq_false_iff.mp hword).1
  split
  · rename_i hother
    rw [Bool.or_eq_true] at hother
    have hword : wordEnds rest = false := by
      rcases hother with h | h
      · simpa [h] using hmark '?' (by decide)
      · simpa [h] using hmark ':' (by decide)
    rw [hword]
    rfl
  · simp only [Contents.isLeadingIndicator] at hleading
    simp only [hblank, hbreak]
    simp_all

theorem token_plain (l : Lexer) (h : l.inFlow = false) {c : Char} {rest : List Char} (htext : IsPlainText (c :: rest))
    (tail : List Char) (htail : tail.head? ≠ some '-' ∧ tail.head? ≠ some '.') :
    l.token c (rest ++ tail) =
      l.scalar true fun c => plainScalar false (l.indent + 1).toNat c.rest c.position .none [] := by
  have hindicator := htext.indicator
  rw [Contents.hasIndicator, Bool.or_eq_false_iff, Bool.or_eq_false_iff, Bool.or_eq_false_iff,
    Bool.and_eq_false_iff] at hindicator
  obtain ⟨⟨⟨hmarker, hleading⟩, hmark⟩, -⟩ := hindicator
  have hdashes : isMarker '-' (c :: (rest ++ tail)) = false :=
    isMarker_append hmarker (List.cons_ne_nil c rest) (by decide) htail.1
  have hdots : isMarker '.' (c :: (rest ++ tail)) = false :=
    isMarker_append hmarker (List.cons_ne_nil c rest) (by decide) htail.2
  have hword (mark : Char) (h : mark ∈ ['?', ':', '-']) : (c == mark && wordEnds (rest ++ tail)) = false :=
    word_append hmark h tail
  have hbegins := beginsPlain_of_word htext.isBlank_head (htext.unbroken c List.mem_cons_self) hleading hword
  have hne : c ≠ '%' ∧ c ≠ '|' ∧ c ≠ '>' := by
    refine ⟨?_, ?_, ?_⟩ <;> rintro rfl <;> contradiction
  unfold token
  rw [hdashes, hdots, beq_eq_false_iff_ne.mpr hne.1]
  simp only [Bool.false_and, Bool.and_false, Bool.false_eq_true, if_false]
  split
  case h_11 =>
    simp only [hword '-' (by decide), h, Bool.false_or, hword '?' (by decide), hword ':' (by decide),
      beq_eq_false_iff_ne.mpr hne.2.1, beq_eq_false_iff_ne.mpr hne.2.2, Bool.false_and, hbegins, Bool.false_eq_true,
      if_false, if_true]
  all_goals contradiction

end Lexer

theorem IsPlainText.isEntryStart {c : Char} {rest : List Char} (h : IsPlainText (c :: rest)) : IsEntryStart c := by
  have hindicator := h.indicator
  have hprintable := h.printable c List.mem_cons_self
  refine ⟨h.isBlank_head, h.unbroken c List.mem_cons_self, ?_, ?_⟩
  · rintro rfl
    rw [Contents.hasIndicator, Bool.or_eq_false_iff, Bool.or_eq_false_iff, Bool.or_eq_false_iff] at hindicator
    exact absurd hindicator.1.1.2 (by decide)
  · rintro rfl
    contradiction

def Blocks.noted (b : Blocks) (c : Cursor) (keyAllowed : Bool) : Option PendingKey :=
  if keyAllowed then some ⟨b.indent == (c.column : Int), b.tokens.length, c.position⟩ else none

namespace Blocks

theorem noteKey_within (b : Blocks) (c : Cursor) (keyAllowed : Bool) :
    (b.within c keyAllowed none).noteKey = some (b.within c keyAllowed (b.noted c keyAllowed)) := by
  cases keyAllowed <;> rfl

theorem scalar_within (b : Blocks) (c : Cursor) (keyAllowed plain : Bool) {read : Cursor → Option ScalarEnd}
    {s : ScalarEnd} (h : read c = some s) :
    (b.within c keyAllowed none).scalar plain read =
      some ((b.push (.scalar plain s.content)).within s.cursor s.lineEnded (b.noted c keyAllowed)) := by
  have hread : read (b.within c keyAllowed (b.noted c keyAllowed)).cursor = some s := h
  simp only [Lexer.scalar, noteKey_within, Option.bind_eq_bind, Option.bind_some, hread]
  rfl

theorem block_within (b : Blocks) (c : Cursor) (keyAllowed : Bool) {s : ScalarEnd}
    (h : blockScalar false b.indent.toNat (b.indent + 1).toNat (c.advance 1) = some s) :
    (b.within c keyAllowed none).block false = some ((b.push (.scalar false s.content)).within s.cursor true none) := by
  have hforget : (b.within c keyAllowed none).forgetKey = some (b.within c keyAllowed none) := rfl
  have hread : blockScalar false (b.within c keyAllowed none).indent.toNat
      ((b.within c keyAllowed none).indent + 1).toNat ((b.within c keyAllowed none).cursor.advance 1) = some s := h
  simp only [Lexer.block, hforget, Option.bind_eq_bind, Option.bind_some, hread]
  rfl

variable {b b' : Blocks} {n : Nat} {c : Char} {rest : List Char} {p : Position} {keyAllowed keyAllowed' : Bool}

theorem settle_spaces (hstart : IsEntryStart c) (hp : b.indent ≤ p.column + n) :
    (b.within ⟨spaces n ++ c :: rest, p⟩ keyAllowed none).settle =
      some (b.within ⟨c :: rest, p.advance n⟩ keyAllowed none) := by
  have hskip : Lexer.skipFiller false (spaces n ++ c :: rest) p keyAllowed false =
      (⟨c :: rest, p.advance n⟩, keyAllowed) := by
    rw [skipFiller_spaces, skipFiller_entry _ _ hstart]
  have hnext : b.indent ≤ (Cursor.mk (c :: rest) (p.advance n)).nextColumn := by
    show b.indent ≤ ((p.advance n).column : Int)
    simp only [Position.advance]
    omega
  rw [settle_within hskip (by simp), close_of_le hnext]

theorem reaches_of_token (hstart : IsEntryStart c) (hp : b.indent ≤ p.column + n) {c' : Cursor} {k : Option PendingKey}
    (htoken : (b.within ⟨c :: rest, p.advance n⟩ keyAllowed none).token c rest = some (b'.within c' keyAllowed' k))
    {column : Int} {next : List Char} (hnext : Follows column next) {q : Position} (hq : q.column = column.toNat)
    (hskip : Lexer.skipFiller false c'.rest c'.position keyAllowed' false = (⟨next, q⟩, true))
    (hstale : ∀ k' ∈ k, k'.required = false ∧ k'.position.line < q.line)
    (hlength : c'.rest.length ≤ rest.length) (hlength' : next.length ≤ c'.rest.length) :
    (b.within ⟨spaces n ++ c :: rest, p⟩ keyAllowed none).Reaches ((b'.close column).within ⟨next, q⟩ true none) := by
  have hsettle : (b'.within c' keyAllowed' k).settle = some ((b'.close column).within ⟨next, q⟩ true none) := by
    rw [settle_within hskip hstale, nextColumn_of_follows hnext hq]
  refine (Lexer.reaches_of_token (settle_spaces hstart hp) rfl htoken ?_).trans
    (Lexer.reaches_of_settle hsettle (settle_settled hnext hq true) hlength')
  show c'.rest.length < (spaces n ++ c :: rest).length
  rw [List.length_append, List.length_cons]
  omega

end Blocks

def styledEnd (cs : List Char) : ScalarStyle → List Char
  | .literal => literalEnd cs
  | _ => ['\n']

section Scalar

variable {b : Blocks} {n : Nat} {p : Position} {cs : List Char} {column : Int} {next : List Char}

theorem noted_stale {q : Position} (hp : b.indent < p.column + n) (hline : p.line < q.line) (rest : List Char)
    (keyAllowed : Bool) :
    ∀ k ∈ b.noted ⟨rest, p.advance n⟩ keyAllowed, k.required = false ∧ k.position.line < q.line := by
  have hrequired : (b.indent == ((p.advance n).column : Int)) = false := by
    simp only [Position.advance, beq_eq_false_iff_ne]
    omega
  intro k hk
  cases keyAllowed with
  | true =>
    cases hk
    exact ⟨hrequired, hline⟩
  | false => contradiction

theorem reaches_plain (h : IsPlainText cs) (hp : b.indent < p.column + n) (hnext : Follows column next)
    (hcolumn : column ≤ b.indent) (keyAllowed : Bool) :
    ∃ q : Position, q.column = column.toNat ∧
      (b.within ⟨spaces n ++ (cs ++ '\n' :: (spaces column.toNat ++ next)), p⟩ keyAllowed none).Reaches
        (((b.push (.scalar true cs)).close column).within ⟨next, q⟩ true none) := by
  obtain ⟨c, rest, rfl, -⟩ := h.opens
  let tail := '\n' :: (spaces column.toNat ++ next)
  have hbelow : column < (b.indent + 1).toNat := by omega
  have hat : (b.indent + 1).toNat ≤ (p.advance n).column + 1 := by
    simp only [Position.advance]
    omega
  have hread := (plainScalar_text h hat tail).trans (plainScalar_ends hnext hbelow _ _)
  rw [List.reverse_reverse] at hread
  have htoken := (Lexer.token_plain (b.within ⟨c :: (rest ++ tail), p.advance n⟩ keyAllowed none) rfl h tail
    (by simp [tail])).trans (b.scalar_within _ keyAllowed true hread)
  refine ⟨_, ?_, Blocks.reaches_of_token h.isEntryStart (by omega) htoken hnext ?_ (skipFiller_follows _ _ hnext)
    (noted_stale hp ?_ _ keyAllowed) ?_ le_rfl⟩
  · exact Nat.zero_add _
  · exact Nat.zero_add _
  · exact Nat.lt_succ_self _
  · simp only [List.length_append, List.length_cons, tail]
    omega

theorem skipFiller_line (hnext : Follows column next) (p : Position) (keyAllowed : Bool) :
    Lexer.skipFiller false ('\n' :: (spaces column.toNat ++ next)) p keyAllowed false =
      (⟨next, p.nextLine.advance column.toNat⟩, true) := by
  rw [skipFiller_break, skipFiller_spaces, skipFiller_follows _ _ hnext]

theorem reaches_quoted {c : Char} {body : List Char} {read : Cursor → Option ScalarEnd} (hstart : IsEntryStart c)
    (hp : b.indent < p.column + n) (hnext : Follows column next) {keyAllowed : Bool} {q : Position}
    (hread : read ⟨c :: (body ++ '\n' :: (spaces column.toNat ++ next)), p.advance n⟩ =
      some ⟨cs, ⟨'\n' :: (spaces column.toNat ++ next), q⟩, false⟩) (hline : p.line ≤ q.line)
    (htoken : ∀ l : Lexer, l.token c (body ++ '\n' :: (spaces column.toNat ++ next)) = l.scalar false read) :
    ∃ q : Position, q.column = column.toNat ∧
      (b.within ⟨spaces n ++ c :: (body ++ '\n' :: (spaces column.toNat ++ next)), p⟩ keyAllowed none).Reaches
        (((b.push (.scalar false cs)).close column).within ⟨next, q⟩ true none) := by
  have htoken := (htoken _).trans (b.scalar_within _ keyAllowed false hread)
  refine ⟨q.nextLine.advance column.toNat, Nat.zero_add _, Blocks.reaches_of_token hstart (by omega) htoken hnext ?_
    (skipFiller_line hnext q false) (noted_stale hp ?_ _ keyAllowed) ?_ ?_⟩
  · exact Nat.zero_add _
  · exact Nat.lt_succ_of_le hline
  · show ('\n' :: (spaces column.toNat ++ next)).length ≤ (body ++ '\n' :: (spaces column.toNat ++ next)).length
    rw [List.length_append]
    exact Nat.le_add_left _ _
  · simp only [List.length_append, List.length_cons]
    omega

theorem reaches_singleQuoted (h : IsQuotable cs) (hp : b.indent < p.column + n) (hnext : Follows column next)
    (keyAllowed : Bool) {indent : Nat} (hindent : 0 < indent) :
    ∃ q : Position, q.column = column.toNat ∧
      (b.within ⟨spaces n ++ '\'' :: (singleQuotedBody indent false cs ++ ['\''] ++
          '\n' :: (spaces column.toNat ++ next)), p⟩ keyAllowed none).Reaches
        (((b.push (.scalar false cs)).close column).within ⟨next, q⟩ true none) := by
  have hread := singleQuotedScalar_body h hindent ('\n' :: (spaces column.toNat ++ next)) (by simp)
    (show 0 < (p.advance n).next.column from Nat.succ_pos _)
  refine reaches_quoted (q := (p.advance n).next.after (singleQuotedBody indent false cs ++ ['\''])) (by decide) hp
    hnext ?_ ((p.advance n).next.line_le_after _) fun l => l.token_singleQuote _
  rw [List.append_assoc]
  exact hread

theorem reaches_doubleQuoted (cs : List Char) (hp : b.indent < p.column + n) (hnext : Follows column next)
    (keyAllowed : Bool) :
    ∃ q : Position, q.column = column.toNat ∧
      (b.within ⟨spaces n ++ '"' :: (cs.flatMap doubleQuotedChar ++ ['"'] ++
          '\n' :: (spaces column.toNat ++ next)), p⟩ keyAllowed none).Reaches
        (((b.push (.scalar false cs)).close column).within ⟨next, q⟩ true none) := by
  have hread := doubleQuotedScalar_body cs ('\n' :: (spaces column.toNat ++ next))
    (show 0 < (p.advance n).next.column from Nat.succ_pos _)
  refine reaches_quoted (q := (p.advance n).next.advance ((cs.flatMap doubleQuotedChar).length + 1)) (by decide) hp
    hnext ?_ (Nat.le_refl _) fun l => l.token_doubleQuote _
  rw [List.append_assoc]
  exact hread

theorem reaches_literal (h : ScalarStyle.literal.Suits cs) (hp : b.indent ≤ p.column + n) (hnext : Follows column next)
    (hcolumn : column ≤ b.indent) (keyAllowed : Bool) :
    ∃ q : Position, q.column = column.toNat ∧
      (b.within ⟨spaces n ++ '|' :: (literalHints cs ++ '\n' :: (literalBody (b.indent.toNat + 2) true cs ++
          (literalEnd cs ++ (spaces column.toNat ++ next)))), p⟩ keyAllowed none).Reaches
        (((b.push (.scalar false cs)).close column).within ⟨next, q⟩ true none) := by
  obtain ⟨hne, hprintable⟩ := h
  obtain ⟨q, hread, hq⟩ := blockScalar_literal hprintable hne b.indent.toNat (b.indent + 1).toNat (by omega)
    hnext (by omega) ((p.advance n).advance 1)
  let body := literalHints cs ++ '\n' :: (literalBody (b.indent.toNat + 2) true cs ++
    (literalEnd cs ++ (spaces column.toNat ++ next)))
  have htoken := (Lexer.token_bar (l := b.within ⟨'|' :: body, p.advance n⟩ keyAllowed none) rfl body).trans
    (b.block_within ⟨'|' :: body, p.advance n⟩ keyAllowed hread)
  refine ⟨q, hq, Blocks.reaches_of_token (by decide) hp htoken hnext hq (skipFiller_follows _ _ hnext) ?_ ?_ le_rfl⟩
  · simp
  · simp only [body, List.length_append, List.length_cons]
    omega

theorem reaches_styled {style : ScalarStyle} (h : style.Suits cs) (hp : b.indent < p.column + n)
    (hnext : Follows column next) (hcolumn : column ≤ b.indent) (keyAllowed : Bool) :
    ∃ q : Position, q.column = column.toNat ∧
      (b.within ⟨spaces n ++ (styled (b.indent.toNat + 2) cs style ++
          (styledEnd cs style ++ (spaces column.toNat ++ next))), p⟩ keyAllowed none).Reaches
        (((b.push (.scalar (style == .plain) cs)).close column).within ⟨next, q⟩ true none) := by
  cases style with
  | plain => exact reaches_plain h hp hnext hcolumn keyAllowed
  | singleQuoted => exact reaches_singleQuoted h hp hnext keyAllowed (Nat.succ_pos _)
  | doubleQuoted => exact reaches_doubleQuoted cs hp hnext keyAllowed
  | literal =>
    have hreaches := reaches_literal h (Int.le_of_lt hp) hnext hcolumn keyAllowed
    simp only [styled, styledEnd, List.cons_append, List.append_assoc]
    exact hreaches

end Scalar

namespace Blocks

def inside (b : Blocks) (c : Cursor) (pending : Option PendingKey) : Lexer :=
  ⟨c, b.indent, b.outer, true, none, [pending], b.tokens, b.tokens.length⟩

theorem openFlow_within (b : Blocks) (c : Cursor) (keyAllowed : Bool) (t : Token) :
    (b.within c keyAllowed none).openFlow t = some ((b.push t).inside (c.advance 1) (b.noted c keyAllowed)) := by
  rw [Lexer.openFlow, noteKey_within]
  rfl

theorem closeFlow_inside (b : Blocks) (c : Cursor) (pending : Option PendingKey) (t : Token) :
    (b.inside c pending).closeFlow t = some ((b.push t).within (c.advance 1) false pending) := rfl

theorem settle_inside {b : Blocks} {c : Char} {rest : List Char} {q : Position} {pending : Option PendingKey}
    (hc : IsEntryStart c) (hfresh : ∀ k ∈ pending, k.isStale q = false) :
    (b.inside ⟨c :: rest, q⟩ pending).settle = some (b.inside ⟨c :: rest, q⟩ pending) := by
  obtain ⟨hblank, hbreak, hcomment, hmark⟩ := hc
  have hskip : Lexer.skipFiller true (c :: rest) q true false = (⟨c :: rest, q⟩, true) := by
    simp only [isBlank, Bool.or_eq_false_iff, beq_eq_false_iff_ne] at hblank
    rw [Lexer.skipFiller]
    · simp [hblank, hbreak, hcomment, hmark]
    · rintro rest' rfl
      simp [isBreak] at hbreak
  have hnext : (b.inside ⟨c :: rest, q⟩ pending).toNextToken = b.inside ⟨c :: rest, q⟩ pending := by
    simp only [Lexer.toNextToken, inside, Lexer.inFlow, List.isEmpty_cons, Bool.not_false, hskip]
  have hkeep : Lexer.dropStale q pending = some pending := by
    cases pending with
    | none => rfl
    | some k => simp [Lexer.dropStale, hfresh k rfl]
  have hdrop : (b.inside ⟨c :: rest, q⟩ pending).dropStaleKeys = some (b.inside ⟨c :: rest, q⟩ pending) := by
    have hnone : Lexer.dropStale q none = some none := rfl
    simp [Lexer.dropStaleKeys, inside, hkeep, hnone]
  rw [Lexer.settle, hnext, hdrop]
  rfl

end Blocks

inductive IsEmptyFlow : Char → Char → Token → Token → Prop
  | sequence : IsEmptyFlow '[' ']' .flowSequenceStart .flowSequenceEnd
  | mapping : IsEmptyFlow '\x7b' '\x7d' .flowMappingStart .flowMappingEnd

namespace IsEmptyFlow

variable {c d : Char} {start stop : Token}

theorem isEntryStart (h : IsEmptyFlow c d start stop) : IsEntryStart c ∧ IsEntryStart d := by
  cases h <;> decide

theorem token_start (h : IsEmptyFlow c d start stop) (l : Lexer) (rest : List Char) :
    l.token c rest = l.openFlow start := by
  have hmarker (c mark : Char) (h : c ≠ mark) : isMarker mark (c :: rest) = false := isMarker_of_ne h rest
  cases h <;> simp [Lexer.token, hmarker]

theorem token_stop (h : IsEmptyFlow c d start stop) (l : Lexer) (rest : List Char) :
    l.token d rest = l.closeFlow stop := by
  have hmarker (c mark : Char) (h : c ≠ mark) : isMarker mark (c :: rest) = false := isMarker_of_ne h rest
  cases h <;> simp [Lexer.token, hmarker]

end IsEmptyFlow

theorem reaches_emptyFlow {b : Blocks} {n : Nat} {p : Position} {column : Int} {next : List Char} {c d : Char}
    {start stop : Token} (hflow : IsEmptyFlow c d start stop) (hp : b.indent < p.column + n)
    (hnext : Follows column next) (keyAllowed : Bool) :
    ∃ q : Position, q.column = column.toNat ∧
      (b.within ⟨spaces n ++ c :: d :: '\n' :: (spaces column.toNat ++ next), p⟩ keyAllowed none).Reaches
        (((b.extend [start, stop]).close column).within ⟨next, q⟩ true none) := by
  let tail := '\n' :: (spaces column.toNat ++ next)
  let pending := b.noted ⟨c :: d :: tail, p.advance n⟩ keyAllowed
  have hopened := (hflow.token_start (b.within ⟨c :: d :: tail, p.advance n⟩ keyAllowed none) (d :: tail)).trans
    (b.openFlow_within _ keyAllowed start)
  have hclosed := (hflow.token_stop ((b.push start).inside ⟨d :: tail, (p.advance n).advance 1⟩ pending) tail).trans
    (Blocks.closeFlow_inside _ _ _ stop)
  have hfresh : ∀ k ∈ pending, k.isStale ((p.advance n).advance 1) = false := by
    intro k hk
    simp only [pending, Blocks.noted] at hk
    cases keyAllowed with
    | true =>
      cases hk
      simp [PendingKey.isStale, Position.advance]
    | false => contradiction
  let q := (((p.advance n).advance 1).advance 1).nextLine.advance column.toNat
  have hq : q.column = column.toNat := Nat.zero_add _
  have hline : p.line < q.line := Nat.lt_succ_self _
  have hsettle : (((b.push start).push stop).within ⟨tail, ((p.advance n).advance 1).advance 1⟩ false pending).settle =
      some ((((b.push start).push stop).close column).within ⟨next, q⟩ true none) := by
    rw [Blocks.settle_within (skipFiller_line hnext _ false) (noted_stale hp hline _ keyAllowed),
      nextColumn_of_follows hnext hq]
  have htail : next.length ≤ tail.length := by
    simp only [tail, List.length_cons, List.length_append]
    omega
  refine ⟨q, hq, ?_⟩
  refine (Lexer.reaches_of_token (Blocks.settle_spaces hflow.isEntryStart.1 (Int.le_of_lt hp)) rfl hopened ?_).trans
    ((Lexer.reaches_of_token (Blocks.settle_inside hflow.isEntryStart.2 hfresh) rfl hclosed ?_).trans
      (Lexer.reaches_of_settle hsettle (Blocks.settle_settled hnext hq true) htail))
  · show (d :: tail).length < (spaces n ++ c :: d :: tail).length
    simp only [List.length_append, List.length_cons]
    omega
  · exact Nat.lt_succ_self _

end PolicyYaml.Document
