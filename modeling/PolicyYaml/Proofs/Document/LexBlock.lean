import PolicyYaml.Proofs.Document.LexScalar

namespace PolicyYaml.Document

namespace Blocks

inductive Opens (column : Nat) (t : Token) : Blocks → Blocks → Prop
  | opens {b : Blocks} : b.indent < column → Opens column t b ⟨column, b.indent :: b.outer, t :: b.tokens⟩
  | stays {b : Blocks} : b.indent = column → Opens column t b b

variable {column : Nat} {t : Token} {b b' : Blocks}

theorem Opens.indent_eq (h : Opens column t b b') : b'.indent = column := by
  cases h with
  | opens => rfl
  | stays h => exact h

theorem Opens.indent_le (h : Opens column t b b') : b.indent ≤ column := by
  cases h with
  | opens h => exact Int.le_of_lt h
  | stays h => exact Int.le_of_eq h

theorem close_opened (t : Token) (h : b.indent < column) {outside : Int} (houtside : outside ≤ b.indent)
    (ts : List Token) :
    ((mk column (b.indent :: b.outer) (t :: b.tokens)).extend ts).close outside =
      (b.extend (t :: (ts ++ [.blockEnd]))).close outside := by
  have hlt : outside < column := by omega
  have htokens : Token.blockEnd :: (ts.reverse ++ t :: b.tokens) = (t :: (ts ++ [.blockEnd])).reverse ++ b.tokens := by
    simp
  show closeOuter outside column (b.indent :: b.outer) (ts.reverse ++ t :: b.tokens) = _
  rw [closeOuter, if_pos hlt, htokens]
  rfl

theorem insertAt_within (b : Blocks) (ts : List Token) (t : Token) (c : Cursor) (keyAllowed : Bool)
    (pending : Option PendingKey) :
    ((b.extend ts).within c keyAllowed pending).insertAt b.tokens.length t =
      ((b.push t).extend ts).within c keyAllowed pending := by
  simp only [Lexer.insertAt, within, extend, push, List.length_append, Nat.add_sub_cancel, List.take_left,
    List.drop_left, List.length_cons, Nat.add_assoc]

theorem openBlock_within (h : Opens column t b b') (ts : List Token) (c : Cursor) (keyAllowed : Bool)
    (pending : Option PendingKey) :
    ((b.extend ts).within c keyAllowed pending).openBlock column b.tokens.length t =
      (b'.extend ts).within c keyAllowed pending := by
  have hinsert := insertAt_within b ts t c keyAllowed pending
  cases h with
  | opens h =>
    have hopens : (!((b.extend ts).within c keyAllowed pending).inFlow &&
        decide (((b.extend ts).within c keyAllowed pending).indent < column)) = true := decide_eq_true h
    rw [Lexer.openBlock, if_pos hopens, hinsert]
    rfl
  | stays h =>
    have hstays : (!((b.extend ts).within c keyAllowed pending).inFlow &&
        decide (((b.extend ts).within c keyAllowed pending).indent < column)) = false :=
      decide_eq_false (by show ¬b.indent < column; omega)
    rw [Lexer.openBlock, hstays]
    rfl

theorem blockEntry_within {c : Cursor} (h : Opens c.column .blockSequenceStart b b') :
    (b.within c true none).blockEntry = some ((b'.push .blockEntry).within (c.advance 1) true none) := by
  have hopen := openBlock_within h [] c true none
  have hallowed : (!(b.within c true none).inFlow && !(b.within c true none).keyAllowed) = false := rfl
  rw [Lexer.blockEntry, hallowed]
  show ((((b.extend []).within c true none).openBlock c.column b.tokens.length
    .blockSequenceStart).forgetKey.bind _) = _
  rw [hopen]
  rfl

theorem keyMark_within {c : Cursor} (h : Opens c.column .blockMappingStart b b') :
    (b.within c true none).keyMark = some ((b'.push .key).within (c.advance 1) true none) := by
  have hopen := openBlock_within h [] c true none
  have hallowed : (!(b.within c true none).inFlow && !(b.within c true none).keyAllowed) = false := rfl
  rw [Lexer.keyMark, hallowed]
  show ((((b.extend []).within c true none).openBlock c.column b.tokens.length .blockMappingStart).forgetKey.bind _) = _
  rw [hopen]
  rfl

theorem valueMark_within {c : Cursor} (h : b.indent = c.column) :
    (b.within c true none).valueMark = some ((b.push .value).within (c.advance 1) true none) := by
  have hmark (l : Lexer) (hl : (b.within c true none).openBlock c.column b.tokens.length .blockMappingStart = l) :
      (b.within c true none).valueMark = some ({ l with keyAllowed := !l.inFlow }.take 1 .value) := by
    rw [← hl]
    rfl
  rw [hmark _ (openBlock_within (.stays h) [] c true none)]
  rfl

theorem valueMark_key {p : Position} (h : Opens p.column .blockMappingStart b b') (c : Cursor) (t : Token)
    (required : Bool) :
    ((b.push t).within c false (some ⟨required, b.tokens.length, p⟩)).valueMark =
      some ((b'.extend [.key, t, .value]).within (c.advance 1) false none) := by
  let pending := some (PendingKey.mk required b.tokens.length p)
  have hkey : ((b.push t).within c false pending).insertAt b.tokens.length .key =
      (b.extend [.key, t]).within c false pending := insertAt_within b [t] .key c false pending
  have hopen : (((b.push t).within c false pending).insertAt b.tokens.length .key).openBlock p.column b.tokens.length
      .blockMappingStart = (b'.extend [.key, t]).within c false pending := by
    rw [hkey, openBlock_within h]
  have hmark (l : Lexer) (hl : (((b.push t).within c false pending).insertAt b.tokens.length .key).openBlock p.column
      b.tokens.length .blockMappingStart = l) : ((b.push t).within c false pending).valueMark =
        some ({ l with pending := none, keyAllowed := false }.take 1 .value) := by
    rw [← hl]
    rfl
  rw [hmark _ hopen]
  rfl

theorem settle_fresh {c : Char} {rest : List Char} {q : Position} {keyAllowed : Bool} {k : PendingKey}
    (hc : IsEntryStart c) (hq : b.indent ≤ q.column) (hfresh : k.isStale q = false) :
    (b.within ⟨c :: rest, q⟩ keyAllowed (some k)).settle = some (b.within ⟨c :: rest, q⟩ keyAllowed (some k)) := by
  have hnext : (b.within ⟨c :: rest, q⟩ keyAllowed (some k)).toNextToken =
      b.within ⟨c :: rest, q⟩ keyAllowed (some k) := by
    simp only [Lexer.toNextToken, within, Lexer.inFlow, List.isEmpty_nil, Bool.not_true, skipFiller_entry _ _ hc]
  have hdrop : (b.within ⟨c :: rest, q⟩ keyAllowed (some k)).dropStaleKeys =
      some (b.within ⟨c :: rest, q⟩ keyAllowed (some k)) := by
    simp [Lexer.dropStaleKeys, within, Lexer.dropStale, hfresh]
  rw [Lexer.settle, hnext, hdrop, Option.map_some, unindent_within, close_of_le]
  exact hq

end Blocks

namespace Lexer

theorem token_dash (l : Lexer) (rest : List Char) : l.token '-' (' ' :: rest) = l.blockEntry := by
  have hmarker (mark : Char) (h : ' ' ≠ mark) : isMarker mark ('-' :: ' ' :: rest) = false :=
    isMarker_of_mem (List.mem_cons_of_mem _ List.mem_cons_self) h
  simp [token, hmarker, wordEnds, isBlank]

theorem token_question (l : Lexer) (rest : List Char) : l.token '?' (' ' :: rest) = l.keyMark := by
  have hmarker (mark : Char) (h : '?' ≠ mark) : isMarker mark ('?' :: ' ' :: rest) = false := isMarker_of_ne h _
  simp [token, hmarker, wordEnds, isBlank]

theorem token_colon (l : Lexer) {rest : List Char} (h : wordEnds rest = true) : l.token ':' rest = l.valueMark := by
  have hmarker (mark : Char) (h : ':' ≠ mark) : isMarker mark (':' :: rest) = false := isMarker_of_ne h _
  simp [token, hmarker, h]

end Lexer

section Marks

variable {b b' : Blocks} {rest : List Char} {p : Position}

theorem reaches_mark {c : Char} (hc : IsEntryStart c) (hp : b.indent ≤ p.column)
    (htoken : (b.within ⟨c :: rest, p⟩ true none).token c rest = some (b'.within ⟨rest, p.next⟩ true none)) :
    (b.within ⟨c :: rest, p⟩ true none).Reaches (b'.within ⟨rest, p.next⟩ true none) :=
  Lexer.reaches_of_token (Blocks.settle_spaces (n := 0) hc (by simpa using hp)) rfl htoken (Nat.lt_succ_self _)

theorem reaches_dash (h : Blocks.Opens p.column .blockSequenceStart b b') :
    (b.within ⟨'-' :: ' ' :: rest, p⟩ true none).Reaches
      ((b'.push .blockEntry).within ⟨' ' :: rest, p.next⟩ true none) := by
  apply reaches_mark (by decide) h.indent_le
  rw [Lexer.token_dash]
  exact Blocks.blockEntry_within h

theorem reaches_question (h : Blocks.Opens p.column .blockMappingStart b b') :
    (b.within ⟨'?' :: ' ' :: rest, p⟩ true none).Reaches
      ((b'.push .key).within ⟨' ' :: rest, p.next⟩ true none) := by
  apply reaches_mark (by decide) h.indent_le
  rw [Lexer.token_question]
  exact Blocks.keyMark_within h

theorem reaches_colon (h : b.indent = p.column) :
    (b.within ⟨':' :: ' ' :: rest, p⟩ true none).Reaches
      ((b.push .value).within ⟨' ' :: rest, p.next⟩ true none) := by
  apply reaches_mark (by decide) (Int.le_of_eq h)
  rw [Lexer.token_colon _ rfl]
  exact Blocks.valueMark_within h

end Marks

end PolicyYaml.Document
