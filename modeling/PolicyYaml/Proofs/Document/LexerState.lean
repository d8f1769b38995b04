import PolicyYaml.Document.Lexer
import PolicyYaml.Proofs.Document.Position

/-!
How the lexer goes from one token to the next outside of flow collections: what it skips, which keys it
gives up, and which block collections end.
-/

namespace PolicyYaml.Document

structure Blocks where
  indent : Int
  outer : List Int
  tokens : List Token

namespace Blocks

def push (b : Blocks) (t : Token) : Blocks := { b with tokens := t :: b.tokens }

def extend (b : Blocks) (ts : List Token) : Blocks := { b with tokens := ts.reverse ++ b.tokens }

def closeOuter (column : Int) (indent : Int) : List Int → List Token → Blocks
  | [], tokens => ⟨indent, [], tokens⟩
  | o :: rest, tokens =>
    if column < indent then closeOuter column o rest (.blockEnd :: tokens) else ⟨indent, o :: rest, tokens⟩

def close (column : Int) (b : Blocks) : Blocks := closeOuter column b.indent b.outer b.tokens

@[simp]
theorem push_extend (b : Blocks) (t : Token) (ts : List Token) : (b.push t).extend ts = b.extend (t :: ts) := by
  simp [push, extend]

@[simp]
theorem extend_extend (b : Blocks) (ts us : List Token) : (b.extend ts).extend us = b.extend (ts ++ us) := by
  simp [extend]

theorem close_of_le {column : Int} {b : Blocks} (h : b.indent ≤ column) : b.close column = b := by
  obtain ⟨indent, outer, tokens⟩ := b
  cases outer with
  | nil => rfl
  | cons o rest => exact if_neg (Int.not_lt.mpr h)

theorem closeOuter_closeOuter {c d : Int} (h : d ≤ c) (indent : Int) (outer : List Int) (tokens : List Token) :
    (closeOuter c indent outer tokens).close d = closeOuter d indent outer tokens := by
  induction outer generalizing indent tokens with
  | nil => rfl
  | cons o rest ih =>
    by_cases hlt : c < indent
    · rw [closeOuter, closeOuter, if_pos hlt, if_pos (by omega), ih]
    · rw [closeOuter, if_neg hlt]
      rfl

theorem close_close {c d : Int} (h : d ≤ c) (b : Blocks) : (b.close c).close d = b.close d :=
  closeOuter_closeOuter h b.indent b.outer b.tokens

def within (b : Blocks) (c : Cursor) (keyAllowed : Bool) (pending : Option PendingKey) : Lexer :=
  ⟨c, b.indent, b.outer, keyAllowed, pending, [], b.tokens, b.tokens.length⟩

theorem closeBlocks_within (column indent : Int) (outer : List Int) (tokens : List Token) (c : Cursor)
    (keyAllowed : Bool) (pending : Option PendingKey) :
    Lexer.closeBlocks column ((mk indent outer tokens).within c keyAllowed pending) outer =
      (closeOuter column indent outer tokens).within c keyAllowed pending := by
  induction outer generalizing indent tokens with
  | nil => rfl
  | cons o rest ih =>
    by_cases hlt : column < indent
    · rw [closeOuter, if_pos hlt]
      exact (if_pos hlt).trans (ih o (.blockEnd :: tokens))
    · rw [closeOuter, if_neg hlt]
      exact if_neg hlt

theorem unindent_within (b : Blocks) (c : Cursor) (keyAllowed : Bool) (pending : Option PendingKey) (column : Int) :
    (b.within c keyAllowed pending).unindent column = (b.close column).within c keyAllowed pending :=
  closeBlocks_within column b.indent b.outer b.tokens c keyAllowed pending

end Blocks

def Cursor.nextColumn (c : Cursor) : Int := if c.rest.isEmpty then -1 else c.column

namespace Lexer

def settle (l : Lexer) : Option Lexer :=
  l.toNextToken.dropStaleKeys.map fun l => l.unindent l.cursor.nextColumn

theorem closeBlocks_keeps {α : Type} {f : Lexer → α}
    (hf : ∀ (l : Lexer) outer rest, f { l.push .blockEnd with indent := outer, outerIndents := rest } = f l)
    (column : Int) (l : Lexer) (outer : List Int) : f (closeBlocks column l outer) = f l := by
  induction outer generalizing l with
  | nil => rfl
  | cons o rest ih =>
    rw [closeBlocks]
    split
    · exact (ih _).trans (hf l o rest)
    · rfl

theorem cursor_closeBlocks (column : Int) (l : Lexer) (outer : List Int) :
    (closeBlocks column l outer).cursor = l.cursor :=
  closeBlocks_keeps (fun _ _ _ => rfl) column l outer

theorem cursor_unindent (l : Lexer) (column : Int) : (l.unindent column).cursor = l.cursor := by
  rw [unindent]
  split
  · rfl
  · exact cursor_closeBlocks column l _

theorem closeBlocks_closeBlocks {c d : Int} (h : d ≤ c) {l : Lexer} {outer : List Int}
    (houter : l.outerIndents = outer) :
    closeBlocks d (closeBlocks c l outer) (closeBlocks c l outer).outerIndents = closeBlocks d l outer := by
  induction outer generalizing l with
  | nil => rw [closeBlocks, houter]
  | cons o rest ih =>
    by_cases hlt : c < l.indent
    · have hlt' : d < l.indent := by omega
      rw [closeBlocks, closeBlocks, if_pos hlt, if_pos hlt']
      exact ih rfl
    · rw [closeBlocks, if_neg hlt, houter]

theorem inFlow_closeBlocks (column : Int) (l : Lexer) (outer : List Int) :
    (closeBlocks column l outer).inFlow = l.inFlow :=
  closeBlocks_keeps (fun _ _ _ => rfl) column l outer

theorem unindent_unindent {c d : Int} (h : d ≤ c) (l : Lexer) : (l.unindent c).unindent d = l.unindent d := by
  cases hflow : l.inFlow with
  | true => simp only [unindent, hflow, if_true]
  | false =>
    simp only [unindent, hflow, inFlow_closeBlocks, Bool.false_eq_true, if_false]
    exact closeBlocks_closeBlocks h rfl

theorem run_succ (fuel : Nat) (l : Lexer) :
    run (fuel + 1) l = l.settle.bind fun l =>
      match l.cursor.rest with
      | [] => l.forgetKey.map fun l => l.tokens.reverse
      | c :: rest => (l.token c rest).bind (run fuel) := by
  rw [run, settle]
  cases l.toNextToken.dropStaleKeys with
  | none => rfl
  | some m =>
    simp only [Option.bind_eq_bind, Option.bind_some, Option.map_some, cursor_unindent]
    cases hrest : m.cursor.rest with
    | nil =>
      have hcolumn : (-1 : Int) ≤ m.column := by omega
      have hnext : m.cursor.nextColumn = -1 := by rw [Cursor.nextColumn, hrest]; rfl
      simp only [unindent_unindent hcolumn, hnext, Option.map_eq_bind]
      rfl
    | cons c rest =>
      have hnext : m.cursor.nextColumn = m.column := by rw [Cursor.nextColumn, hrest]; rfl
      rw [hnext]

/-- Whatever the lexer makes of the first state it makes of the second, with a step for each character
between them to spare. -/
def Reaches (l m : Lexer) : Prop :=
  ∃ steps, steps + m.cursor.rest.length ≤ l.cursor.rest.length ∧
    ∀ fuel, run (fuel + 1 + steps) l = run (fuel + 1) m

theorem Reaches.trans {l m n : Lexer} (hl : l.Reaches m) (hm : m.Reaches n) : l.Reaches n := by
  obtain ⟨i, hi, hl⟩ := hl
  obtain ⟨j, hj, hm⟩ := hm
  refine ⟨j + i, by omega, fun fuel => ?_⟩
  have hsum : fuel + 1 + (j + i) = fuel + j + 1 + i := by omega
  have hsum' : fuel + j + 1 = fuel + 1 + j := by omega
  rw [hsum, hl, hsum', hm]

theorem reaches_of_settle {l m : Lexer} (h : l.settle = some m) (hm : m.settle = some m)
    (hlength : m.cursor.rest.length ≤ l.cursor.rest.length) : l.Reaches m := by
  refine ⟨0, by omega, fun fuel => ?_⟩
  rw [Nat.add_zero, run_succ, run_succ, h, hm]

theorem reaches_of_token {l m n : Lexer} {c : Char} {rest : List Char} (h : l.settle = some m)
    (hrest : m.cursor.rest = c :: rest) (htoken : m.token c rest = some n)
    (hlength : n.cursor.rest.length < l.cursor.rest.length) : l.Reaches n := by
  refine ⟨1, by omega, fun fuel => ?_⟩
  rw [run_succ (fuel + 1), h, Option.bind_some, hrest]
  simp only [htoken, Option.bind_some]

end Lexer

section Filler

variable (p : Position) (keyAllowed : Bool)

theorem skipFiller_space (tail : List Char) :
    Lexer.skipFiller false (' ' :: tail) p keyAllowed false = Lexer.skipFiller false tail p.next keyAllowed false := by
  rw [Lexer.skipFiller]
  · simp [isBreak]
  · simp

theorem skipFiller_spaces (n : Nat) (tail : List Char) :
    Lexer.skipFiller false (spaces n ++ tail) p keyAllowed false =
      Lexer.skipFiller false tail (p.advance n) keyAllowed false := by
  induction n generalizing p with
  | zero => rfl
  | succ n ih =>
    rw [spaces, List.replicate_succ, List.cons_append, skipFiller_space]
    refine (ih p.next).trans ?_
    rw [Position.next_advance]

theorem skipFiller_break (tail : List Char) :
    Lexer.skipFiller false ('\n' :: tail) p keyAllowed false = Lexer.skipFiller false tail p.nextLine true false := by
  rw [Lexer.skipFiller]
  · simp [isBreak]
  · simp

theorem skipFiller_entry {c : Char} (h : IsEntryStart c) (rest : List Char) :
    Lexer.skipFiller false (c :: rest) p keyAllowed false = (⟨c :: rest, p⟩, keyAllowed) := by
  obtain ⟨hblank, hbreak, hcomment, hmark⟩ := h
  simp only [isBlank, Bool.or_eq_false_iff, beq_eq_false_iff_ne] at hblank
  rw [Lexer.skipFiller]
  · simp [hblank, hbreak, hcomment, hmark]
  · rintro rest' rfl
    simp [isBreak] at hbreak

theorem skipFiller_follows {column : Int} {next : List Char} (h : Follows column next) :
    Lexer.skipFiller false next p keyAllowed false = (⟨next, p⟩, keyAllowed) := by
  cases h with
  | nothing => rfl
  | entry h => exact skipFiller_entry p keyAllowed h _

end Filler

theorem nextColumn_of_follows {column : Int} {next : List Char} (h : Follows column next) {q : Position}
    (hq : q.column = column.toNat) : (Cursor.mk next q).nextColumn = column := by
  cases h with
  | nothing => rfl
  | @entry column c rest _ =>
    show (q.column : Int) = column
    omega

namespace Blocks

theorem settle_within {b : Blocks} {c c' : Cursor} {keyAllowed keyAllowed' : Bool} {pending : Option PendingKey}
    (hskip : Lexer.skipFiller false c.rest c.position keyAllowed false = (c', keyAllowed'))
    (hstale : ∀ k ∈ pending, k.required = false ∧ k.position.line < c'.position.line) :
    (b.within c keyAllowed pending).settle = some ((b.close c'.nextColumn).within c' keyAllowed' none) := by
  have hnext : (b.within c keyAllowed pending).toNextToken = b.within c' keyAllowed' pending := by
    simp only [Lexer.toNextToken, within, Lexer.inFlow, List.isEmpty_nil, Bool.not_true, hskip]
  have hdrop : (b.within c' keyAllowed' pending).dropStaleKeys = some (b.within c' keyAllowed' none) := by
    have hstale : Lexer.dropStale c'.position pending = some none := by
      cases pending with
      | none => rfl
      | some k =>
        obtain ⟨hrequired, hline⟩ := hstale k rfl
        simp [Lexer.dropStale, Lexer.dropKey, PendingKey.isStale, hrequired, hline]
    simp [Lexer.dropStaleKeys, within, hstale]
  rw [Lexer.settle, hnext, hdrop, Option.map_some, unindent_within]
  rfl

theorem settle_settled {b : Blocks} {column : Int} {next : List Char} (h : Follows column next) {q : Position}
    (hq : q.column = column.toNat) (keyAllowed : Bool) :
    ((b.close column).within ⟨next, q⟩ keyAllowed none).settle =
      some ((b.close column).within ⟨next, q⟩ keyAllowed none) := by
  rw [settle_within (skipFiller_follows q keyAllowed h) (by simp), nextColumn_of_follows h hq,
    close_close (Int.le_refl column)]

end Blocks

end PolicyYaml.Document
