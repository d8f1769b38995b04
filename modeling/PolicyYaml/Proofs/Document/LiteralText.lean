import Mathlib.Data.List.Basic
import PolicyYaml.Document.BlockScalar
import PolicyYaml.Proofs.Document.PlainText

/-!
Literals are read as they are written, whatever line breaks they begin and end with.
-/

namespace PolicyYaml.Document

namespace BlockLines

def add (l : BlockLines) (c : Char) : BlockLines :=
  if isBreak c then l.addBreak c else if l.inLine then l.addChar c else l.beginLine false c

theorem add_of_isBreak {c : Char} (h : isBreak c = true) (l : BlockLines) : l.add c = l.addBreak c := by
  rw [add, if_pos h]

def IsSettled (l : BlockLines) : Prop := l.inLine = true → l.lastBreak = [] ∧ l.emptyLines = []

theorem isSettled_add {l : BlockLines} (h : l.IsSettled) (c : Char) : (l.add c).IsSettled := by
  unfold add
  split
  · unfold addBreak
    split
    · exact fun h => absurd h Bool.false_ne_true
    · rename_i hline
      exact fun h => absurd h hline
  split
  · exact h
  · exact fun _ => ⟨rfl, rfl⟩

theorem finish_add {l : BlockLines} (h : l.IsSettled) {c : Char} (hc : isPrintable c = true) :
    (l.add c).finish .keep = c :: l.finish .keep := by
  unfold add
  split
  · rename_i hbreak
    have hcontent := breakContent_of_isBreak hc hbreak
    unfold addBreak
    split
    · rename_i hline
      obtain ⟨hlast, hempty⟩ := h hline
      simp only [finish, hlast, hempty, hcontent]
      rfl
    · simp only [finish, hcontent]
      rfl
  split
  · rename_i hline
    obtain ⟨hlast, hempty⟩ := h hline
    simp only [addChar, finish, hlast, hempty]
    rfl
  · simp [finish, beginLine]

theorem inLine_add (l : BlockLines) (c : Char) : (l.add c).inLine = !isBreak c := by
  unfold add
  split
  · rename_i hbreak
    rw [hbreak, addBreak]
    split
    · rfl
    · rename_i hline
      simpa using hline
  split
  · rename_i hbreak hline
    rw [addChar, hline, Bool.eq_false_iff.mpr hbreak]
    rfl
  · rename_i hbreak _
    rw [Bool.eq_false_iff.mpr hbreak]
    rfl

theorem isSettled_foldl {l : BlockLines} (h : l.IsSettled) (cs : List Char) : (cs.foldl add l).IsSettled := by
  induction cs generalizing l with
  | nil => exact h
  | cons c rest ih => exact ih (isSettled_add h c)

theorem finish_foldl {l : BlockLines} (h : l.IsSettled) {cs : List Char} (hcs : ∀ c ∈ cs, isPrintable c = true) :
    (cs.foldl add l).finish .keep = cs.reverse ++ l.finish .keep := by
  induction cs generalizing l with
  | nil => rfl
  | cons c rest ih =>
    rw [List.forall_mem_cons] at hcs
    rw [List.foldl_cons, ih (isSettled_add h c) hcs.2, finish_add h hcs.1, List.reverse_cons, List.append_assoc,
      List.singleton_append]

end BlockLines

theorem blockLines_cons {c : Char} (h : c ≠ '\r') (folded : Bool) (indent : Nat) (rest : List Char) (p : Position)
    (l : BlockLines) :
    blockLines folded indent (c :: rest) p l =
      if isBreak c then blockLines folded indent rest p.nextLine (l.addBreak c)
      else if l.inLine then blockLines folded indent rest p.next (l.addChar c)
      else if p.column < indent && c == ' ' then blockLines folded indent rest p.next l
      else if p.column < indent && c == '\t' then none
      else if p.column == indent then blockLines folded indent rest p.next (l.beginLine folded c)
      else some (l, ⟨c :: rest, p⟩) := by
  rw [blockLines]
  rintro rest' rfl
  exact absurd rfl h

theorem blockLines_spaces {indent n : Nat} {p : Position} (h : p.column + n ≤ indent) {l : BlockLines}
    (hline : l.inLine = false) (tail : List Char) :
    blockLines false indent (spaces n ++ tail) p l = blockLines false indent tail (p.advance n) l := by
  induction n generalizing p with
  | zero => rfl
  | succ n ih =>
    have hcolumn : p.column < indent := by omega
    have hnext : p.next.column + n ≤ indent := by
      simp only [Position.next, Position.advance]
      omega
    rw [spaces, List.replicate_succ, List.cons_append, blockLines_cons (by decide)]
    simp only [hline, hcolumn]
    refine (ih hnext).trans ?_
    rw [Position.next_advance]

theorem blockLines_break {c : Char} (hprintable : isPrintable c = true) (hbreak : isBreak c = true) (indent : Nat)
    (rest : List Char) (p : Position) (l : BlockLines) :
    blockLines false indent (c :: rest) p l = blockLines false indent rest p.nextLine (l.add c) := by
  rw [blockLines_cons (ne_return hprintable), BlockLines.add, if_pos hbreak, if_pos hbreak]

theorem blockLines_inLine {c : Char} (hbreak : isBreak c = false) (indent : Nat) (rest : List Char) (p : Position)
    {l : BlockLines} (hline : l.inLine = true) :
    blockLines false indent (c :: rest) p l = blockLines false indent rest p.next (l.add c) := by
  rw [blockLines_cons (ne_return_of_unbroken hbreak), BlockLines.add]
  simp only [hbreak, hline, ↓reduceIte, Bool.false_eq_true]

theorem blockLines_begin {c : Char} (hbreak : isBreak c = false) {indent : Nat} (rest : List Char) {p : Position}
    (hcolumn : p.column = indent) {l : BlockLines} (hline : l.inLine = false) :
    blockLines false indent (c :: rest) p l = blockLines false indent rest p.next (l.add c) := by
  rw [blockLines_cons (ne_return_of_unbroken hbreak), BlockLines.add]
  simp [hbreak, hline, hcolumn]

theorem blockLines_body {cs : List Char} (hprintable : ∀ c ∈ cs, isPrintable c = true) (indent : Nat)
    {lineStart : Bool} {p : Position} (hcolumn : lineStart = true → p.column = 0) {l : BlockLines}
    (hline : l.inLine = !lineStart) (tail : List Char) :
    blockLines false indent (literalBody indent lineStart cs ++ tail) p l =
      blockLines false indent tail (p.after (literalBody indent lineStart cs)) (cs.foldl BlockLines.add l) := by
  -- Only at the start of a line the writer puts spaces before a character, and the reader skips them there.
  induction cs generalizing lineStart p l with
  | nil => rfl
  | cons c rest ih =>
    rw [List.forall_mem_cons] at hprintable
    have hinLine := BlockLines.inLine_add l c
    cases hbreak : isBreak c with
    | true =>
      have hbody : literalBody indent lineStart (c :: rest) = c :: literalBody indent true rest := by
        rw [literalBody, if_pos hbreak]
      rw [hbody, List.cons_append, blockLines_break hprintable.1 hbreak, ih hprintable.2 (fun _ => rfl),
        Position.after_break hbreak]
      · rfl
      · rw [hinLine, hbreak]
    | false =>
      have hbody : literalBody indent lineStart (c :: rest) =
          (if lineStart then spaces indent else []) ++ c :: literalBody indent false rest := by
        rw [literalBody, hbreak]
        rfl
      rw [hbody]
      rw [hbreak] at hinLine
      cases lineStart with
      | true =>
        have hzero := hcolumn rfl
        have hstart : (p.advance indent).column = indent := by
          rw [Position.advance, hzero, Nat.zero_add]
        rw [if_pos rfl, List.append_assoc, blockLines_spaces (by omega) hline, List.cons_append,
          blockLines_begin hbreak _ hstart hline, ih hprintable.2 (fun h => absurd h (by decide)) hinLine,
          Position.after_append, Position.after_spaces, Position.after_char hbreak]
        rfl
      | false =>
        rw [if_neg Bool.false_ne_true, List.nil_append, List.cons_append, blockLines_inLine hbreak _ _ _ hline,
          ih hprintable.2 (fun h => absurd h (by decide)) hinLine, Position.after_char hbreak]
        rfl

theorem blockLines_ends {column : Int} {next : List Char} (hnext : Follows column next) {indent : Nat}
    (hcolumn : column < indent) {p : Position} (hp : p.column = 0) {l : BlockLines} (hline : l.inLine = false) :
    blockLines false indent (spaces column.toNat ++ next) p l = some (l, ⟨next, p.advance column.toNat⟩) := by
  rw [blockLines_spaces (by omega) hline]
  cases hnext with
  | nothing => rfl
  | @entry column c rest hstart =>
    obtain ⟨hblank, hbreak, -, -⟩ := hstart
    simp only [isBlank, Bool.or_eq_false_iff, beq_eq_false_iff_ne] at hblank
    have hne : (p.advance column).column ≠ indent := by
      simp only [Position.advance]
      omega
    rw [blockLines_cons (ne_return_of_unbroken hbreak)]
    simp [hbreak, hline, hblank, hne]

theorem leadingLines_spaces (n : Nat) (tail : List Char) (p : Position) (breaks : List Char) (widest : Nat) :
    leadingLines (spaces n ++ tail) p breaks widest = leadingLines tail (p.advance n) breaks widest := by
  induction n generalizing p with
  | zero => rfl
  | succ n ih =>
    rw [spaces, List.replicate_succ, List.cons_append, leadingLines]
    · refine (ih p.next).trans ?_
      rw [Position.next_advance]
    · simp

theorem leadingLines_first {c : Char} (hprintable : isPrintable c = true) (hfirst : Contents.isSpaceOrBreak c = false)
    (rest : List Char) (p : Position) :
    leadingLines (c :: rest) p [] 0 = some ⟨[], p.column, ⟨c :: rest, p⟩⟩ := by
  rw [Contents.isSpaceOrBreak, Bool.or_eq_false_iff, beq_eq_false_iff_ne] at hfirst
  rw [leadingLines]
  · simp [hfirst, ne_tab hprintable]
  · rintro rest' rfl
    exact absurd rfl (ne_return hprintable)

theorem read_literalHints (cs rest : List Char) :
    BlockHeader.read (literalHints cs ++ '\n' :: rest) =
      some (⟨if !cs.getLast?.any isBreak then .strip else if keepsEnd cs then .keep else .clip,
        if cs.head?.any Contents.isSpaceOrBreak then some 2 else none⟩, '\n' :: rest) := by
  rw [literalHints]
  cases cs.head?.any Contents.isSpaceOrBreak <;> cases cs.getLast?.any isBreak <;> cases keepsEnd cs <;> rfl

theorem BlockLines.isSettled_start : (BlockLines.start []).IsSettled := fun h => absurd h Bool.false_ne_true

theorem keepsEnd_append (cs : List Char) (c d : Char) : keepsEnd (cs ++ [d] ++ [c]) = (isBreak c && isBreak d) := by
  simp [keepsEnd]

theorem keepsEnd_singleton (c : Char) : keepsEnd [c] = isBreak c := rfl

namespace BlockLines

theorem finish_clip {l : BlockLines} (h : l.emptyLines = []) : l.finish .clip = l.finish .keep := by
  simp only [finish, h]
  rfl

theorem finish_strip {l : BlockLines} (hlast : l.lastBreak = []) (hempty : l.emptyLines = []) :
    l.finish .strip = l.finish .keep := by
  simp only [finish, hlast, hempty]
  rfl

theorem settled_of_append (cs : List Char) {c : Char} (hbreak : isBreak c = false) :
    ((cs ++ [c]).foldl add (.start [])).inLine = true ∧ ((cs ++ [c]).foldl add (.start [])).lastBreak = [] ∧
      ((cs ++ [c]).foldl add (.start [])).emptyLines = [] := by
  have hline : ((cs ++ [c]).foldl add (.start [])).inLine = true := by
    rw [List.foldl_append, List.foldl_cons, List.foldl_nil, inLine_add, hbreak]
    rfl
  exact ⟨hline, isSettled_foldl isSettled_start _ hline⟩

theorem emptyLines_of_append {cs : List Char} {c d : Char} (hd : isBreak d = false) (hc : isBreak c = true) :
    ((cs ++ [d] ++ [c]).foldl add (.start [])).emptyLines = [] := by
  obtain ⟨hline, -, hempty⟩ := settled_of_append cs hd
  rw [List.foldl_append, List.foldl_cons, List.foldl_nil, add_of_isBreak hc, addBreak, if_pos hline]
  exact hempty

end BlockLines

theorem finish_literal {cs : List Char} (hprintable : ∀ c ∈ cs, isPrintable c = true) :
    ((cs.foldl BlockLines.add (.start [])).finish
      (if !cs.getLast?.any isBreak then .strip else if keepsEnd cs then .keep else .clip)).reverse = cs := by
  have hkeep : ((cs.foldl BlockLines.add (.start [])).finish .keep).reverse = cs := by
    rw [BlockLines.finish_foldl BlockLines.isSettled_start hprintable]
    simp [BlockLines.finish, BlockLines.start]
  rcases List.eq_nil_or_concat' cs with rfl | ⟨ds, c, rfl⟩
  · rfl
  rw [List.getLast?_concat, Option.any_some]
  cases hbreak : isBreak c with
  | false =>
    obtain ⟨-, hlast, hempty⟩ := BlockLines.settled_of_append ds hbreak
    rwa [← BlockLines.finish_strip hlast hempty] at hkeep
  | true =>
    cases hend : keepsEnd (ds ++ [c]) with
    | true => exact hkeep
    | false =>
      rcases List.eq_nil_or_concat' ds with rfl | ⟨es, d, rfl⟩
      · rw [List.nil_append, keepsEnd_singleton, hbreak] at hend
        contradiction
      · rw [keepsEnd_append, hbreak, Bool.true_and] at hend
        rwa [← BlockLines.finish_clip (BlockLines.emptyLines_of_append hend hbreak)] at hkeep

theorem literalBody_append (indent : Nat) (lineStart : Bool) (cs : List Char) (c : Char) :
    ∃ before, literalBody indent lineStart (cs ++ [c]) = before ++ [c] := by
  induction cs generalizing lineStart with
  | nil =>
    rw [List.nil_append, literalBody]
    split
    · exact ⟨[], rfl⟩
    · exact ⟨_, rfl⟩
  | cons d rest ih =>
    obtain ⟨before, hbefore⟩ := ih true
    obtain ⟨before', hbefore'⟩ := ih false
    rw [List.cons_append, literalBody]
    split
    · exact ⟨d :: before, by rw [hbefore]; rfl⟩
    · exact ⟨(if lineStart then spaces indent else []) ++ d :: before', by rw [hbefore', List.append_assoc]; rfl⟩

def literalEnd (cs : List Char) : List Char := if cs.getLast?.any isBreak then [] else ['\n']

theorem blockLines_literal {cs : List Char} (hprintable : ∀ c ∈ cs, isPrintable c = true) (hne : cs ≠ [])
    {column : Int} {next : List Char} (hnext : Follows column next) (indent : Nat) (hcolumn : column < indent)
    {p : Position} (hp : p.column = 0) :
    ∃ lines q, blockLines false indent
        (literalBody indent true cs ++ (literalEnd cs ++ (spaces column.toNat ++ next))) p (.start []) =
          some (lines, ⟨next, q⟩) ∧
      (lines.finish (if !cs.getLast?.any isBreak then .strip else if keepsEnd cs then .keep else .clip)).reverse = cs ∧
      q.column = column.toNat := by
  have hfinish := finish_literal hprintable
  obtain ⟨ds, c, rfl⟩ := (List.eq_nil_or_concat' cs).resolve_left hne
  have hinLine : ((ds ++ [c]).foldl BlockLines.add (.start [])).inLine = !isBreak c := by
    rw [List.foldl_append, List.foldl_cons, List.foldl_nil, BlockLines.inLine_add]
  rw [blockLines_body hprintable indent (fun _ => hp) rfl]
  rw [literalEnd, List.getLast?_concat, Option.any_some] at *
  cases hbreak : isBreak c with
  | true =>
    obtain ⟨before, hbefore⟩ := literalBody_append indent true ds c
    have hzero : (p.after (literalBody indent true (ds ++ [c]))).column = 0 := by
      rw [hbefore, Position.after_append, Position.after_break hbreak]
      rfl
    rw [hbreak] at hinLine hfinish
    refine ⟨_, _, blockLines_ends hnext hcolumn hzero hinLine, hfinish, ?_⟩
    rw [Position.advance, hzero, Nat.zero_add]
  | false =>
    rw [hbreak] at hinLine hfinish
    rw [if_neg Bool.false_ne_true, List.singleton_append, blockLines_break rfl rfl]
    have hclosed := BlockLines.inLine_add ((ds ++ [c]).foldl BlockLines.add (.start [])) '\n'
    refine ⟨_, _, blockLines_ends hnext hcolumn rfl hclosed, ?_, Nat.zero_add _⟩
    have hadded : ((ds ++ [c]).foldl BlockLines.add (.start [])).inLine = true := hinLine
    rw [BlockLines.add_of_isBreak rfl, BlockLines.addBreak, if_pos hadded]
    exact hfinish

theorem blockScalar_eq (parent least : Nat) {chars body : List Char} {header : BlockHeader}
    (hread : BlockHeader.read chars = some (header, '\n' :: body)) (p : Position) :
    ∃ start : Position, start.column = 0 ∧ blockScalar false parent least ⟨chars, p⟩ = (do
      let (indent, lines, c) ← match header.indent with
        | some n => some (parent + n, BlockLines.start [], Cursor.mk body start)
        | none => do
          let leading ← leadingLines body start [] 0
          some (max leading.widest (max least 1), BlockLines.start leading.breaks, leading.cursor)
      let (lines, c) ← blockLines false indent c.rest c.position lines
      some (ScalarEnd.mk (lines.finish header.chomping).reverse c true)) := by
  refine ⟨(p.advance (chars.length - ('\n' :: body).length)).nextLine, rfl, ?_⟩
  rw [blockScalar, hread]
  rfl

theorem blockScalar_literal {cs : List Char} (hprintable : ∀ c ∈ cs, isPrintable c = true) (hne : cs ≠ [])
    (parent least : Nat) (hleast : least ≤ parent + 2) {column : Int} {next : List Char} (hnext : Follows column next)
    (hcolumn : column < parent + 2) (p : Position) :
    ∃ q, blockScalar false parent least ⟨literalHints cs ++ '\n' :: (literalBody (parent + 2) true cs ++
        (literalEnd cs ++ (spaces column.toNat ++ next))), p⟩ = some ⟨cs, ⟨next, q⟩, true⟩ ∧
      q.column = column.toNat := by
  obtain ⟨start, hstart, heq⟩ := blockScalar_eq parent least (read_literalHints cs _) p
  obtain ⟨lines, q, hlines, hfinish, hq⟩ := blockLines_literal hprintable hne hnext (parent + 2) hcolumn hstart
  refine ⟨q, ?_, hq⟩
  rw [heq]
  obtain ⟨c, rest, rfl⟩ := List.exists_cons_of_ne_nil hne
  cases hopen : Contents.isSpaceOrBreak c with
  | true =>
    simp only [List.head?_cons, Option.any_some, hopen, if_true, Option.bind_eq_bind, Option.bind_some, hlines,
      hfinish]
  | false =>
    have hfirst := (Bool.or_eq_false_iff.mp hopen).2
    have hbody : literalBody (parent + 2) true (c :: rest) =
        spaces (parent + 2) ++ (c :: literalBody (parent + 2) false rest) := by
      rw [literalBody, hfirst]
      rfl
    have hcolumn : (start.advance (parent + 2)).column = parent + 2 := by
      rw [Position.advance, hstart, Nat.zero_add]
    have hwidest : max (parent + 2) (max least 1) = parent + 2 := by omega
    rw [hbody, List.append_assoc, List.cons_append] at hlines ⊢
    rw [blockLines_spaces (by omega) rfl] at hlines
    simp only [List.head?_cons, Option.any_some, hopen, leadingLines_spaces,
      leadingLines_first (hprintable c List.mem_cons_self) hopen, Bool.false_eq_true, if_false, Option.bind_eq_bind,
      Option.bind_some, hcolumn, hwidest, hlines, hfinish]

end PolicyYaml.Document
