import PolicyYaml.Document.Cursor

namespace PolicyYaml.Document

structure Gap where
  blanks : List Char
  broken : Bool
  firstBreak : List Char
  moreBreaks : List Char

namespace Gap

def none : Gap := ⟨[], false, [], []⟩

def escapedBreak : Gap := ⟨[], true, [], []⟩

def isNone (g : Gap) : Bool := g.blanks.isEmpty && !g.broken

def addBlank (g : Gap) (c : Char) : Gap := if g.broken then g else { g with blanks := c :: g.blanks }

def addBreak (g : Gap) (c : Char) : Gap :=
  if g.broken then { g with moreBreaks := breakContent c :: g.moreBreaks }
  else ⟨[], true, [breakContent c], []⟩

/-- The gap as content, last character first. One line feed is folded to a space, and of more the
first is dropped. -/
def folded (g : Gap) : List Char :=
  if g.broken then
    if g.firstBreak = ['\n'] then (if g.moreBreaks.isEmpty then [' '] else g.moreBreaks)
    else g.moreBreaks ++ g.firstBreak
  else g.blanks

end Gap

structure ScalarEnd where
  content : List Char
  cursor : Cursor
  lineEnded : Bool

def endsPlain (inFlow : Bool) (c : Char) (rest : List Char) : Bool :=
  c == ':' && wordEnds rest || inFlow && ",[]\x7b\x7d".toList.contains c

def isStrayColon (inFlow : Bool) (c : Char) (rest : List Char) : Bool :=
  inFlow && c == ':' && rest.head?.any fun d => ",?[]\x7b\x7d".toList.contains d

def plainScalar (inFlow : Bool) (indent : Nat) :
    List Char → Position → Gap → (read : List Char) → Option ScalarEnd
  | [], p, gap, read => some ⟨read.reverse, ⟨[], p⟩, gap.broken⟩
  | '\r' :: '\n' :: rest, p, gap, read =>
    plainScalar inFlow indent rest p.next.nextLine (gap.addBreak '\n') read
  | c :: rest, p, gap, read =>
    if isBlank c then
      if gap.broken && p.column < indent && c == '\t' then none
      else plainScalar inFlow indent rest p.next (gap.addBlank c) read
    else if isBreak c then plainScalar inFlow indent rest p.nextLine (gap.addBreak c) read
    else if !gap.isNone && (!inFlow && p.column < indent || c == '#'
        || p.column == 0 && isDocumentMarker (c :: rest)) then
      some ⟨read.reverse, ⟨c :: rest, p⟩, gap.broken⟩
    else if isStrayColon inFlow c rest then none
    else if endsPlain inFlow c rest then some ⟨read.reverse, ⟨c :: rest, p⟩, gap.broken⟩
    else plainScalar inFlow indent rest p.next .none (c :: (gap.folded ++ read))

def singleQuotedScalar : List Char → Position → Gap → (read : List Char) → Option ScalarEnd
  | [], _, _, _ => none
  | '\r' :: '\n' :: rest, p, gap, read => singleQuotedScalar rest p.next.nextLine (gap.addBreak '\n') read
  | '\'' :: '\'' :: rest, p, gap, read =>
    singleQuotedScalar rest (p.advance 2) .none ('\'' :: (gap.folded ++ read))
  | c :: rest, p, gap, read =>
    if isBlank c then singleQuotedScalar rest p.next (gap.addBlank c) read
    else if isBreak c then singleQuotedScalar rest p.nextLine (gap.addBreak c) read
    else if p.column == 0 && isDocumentMarker (c :: rest) then none
    else if c == '\'' then some ⟨(gap.folded ++ read).reverse, ⟨rest, p.next⟩, false⟩
    else singleQuotedScalar rest p.next .none (c :: (gap.folded ++ read))

def escaped? (c : Char) : Option Char :=
  [('0', '\x00'), ('a', '\x07'), ('b', '\x08'), ('t', '\t'), ('\t', '\t'), ('n', '\n'), ('v', '\x0b'),
    ('f', '\x0c'), ('r', '\r'), ('e', '\x1b'), (' ', ' '), ('"', '"'), ('/', '/'), ('\\', '\\'),
    ('N', '\u0085'), ('_', '\u00a0'), ('L', '\u2028'), ('P', '\u2029')].lookup c

def hexLength? (c : Char) : Option Nat := [('x', 2), ('u', 4), ('U', 8)].lookup c

def hexValue? (c : Char) : Option Nat :=
  if c.isDigit then some (c.toNat - 48)
  else if 'a' ≤ c ∧ c ≤ 'f' then some (c.toNat - 87)
  else if 'A' ≤ c ∧ c ≤ 'F' then some (c.toNat - 55)
  else none

def char? (n : Nat) : Option Char := if h : n.isValidChar then some (Char.ofNatAux n h) else none

inductive Escape where
  | outside
  | opened
  | digits (left : Nat) (value : Nat)

def doubleQuotedScalar :
    List Char → Position → Gap → Escape → (read : List Char) → Option ScalarEnd
  | [], _, _, _, _ => none
  | c :: rest, p, _, .digits left value, read =>
    match hexValue? c with
    | none => none
    | some d =>
      if left ≤ 1 then
        match char? (16 * value + d) with
        | none => none
        | some e => doubleQuotedScalar rest p.next .none .outside (e :: read)
      else doubleQuotedScalar rest p.next .none (.digits (left - 1) (16 * value + d)) read
  | '\r' :: '\n' :: rest, p, gap, escape, read =>
    match escape with
    | .opened => doubleQuotedScalar rest p.next.nextLine .escapedBreak .outside read
    | _ => doubleQuotedScalar rest p.next.nextLine (gap.addBreak '\n') .outside read
  | c :: rest, p, _, .opened, read =>
    if isBreak c then doubleQuotedScalar rest p.nextLine .escapedBreak .outside read
    else
      match hexLength? c, escaped? c with
      | some n, _ => doubleQuotedScalar rest p.next .none (.digits n 0) read
      | none, some e => doubleQuotedScalar rest p.next .none .outside (e :: read)
      | none, none => none
  | c :: rest, p, gap, .outside, read =>
    if isBlank c then doubleQuotedScalar rest p.next (gap.addBlank c) .outside read
    else if isBreak c then doubleQuotedScalar rest p.nextLine (gap.addBreak c) .outside read
    else if p.column == 0 && isDocumentMarker (c :: rest) then none
    else if c == '"' then some ⟨(gap.folded ++ read).reverse, ⟨rest, p.next⟩, false⟩
    else if c == '\\' then doubleQuotedScalar rest p.next .none .opened (gap.folded ++ read)
    else doubleQuotedScalar rest p.next .none .outside (c :: (gap.folded ++ read))

end PolicyYaml.Document
