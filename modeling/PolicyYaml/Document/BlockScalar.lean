import PolicyYaml.Document.ScalarText

namespace PolicyYaml.Document

inductive Chomping where
  | strip
  | clip
  | keep
  deriving DecidableEq

structure BlockHeader where
  chomping : Chomping
  indent : Option Nat

namespace BlockHeader

def chomping? (c : Char) : Option Chomping :=
  if c == '-' then some .strip else if c == '+' then some .keep else none

def read (cs : List Char) : Option (BlockHeader × List Char) :=
  let indentMark (cs : List Char) : Option (Option Nat × List Char) :=
    match cs with
    | c :: rest =>
      if c == '0' then none else if c.isDigit then some (some (c.toNat - 48), rest) else some (none, cs)
    | [] => some (none, [])
  let chompingMark (cs : List Char) : Option Chomping × List Char :=
    match cs with
    | c :: rest => match chomping? c with
      | some m => (some m, rest)
      | none => (none, cs)
    | [] => (none, [])
  match chompingMark cs with
  | (some m, cs) => (indentMark cs).map fun (i, rest) => (⟨m, i⟩, rest)
  | (none, cs) =>
    match indentMark cs with
    | none => none
    | some (none, rest) => some (⟨.clip, none⟩, rest)
    | some (some i, cs) =>
      let (m, rest) := chompingMark cs
      some (⟨m.getD .clip, some i⟩, rest)

end BlockHeader

structure LeadingLines where
  breaks : List Char
  widest : Nat
  cursor : Cursor

def leadingLines : List Char → Position → (breaks : List Char) → (widest : Nat) → Option LeadingLines
  | [], p, breaks, widest => some ⟨breaks, max widest p.column, ⟨[], p⟩⟩
  | '\r' :: '\n' :: rest, p, breaks, widest =>
    leadingLines rest p.next.nextLine ('\n' :: breaks) (max widest p.column)
  | c :: rest, p, breaks, widest =>
    if c == ' ' then leadingLines rest p.next breaks widest
    else if c == '\t' then none
    else if isBreak c then leadingLines rest p.nextLine (breakContent c :: breaks) (max widest p.column)
    else some ⟨breaks, max widest p.column, ⟨c :: rest, p⟩⟩

structure BlockLines where
  content : List Char
  lastBreak : List Char
  emptyLines : List Char
  blankStart : Bool
  inLine : Bool

namespace BlockLines

def start (emptyLines : List Char) : BlockLines := ⟨[], [], emptyLines, false, false⟩

/-- Begins a line with `c`. In a folded scalar the break between two lines becomes a space, and is
dropped where empty lines lie between them, unless one of the lines begins with a blank. -/
def beginLine (folded : Bool) (l : BlockLines) (c : Char) : BlockLines :=
  let joint :=
    if folded && l.lastBreak == ['\n'] && !l.blankStart && !isBlank c then
      if l.emptyLines.isEmpty then [' '] else []
    else l.lastBreak
  ⟨c :: (l.emptyLines ++ joint ++ l.content), [], [], isBlank c, true⟩

def addChar (l : BlockLines) (c : Char) : BlockLines := { l with content := c :: l.content }

def addBreak (l : BlockLines) (c : Char) : BlockLines :=
  if l.inLine then { l with lastBreak := [breakContent c], inLine := false }
  else { l with emptyLines := breakContent c :: l.emptyLines }

def finish (l : BlockLines) (chomping : Chomping) : List Char :=
  match chomping with
  | .strip => l.content
  | .clip => l.lastBreak ++ l.content
  | .keep => l.emptyLines ++ l.lastBreak ++ l.content

end BlockLines

def blockLines (folded : Bool) (indent : Nat) :
    List Char → Position → BlockLines → Option (BlockLines × Cursor)
  | [], p, l => some (l, ⟨[], p⟩)
  | '\r' :: '\n' :: rest, p, l => blockLines folded indent rest p.next.nextLine (l.addBreak '\n')
  | c :: rest, p, l =>
    if isBreak c then blockLines folded indent rest p.nextLine (l.addBreak c)
    else if l.inLine then blockLines folded indent rest p.next (l.addChar c)
    else if p.column < indent && c == ' ' then blockLines folded indent rest p.next l
    else if p.column < indent && c == '\t' then none
    else if p.column == indent then blockLines folded indent rest p.next (l.beginLine folded c)
    else some (l, ⟨c :: rest, p⟩)

def blockScalar (folded : Bool) (parent least : Nat) (c : Cursor) : Option ScalarEnd := do
  let (header, rest) ← BlockHeader.read c.rest
  let c := (Cursor.mk rest (c.position.advance (c.rest.length - rest.length))).skipBlanks.skipComment
  if !lineEnds c.rest then none
  let c := c.skipBreak
  let (indent, lines, c) ← match header.indent with
    | some n => some (parent + n, BlockLines.start [], c)
    | none => do
      let leading ← leadingLines c.rest c.position [] 0
      some (max leading.widest (max least 1), BlockLines.start leading.breaks, leading.cursor)
  let (lines, c) ← blockLines folded indent c.rest c.position lines
  some ⟨(lines.finish header.chomping).reverse, c, true⟩

end PolicyYaml.Document
