import PolicyYaml.Document.CharClass

namespace PolicyYaml.Document

structure Position where
  index : Nat
  line : Nat
  column : Nat
  deriving DecidableEq

namespace Position

def start : Position := ⟨0, 0, 0⟩

def advance (p : Position) (n : Nat) : Position := ⟨p.index + n, p.line, p.column + n⟩

def next (p : Position) : Position := p.advance 1

def nextLine (p : Position) : Position := ⟨p.index + 1, p.line + 1, 0⟩

end Position

structure Cursor where
  rest : List Char
  position : Position

namespace Cursor

def column (c : Cursor) : Nat := c.position.column

def advance (c : Cursor) (n : Nat) : Cursor := ⟨c.rest.drop n, c.position.advance n⟩

def span (c : Cursor) (p : Char → Bool) : List Char × Cursor :=
  let taken := c.rest.takeWhile p
  (taken, ⟨c.rest.dropWhile p, c.position.advance taken.length⟩)

def skipBlanks (c : Cursor) : Cursor := (c.span isBlank).2

def skipComment (c : Cursor) : Cursor :=
  match c.rest with
  | '#' :: _ => (c.span fun x => !isBreak x).2
  | _ => c

def skipBreak (c : Cursor) : Cursor :=
  match c.rest with
  | '\r' :: '\n' :: rest => ⟨rest, c.position.next.nextLine⟩
  | _ :: rest => ⟨rest, c.position.nextLine⟩
  | [] => c

end Cursor

def breakContent (c : Char) : Char := if c == '\u2028' || c == '\u2029' then c else '\n'

def isMarker (mark : Char) : List Char → Bool
  | a :: b :: c :: rest => a == mark && b == mark && c == mark && wordEnds rest
  | _ => false

def isDocumentMarker (cs : List Char) : Bool := isMarker '-' cs || isMarker '.' cs

end PolicyYaml.Document
