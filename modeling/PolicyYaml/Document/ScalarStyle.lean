import PolicyYaml.Document.CharClass

namespace PolicyYaml.Document

inductive ScalarStyle where
  | plain
  | singleQuoted
  | doubleQuoted
  | literal
  deriving DecidableEq

structure Contents where
  indicator : Bool
  special : Bool
  lineBreak : Bool
  openEnd : Bool
  trailingSpace : Bool
  breakSpace : Bool
  spaceBreak : Bool

namespace Contents

def isSpaceOrBreak (c : Char) : Bool := c == ' ' || isBreak c

def isLeadingIndicator (c : Char) : Bool := "#,[]\x7b\x7d&*!|>'\"%@`".toList.contains c

def laterIndicator : (afterBlank : Bool) → List Char → Bool
  | _, [] => false
  | afterBlank, c :: rest =>
    c == ':' && wordEnds rest || c == '#' && afterBlank || laterIndicator (isBlank c || isBreak c) rest

def startsMarker : List Char → Bool
  | '-' :: '-' :: '-' :: _ => true
  | '.' :: '.' :: '.' :: _ => true
  | _ => false

def hasIndicator : List Char → Bool
  | [] => false
  | c :: rest =>
    startsMarker (c :: rest) || isLeadingIndicator c
      || (c == '?' || c == ':' || c == '-') && wordEnds rest
      || laterIndicator (isBlank c || isBreak c) rest

def hasPair (p q : Char → Bool) : List Char → Bool
  | a :: b :: rest => p a && q b || hasPair p q (b :: rest)
  | _ => false

def ofChars (cs : List Char) : Contents where
  indicator := hasIndicator cs
  special := cs.any fun c => !isPrintable c
  lineBreak := cs.any isBreak
  openEnd := cs.head?.any isSpaceOrBreak || cs.getLast?.any isSpaceOrBreak
  trailingSpace := cs.getLast? == some ' '
  breakSpace := hasPair isBreak (· == ' ') cs
  spaceBreak := hasPair (· == ' ') isBreak cs

def allowsPlain (c : Contents) : Bool :=
  !(c.indicator || c.special || c.lineBreak || c.openEnd || c.breakSpace || c.spaceBreak)

def allowsSingleQuoted (c : Contents) : Bool := !(c.special || c.breakSpace || c.spaceBreak)

def allowsLiteral (c : Contents) : Bool := !(c.special || c.trailingSpace || c.spaceBreak)

end Contents

/-- The style in which a text is written, where `wanted` would be best. In the place of a short key
only the styles of one line will do. -/
def ScalarStyle.settle (wanted : ScalarStyle) (shortKey : Bool) (cs : List Char) : ScalarStyle :=
  let contents := Contents.ofChars cs
  let quoted : ScalarStyle := if contents.allowsSingleQuoted then .singleQuoted else .doubleQuoted
  if shortKey && contents.lineBreak then .doubleQuoted
  else
    match wanted with
    | .plain => if contents.allowsPlain && !(shortKey && cs.isEmpty) then .plain else quoted
    | .singleQuoted => quoted
    | .doubleQuoted => .doubleQuoted
    | .literal => if contents.allowsLiteral && !cs.isEmpty && !shortKey then .literal else .doubleQuoted

end PolicyYaml.Document
