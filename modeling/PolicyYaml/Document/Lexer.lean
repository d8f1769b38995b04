import PolicyYaml.Document.BlockScalar
import PolicyYaml.Document.NameText

/-!
From the text of a document to its tokens. Where block collections begin and end, and which tokens are
keys, is settled here.
-/

namespace PolicyYaml.Document

/-- A token that turns out to be a key if a colon follows it. -/
structure PendingKey where
  required : Bool
  number : Nat
  position : Position

def PendingKey.isStale (k : PendingKey) (p : Position) : Bool :=
  k.position.line < p.line || k.position.index + 1024 < p.index

structure Lexer where
  cursor : Cursor
  indent : Int
  outerIndents : List Int
  keyAllowed : Bool
  pending : Option PendingKey
  outerPending : List (Option PendingKey)
  tokens : List Token
  count : Nat

namespace Lexer

def start (cs : List Char) : Lexer := ⟨⟨cs, .start⟩, -1, [], true, none, [], [], 0⟩

def inFlow (l : Lexer) : Bool := !l.outerPending.isEmpty

def column (l : Lexer) : Nat := l.cursor.column

def push (l : Lexer) (t : Token) : Lexer := { l with tokens := t :: l.tokens, count := l.count + 1 }

def insertAt (l : Lexer) (number : Nat) (t : Token) : Lexer :=
  let later := l.count - number
  { l with tokens := l.tokens.take later ++ t :: l.tokens.drop later, count := l.count + 1 }

def moveTo (l : Lexer) (c : Cursor) : Lexer := { l with cursor := c }

def dropKey (k : Option PendingKey) : Option (Option PendingKey) :=
  if k.any PendingKey.required then none else some none

def dropStale (p : Position) (k : Option PendingKey) : Option (Option PendingKey) :=
  if k.any fun k => k.isStale p then dropKey k else some k

def dropStaleKeys (l : Lexer) : Option Lexer := do
  let pending ← dropStale l.cursor.position l.pending
  let outer ← l.outerPending.mapM (dropStale l.cursor.position)
  some { l with pending := pending, outerPending := outer }

def forgetKey (l : Lexer) : Option Lexer :=
  (dropKey l.pending).map fun pending => { l with pending := pending }

def noteKey (l : Lexer) : Option Lexer :=
  if l.keyAllowed then do
    let l ← l.forgetKey
    let required := !l.inFlow && l.indent == l.column
    some { l with pending := some ⟨required, l.count, l.cursor.position⟩ }
  else some l

def openBlock (l : Lexer) (column : Nat) (number : Nat) (t : Token) : Lexer :=
  if !l.inFlow && l.indent < column then
    { l.insertAt number t with indent := column, outerIndents := l.indent :: l.outerIndents }
  else l

def closeBlocks (column : Int) (l : Lexer) : List Int → Lexer
  | outer :: rest =>
    if column < l.indent then
      closeBlocks column { l.push .blockEnd with indent := outer, outerIndents := rest } rest
    else l
  | [] => l

def unindent (l : Lexer) (column : Int) : Lexer :=
  if l.inFlow then l else closeBlocks column l l.outerIndents

/-- Skips blanks, comments and line breaks. A tab is a blank where no key may begin. -/
def skipFiller (inFlow : Bool) :
    List Char → Position → (keyAllowed : Bool) → (inComment : Bool) → Cursor × Bool
  | [], p, keyAllowed, _ => (⟨[], p⟩, keyAllowed)
  | '\r' :: '\n' :: rest, p, keyAllowed, _ =>
    skipFiller inFlow rest p.next.nextLine (keyAllowed || !inFlow) false
  | c :: rest, p, keyAllowed, inComment =>
    if isBreak c then skipFiller inFlow rest p.nextLine (keyAllowed || !inFlow) false
    else if inComment || c == ' ' || c == '\t' && (inFlow || !keyAllowed)
        || c == byteOrderMark && p.column == 0 then
      skipFiller inFlow rest p.next keyAllowed inComment
    else if c == '#' then skipFiller inFlow rest p.next keyAllowed true
    else (⟨c :: rest, p⟩, keyAllowed)

def toNextToken (l : Lexer) : Lexer :=
  let (c, keyAllowed) := skipFiller l.inFlow l.cursor.rest l.cursor.position l.keyAllowed false
  { l with cursor := c, keyAllowed := keyAllowed }

def take (l : Lexer) (length : Nat) (t : Token) : Lexer := (l.moveTo (l.cursor.advance length)).push t

def documentMarker (l : Lexer) (t : Token) : Option Lexer := do
  let l ← (l.unindent (-1)).forgetKey
  some ({ l with keyAllowed := false }.take 3 t)

def directiveLine (l : Lexer) : Option Lexer := do
  let l ← (l.unindent (-1)).forgetKey
  let (t, c) ← directive (l.cursor.advance 1)
  some ({ l with keyAllowed := false }.moveTo c |>.push t)

def openFlow (l : Lexer) (t : Token) : Option Lexer := do
  let l ← l.noteKey
  some ({ l with pending := none, outerPending := l.pending :: l.outerPending, keyAllowed := true }.take 1 t)

def closeFlow (l : Lexer) (t : Token) : Option Lexer := do
  let l ← l.forgetKey
  let l := match l.outerPending with
    | k :: outer => { l with pending := k, outerPending := outer }
    | [] => l
  some ({ l with keyAllowed := false }.take 1 t)

def flowEntry (l : Lexer) : Option Lexer := do
  let l ← l.forgetKey
  some ({ l with keyAllowed := true }.take 1 .flowEntry)

def blockEntry (l : Lexer) : Option Lexer := do
  if !l.inFlow && !l.keyAllowed then none
  let l ← (l.openBlock l.column l.count .blockSequenceStart).forgetKey
  some ({ l with keyAllowed := true }.take 1 .blockEntry)

def keyMark (l : Lexer) : Option Lexer := do
  if !l.inFlow && !l.keyAllowed then none
  let l ← (l.openBlock l.column l.count .blockMappingStart).forgetKey
  some ({ l with keyAllowed := !l.inFlow }.take 1 .key)

def valueMark (l : Lexer) : Option Lexer :=
  match l.pending with
  | some k =>
    let l := (l.insertAt k.number .key).openBlock k.position.column k.number .blockMappingStart
    some ({ l with pending := none, keyAllowed := false }.take 1 .value)
  | none =>
    if !l.inFlow && !l.keyAllowed then none
    else
      let l := l.openBlock l.column l.count .blockMappingStart
      some ({ l with keyAllowed := !l.inFlow }.take 1 .value)

def named (l : Lexer) (read : Cursor → Option (Token × Cursor)) : Option Lexer := do
  let l ← l.noteKey
  let (t, c) ← read l.cursor
  some ({ l with keyAllowed := false }.moveTo c |>.push t)

def scalar (l : Lexer) (plain : Bool) (read : Cursor → Option ScalarEnd) : Option Lexer := do
  let l ← l.noteKey
  let s ← read l.cursor
  some ({ l with keyAllowed := s.lineEnded }.moveTo s.cursor |>.push (.scalar plain s.content))

def block (l : Lexer) (folded : Bool) : Option Lexer := do
  let l ← l.forgetKey
  let s ← blockScalar folded l.indent.toNat (l.indent + 1).toNat (l.cursor.advance 1)
  some ({ l with keyAllowed := true }.moveTo s.cursor |>.push (.scalar false s.content))

def beginsPlain (inFlow : Bool) (c : Char) (rest : List Char) : Bool :=
  if c == '-' then !rest.head?.any isBlank
  else if c == '?' || c == ':' then !inFlow && !wordEnds rest
  else !(isBlank c || isBreak c || ",[]\x7b\x7d#&*!|>'\"%@`".toList.contains c)

def token (l : Lexer) (c : Char) (rest : List Char) : Option Lexer :=
  if c == '%' && l.column == 0 then l.directiveLine
  else if l.column == 0 && isMarker '-' (c :: rest) then l.documentMarker .documentStart
  else if l.column == 0 && isMarker '.' (c :: rest) then l.documentMarker .documentEnd
  else
    match c with
    | '[' => l.openFlow .flowSequenceStart
    | '\x7b' => l.openFlow .flowMappingStart
    | ']' => l.closeFlow .flowSequenceEnd
    | '\x7d' => l.closeFlow .flowMappingEnd
    | ',' => l.flowEntry
    | '*' => l.named fun c => (anchorName (c.advance 1)).map fun (n, c) => (.alias n, c)
    | '&' => l.named fun c => (anchorName (c.advance 1)).map fun (n, c) => (.anchor n, c)
    | '!' => l.named fun c => (tagName l.inFlow c).map fun (n, c) => (.tag n, c)
    | '\'' =>
      l.scalar false fun c => singleQuotedScalar (c.rest.drop 1) c.position.next .none []
    | '"' =>
      l.scalar false fun c => doubleQuotedScalar (c.rest.drop 1) c.position.next .none .outside []
    | _ =>
      if c == '-' && wordEnds rest then l.blockEntry
      else if c == '?' && (l.inFlow || wordEnds rest) then l.keyMark
      else if c == ':' && (l.inFlow || wordEnds rest) then l.valueMark
      else if c == '|' && !l.inFlow then l.block false
      else if c == '>' && !l.inFlow then l.block true
      else if beginsPlain l.inFlow c rest then
        l.scalar true fun c => plainScalar l.inFlow (l.indent + 1).toNat c.rest c.position .none []
      else none

def run : (fuel : Nat) → Lexer → Option (List Token)
  | 0, _ => none
  | fuel + 1, l => do
    let l ← l.toNextToken.dropStaleKeys
    let l := l.unindent l.column
    match l.cursor.rest with
    | [] =>
      let l ← (l.unindent (-1)).forgetKey
      some l.tokens.reverse
    | c :: rest =>
      let l ← l.token c rest
      run fuel l

end Lexer

def tokens? (cs : List Char) : Option (List Token) :=
  if cs.all isAllowed then (Lexer.start cs).run (cs.length + 1) else none

end PolicyYaml.Document
