import PolicyYaml.Document.Resolve
import PolicyYaml.Document.ScalarStyle
import PolicyYaml.Number.Shortest

/-!
From trees to text. The text of a document has block collections only, except for empty ones.
-/

namespace PolicyYaml.Document

def floatLayout : FloatLayout := ⟨-4, 16, .even, ".nan", ".inf"⟩

def spaces (n : Nat) : List Char := List.replicate n ' '

def singleQuotedBody (indent : Nat) : (afterBreak : Bool) → List Char → List Char
  | afterBreak, [] => if afterBreak then spaces indent else []
  | afterBreak, c :: rest =>
    if c == ' ' then ' ' :: singleQuotedBody indent afterBreak rest
    else if isBreak c then
      (if !afterBreak && c == '\n' then ['\n'] else []) ++ c :: singleQuotedBody indent true rest
    else
      (if afterBreak then spaces indent else []) ++ (if c == '\'' then ['\'', '\''] else [c])
        ++ singleQuotedBody indent false rest

def hexDigits : (count : Nat) → Nat → List Char
  | 0, _ => []
  | count + 1, n => hexDigits count (n / 16) ++ [(Nat.digitChar (n % 16)).toUpper]

def escapeLetter? (c : Char) : Option Char :=
  [('\x00', '0'), ('\x07', 'a'), ('\x08', 'b'), ('\t', 't'), ('\n', 'n'), ('\x0b', 'v'), ('\x0c', 'f'),
    ('\r', 'r'), ('\x1b', 'e'), ('"', '"'), ('\\', '\\'), ('\u0085', 'N'), ('\u00a0', '_'),
    ('\u2028', 'L'), ('\u2029', 'P')].lookup c

def doubleQuotedChar (c : Char) : List Char :=
  if isPrintable c && !isBreak c && c != '"' && c != '\\' then [c]
  else
    match escapeLetter? c with
    | some letter => ['\\', letter]
    | none =>
      if c.toNat ≤ 0xff then '\\' :: 'x' :: hexDigits 2 c.toNat
      else if c.toNat ≤ 0xffff then '\\' :: 'u' :: hexDigits 4 c.toNat
      else '\\' :: 'U' :: hexDigits 8 c.toNat

def literalBody (indent : Nat) : (lineStart : Bool) → List Char → List Char
  | _, [] => []
  | lineStart, c :: rest =>
    if isBreak c then c :: literalBody indent true rest
    else (if lineStart then spaces indent else []) ++ c :: literalBody indent false rest

def keepsEnd (cs : List Char) : Bool :=
  match cs.reverse with
  | [c] => isBreak c
  | c :: d :: _ => isBreak c && isBreak d
  | [] => false

def literalHints (cs : List Char) : List Char :=
  (if cs.head?.any Contents.isSpaceOrBreak then ['2'] else [])
    ++ if !cs.getLast?.any isBreak then ['-'] else if keepsEnd cs then ['+'] else []

def styled (indent : Nat) (cs : List Char) : ScalarStyle → List Char
  | .plain => cs
  | .singleQuoted => '\'' :: (singleQuotedBody indent false cs ++ ['\''])
  | .doubleQuoted => '"' :: (cs.flatMap doubleQuotedChar ++ ['"'])
  | .literal => '|' :: (literalHints cs ++ '\n' :: literalBody indent true cs)

def wantedStyle (cs : List Char) : ScalarStyle :=
  if cs.contains '\n' then .literal else if needsQuotes cs then .singleQuoted else .plain

def textScalar (indent : Nat) (shortKey : Bool) (s : String) : List Char :=
  let cs := s.toList
  styled indent cs ((wantedStyle cs).settle shortKey cs)

def scalarChars (indent : Nat) (shortKey : Bool) : Tree → List Char
  | .null => "null".toList
  | .boolean b => if b then "true".toList else "false".toList
  | .integer i => FloatLayout.intText i
  | .float d => floatLayout.chars d
  | .string s => textScalar indent shortKey s
  | .sequence _ | .mapping _ | .tagged _ _ => []

def isShortKey : Tree → Bool
  | .string s => !s.toList.any isBreak && s.utf8ByteSize ≤ 128
  | .sequence items => items.isEmpty
  | .mapping entries => entries.isEmpty
  | .tagged _ _ => false
  | _ => true

def shortKeyChars (column : Nat) : Tree → List Char
  | .sequence _ => ['[', ']']
  | .mapping _ => ['\x7b', '\x7d']
  | scalar => scalarChars (column + 2) true scalar

def endLine (cs : List Char) : List Char := if cs.getLast?.any isBreak then cs else cs ++ ['\n']

def stack (indent : Nat) : List (List Char) → List Char
  | [] => []
  | [entry] => entry
  | entry :: rest => endLine entry ++ spaces indent ++ stack indent rest

/-- Where a node stands: the columns of its entries, the indentation of its further lines, what comes
before a scalar, and whether entries begin on a line of their own. -/
structure Place where
  sequenceColumn : Nat
  mappingColumn : Nat
  scalarIndent : Nat
  gap : List Char
  ownLine : Bool

namespace Place

def root : Place := ⟨0, 0, 2, [], false⟩

def afterMark (column : Nat) : Place := ⟨column + 2, column + 2, column + 2, [' '], false⟩

def afterKey (column : Nat) : Place := ⟨column, column + 2, column + 2, [' '], true⟩

def afterTag (place : Place) : Place := { place with gap := [' '], ownLine := true }

def entryGap (place : Place) (column : Nat) : List Char :=
  if place.ownLine then '\n' :: spaces column else place.gap

end Place

mutual

def nodeChars (place : Place) : Tree → List Char
  | .sequence items =>
    if items.isEmpty then place.gap ++ ['[', ']']
    else place.entryGap place.sequenceColumn
      ++ stack place.sequenceColumn (itemChars place.sequenceColumn items)
  | .mapping entries =>
    if entries.isEmpty then place.gap ++ ['\x7b', '\x7d']
    else place.entryGap place.mappingColumn
      ++ stack place.mappingColumn (entryChars place.mappingColumn entries)
  | .tagged tag content => place.gap ++ '!' :: (tag.toList ++ nodeChars place.afterTag content)
  | scalar => place.gap ++ scalarChars place.scalarIndent false scalar

def itemChars (column : Nat) : List Tree → List (List Char)
  | [] => []
  | t :: rest => ('-' :: nodeChars (.afterMark column) t) :: itemChars column rest

def entryChars (column : Nat) : List (Tree × Tree) → List (List Char)
  | [] => []
  | (k, v) :: rest =>
    (if isShortKey k then shortKeyChars column k ++ ':' :: nodeChars (.afterKey column) v
    else
      endLine ('?' :: nodeChars (.afterMark column) k) ++ spaces column
        ++ ':' :: nodeChars (.afterMark column) v) :: entryChars column rest

end

end PolicyYaml.Document

namespace PolicyYaml.Tree

def chars (t : Tree) : List Char := Document.endLine (Document.nodeChars .root t)

def text (t : Tree) : String := String.ofList t.chars

end PolicyYaml.Tree
