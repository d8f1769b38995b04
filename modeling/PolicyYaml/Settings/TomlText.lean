import PolicyYaml.Settings.TomlScalar

namespace PolicyYaml.Toml

def skipSpaces (cs : List Char) : List Char := cs.dropWhile isSpace

def hexChar? (digits : List Char) : Option Char :=
  let n := natOfRun 16 digits
  if h : n.isValidChar then (if digits.all isHexDigit then some (Char.ofNatAux n h) else none) else none

def hexEscape (count : Nat) (cs : List Char) : Option (Char × List Char) :=
  if cs.length < count then none else (hexChar? (cs.take count)).map fun c => (c, cs.drop count)

def escape : List Char → Option (Char × List Char)
  | 'x' :: rest => hexEscape 2 rest
  | 'u' :: rest => hexEscape 4 rest
  | 'U' :: rest => hexEscape 8 rest
  | c :: rest =>
    ([('b', '\x08'), ('t', '\t'), ('n', '\n'), ('f', '\x0c'), ('r', '\r'), ('e', '\x1b'), ('"', '"'),
      ('\\', '\\')].lookup c).map fun e => (e, rest)
  | [] => none

def lineText (quote : Char) : (fuel : Nat) → List Char → (read : List Char) → Option (String × List Char)
  | 0, _, _ => none
  | _, [], _ => none
  | fuel + 1, c :: rest, read =>
    if c == quote then some (String.ofList read.reverse, rest)
    else if c == '\\' && quote == '"' then
      match escape rest with
      | some (e, rest) => lineText quote fuel rest (e :: read)
      | none => none
    else if isLineChar c then lineText quote fuel rest (c :: read)
    else none

def afterLineEnd (cs : List Char) : Option (List Char) :=
  let isFiller (c : Char) : Bool := isSpace c || c == '\n' || c == '\r'
  match skipSpaces cs with
  | '\n' :: rest => some (rest.dropWhile isFiller)
  | '\r' :: '\n' :: rest => some (rest.dropWhile isFiller)
  | _ => none

/-- Reads a text of several lines behind its opening quotes. Up to two more quotes may stand before the
closing ones. -/
def linesText (quote : Char) : (fuel : Nat) → List Char → (read : List Char) → Option (String × List Char)
  | 0, _, _ => none
  | _, [], _ => none
  | fuel + 1, c :: rest, read =>
    if c == quote then
      let quotes := ((c :: rest).takeWhile (· == quote)).length
      if quotes < 3 then linesText quote fuel rest (c :: read)
      else
        let more := min 2 (quotes - 3)
        some (String.ofList (List.replicate more quote ++ read).reverse, rest.drop (2 + more))
    else if c == '\\' && quote == '"' then
      match afterLineEnd rest with
      | some rest => linesText quote fuel rest read
      | none =>
        match escape rest with
        | some (e, rest) => linesText quote fuel rest (e :: read)
        | none => none
    else if isLineChar c || c == '\n' || c == '\r' && rest.head? == some '\n' then
      linesText quote fuel rest (c :: read)
    else none

def quotedText (cs : List Char) : Option (String × List Char) :=
  let fuel := cs.length + 1
  match cs with
  | a :: b :: c :: rest =>
    if a == b && a == c then
      match rest with
      | '\n' :: rest => linesText a fuel rest []
      | '\r' :: '\n' :: rest => linesText a fuel rest []
      | rest => linesText a fuel rest []
    else lineText a fuel (b :: c :: rest) []
  | a :: rest => lineText a fuel rest []
  | [] => none

def isQuote (c : Char) : Bool := c == '"' || c == '\''

def keyStep (cs : List Char) : Option (String × List Char) :=
  match cs with
  | c :: rest =>
    if isQuote c then lineText c (rest.length + 1) rest []
    else
      let bare := cs.takeWhile isBareKeyChar
      if bare.isEmpty then none else some (String.ofList bare, cs.drop bare.length)
  | [] => none

def key : (fuel : Nat) → List Char → (steps : List String) → Option (List String × String × List Char)
  | 0, _, _ => none
  | fuel + 1, cs, steps =>
    match keyStep cs with
    | none => none
    | some (step, rest) =>
      match skipSpaces rest with
      | '.' :: rest => key fuel (skipSpaces rest) (step :: steps)
      | rest => some (steps.reverse, step, rest)

def skipComment (cs : List Char) : Option (List Char) :=
  match cs with
  | '#' :: _ =>
    let comment := cs.takeWhile fun c => c != '\n' && c != '\r'
    if comment.all isLineChar then some (cs.drop comment.length) else none
  | cs => some cs

def skipFiller : (fuel : Nat) → List Char → Option (List Char)
  | 0, _ => none
  | fuel + 1, cs =>
    match skipSpaces cs with
    | '\n' :: rest => skipFiller fuel rest
    | '\r' :: '\n' :: rest => skipFiller fuel rest
    | '#' :: rest =>
      match skipComment ('#' :: rest) with
      | some rest => skipFiller fuel rest
      | none => none
    | cs => some cs

mutual

def value (depth : Nat) : (fuel : Nat) → List Char → Option (Item × List Char)
  | 0, _ => none
  | fuel + 1, cs =>
    match cs with
    | '[' :: rest =>
      match depth with
      | 0 => none
      | depth + 1 => (arrayItems depth fuel rest []).map fun (items, rest) => (.array items, rest)
    | '\x7b' :: rest =>
      match depth with
      | 0 => none
      | depth + 1 => (inlineEntries depth fuel rest ⟨.inline, []⟩).map fun (t, rest) => (t.toItem, rest)
    | c :: _ =>
      if isQuote c then (quotedText cs).map fun (s, rest) => (.text s, rest) else scalar cs
    | [] => none

def arrayItems (depth : Nat) :
    (fuel : Nat) → List Char → List Item → Option (List Item × List Char)
  | 0, _, _ => none
  | fuel + 1, cs, items =>
    match skipFiller (cs.length + 1) cs with
    | none => none
    | some (']' :: rest) => some (items.reverse, rest)
    | some cs =>
      match value depth fuel cs with
      | none => none
      | some (item, cs) =>
        match skipFiller (cs.length + 1) cs with
        | some (',' :: rest) => arrayItems depth fuel rest (item :: items)
        | some (']' :: rest) => some ((item :: items).reverse, rest)
        | _ => none

def inlineEntries (depth : Nat) : (fuel : Nat) → List Char → Table → Option (Table × List Char)
  | 0, _, _ => none
  | fuel + 1, cs, t =>
    match skipFiller (cs.length + 1) cs with
    | none => none
    | some ('\x7d' :: rest) => some (t, rest)
    | some cs =>
      match key (cs.length + 1) cs [] with
      | some (path, last, '=' :: cs) =>
        match value depth fuel (skipSpaces cs) with
        | none => none
        | some (item, cs) =>
          match t.set path last item, skipFiller (cs.length + 1) cs with
          | some t, some (',' :: rest) => inlineEntries depth fuel rest t
          | some t, some ('\x7d' :: rest) => some (t, rest)
          | _, _ => none
      | _ => none

end

def maxDepth : Nat := 80

def lineEnd (cs : List Char) : Option (List Char) :=
  match skipComment (skipSpaces cs) with
  | some [] => some []
  | some ('\n' :: rest) => some rest
  | some ('\r' :: '\n' :: rest) => some rest
  | _ => none

def header (double : Bool) (cs : List Char) : Option (List String × String × List Char) :=
  match key (cs.length + 1) (skipSpaces cs) [] with
  | some (path, last, ']' :: rest) =>
    if double then (expect ']' rest).map fun rest => (path, last, rest) else some (path, last, rest)
  | _ => none

def lines : (fuel : Nat) → List Char → (opened : List String) → (root : Table) → Option Table
  | 0, _, _, _ => none
  | fuel + 1, cs, opened, root =>
    match skipFiller (cs.length + 1) cs with
    | none => none
    | some [] => some root
    | some ('[' :: '[' :: rest) => do
      let (path, last, rest) ← header true rest
      let root ← root.openNext path last
      lines fuel (← lineEnd rest) (path ++ [last]) root
    | some ('[' :: rest) => do
      let (path, last, rest) ← header false rest
      let root ← root.openTable path last
      lines fuel (← lineEnd rest) (path ++ [last]) root
    | some cs => do
      let (path, last, rest) ← key (cs.length + 1) cs []
      let rest ← expect '=' rest
      let (item, rest) ← value maxDepth (2 * cs.length + 2) (skipSpaces rest)
      let root ← root.setIn opened path last item
      lines fuel (← lineEnd rest) opened root

def dropMark : List Char → List Char
  | '\ufeff' :: cs => cs
  | cs => cs

def read? (text : String) : Option Table :=
  let cs := dropMark text.toList
  lines (cs.length + 1) cs [] ⟨.header, []⟩

end PolicyYaml.Toml
