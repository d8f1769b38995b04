import PolicyYaml.Document.Cursor
import PolicyYaml.Document.ScalarText
import PolicyYaml.Document.Token

namespace PolicyYaml.Document

def isTagChar (bracketed : Bool) (c : Char) : Bool :=
  isNameChar c || ";/?:@&=+$.%!~*'()".toList.contains c || bracketed && ",[]".toList.contains c

def utf8Bytes (c : Char) : List UInt8 := (String.singleton c).toByteArray.data.toList

def utf8Length? (first : Nat) : Option Nat :=
  if first < 0x80 then some 1
  else if first / 0x20 = 0x6 then some 2
  else if first / 0x10 = 0xe then some 3
  else if first / 0x08 = 0x1e then some 4
  else none

def tagBytes : List Char → (expected : Nat) → Option (List UInt8)
  | [], expected => if expected = 0 then some [] else none
  | '%' :: a :: b :: rest, expected =>
    match hexValue? a, hexValue? b with
    | some x, some y =>
      let byte := 16 * x + y
      if expected = 0 then
        (utf8Length? byte).bind fun n => (tagBytes rest (n - 1)).map (UInt8.ofNat byte :: ·)
      else if byte / 0x40 = 0x2 then (tagBytes rest (expected - 1)).map (UInt8.ofNat byte :: ·)
      else none
    | _, _ => none
  | c :: rest, expected =>
    if expected = 0 && c != '%' then (tagBytes rest 0).map (utf8Bytes c ++ ·) else none

def tagText (bracketed : Bool) (c : Cursor) : Option (List UInt8 × Cursor) :=
  let (cs, c) := c.span (isTagChar bracketed)
  (tagBytes cs 0).map fun bytes => (bytes, c)

/-- A handle at the cursor: `!`, `!!` or `!name!`. Without its closing mark it is the begin of a tag. -/
def tagHandle (c : Cursor) : Option (List Char × Cursor) :=
  match c.rest with
  | '!' :: _ =>
    let (name, c) := (c.advance 1).span isNameChar
    match c.rest with
    | '!' :: _ => some ('!' :: (name ++ ['!']), c.advance 1)
    | _ => some ('!' :: name, c)
  | _ => none

def isClosedHandle (handle : List Char) : Bool := 1 < handle.length && handle.getLast? == some '!'

def tagName (inFlow : Bool) (c : Cursor) : Option (TagName × Cursor) := do
  let (tag, c) ← match c.rest with
    | '!' :: '<' :: _ => do
      let (suffix, c) ← tagText true (c.advance 2)
      match c.rest with
      | '>' :: _ => if suffix.isEmpty then none else some (TagName.mk [] suffix, c.advance 1)
      | _ => none
    | _ => do
      let (handle, c) ← tagHandle c
      let (suffix, c) ← tagText false c
      if isClosedHandle handle then
        if suffix.isEmpty then none else some (TagName.mk handle suffix, c)
      else
        let suffix := (handle.drop 1).flatMap utf8Bytes ++ suffix
        some (if suffix.isEmpty then TagName.mk [] (utf8Bytes '!') else TagName.mk ['!'] suffix, c)
  if wordEnds c.rest || inFlow && c.rest.head? == some ',' then some (tag, c) else none

def anchorName (c : Cursor) : Option (List Char × Cursor) :=
  let (name, c) := c.span isNameChar
  let ended := wordEnds c.rest || c.rest.head?.any fun d => "?:,]\x7d%@`".toList.contains d
  if name.isEmpty || !ended then none else some (name, c)

def versionNumber (c : Cursor) : Option (Nat × Cursor) :=
  let (digits, c) := c.span Char.isDigit
  if digits.isEmpty || 9 < digits.length then none
  else some (digits.foldl (fun n d => 10 * n + (d.toNat - 48)) 0, c)

def directive (c : Cursor) : Option (Token × Cursor) := do
  let (name, c) := c.span isNameChar
  if !wordEnds c.rest then none
  let (token, c) ←
    if name = "YAML".toList then do
      let (major, c) ← versionNumber c.skipBlanks
      let c ← match c.rest with
        | '.' :: _ => some (c.advance 1)
        | _ => none
      let (minor, c) ← versionNumber c
      some (Token.version major minor, c)
    else if name = "TAG".toList then do
      let (handle, c) ← tagHandle c.skipBlanks
      if handle ≠ ['!'] && !isClosedHandle handle then none
      if !c.rest.head?.any isBlank then none
      let (start, c) ← tagText true c.skipBlanks
      if start.isEmpty || !wordEnds c.rest then none
      some (Token.tagDirective handle start, c)
    else none
  let c := c.skipBlanks.skipComment
  if lineEnds c.rest then some (token, c.skipBreak) else none

end PolicyYaml.Document
