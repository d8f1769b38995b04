namespace PolicyYaml.Document

def isBreak (c : Char) : Bool :=
  c == '\n' || c == '\r' || c == '\u0085' || c == '\u2028' || c == '\u2029'

def isBlank (c : Char) : Bool := c == ' ' || c == '\t'

def wordEnds : List Char → Bool
  | [] => true
  | c :: _ => isBlank c || isBreak c

def lineEnds : List Char → Bool
  | [] => true
  | c :: _ => isBreak c

def isNameChar (c : Char) : Bool := c.isAlphanum || c == '_' || c == '-'

def byteOrderMark : Char := '\ufeff'

def isAllowed (c : Char) : Bool :=
  let n := c.toNat
  n == 0x09 || n == 0x0a || n == 0x0d || 0x20 ≤ n && n ≤ 0x7e || n == 0x85 || 0xa0 ≤ n && n ≤ 0xd7ff
    || 0xe000 ≤ n && n ≤ 0xfffd || 0x10000 ≤ n

def isPrintable (c : Char) : Bool :=
  let n := c.toNat
  n == 0x0a || 0x20 ≤ n && n ≤ 0x7e || 0xa0 ≤ n && n ≤ 0xd7ff || 0xe000 ≤ n && n ≤ 0xfffd && n != 0xfeff
    || 0x10000 ≤ n

end PolicyYaml.Document
