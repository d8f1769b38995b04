import PolicyYaml.Number.Decimal
import PolicyYaml.Settings.Toml

namespace PolicyYaml.Toml

def isSpace (c : Char) : Bool := c == ' ' || c == '\t'

def isLineChar (c : Char) : Bool := c == '\t' || 0x20 ≤ c.toNat && c.toNat != 0x7f

def isBareKeyChar (c : Char) : Bool := c.isAlphanum || c == '_' || c == '-'

def isScalarChar (c : Char) : Bool := c.isAlphanum || "+-_.:".toList.contains c

def isHexDigit (c : Char) : Bool := c.isDigit || 'a' ≤ c && c ≤ 'f' || 'A' ≤ c && c ≤ 'F'

def hexValue (c : Char) : Nat :=
  if c.isDigit then c.toNat - 48 else if 'a' ≤ c then c.toNat - 87 else c.toNat - 55

def isDigitRun (isDigit : Char → Bool) : List Char → Bool
  | [] => false
  | [c] => isDigit c
  | c :: '_' :: rest => isDigit c && isDigitRun isDigit rest
  | c :: rest => isDigit c && isDigitRun isDigit rest

def dropSign : List Char → List Char
  | '+' :: cs => cs
  | '-' :: cs => cs
  | cs => cs

def isDecimal (cs : List Char) : Bool :=
  match cs with
  | ['0'] => true
  | '0' :: _ => false
  | cs => isDigitRun Char.isDigit cs

def natOfRun (radix : Nat) (cs : List Char) : Nat :=
  cs.foldl (fun n c => if c == '_' then n else radix * n + hexValue c) 0

def integer? (cs : List Char) : Option Int :=
  let marked (radix : Nat) (isDigit : Char → Bool) (digits : List Char) : Option Int :=
    if isDigitRun isDigit digits then some (natOfRun radix digits) else none
  match cs with
  | '0' :: 'x' :: digits => marked 16 isHexDigit digits
  | '0' :: 'o' :: digits => marked 8 (fun c => '0' ≤ c && c ≤ '7') digits
  | '0' :: 'b' :: digits => marked 2 (fun c => c == '0' || c == '1') digits
  | cs =>
    if isDecimal (dropSign cs) then
      let n := natOfRun 10 (dropSign cs)
      some (if cs.head? == some '-' then -(n : Int) else n)
    else none

def isExponentMark (c : Char) : Bool := c == 'e' || c == 'E'

def isFloat (cs : List Char) : Bool :=
  let body := dropSign cs
  if body == "inf".toList || body == "nan".toList then true
  else
    let whole := body.takeWhile fun c => c != '.' && !isExponentMark c
    let rest := body.drop whole.length
    let (fractional, rest) :=
      match rest with
      | '.' :: r =>
        let fraction := r.takeWhile fun c => !isExponentMark c
        (isDigitRun Char.isDigit fraction, r.drop fraction.length)
      | r => (true, r)
    let exponential :=
      match rest with
      | [] => true
      | _ :: r => isDigitRun Char.isDigit (dropSign r)
    whole.length < body.length && isDecimal whole && fractional && exponential

def floatFits (cs : List Char) : Bool :=
  match Decimal.ofChars? (cs.filter (· != '_')) with
  | some d => d.toDouble.isFinite
  | none => true

def fixedNumber (count : Nat) (cs : List Char) : Option (Nat × List Char) :=
  let digits := cs.take count
  if digits.length = count ∧ digits.all Char.isDigit then
    some (Decimal.natOfDigits digits, cs.drop count)
  else none

def expect (c : Char) : List Char → Option (List Char)
  | d :: rest => if c == d then some rest else none
  | [] => none

def isLeapYear (year : Nat) : Bool := year % 4 == 0 && (year % 100 != 0 || year % 400 == 0)

def daysIn (year month : Nat) : Nat :=
  if month = 2 then (if isLeapYear year then 29 else 28)
  else if month = 4 ∨ month = 6 ∨ month = 9 ∨ month = 11 then 30
  else 31

def date (cs : List Char) : Option (List Char) := do
  let (year, cs) ← fixedNumber 4 cs
  let (month, cs) ← fixedNumber 2 (← expect '-' cs)
  let (day, cs) ← fixedNumber 2 (← expect '-' cs)
  if 1 ≤ month ∧ month ≤ 12 ∧ 1 ≤ day ∧ day ≤ daysIn year month then some cs else none

def time (cs : List Char) : Option (List Char) := do
  let (hour, cs) ← fixedNumber 2 cs
  let (minute, cs) ← fixedNumber 2 (← expect ':' cs)
  if hour > 23 ∨ minute > 59 then none
  match cs with
  | ':' :: cs =>
    let (second, cs) ← fixedNumber 2 cs
    if second > 60 then none
    match cs with
    | '.' :: cs =>
      let fraction := cs.takeWhile Char.isDigit
      if fraction.isEmpty then none else some (cs.drop fraction.length)
    | cs => some cs
  | cs => some cs

def isOffset (cs : List Char) : Bool :=
  match cs with
  | [] | ['Z'] | ['z'] => true
  | sign :: rest =>
    let minutes := do
      let (hour, rest) ← fixedNumber 2 rest
      let (minute, rest) ← fixedNumber 2 (← expect ':' rest)
      if rest.isEmpty ∧ minute ≤ 59 then some (60 * hour + minute) else none
    (sign == '+' || sign == '-') && minutes.any fun m => m ≤ 24 * 60

def isDateTime (cs : List Char) : Bool :=
  match date cs with
  | some [] => true
  | some (c :: rest) => (c == 'T' || c == 't') && (time rest).any isOffset
  | none => time cs == some []

def scalarItem (cs : List Char) : Option Item :=
  if cs == "true".toList then some (.boolean true)
  else if cs == "false".toList then some (.boolean false)
  else
    match integer? cs with
    | some i => some (.number (fitsBits 128 i))
    | none =>
      if isFloat cs then some (.number (floatFits cs))
      else if isDateTime cs then some .dateTime
      else none

def scalar (cs : List Char) : Option (Item × List Char) :=
  let run := cs.takeWhile isScalarChar
  let rest := cs.drop run.length
  match rest with
  | ' ' :: d :: more =>
    if d.isDigit && date run == some [] then
      let timeRun := (d :: more).takeWhile isScalarChar
      (scalarItem (run ++ 'T' :: timeRun)).map fun item => (item, (d :: more).drop timeRun.length)
    else (scalarItem run).map fun item => (item, rest)
  | rest => (scalarItem run).map fun item => (item, rest)

end PolicyYaml.Toml
