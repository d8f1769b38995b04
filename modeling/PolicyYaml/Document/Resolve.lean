import PolicyYaml.Document.Tree
import PolicyYaml.Number.Decimal

namespace PolicyYaml.Document

def isNullWord (cs : List Char) : Bool :=
  ["null", "Null", "NULL", "~"].any fun w => w.toList == cs

def boolean? (cs : List Char) : Option Bool :=
  if ["true", "True", "TRUE"].any fun w => w.toList == cs then some true
  else if ["false", "False", "FALSE"].any fun w => w.toList == cs then some false
  else none

def dropPlus : List Char → List Char
  | '+' :: cs => cs
  | cs => cs

def dropSign : List Char → List Char
  | '+' :: cs => cs
  | '-' :: cs => cs
  | cs => cs

def isZeroPadded (cs : List Char) : Bool :=
  match dropSign cs with
  | '0' :: d :: rest => (d :: rest).all Char.isDigit
  | _ => false

def digit? (radix : Nat) (c : Char) : Option Nat :=
  let n :=
    if c.isDigit then c.toNat - 48
    else if 'a' ≤ c ∧ c ≤ 'f' then c.toNat - 87
    else if 'A' ≤ c ∧ c ≤ 'F' then c.toNat - 55
    else radix
  if n < radix then some n else none

def digits? (radix : Nat) : List Char → Option Nat
  | [] => none
  | cs => cs.foldlM (fun n c => (digit? radix c).map (radix * n + ·)) 0

def magnitude? : List Char → Option Nat
  | '0' :: 'x' :: cs => digits? 16 cs
  | '0' :: 'o' :: cs => digits? 8 cs
  | '0' :: 'b' :: cs => digits? 2 cs
  | cs => digits? 10 cs

def anyInteger? (cs : List Char) : Option Int :=
  if isZeroPadded cs then none
  else
    match cs with
    | '-' :: rest => (magnitude? rest).map fun n => -(n : Int)
    | _ => (magnitude? (dropPlus cs)).map Int.ofNat

/-- How a scalar fares as an integer. One that needs 65 to 128 bits is refused for good, and a larger
one is no integer at all. -/
inductive IntegerReading where
  | integer (i : Int)
  | refused
  | other

def readInteger (cs : List Char) : IntegerReading :=
  match anyInteger? cs with
  | none => .other
  | some i =>
    if fitsBits 64 i then .integer i
    else if fitsBits 128 i then .refused
    else .other

def float? (cs : List Char) : Option Double :=
  if [".inf", ".Inf", ".INF"].any fun w => w.toList == dropPlus cs then some (.infinity false)
  else if ["-.inf", "-.Inf", "-.INF"].any fun w => w.toList == cs then some (.infinity true)
  else if [".nan", ".NaN", ".NAN"].any fun w => w.toList == cs then some .nan
  else
    match Decimal.ofChars? cs with
    | some d => if d.toDouble.isFinite then some d.toDouble else none
    | none => none

def resolvePlain (cs : List Char) : Option Tree :=
  if cs.isEmpty || isNullWord cs then some .null
  else
    match boolean? cs with
    | some b => some (.boolean b)
    | none =>
      match readInteger cs with
      | .integer i => some (.integer i)
      | .refused => none
      | .other =>
        match if isZeroPadded cs then none else float? cs with
        | some d => some (.float d)
        | none => some (.string (String.ofList cs))

def needsQuotes (cs : List Char) : Bool :=
  match resolvePlain cs with
  | some (.string _) => isZeroPadded cs
  | _ => true

end PolicyYaml.Document
