import PolicyYaml.Ascending
import PolicyYaml.Number.Decimal
import PolicyYaml.Text.ByteOrder

namespace PolicyYaml

inductive JsonNumber where
  | natural (n : UInt64)
  | signed (i : Int64)
  | float (d : Double)
  deriving DecidableEq

inductive Json where
  | null
  | boolean (b : Bool)
  | number (n : JsonNumber)
  | text (s : String)
  | array (items : List Json)
  | object (members : List (String × Json))
  deriving Inhabited

namespace JsonNumber

/-- The number that a decimal stands for. It is an integer only if it is written without point and
exponent, and `-0` is none. -/
def ofDecimal (d : Decimal) (isWhole : Bool) : JsonNumber :=
  if isWhole ∧ !d.negative ∧ d.digits < UInt64.size then .natural (UInt64.ofNat d.digits)
  else if isWhole ∧ d.negative ∧ 0 < d.digits ∧ isInt64 (-d.digits) then .signed (Int64.ofInt (-d.digits))
  else .float d.toDouble

def ofChars? (cs : List Char) : Option JsonNumber := do
  let d ← Decimal.ofChars? cs
  let n := ofDecimal d (cs.all fun c => c.isDigit || c == '-')
  match n with
  | .float x => if x.isFinite then some n else none
  | _ => some n

end JsonNumber

namespace Json

def ofMembers (members : List (String × Json)) : Json :=
  .object (Ascending.ofList Text.compareNames members)

end Json

end PolicyYaml
