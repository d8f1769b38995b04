import PolicyYaml.Number.Rounding

namespace PolicyYaml

inductive Number where
  | int (i : Int64)
  | float (d : Double)
  deriving DecidableEq

namespace Number

def toDouble : Number → Double
  | .int i => Double.ofInt i.toInt
  | .float d => d

def toInt64? : Number → Option Int64
  | .int i => some i
  | .float d => if d.isFinite && !d.hasFraction && d.inInt64Range then some d.wholeInt64 else none

def isInteger (n : Number) : Bool := n.toInt64?.isSome

def isFloat : Number → Bool
  | .int _ => false
  | .float _ => true

def compareIntDouble (i : Int64) (d : Double) : Ordering :=
  if d.isNaN || d.compare (Double.twoPow63 false) != .lt then .lt
  else if d.compare (Double.twoPow63 true) == .lt then .gt
  else
    match Ord.compare i d.wholeInt64 with
    | .eq => if d.hasFraction then (if d.negative then .gt else .lt) else .eq
    | o => o

def compare : Number → Number → Ordering
  | .int a, .int b => Ord.compare a b
  | .float a, .float b => a.compare b
  | .int a, .float b => compareIntDouble a b
  | .float a, .int b => (compareIntDouble b a).swap

def partialCompare (a b : Number) : Option Ordering := some (a.compare b)

def equal (a b : Number) : Bool := a.compare b == .eq

def max (a b : Number) : Number := if a.compare b == .gt then a else b

def min (a b : Number) : Number := if a.compare b == .gt then b else a

end Number

end PolicyYaml
