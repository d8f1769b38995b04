import PolicyYaml.Number.Double

/-!
The fewest decimal digits that read back as a binary64 number, and the ways to write them.
-/

namespace PolicyYaml

inductive Tie where
  | even
  | up
  deriving DecidableEq

namespace Double

/-- A number between its two limits. All numbers between the limits round to it, and the limits
themselves do if they are `closed`. The three are numerators over one denominator. -/
structure Interval where
  low : Nat
  value : Nat
  high : Nat
  denominator : Nat
  closed : Bool

def interval (d : Double) : Interval :=
  let m := d.significand
  let power := d.power - 2
  let below := if d.fraction.val = 0 ∧ 1 < d.exponent.val then 1 else 2
  let up := natPower 2 power
  ⟨(4 * m - below) * up, 4 * m * up, (4 * m + 2) * up, natPower 2 (-power), m % 2 == 0⟩

def Interval.contains (i : Interval) (numerator : Nat) : Bool :=
  if i.closed then decide (i.low ≤ numerator ∧ numerator ≤ i.high)
  else decide (i.low < numerator ∧ numerator < i.high)

def onGrid? (tie : Tie) (i : Interval) (exponent : Int) : Option Nat :=
  let step := i.denominator * natPower 10 exponent
  let scale := natPower 10 (-exponent)
  let i := { i with low := i.low * scale, value := i.value * scale, high := i.high * scale }
  let down := i.value / step
  let rest := i.value % step
  match i.contains (down * step), i.contains ((down + 1) * step) with
  | false, false => none
  | true, false => some down
  | false, true => some (down + 1)
  | true, true =>
    if 2 * rest < step then some down
    else if step < 2 * rest then some (down + 1)
    else match tie with
      | .even => some (if down % 2 = 0 then down else down + 1)
      | .up => some (down + 1)

def firstOnGrid (tie : Tie) (i : Interval) : (count : Nat) → (exponent : Int) → Nat × Int
  | 0, exponent => (0, exponent)
  | count + 1, exponent =>
    match onGrid? tie i exponent with
    | some digits => (digits, exponent)
    | none => firstOnGrid tie i count (exponent - 1)

/-- The fewest digits that read back as a finite number other than zero, nearest to it among these,
and the power of ten that they count. Seventeen digits always suffice. -/
def shortest (tie : Tie) (d : Double) : Nat × Int :=
  let log2 := (d.significand.log2 : Int) + d.power
  firstOnGrid tie d.interval 24 ((log2 + 1) * 30103 / 100000 + 2)

end Double

structure FloatLayout where
  leastPoint : Int
  mostPoint : Int
  tie : Tie
  nan : String
  infinity : String

namespace FloatLayout

def sign (negative : Bool) : List Char := if negative then ['-'] else []

def natText (n : Nat) : List Char := Nat.toDigits 10 n

def intText (i : Int) : List Char := sign (i < 0) ++ natText i.natAbs

def positional (digits : List Char) (point : Int) : List Char :=
  if point ≤ 0 then ['0', '.'] ++ List.replicate (-point).toNat '0' ++ digits
  else if point < digits.length then
    digits.take point.toNat ++ ['.'] ++ digits.drop point.toNat
  else digits ++ List.replicate (point - digits.length).toNat '0' ++ ['.', '0']

def scientific (digits : List Char) (point : Int) : List Char :=
  let mantissa :=
    match digits with
    | d :: rest@(_ :: _) => d :: '.' :: rest
    | short => short
  mantissa ++ ['e'] ++ intText (point - 1)

def chars (layout : FloatLayout) (d : Double) : List Char :=
  if d.isNaN then layout.nan.toList
  else sign d.negative ++
    if d.isInfinite then layout.infinity.toList
    else if d.isZero then ['0', '.', '0']
    else
      let (number, exponent) := d.shortest layout.tie
      let digits := natText number
      let point := digits.length + exponent
      if layout.leastPoint ≤ point ∧ point ≤ layout.mostPoint then positional digits point
      else scientific digits point

end FloatLayout

end PolicyYaml
