import PolicyYaml.Number.Double

namespace PolicyYaml.Double

def roundHalfEven (numerator denominator : Nat) : Nat :=
  let quotient := numerator / denominator
  let rest := numerator % denominator
  if denominator < 2 * rest ∨ denominator = 2 * rest ∧ quotient % 2 = 1 then quotient + 1 else quotient

def scaled (numerator denominator : Nat) (power : Int) : Nat :=
  roundHalfEven (numerator * natPower 2 (-power)) (denominator * natPower 2 power)

def ratioPower (numerator denominator : Nat) : Int :=
  let low := (numerator.log2 : Int) - denominator.log2 - 53
  let high := low + 1
  let normal :=
    if numerator * natPower 2 (-high) < hiddenBit * (denominator * natPower 2 high) then low else high
  max normal (-1074)

/-- The binary64 number nearest to `± numerator / denominator`. A tie goes to the even significand. -/
def ofRatio (negative : Bool) (numerator denominator : Nat) : Double :=
  if numerator = 0 then ofRank negative 0
  else
    let power := ratioPower numerator denominator
    ofRank negative (scaled numerator denominator power + (power + 1074).toNat * hiddenBit)

def ofInt (i : Int) : Double := ofRatio (i < 0) i.natAbs 1

def ofDecimal (negative : Bool) (digits : Nat) (exponent : Int) : Double :=
  if digits = 0 then ofRank negative 0
  else
    let length := (Nat.log2 digits : Int) / 4
    if exponent + (Nat.log2 digits : Int) / 3 + 1 < -330 then ofRank negative 0
    else if 310 < exponent + length then infinity negative
    else ofRatio negative (digits * natPower 10 exponent) (natPower 10 (-exponent))

end PolicyYaml.Double
