namespace PolicyYaml

def natPower (base : Nat) (exponent : Int) : Nat := Nat.pow base exponent.toNat

def isInt64 (i : Int) : Bool := Int64.minValue.toInt ≤ i && i ≤ Int64.maxValue.toInt

def fitsBits (bits : Nat) (i : Int) : Bool := -(natPower 2 (bits - 1) : Int) ≤ i && i < natPower 2 bits

theorem isInt64_iff (i : Int) : isInt64 i = true ↔ -9223372036854775808 ≤ i ∧ i < 9223372036854775808 := by
  have hmin : Int64.minValue.toInt = -9223372036854775808 := rfl
  have hmax : Int64.maxValue.toInt = 9223372036854775807 := rfl
  rw [isInt64, hmin, hmax, Bool.and_eq_true, decide_eq_true_iff, decide_eq_true_iff]
  omega

end PolicyYaml
