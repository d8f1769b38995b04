import PolicyYaml.Number.Width

namespace PolicyYaml

structure Double where
  negative : Bool
  exponent : Fin 2048
  fraction : Fin 4503599627370496
  deriving DecidableEq, Repr, Inhabited

namespace Double

def hiddenBit : Nat := 4503599627370496

def isNaN (d : Double) : Bool := d.exponent.val == 2047 && d.fraction.val != 0

def isInfinite (d : Double) : Bool := d.exponent.val == 2047 && d.fraction.val == 0

def isFinite (d : Double) : Bool := d.exponent.val != 2047

def isZero (d : Double) : Bool := d.exponent.val == 0 && d.fraction.val == 0

def significand (d : Double) : Nat :=
  if d.exponent.val = 0 then d.fraction.val else hiddenBit + d.fraction.val

def power (d : Double) : Int := max 1 (d.exponent.val : Int) - 1075

/-- The place of the magnitude among all magnitudes, zero first and infinity after every finite one. -/
def rank (d : Double) : Nat := d.exponent.val * hiddenBit + d.fraction.val

def signedRank (d : Double) : Int := if d.negative then -(d.rank : Int) else d.rank

def infinityRank : Nat := 2047 * hiddenBit

def ofRank (negative : Bool) (rank : Nat) : Double :=
  let r := min rank infinityRank
  ⟨negative, ⟨r / hiddenBit % 2048, Nat.mod_lt _ (by decide)⟩,
    ⟨r % hiddenBit, Nat.mod_lt _ (by decide)⟩⟩

def zero : Double := ⟨false, 0, 0⟩

def infinity (negative : Bool) : Double := ⟨negative, 2047, 0⟩

def nan : Double := ⟨false, 2047, 2251799813685248⟩

def twoPow63 (negative : Bool) : Double := ⟨negative, 1086, 0⟩

/-- Every NaN as the one NaN of the text formats, all else as it is. -/
def oneNaN (d : Double) : Double := if d.isNaN then nan else d

def compare (a b : Double) : Ordering :=
  match a.isNaN, b.isNaN with
  | true, true => .eq
  | true, false => .gt
  | false, true => .lt
  | false, false => Ord.compare a.signedRank b.signedRank

def wholeMagnitude (d : Double) : Nat :=
  if 0 ≤ d.power then d.significand * natPower 2 d.power else d.significand / natPower 2 (-d.power)

def whole (d : Double) : Int := if d.negative then -(d.wholeMagnitude : Int) else d.wholeMagnitude

def hasFraction (d : Double) : Bool :=
  decide (d.power < 0) && d.significand % natPower 2 (-d.power) != 0

def inInt64Range (d : Double) : Bool :=
  !d.isNaN && d.compare (twoPow63 true) != .lt && d.compare (twoPow63 false) == .lt

def wholeInt64 (d : Double) : Int64 := Int64.ofInt d.whole

theorem rank_lt (d : Double) : d.rank < 2048 * hiddenBit := by
  have := d.exponent.isLt
  have := d.fraction.isLt
  simp only [rank, hiddenBit]
  omega

theorem isNaN_nan : nan.isNaN = true := rfl

theorem oneNaN_of_isNaN {d : Double} (h : d.isNaN = true) : d.oneNaN = nan := by
  simp [oneNaN, h]

@[simp]
theorem oneNaN_oneNaN (d : Double) : d.oneNaN.oneNaN = d.oneNaN := by
  cases h : d.isNaN <;> simp [oneNaN, h, isNaN_nan]

end Double

end PolicyYaml
