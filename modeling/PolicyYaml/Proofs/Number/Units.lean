import PolicyYaml.Number.Basic
import PolicyYaml.Proofs.Number.FloatText

namespace PolicyYaml

namespace Double

def unitsPerOne : Nat := natPower 2 1074

def magnitudeUnits (d : Double) : Nat := d.significand * 2 ^ d.placeShift

def units (d : Double) : Int :=
  if d.isNaN then 0 else if d.negative then -(d.magnitudeUnits : Int) else d.magnitudeUnits

theorem unitsPerOne_pos : 0 < unitsPerOne := natPower_pos (by decide) 1074

theorem units_of_isNaN {d : Double} (h : d.isNaN = true) : d.units = 0 := by
  rw [units, if_pos h]

theorem units_of_isNaN_eq_false {d : Double} (h : d.isNaN = false) :
    d.units = if d.negative then -(d.magnitudeUnits : Int) else d.magnitudeUnits := by
  rw [units, h]
  rfl

theorem magnitudeUnits_lt_of_rank_lt {d e : Double} (h : d.rank < e.rank) :
    d.magnitudeUnits < e.magnitudeUnits := by
  have hlimits := (limits_of_rank_lt h).1
  have hshift := Nat.two_pow_pos d.placeShift
  have hhigh : d.highQuarters * 2 ^ d.placeShift = 4 * d.magnitudeUnits + 2 * 2 ^ d.placeShift := by
    rw [highQuarters, magnitudeUnits]
    ring
  have hlow : e.lowQuarters * 2 ^ e.placeShift ≤ 4 * e.magnitudeUnits := by
    rw [magnitudeUnits, ← Nat.mul_assoc]
    exact Nat.mul_le_mul_right _ (Nat.sub_le _ _)
  omega

theorem magnitudeUnits_eq_of_rank_eq {d e : Double} (h : d.rank = e.rank) :
    d.magnitudeUnits = e.magnitudeUnits := by
  have hde : (⟨false, d.exponent, d.fraction⟩ : Double) = ⟨false, e.exponent, e.fraction⟩ :=
    eq_of_rank rfl h
  have hunits := congrArg magnitudeUnits hde
  exact hunits

theorem magnitudeUnits_lt_iff (d e : Double) : d.magnitudeUnits < e.magnitudeUnits ↔ d.rank < e.rank := by
  refine ⟨fun h => ?_, magnitudeUnits_lt_of_rank_lt⟩
  rcases Nat.lt_trichotomy d.rank e.rank with hlt | heq | hgt
  · exact hlt
  · have := magnitudeUnits_eq_of_rank_eq heq
    omega
  · have := magnitudeUnits_lt_of_rank_lt hgt
    omega

theorem magnitudeUnits_eq_zero_iff (d : Double) : d.magnitudeUnits = 0 ↔ d.rank = 0 := by
  have hzero := magnitudeUnits_lt_iff zero d
  have hunits : zero.magnitudeUnits = 0 := rfl
  have hrank : zero.rank = 0 := rfl
  omega

theorem isNaN_of_isZero {d : Double} (h : d.isZero = true) : d.isNaN = false := by
  simp only [isZero, Bool.and_eq_true, beq_iff_eq] at h
  simp [isNaN, h.1]

theorem units_of_isZero {d : Double} (h : d.isZero = true) : d.units = 0 := by
  rw [units_of_isNaN_eq_false (isNaN_of_isZero h), (magnitudeUnits_eq_zero_iff d).mpr (rank_of_isZero h)]
  exact ite_self 0

theorem units_lt_iff {d e : Double} (hd : d.isNaN = false) (he : e.isNaN = false) :
    d.units < e.units ↔ d.signedRank < e.signedRank := by
  have hlt := magnitudeUnits_lt_iff d e
  have hgt := magnitudeUnits_lt_iff e d
  have hd0 := magnitudeUnits_eq_zero_iff d
  have he0 := magnitudeUnits_eq_zero_iff e
  rw [units_of_isNaN_eq_false hd, units_of_isNaN_eq_false he, signedRank, signedRank]
  cases d.negative <;> cases e.negative <;> simp only [Bool.false_eq_true, ↓reduceIte] <;> omega

end Double

theorem compareInt_congr {a b c d : Int} (hlt : a < b ↔ c < d) (hgt : b < a ↔ d < c) :
    Ord.compare a b = Ord.compare c d := by
  rcases Int.lt_trichotomy a b with h | h | h
  · rw [Int.compare_eq_lt.mpr h, Int.compare_eq_lt.mpr (hlt.mp h)]
  · rw [Int.compare_eq_eq.mpr h, Int.compare_eq_eq.mpr (by omega)]
  · rw [Int.compare_eq_gt.mpr h, Int.compare_eq_gt.mpr (hgt.mp h)]

namespace Double

theorem compare_eq_compare_units {d e : Double} (hd : d.isNaN = false) (he : e.isNaN = false) :
    d.compare e = Ord.compare d.units e.units := by
  rw [compare, hd, he]
  exact compareInt_congr (units_lt_iff hd he).symm (units_lt_iff he hd).symm

theorem compare_eq_compareLex (d e : Double) :
    d.compare e = compareLex (compareOn isNaN) (compareOn units) d e := by
  cases hd : d.isNaN <;> cases he : e.isNaN
  · rw [compare_eq_compare_units hd he, compareLex, compareOn, compareOn, hd, he]
    rfl
  · rw [compare, compareLex, compareOn, hd, he]
    rfl
  · rw [compare, compareLex, compareOn, hd, he]
    rfl
  · rw [compare, compareLex, compareOn, compareOn, hd, he, units_of_isNaN hd, units_of_isNaN he]
    rfl

theorem magnitudeUnits_eq_of_nonneg {d : Double} (h : 0 ≤ d.power) :
    d.magnitudeUnits = d.significand * natPower 2 d.power * unitsPerOne := by
  have hshift : d.placeShift = d.power.toNat + (1074 : Int).toNat := by
    simp only [placeShift, power] at h ⊢
    omega
  simp only [magnitudeUnits, unitsPerOne, natPower, hshift, Nat.pow_eq, Nat.pow_add, Nat.mul_assoc]

theorem unitsPerOne_eq_of_neg {d : Double} (h : d.power < 0) :
    unitsPerOne = natPower 2 (-d.power) * 2 ^ d.placeShift := by
  have hshift : (1074 : Int).toNat = (-d.power).toNat + d.placeShift := by
    simp only [placeShift, power] at h ⊢
    omega
  simp only [unitsPerOne, natPower, hshift, Nat.pow_eq, Nat.pow_add]

attribute [irreducible] unitsPerOne

theorem wholeMagnitude_eq (d : Double) : d.wholeMagnitude = d.magnitudeUnits / unitsPerOne := by
  rw [wholeMagnitude]
  split
  · rename_i h
    rw [magnitudeUnits_eq_of_nonneg h, Nat.mul_div_cancel _ unitsPerOne_pos]
  · rename_i h
    rw [unitsPerOne_eq_of_neg (Int.not_le.mp h), magnitudeUnits, Nat.mul_div_mul_right _ _ (Nat.two_pow_pos _)]

theorem hasFraction_iff (d : Double) : d.hasFraction = true ↔ d.magnitudeUnits % unitsPerOne ≠ 0 := by
  rw [hasFraction, Bool.and_eq_true, decide_eq_true_iff, bne_iff_ne]
  by_cases h : d.power < 0
  · have hshift := Nat.two_pow_pos d.placeShift
    rw [unitsPerOne_eq_of_neg h, magnitudeUnits, Nat.mul_mod_mul_right, ne_eq, ne_eq, Nat.mul_eq_zero]
    omega
  · rw [magnitudeUnits_eq_of_nonneg (by omega), Nat.mul_mod_left]
    simp [h]

theorem whole_eq {d : Double} (h : d.isNaN = false) : d.whole = d.units.tdiv unitsPerOne := by
  rw [units_of_isNaN_eq_false h, whole, wholeMagnitude_eq]
  cases d.negative with
  | true => rw [if_pos rfl, if_pos rfl, Int.neg_tdiv, ← Int.ofNat_tdiv]
  | false => rw [if_neg (by simp), if_neg (by simp), ← Int.ofNat_tdiv]

theorem hasFraction_iff_tmod {d : Double} (h : d.isNaN = false) :
    d.hasFraction = true ↔ d.units.tmod unitsPerOne ≠ 0 := by
  rw [units_of_isNaN_eq_false h, hasFraction_iff]
  cases d.negative with
  | true => rw [if_pos rfl, Int.neg_tmod, ← Int.ofNat_tmod, neg_ne_zero, Nat.cast_ne_zero]
  | false => rw [if_neg (by simp), ← Int.ofNat_tmod, Nat.cast_ne_zero]

end Double

end PolicyYaml
