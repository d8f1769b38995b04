import PolicyYaml.Proofs.Number.Interval

namespace PolicyYaml.Double

def lowQuarters (d : Double) : Nat :=
  4 * d.significand - if d.fraction.val = 0 ∧ 1 < d.exponent.val then 1 else 2

def highQuarters (d : Double) : Nat := 4 * d.significand + 2

def placeShift (d : Double) : Nat := d.exponent.val - 1

theorem highQuarters_le {d e : Double} {j : Nat} (h : d.rank < e.rank)
    (hj : e.placeShift = d.placeShift + j) :
    d.highQuarters ≤ e.lowQuarters * 2 ^ j ∧
      (d.highQuarters = e.lowQuarters * 2 ^ j → d.significand % 2 ≠ e.significand % 2) := by
  have hd := d.fraction.isLt
  have he := e.fraction.isLt
  simp only [rank, hiddenBit] at h
  simp only [placeShift] at hj
  -- The limits can meet only where the last places are the same or one is twice the other.
  rcases j with _ | _ | j
  · have hsig : d.significand < e.significand := by
      simp only [significand, hiddenBit]
      split <;> split <;> omega
    have hlow : ¬(e.fraction.val = 0 ∧ 1 < e.exponent.val) := by omega
    rw [highQuarters, lowQuarters, if_neg hlow]
    omega
  · simp only [highQuarters, lowQuarters, significand, hiddenBit]
    split <;> split <;> split <;> omega
  · have hfour : 4 ≤ 2 ^ (j + 1 + 1) := by
      rw [Nat.pow_succ, Nat.pow_succ]
      have := Nat.two_pow_pos j
      omega
    have hhigh : d.highQuarters < 8 * hiddenBit := by
      have := d.significand_lt
      simp only [highQuarters, hiddenBit] at *
      omega
    have hlow : 4 * hiddenBit ≤ e.lowQuarters + 2 := by
      simp only [lowQuarters, significand, hiddenBit]
      split <;> split <;> omega
    have hstep := Nat.mul_le_mul_left e.lowQuarters hfour
    simp only [hiddenBit] at hhigh hlow
    omega

theorem limits_of_rank_lt {d e : Double} (h : d.rank < e.rank) :
    d.highQuarters * 2 ^ d.placeShift ≤ e.lowQuarters * 2 ^ e.placeShift ∧
      (d.highQuarters * 2 ^ d.placeShift = e.lowQuarters * 2 ^ e.placeShift →
        d.significand % 2 ≠ e.significand % 2) := by
  have hexp : d.exponent.val ≤ e.exponent.val := by
    have := d.fraction.isLt
    have := e.fraction.isLt
    simp only [rank, hiddenBit] at h
    omega
  obtain ⟨j, hj⟩ : ∃ j, e.placeShift = d.placeShift + j :=
    ⟨e.placeShift - d.placeShift, by simp only [placeShift]; omega⟩
  obtain ⟨hle, heq⟩ := highQuarters_le h hj
  rw [hj, Nat.pow_add, Nat.mul_comm (2 ^ d.placeShift), ← Nat.mul_assoc]
  refine ⟨Nat.mul_le_mul_right _ hle, fun hmeet => heq ?_⟩
  exact Nat.eq_of_mul_eq_mul_right (Nat.two_pow_pos _) hmeet

def leastQuarter : ℚ := 2 ^ (-1076 : Int)

theorem leastQuarter_pos : 0 < leastQuarter := zpow_pos (by norm_num) _

theorem quarter_eq (d : Double) :
    (natPower 2 (d.power - 2) : ℚ) = 2 ^ d.placeShift * leastQuarter * natPower 2 (-(d.power - 2)) := by
  rw [natPower_eq 2 (by decide), leastQuarter, ← zpow_natCast, ← zpow_add₀ (by norm_num), mul_comm]
  congr 2
  simp only [power, placeShift]
  omega

theorem covers_iff (d : Double) (x : ℚ) :
    d.interval.Covers x ↔
      if d.significand % 2 = 0 then
        (d.lowQuarters * 2 ^ d.placeShift : Nat) ≤ x / leastQuarter ∧
          x / leastQuarter ≤ (d.highQuarters * 2 ^ d.placeShift : Nat)
      else
        (d.lowQuarters * 2 ^ d.placeShift : Nat) < x / leastQuarter ∧
          x / leastQuarter < (d.highQuarters * 2 ^ d.placeShift : Nat) := by
  have hd : (0 : ℚ) < natPower 2 (-(d.power - 2)) := by exact_mod_cast natPower_pos (by decide) _
  have hplace (n : Nat) : ((n * natPower 2 (d.power - 2) : Nat) : ℚ) =
      (n * 2 ^ d.placeShift : Nat) * leastQuarter * natPower 2 (-(d.power - 2)) := by
    rw [Nat.cast_mul, quarter_eq]
    push_cast
    ring
  have hle (n : Nat) : ((n * natPower 2 (d.power - 2) : Nat) : ℚ) ≤ x * natPower 2 (-(d.power - 2)) ↔
      (n * 2 ^ d.placeShift : Nat) ≤ x / leastQuarter := by
    rw [hplace, mul_le_mul_iff_left₀ hd, le_div_iff₀ leastQuarter_pos]
  have hge (n : Nat) : x * natPower 2 (-(d.power - 2)) ≤ ((n * natPower 2 (d.power - 2) : Nat) : ℚ) ↔
      x / leastQuarter ≤ (n * 2 ^ d.placeShift : Nat) := by
    rw [hplace, mul_le_mul_iff_left₀ hd, div_le_iff₀ leastQuarter_pos]
  have hclosed : d.interval.closed = (d.significand % 2 == 0) := rfl
  have hlow : d.interval.low = d.lowQuarters * natPower 2 (d.power - 2) := rfl
  have hhigh : d.interval.high = d.highQuarters * natPower 2 (d.power - 2) := rfl
  have hden : d.interval.denominator = natPower 2 (-(d.power - 2)) := rfl
  rw [Interval.Covers, hclosed, hlow, hhigh, hden]
  by_cases heven : d.significand % 2 = 0
  · simp only [heven, beq_self_eq_true, ↓reduceIte, hle, hge]
  · simp only [heven, beq_iff_eq, ↓reduceIte, ← not_le, hle, hge]

theorem rank_le_of_covers {d e : Double} {x : ℚ} (hd : d.interval.Covers x) (he : e.interval.Covers x) :
    e.rank ≤ d.rank := by
  by_contra hlt
  obtain ⟨hle, hmeet⟩ := limits_of_rank_lt (Nat.lt_of_not_le hlt)
  have hle' : ((d.highQuarters * 2 ^ d.placeShift : Nat) : ℚ) ≤ (e.lowQuarters * 2 ^ e.placeShift : Nat) := by
    exact_mod_cast hle
  rw [covers_iff] at hd he
  have hboth : d.significand % 2 = 0 ∧ e.significand % 2 = 0 := by
    constructor
    · by_contra hodd
      rw [if_neg hodd] at hd
      split at he <;> linarith
    · by_contra hodd
      rw [if_neg hodd] at he
      split at hd <;> linarith
  rw [if_pos hboth.1] at hd
  rw [if_pos hboth.2] at he
  refine hmeet ?_ (hboth.1.trans hboth.2.symm)
  have : ((d.highQuarters * 2 ^ d.placeShift : Nat) : ℚ) = (e.lowQuarters * 2 ^ e.placeShift : Nat) := by
    linarith
  exact_mod_cast this

theorem rank_eq_of_covers {d e : Double} {x : ℚ} (hd : d.interval.Covers x) (he : e.interval.Covers x) :
    d.rank = e.rank :=
  Nat.le_antisymm (rank_le_of_covers he hd) (rank_le_of_covers hd he)

end PolicyYaml.Double
