import Mathlib.Algebra.Order.Field.Power
import Mathlib.Data.Rat.Cast.Order
import Mathlib.Tactic.Linarith
import Mathlib.Tactic.Positivity
import Mathlib.Tactic.Ring
import PolicyYaml.Number.Shortest

/-!
The interval of a binary64 number holds the decimal that is chosen for it.
-/

namespace PolicyYaml

theorem natPower_eq (base : Nat) (hb : base ≠ 0) (e : Int) :
    (natPower base e : ℚ) = natPower base (-e) * (base : ℚ) ^ e := by
  have hb' : (base : ℚ) ≠ 0 := by exact_mod_cast hb
  simp only [natPower, Nat.pow_eq, Nat.cast_pow, ← zpow_natCast]
  rw [← zpow_add₀ hb']
  congr 1
  omega

theorem natPower_pos {base : Nat} (hb : 0 < base) (e : Int) : 0 < natPower base e := Nat.pow_pos hb

namespace Double

def Interval.Covers (i : Interval) (x : ℚ) : Prop :=
  if i.closed then i.low ≤ x * i.denominator ∧ x * i.denominator ≤ i.high
  else i.low < x * i.denominator ∧ x * i.denominator < i.high

def Interval.scaled (i : Interval) (k : Nat) : Interval :=
  ⟨i.low * k, i.value * k, i.high * k, i.denominator, i.closed⟩

theorem grid_numerator (i : Interval) (e : Int) (n : Nat) :
    ((n * (i.denominator * natPower 10 e) : Nat) : ℚ) = n * 10 ^ e * i.denominator * natPower 10 (-e) := by
  push_cast
  rw [natPower_eq 10 (by decide) e]
  push_cast
  ring

theorem contains_grid_iff (i : Interval) (e : Int) (n : Nat) :
    (i.scaled (natPower 10 (-e))).contains (n * (i.denominator * natPower 10 e)) = true ↔
      i.Covers (n * 10 ^ e) := by
  have hscale : (0 : ℚ) < natPower 10 (-e) := by exact_mod_cast natPower_pos (by decide) (-e)
  have hgrid := grid_numerator i e n
  have hle (a : Nat) : a * natPower 10 (-e) ≤ n * (i.denominator * natPower 10 e) ↔
      (a : ℚ) ≤ n * 10 ^ e * i.denominator := by
    rw [← Nat.cast_le (α := ℚ), hgrid, Nat.cast_mul, mul_le_mul_iff_left₀ hscale]
  have hge (a : Nat) : n * (i.denominator * natPower 10 e) ≤ a * natPower 10 (-e) ↔
      n * 10 ^ e * i.denominator ≤ (a : ℚ) := by
    rw [← Nat.cast_le (α := ℚ), hgrid, Nat.cast_mul, mul_le_mul_iff_left₀ hscale]
  cases hc : i.closed with
  | true => simp [Interval.contains, Interval.scaled, Interval.Covers, hc, hle, hge]
  | false => simp [Interval.contains, Interval.scaled, Interval.Covers, hc, ← not_le, hle, hge]

theorem onGrid?_cases (tie : Tie) (i : Interval) (e : Int) :
    let down := i.value * natPower 10 (-e) / (i.denominator * natPower 10 e)
    onGrid? tie i e = none ∧ ¬i.Covers ((down + 1 : Nat) * 10 ^ e) ∨
      onGrid? tie i e = some down ∧ i.Covers (down * 10 ^ e) ∨
      onGrid? tie i e = some (down + 1) ∧ i.Covers ((down + 1 : Nat) * 10 ^ e) := by
  intro down
  simp only [← contains_grid_iff, Interval.scaled, onGrid?]
  split
  · rename_i hdown hup
    exact .inl ⟨rfl, by simp [down, hup]⟩
  · rename_i hdown hup
    exact .inr (.inl ⟨rfl, hdown⟩)
  · rename_i hdown hup
    exact .inr (.inr ⟨rfl, hup⟩)
  · rename_i hdown hup
    split
    · exact .inr (.inl ⟨rfl, hdown⟩)
    split
    · exact .inr (.inr ⟨rfl, hup⟩)
    cases tie with
    | even =>
      by_cases heven : down % 2 = 0
      · exact .inr (.inl ⟨by simp [down, heven], hdown⟩)
      · exact .inr (.inr ⟨by simp [down, heven], hup⟩)
    | up => exact .inr (.inr ⟨rfl, hup⟩)

theorem onGrid?_covers {tie : Tie} {i : Interval} {e : Int} {n : Nat} (h : onGrid? tie i e = some n) :
    i.Covers (n * 10 ^ e) := by
  obtain ⟨hnone, -⟩ | ⟨hsome, hc⟩ | ⟨hsome, hc⟩ := onGrid?_cases tie i e
  · rw [hnone] at h; contradiction
  · rw [hsome] at h; cases h; exact hc
  · rw [hsome] at h; cases h; exact hc

theorem onGrid?_ne_none {tie : Tie} {i : Interval} {e : Int} (hlow : i.low ≤ i.value)
    (hd : 0 < i.denominator) (h : (i.denominator : ℚ) * 10 ^ e < i.high - i.value) : onGrid? tie i e ≠ none := by
  obtain ⟨-, hc⟩ | ⟨hsome, -⟩ | ⟨hsome, -⟩ := onGrid?_cases tie i e
  · have hscale : (0 : ℚ) < natPower 10 (-e) := by exact_mod_cast natPower_pos (by decide) (-e)
    have hstep : 0 < i.denominator * natPower 10 e := Nat.mul_pos hd (natPower_pos (by decide) e)
    generalize hq : i.value * natPower 10 (-e) / (i.denominator * natPower 10 e) = down at hc
    have hdown : down * (i.denominator * natPower 10 e) ≤ i.value * natPower 10 (-e) :=
      hq ▸ Nat.div_mul_le_self _ _
    have hup : i.value * natPower 10 (-e) < (down + 1) * (i.denominator * natPower 10 e) := by
      rw [← hq, Nat.add_mul, Nat.one_mul]
      exact Nat.lt_div_mul_add hstep
    rw [← Nat.cast_le (α := ℚ), grid_numerator, Nat.cast_mul, mul_le_mul_iff_left₀ hscale] at hdown
    rw [← Nat.cast_lt (α := ℚ), grid_numerator, Nat.cast_mul, mul_lt_mul_iff_left₀ hscale] at hup
    have hlow : (i.low : ℚ) ≤ i.value := by exact_mod_cast hlow
    have hnext : ((down + 1 : Nat) : ℚ) * 10 ^ e * i.denominator =
        down * 10 ^ e * i.denominator + i.denominator * 10 ^ e := by push_cast; ring
    refine absurd ?_ hc
    unfold Interval.Covers
    split
    · constructor <;> linarith
    · constructor <;> linarith
  · simp [hsome]
  · simp [hsome]

theorem firstOnGrid_covers {tie : Tie} {i : Interval} {count k : Nat} {e : Int} (hk : k < count)
    (h : onGrid? tie i (e - k) ≠ none) :
    i.Covers ((firstOnGrid tie i count e).1 * 10 ^ (firstOnGrid tie i count e).2) := by
  induction count generalizing e k with
  | zero => omega
  | succ count ih =>
    cases hg : onGrid? tie i e with
    | some n => simpa only [firstOnGrid, hg] using onGrid?_covers hg
    | none =>
      simp only [firstOnGrid, hg]
      cases k with
      | zero => simp [hg] at h
      | succ k =>
        apply ih (k := k) (by omega)
        rw [show e - 1 - (k : Int) = e - (k + 1 : Nat) by omega]
        exact h

theorem ten_zpow_lt_two_zpow {e q : Int} (h : if 0 ≤ e then 10 * e < 3 * q else 23 * e < 7 * q) :
    (10 : ℚ) ^ e < 2 ^ q := by
  -- `10 ^ 3` is below `2 ^ 10`, and `10 ^ 7` above `2 ^ 23`.
  split at h
  · rename_i he
    obtain ⟨n, rfl⟩ := Int.eq_ofNat_of_zero_le he
    apply lt_of_pow_lt_pow_left₀ 3 (by positivity)
    calc ((10 : ℚ) ^ (n : Int)) ^ 3 = (1000 : ℚ) ^ n := by
          rw [zpow_natCast, ← pow_mul, mul_comm, pow_mul]; norm_num
      _ ≤ (1024 : ℚ) ^ n := by gcongr; norm_num
      _ = 2 ^ (10 * (n : Int)) := by
          rw [zpow_mul, zpow_natCast]; norm_num
      _ < 2 ^ (3 * q) := zpow_lt_zpow_right₀ (by norm_num) h
      _ = (2 ^ q) ^ 3 := by rw [mul_comm, zpow_mul]; norm_cast
  · rename_i he
    obtain ⟨n, rfl⟩ : ∃ n : Nat, e = -n := ⟨(-e).toNat, by omega⟩
    apply lt_of_pow_lt_pow_left₀ 7 (by positivity)
    calc ((10 : ℚ) ^ (-(n : Int))) ^ 7 = ((10 ^ 7 : ℚ) ^ n)⁻¹ := by
          rw [zpow_neg, zpow_natCast, inv_pow, ← pow_mul, ← pow_mul, mul_comm]
      _ ≤ ((2 ^ 23 : ℚ) ^ n)⁻¹ := by gcongr; norm_num
      _ = 2 ^ (23 * -(n : Int)) := by
          rw [zpow_mul, zpow_neg, zpow_natCast]; norm_cast
      _ < 2 ^ (7 * q) := zpow_lt_zpow_right₀ (by norm_num) h
      _ = (2 ^ q) ^ 7 := by rw [mul_comm, zpow_mul]; norm_cast

theorem significand_lt (d : Double) : d.significand < 2 * hiddenBit := by
  have := d.fraction.isLt
  simp only [significand, hiddenBit]
  split <;> omega

theorem log2_significand_lt (d : Double) : d.significand.log2 < 53 := by
  by_cases hm : d.significand = 0
  · simp [hm]
  · exact (Nat.log2_lt hm).mpr d.significand_lt

theorem power_bounds {d : Double} (hf : d.isFinite = true) : -1074 ≤ d.power ∧ d.power ≤ 971 := by
  have := d.exponent.isLt
  simp only [isFinite, bne_iff_ne, ne_eq] at hf
  simp only [power]
  omega

theorem shortest_covers {d : Double} (tie : Tie) (hf : d.isFinite = true) :
    d.interval.Covers ((d.shortest tie).1 * 10 ^ (d.shortest tie).2) := by
  have hpower := power_bounds hf
  have hlog := d.log2_significand_lt
  apply firstOnGrid_covers (k := 23) (by decide)
  have hup : (natPower 2 (d.power - 2) : ℚ) = natPower 2 (-(d.power - 2)) * 2 ^ (d.power - 2) :=
    natPower_eq 2 (by decide) _
  have hd : (0 : ℚ) < natPower 2 (-(d.power - 2)) := by exact_mod_cast natPower_pos (by decide) _
  refine onGrid?_ne_none (Nat.mul_le_mul_right _ (Nat.sub_le _ _)) (natPower_pos (by decide) _) ?_
  have hfine : (10 : ℚ) ^ (((d.significand.log2 : Int) + d.power + 1) * 30103 / 100000 + 2 - (23 : Nat)) <
      2 ^ (d.power - 1) := by
    apply ten_zpow_lt_two_zpow
    split <;> omega
  calc (d.interval.denominator : ℚ) *
        10 ^ (((d.significand.log2 : Int) + d.power + 1) * 30103 / 100000 + 2 - (23 : Nat))
      < natPower 2 (-(d.power - 2)) * 2 ^ (d.power - 1) := mul_lt_mul_of_pos_left hfine hd
    _ = 2 * (natPower 2 (-(d.power - 2)) * 2 ^ (d.power - 2)) := by
        rw [show d.power - 1 = d.power - 2 + 1 by omega, zpow_add_one₀ (by norm_num)]; ring
    _ = d.interval.high - d.interval.value := by
        simp only [interval, Nat.cast_mul, Nat.cast_add, hup]
        push_cast
        ring

end Double

end PolicyYaml
