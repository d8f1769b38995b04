import Mathlib.Tactic.FieldSimp
import PolicyYaml.Number.Decimal
import PolicyYaml.Proofs.Number.FloatText

/-!
A decimal within the interval of a finite float is read as that float.
-/

namespace PolicyYaml.Double

/-- No other whole number is nearer to `q` than `m`, and one that is as near is odd. -/
structure IsRounded (m : Nat) (q : ℚ) : Prop where
  low : 2 * (m : ℚ) ≤ 2 * q + 1
  high : 2 * q ≤ 2 * m + 1
  odd : m % 2 ≠ 0 → 2 * (m : ℚ) < 2 * q + 1 ∧ 2 * q < 2 * m + 1

theorem roundHalfEven_near (n : Nat) {d : Nat} (hd : 0 < d) :
    2 * (roundHalfEven n d * d) ≤ 2 * n + d ∧ 2 * n ≤ 2 * (roundHalfEven n d * d) + d ∧
      (roundHalfEven n d % 2 ≠ 0 →
        2 * (roundHalfEven n d * d) < 2 * n + d ∧ 2 * n < 2 * (roundHalfEven n d * d) + d) := by
  have hsplit := Nat.div_add_mod n d
  have hrest := Nat.mod_lt n hd
  rw [roundHalfEven]
  generalize n / d = quotient at hsplit
  generalize n % d = rest at hsplit hrest
  rw [Nat.mul_comm] at hsplit
  split
  · rw [Nat.add_mul, Nat.one_mul]
    omega
  · omega

theorem isRounded_roundHalfEven (n : Nat) {d : Nat} (hd : 0 < d) : IsRounded (roundHalfEven n d) (n / d) := by
  have hd' : (0 : ℚ) < d := by exact_mod_cast hd
  obtain ⟨hlow, hhigh, hodd⟩ := roundHalfEven_near n hd
  generalize roundHalfEven n d = m at *
  have hle (a b : Nat) : a ≤ b ↔ (a : ℚ) / d ≤ b / d := by
    rw [div_le_div_iff_of_pos_right hd', Nat.cast_le]
  have hlt (a b : Nat) : a < b ↔ (a : ℚ) / d < b / d := by
    rw [div_lt_div_iff_of_pos_right hd', Nat.cast_lt]
  have hleft : ((2 * (m * d) : Nat) : ℚ) / d = 2 * m := by push_cast; field_simp
  have hleft' : ((2 * (m * d) + d : Nat) : ℚ) / d = 2 * m + 1 := by push_cast; field_simp
  have hright : ((2 * n : Nat) : ℚ) / d = 2 * (n / d) := by push_cast; ring
  have hright' : ((2 * n + d : Nat) : ℚ) / d = 2 * (n / d) + 1 := by push_cast; field_simp
  rw [hle, hleft, hright'] at hlow
  rw [hle, hleft', hright] at hhigh
  rw [hlt, hlt, hleft, hright', hleft', hright] at hodd
  exact ⟨hlow, hhigh, hodd⟩

theorem isRounded_scaled (n : Nat) {d : Nat} (hd : 0 < d) (p : Int) :
    IsRounded (scaled n d p) (n / d / 2 ^ p) := by
  have hpos : 0 < d * natPower 2 p := Nat.mul_pos hd (natPower_pos (by decide) p)
  have hround := isRounded_roundHalfEven (n * natPower 2 (-p)) hpos
  have hscale : (natPower 2 (-p) : ℚ) ≠ 0 := by exact_mod_cast (natPower_pos (by decide) (-p)).ne'
  have heq : ((n * natPower 2 (-p) : Nat) : ℚ) / (d * natPower 2 p : Nat) = n / d / 2 ^ p := by
    push_cast
    rw [natPower_eq 2 (by decide) p]
    push_cast
    field_simp
  rwa [heq] at hround

theorem two_zpow_log2_le {n : Nat} (hn : n ≠ 0) : (2 : ℚ) ^ (n.log2 : Int) ≤ n := by
  rw [zpow_natCast]
  exact_mod_cast Nat.log2_self_le hn

theorem lt_two_zpow_log2 (n : Nat) : (n : ℚ) < 2 ^ ((n.log2 : Int) + 1) := by
  rw [← Nat.cast_succ, zpow_natCast]
  exact_mod_cast Nat.lt_log2_self

theorem ratio_bounds {n d : Nat} (hn : n ≠ 0) (hd : d ≠ 0) :
    (2 : ℚ) ^ ((n.log2 : Int) - d.log2 - 1) < n / d ∧ (n / d : ℚ) < 2 ^ ((n.log2 : Int) - d.log2 + 1) := by
  have hd' : (0 : ℚ) < d := by exact_mod_cast Nat.pos_of_ne_zero hd
  have htwo : (2 : ℚ) ≠ 0 := two_ne_zero
  constructor
  · rw [lt_div_iff₀ hd']
    calc (2 : ℚ) ^ ((n.log2 : Int) - d.log2 - 1) * d
        < 2 ^ ((n.log2 : Int) - d.log2 - 1) * 2 ^ ((d.log2 : Int) + 1) :=
          mul_lt_mul_of_pos_left (lt_two_zpow_log2 d) (by positivity)
      _ = 2 ^ (n.log2 : Int) := by rw [← zpow_add₀ htwo]; congr 1; ring
      _ ≤ n := two_zpow_log2_le hn
  · rw [div_lt_iff₀ hd']
    calc (n : ℚ) < 2 ^ ((n.log2 : Int) + 1) := lt_two_zpow_log2 n
      _ = 2 ^ ((n.log2 : Int) - d.log2 + 1) * 2 ^ (d.log2 : Int) := by rw [← zpow_add₀ htwo]; congr 1; ring
      _ ≤ 2 ^ ((n.log2 : Int) - d.log2 + 1) * d := by
          gcongr
          exact two_zpow_log2_le hd

theorem ratioPower_bounds {n d : Nat} (hn : n ≠ 0) (hd : d ≠ 0) :
    -1074 ≤ ratioPower n d ∧ (n / d : ℚ) < 2 * hiddenBit * 2 ^ ratioPower n d ∧
      (ratioPower n d = -1074 ∨ (hiddenBit * 2 ^ ratioPower n d : ℚ) ≤ n / d) := by
  have hd' : (0 : ℚ) < d := by exact_mod_cast Nat.pos_of_ne_zero hd
  have htwo : (2 : ℚ) ≠ 0 := two_ne_zero
  have hhidden : (hiddenBit : ℚ) = 2 ^ (52 : Int) := by norm_num [hiddenBit]
  obtain ⟨hlow, hhigh⟩ := ratio_bounds hn hd
  have hcut (p : Int) : n * natPower 2 (-p) < hiddenBit * (d * natPower 2 p) ↔ (n / d : ℚ) < hiddenBit * 2 ^ p := by
    have hscale : (0 : ℚ) < natPower 2 (-p) := by exact_mod_cast natPower_pos (by decide) (-p)
    have hright : ((hiddenBit * (d * natPower 2 p) : Nat) : ℚ) = hiddenBit * 2 ^ p * d * natPower 2 (-p) := by
      push_cast
      rw [natPower_eq 2 (by decide) p]
      push_cast
      ring
    rw [← Nat.cast_lt (α := ℚ), hright, Nat.cast_mul, mul_lt_mul_iff_left₀ hscale, div_lt_iff₀ hd']
  obtain ⟨normal, hpower, hfits, hfull⟩ : ∃ normal, ratioPower n d = max normal (-1074) ∧
      (n / d : ℚ) < 2 * hiddenBit * 2 ^ normal ∧ (hiddenBit * 2 ^ normal : ℚ) ≤ n / d := by
    refine ⟨_, rfl, ?_⟩
    split
    · rename_i h
      rw [hcut] at h
      constructor
      · calc (n / d : ℚ) < hiddenBit * 2 ^ ((n.log2 : Int) - d.log2 - 53 + 1) := h
          _ = 2 * hiddenBit * 2 ^ ((n.log2 : Int) - d.log2 - 53) := by rw [zpow_add_one₀ htwo]; ring
      · rw [hhidden, ← zpow_add₀ htwo, show 52 + ((n.log2 : Int) - d.log2 - 53) = n.log2 - d.log2 - 1 by ring]
        exact hlow.le
    · rename_i h
      rw [hcut, not_lt] at h
      refine ⟨?_, h⟩
      calc (n / d : ℚ) < 2 ^ ((n.log2 : Int) - d.log2 + 1) := hhigh
        _ = 2 * hiddenBit * 2 ^ ((n.log2 : Int) - d.log2 - 53 + 1) := by
            rw [hhidden, ← zpow_one_add₀ htwo, ← zpow_add₀ htwo]
            congr 1
            ring
  rw [hpower]
  refine ⟨le_max_right _ _, hfits.trans_le ?_, ?_⟩
  · gcongr
    · norm_num
    · exact le_max_left _ _
  · rcases max_choice normal (-1074) with h | h
    · rw [h]
      exact .inr hfull
    · exact .inl h

theorem significand_of_rank {e : Double} {m k : Nat} (hrank : e.rank = m + k * hiddenBit) (hm : m ≤ 2 * hiddenBit)
    (hfull : k = 0 ∨ hiddenBit ≤ m) :
    e.significand = m ∧ e.placeShift = k ∧
        (e.fraction.val = 0 ∧ 1 < e.exponent.val → m = hiddenBit ∧ k ≠ 0) ∨
      m = 2 * hiddenBit ∧ e.significand = hiddenBit ∧ e.placeShift = k + 1 := by
  have hfraction := e.fraction.isLt
  simp only [rank, hiddenBit] at *
  simp only [significand, placeShift, hiddenBit]
  by_cases hzero : e.exponent.val = 0
  · rw [if_pos hzero]
    omega
  · rw [if_neg hzero]
    omega

theorem covers_of_limits {e : Double} {x : ℚ}
    (hlow : (e.lowQuarters * 2 ^ e.placeShift : ℚ) ≤ x / leastQuarter)
    (hhigh : x / leastQuarter ≤ e.highQuarters * 2 ^ e.placeShift)
    (hodd : e.significand % 2 ≠ 0 → (e.lowQuarters * 2 ^ e.placeShift : ℚ) < x / leastQuarter ∧
      x / leastQuarter < e.highQuarters * 2 ^ e.placeShift) : e.interval.Covers x := by
  rw [covers_iff]
  push_cast
  split
  · exact ⟨hlow, hhigh⟩
  · rename_i h
    exact hodd h

theorem covers_of_significand {e : Double} {x q : ℚ} {m k : Nat} (hsig : e.significand = m) (hplace : e.placeShift = k)
    (hq : x / leastQuarter = 4 * q * 2 ^ k) (hpos : 0 ≤ q) (hround : IsRounded m q)
    (hleast : e.fraction.val = 0 ∧ 1 < e.exponent.val → m = hiddenBit ∧ (hiddenBit : ℚ) ≤ q) :
    e.interval.Covers x := by
  have hscale : (0 : ℚ) < 2 ^ k := by positivity
  have hlow : (e.lowQuarters : ℚ) ≤ 4 * q ∧ (m % 2 ≠ 0 → (e.lowQuarters : ℚ) < 4 * q) := by
    rw [lowQuarters, hsig]
    split
    · rename_i h
      obtain ⟨rfl, hfull⟩ := hleast h
      have hcast : ((4 * hiddenBit - 1 : Nat) : ℚ) = 4 * hiddenBit - 1 := by norm_num [hiddenBit]
      rw [hcast]
      exact ⟨by linarith, fun _ => by linarith⟩
    · rcases Nat.eq_zero_or_pos m with rfl | hmpos
      · simpa using hpos
      · have hcast : ((4 * m - 2 : Nat) : ℚ) = 4 * m - 2 := by
          rw [Nat.cast_sub (by omega)]
          push_cast
          ring
        rw [hcast]
        exact ⟨by linarith [hround.low], fun h => by linarith [(hround.odd h).1]⟩
  have hhigh : (e.highQuarters : ℚ) = 4 * m + 2 := by
    rw [highQuarters, hsig]
    push_cast
    ring
  apply covers_of_limits
  · rw [hplace, hq]
    exact mul_le_mul_of_nonneg_right hlow.1 hscale.le
  · rw [hplace, hq, hhigh]
    exact mul_le_mul_of_nonneg_right (by linarith [hround.high]) hscale.le
  · intro hodd
    rw [hsig] at hodd
    rw [hplace, hq, hhigh]
    exact ⟨mul_lt_mul_of_pos_right (hlow.2 hodd) hscale,
      mul_lt_mul_of_pos_right (by linarith [(hround.odd hodd).2]) hscale⟩

theorem covers_of_carry {e : Double} {x q : ℚ} {k : Nat} (hsig : e.significand = hiddenBit)
    (hplace : e.placeShift = k + 1) (hq : x / leastQuarter = 4 * q * 2 ^ k) (hround : IsRounded (2 * hiddenBit) q) :
    e.interval.Covers x := by
  have hscale : (0 : ℚ) < 2 ^ k := by positivity
  have hlow : (e.lowQuarters : ℚ) ≤ 4 * hiddenBit - 1 := by
    rw [lowQuarters, hsig]
    split <;> norm_num [hiddenBit]
  have hhigh : (e.highQuarters : ℚ) = 4 * hiddenBit + 2 := by
    rw [highQuarters, hsig]
    push_cast
    ring
  have hnear := hround.low
  have hnear' := hround.high
  push_cast at hnear hnear'
  apply covers_of_limits
  · rw [hplace, hq, pow_succ', ← mul_assoc]
    exact mul_le_mul_of_nonneg_right (by linarith) hscale.le
  · rw [hplace, hq, hhigh, pow_succ', ← mul_assoc]
    exact mul_le_mul_of_nonneg_right (by linarith) hscale.le
  · intro hodd
    rw [hsig] at hodd
    exact absurd rfl hodd

theorem covers_of_rank {e : Double} {x q : ℚ} {m k : Nat} (hrank : e.rank = m + k * hiddenBit)
    (hm : m ≤ 2 * hiddenBit) (hq : x / leastQuarter = 4 * q * 2 ^ k) (hpos : 0 ≤ q) (hround : IsRounded m q)
    (hfull : k = 0 ∨ (hiddenBit : ℚ) ≤ q) : e.interval.Covers x := by
  have hfull' : k = 0 ∨ hiddenBit ≤ m := by
    refine hfull.imp_right fun h => ?_
    have hhigh := hround.high
    have : (hiddenBit : ℚ) < m + 1 := by linarith
    exact Nat.lt_succ_iff.mp (by exact_mod_cast this)
  rcases significand_of_rank hrank hm hfull' with ⟨hsig, hplace, hleast⟩ | ⟨rfl, hsig, hplace⟩
  · exact covers_of_significand hsig hplace hq hpos hround fun h => ⟨(hleast h).1, hfull.resolve_left (hleast h).2⟩
  · exact covers_of_carry hsig hplace hq hround

theorem negative_ofRank (negative : Bool) (r : Nat) : (ofRank negative r).negative = negative := rfl

theorem rank_ofRank (negative : Bool) {r : Nat} (h : r ≤ infinityRank) : (ofRank negative r).rank = r := by
  simp only [infinityRank, hiddenBit] at h
  simp only [ofRank, rank, infinityRank, hiddenBit]
  omega

theorem le_highQuarters_of_covers {d : Double} {x : ℚ} (h : d.interval.Covers x) :
    x / leastQuarter ≤ d.highQuarters * 2 ^ d.placeShift := by
  rw [covers_iff] at h
  push_cast at h
  split at h
  · exact h.2
  · exact h.2.le

theorem placeShift_le {d : Double} (hf : d.isFinite = true) : d.placeShift ≤ 2045 := by
  have := d.exponent.isLt
  simp only [isFinite, bne_iff_ne, ne_eq] at hf
  rw [placeShift]
  omega

theorem highQuarters_lt {d : Double} {j : Nat} (hj : d.placeShift < j) :
    (d.highQuarters * 2 ^ d.placeShift : ℚ) < 4 * hiddenBit * 2 ^ j := by
  have hhigh : d.highQuarters < 8 * hiddenBit := by
    have := d.significand_lt
    simp only [highQuarters, hiddenBit] at *
    omega
  have hhigh' : (d.highQuarters : ℚ) < 8 * hiddenBit := by exact_mod_cast hhigh
  calc (d.highQuarters * 2 ^ d.placeShift : ℚ) < 8 * hiddenBit * 2 ^ d.placeShift :=
        mul_lt_mul_of_pos_right hhigh' (by positivity)
    _ = 4 * hiddenBit * 2 ^ (d.placeShift + 1) := by rw [pow_succ]; ring
    _ ≤ 4 * hiddenBit * 2 ^ j := by
        gcongr
        · norm_num
        · exact hj

theorem ofRatio_of_covers {d : Double} {n k : Nat} (hf : d.isFinite = true) (hn : n ≠ 0) (hk : k ≠ 0)
    (h : d.interval.Covers (n / k)) : ofRatio d.negative n k = d := by
  obtain ⟨hleast, hfits, hfull⟩ := ratioPower_bounds hn hk
  have hround := isRounded_scaled n (Nat.pos_of_ne_zero hk) (ratioPower n k)
  rw [ofRatio, if_neg hn]
  dsimp only
  generalize ratioPower n k = p at *
  generalize scaled n k p = m at *
  obtain ⟨j, rfl⟩ : ∃ j : Nat, p = j - 1074 := ⟨(p + 1074).toNat, by omega⟩
  have hplace : ((j - 1074 : Int) + 1074).toNat = j := by omega
  have hscale : (0 : ℚ) < 2 ^ ((j : Int) - 1074) := by positivity
  have hfour : (2 : ℚ) ^ (2 : Int) = 4 := by norm_num
  have hplaces : (2 : ℚ) ^ ((j : Int) - 1074) = 4 * 2 ^ j * leastQuarter := by
    rw [leastQuarter, show (j : Int) - 1074 = 2 + j + -1076 by ring, zpow_add₀ two_ne_zero, zpow_add₀ two_ne_zero,
      zpow_natCast, hfour]
  have hq : (n / k : ℚ) / leastQuarter = 4 * (n / k / 2 ^ ((j : Int) - 1074)) * 2 ^ j := by
    have hquarter := leastQuarter_pos.ne'
    rw [hplaces]
    field_simp
  rw [← div_lt_iff₀ hscale] at hfits
  rw [← le_div_iff₀ hscale] at hfull
  have hpos : (0 : ℚ) ≤ n / k / 2 ^ ((j : Int) - 1074) := by positivity
  generalize (n / k / 2 ^ ((j : Int) - 1074) : ℚ) = q at *
  have hm : m ≤ 2 * hiddenBit := by
    have hlow := hround.low
    have : (m : ℚ) < 2 * hiddenBit + 1 := by linarith
    exact Nat.lt_succ_iff.mp (by exact_mod_cast this)
  have hfull' : j = 0 ∨ (hiddenBit : ℚ) ≤ q := hfull.imp_left fun hj => by omega
  rw [hplace]
  by_cases hrank : m + j * hiddenBit ≤ infinityRank
  · have hcovers := covers_of_rank (rank_ofRank d.negative hrank) hm hq hpos hround hfull'
    exact eq_of_rank (negative_ofRank _ _) (rank_eq_of_covers hcovers h)
  · -- Past the last rank the place is so large that no finite float covers the ratio.
    have hj : 2046 ≤ j := by
      simp only [infinityRank, hiddenBit] at *
      omega
    have hlarge := le_highQuarters_of_covers h
    have hsmall := highQuarters_lt (Nat.lt_of_le_of_lt (placeShift_le hf) hj)
    have hfull := hfull'.resolve_left (by omega)
    rw [hq] at hlarge
    have : (4 * hiddenBit * 2 ^ j : ℚ) ≤ 4 * q * 2 ^ j := by gcongr
    linarith

theorem leastQuarter_le_of_covers {d : Double} {x : ℚ} (hz : d.isZero = false) (h : d.interval.Covers x) :
    leastQuarter ≤ x := by
  have hlow : 1 ≤ d.lowQuarters * 2 ^ d.placeShift := by
    apply Nat.mul_pos _ (Nat.two_pow_pos _)
    simp only [isZero, Bool.and_eq_false_iff, beq_eq_false_iff_ne] at hz
    simp only [lowQuarters, significand, hiddenBit]
    split <;> split <;> omega
  have hlow' : (1 : ℚ) ≤ (d.lowQuarters * 2 ^ d.placeShift : Nat) := by exact_mod_cast hlow
  rw [covers_iff] at h
  have hx : 1 ≤ x / leastQuarter := by
    split at h
    · exact hlow'.trans h.1
    · exact hlow'.trans h.1.le
  rwa [le_div_iff₀ leastQuarter_pos, one_mul] at hx

theorem lt_of_covers {d : Double} {x : ℚ} (hf : d.isFinite = true) (h : d.interval.Covers x) :
    x < 2 ^ (1024 : Int) := by
  have hsmall := highQuarters_lt (Nat.lt_succ_of_le (placeShift_le hf))
  have hx := (le_highQuarters_of_covers h).trans_lt hsmall
  rw [div_lt_iff₀ leastQuarter_pos] at hx
  refine hx.trans_eq ?_
  have hhidden : (4 * hiddenBit : ℚ) = 2 ^ (54 : Int) := by norm_num [hiddenBit]
  rw [hhidden, leastQuarter, ← zpow_natCast, ← zpow_add₀ two_ne_zero, ← zpow_add₀ two_ne_zero]
  rfl

theorem two_zpow_lt_ten_zpow {q : Int} (h : 311 ≤ q) : (2 : ℚ) ^ (1024 : Int) < 10 ^ q := by
  have hstep : (2 : ℚ) ^ (93 : Int) < 10 ^ (28 : Int) := by norm_num
  calc (2 : ℚ) ^ (1024 : Int) = (2 ^ (93 : Int)) ^ (11 : Nat) * 2 := by
        rw [← zpow_natCast, ← zpow_mul, ← zpow_add_one₀ two_ne_zero]
        rfl
    _ ≤ (10 ^ (28 : Int)) ^ (11 : Nat) * 10 := by gcongr; norm_num
    _ = 10 ^ (309 : Int) := by
        rw [← zpow_natCast, ← zpow_mul, ← zpow_add_one₀ (by norm_num)]
        rfl
    _ < 10 ^ q := zpow_lt_zpow_right₀ (by norm_num) (by omega)

theorem lt_ten_zpow_of_log2 (n : Nat) : (n : ℚ) < 10 ^ ((n.log2 : Int) / 3 + 1) := by
  calc (n : ℚ) < 2 ^ ((n.log2 : Int) + 1) := lt_two_zpow_log2 n
    _ ≤ 2 ^ (3 * ((n.log2 : Int) / 3 + 1)) := by gcongr; norm_num; omega
    _ = (2 ^ (3 : Int)) ^ ((n.log2 : Int) / 3 + 1) := zpow_mul _ _ _
    _ ≤ 10 ^ ((n.log2 : Int) / 3 + 1) := zpow_le_zpow_left₀ (by omega) (by norm_num) (by norm_num)

theorem ten_zpow_log2_le {n : Nat} (hn : n ≠ 0) : (10 : ℚ) ^ ((n.log2 : Int) / 4) ≤ n := by
  calc (10 : ℚ) ^ ((n.log2 : Int) / 4) ≤ (2 ^ (4 : Int)) ^ ((n.log2 : Int) / 4) :=
        zpow_le_zpow_left₀ (by omega) (by norm_num) (by norm_num)
    _ = 2 ^ (4 * ((n.log2 : Int) / 4)) := (zpow_mul _ _ _).symm
    _ ≤ 2 ^ (n.log2 : Int) := by gcongr; norm_num; omega
    _ ≤ n := two_zpow_log2_le hn

theorem ofDecimal_of_covers {d : Double} {n : Nat} {e : Int} (hf : d.isFinite = true) (hz : d.isZero = false)
    (h : d.interval.Covers (n * 10 ^ e)) : ofDecimal d.negative n e = d := by
  have hn : n ≠ 0 := by
    rintro rfl
    have := pos_of_covers hz h
    simp at this
  have hten : (10 : ℚ) ≠ 0 := by norm_num
  have hpos : (0 : ℚ) < 10 ^ e := by positivity
  have hsmall : ¬e + (n.log2 : Int) / 3 + 1 < -330 := by
    intro hcut
    refine absurd (leastQuarter_le_of_covers hz h) (not_le_of_gt ?_)
    calc (n * 10 ^ e : ℚ) < 10 ^ ((n.log2 : Int) / 3 + 1) * 10 ^ e :=
          mul_lt_mul_of_pos_right (lt_ten_zpow_of_log2 n) hpos
      _ = 10 ^ (e + (n.log2 : Int) / 3 + 1) := by rw [← zpow_add₀ hten]; congr 1; ring
      _ ≤ 10 ^ (-331 : Int) := zpow_le_zpow_right₀ (by norm_num) (by omega)
      _ < leastQuarter := ten_zpow_lt_two_zpow (by norm_num)
  have hlarge : ¬310 < e + (n.log2 : Int) / 4 := by
    intro hcut
    refine absurd (lt_of_covers hf h) (not_lt_of_ge (le_of_lt ?_))
    calc (2 : ℚ) ^ (1024 : Int) < 10 ^ (e + (n.log2 : Int) / 4) := two_zpow_lt_ten_zpow (by omega)
      _ = 10 ^ ((n.log2 : Int) / 4) * 10 ^ e := by rw [← zpow_add₀ hten, add_comm]
      _ ≤ n * 10 ^ e := mul_le_mul_of_nonneg_right (ten_zpow_log2_le hn) hpos.le
  have hratio : ((n * natPower 10 e : Nat) : ℚ) / (natPower 10 (-e) : Nat) = n * 10 ^ e := by
    have hscale : (natPower 10 (-e) : ℚ) ≠ 0 := by exact_mod_cast (natPower_pos (by decide) (-e)).ne'
    push_cast
    rw [natPower_eq 10 (by decide) e]
    push_cast
    field_simp
  rw [← hratio] at h
  rw [ofDecimal, if_neg hn]
  dsimp only
  rw [if_neg hsmall, if_neg hlarge]
  exact ofRatio_of_covers hf (Nat.mul_ne_zero hn (natPower_pos (by decide) e).ne')
    (natPower_pos (by decide) (-e)).ne' h

end PolicyYaml.Double

namespace PolicyYaml.FloatLayout

theorem toDouble_of_chars (layout : FloatLayout) {d : Double} (hf : d.isFinite = true) :
    ∃ dec, Decimal.ofChars? (layout.chars d) = some dec ∧ dec.toDouble = d := by
  obtain ⟨dec, hread, hsign, hvalue⟩ := ofChars?_chars layout hf
  refine ⟨dec, hread, ?_⟩
  rw [Decimal.toDouble, hsign]
  cases hz : d.isZero with
  | false =>
    simp only [hz, Bool.false_eq_true, ↓reduceIte] at hvalue
    exact Double.ofDecimal_of_covers hf hz hvalue
  | true =>
    simp only [hz, ↓reduceIte, Decimal.magnitude] at hvalue
    have hdigits : dec.digits = 0 := by
      rcases mul_eq_zero.mp hvalue with h | h
      · exact_mod_cast h
      · exact absurd h (by positivity)
    rw [Double.ofDecimal, if_pos hdigits]
    apply Double.eq_of_rank (Double.negative_ofRank _ _)
    rw [Double.rank_ofRank _ (Nat.zero_le _), Double.rank_of_isZero hz]

end PolicyYaml.FloatLayout
