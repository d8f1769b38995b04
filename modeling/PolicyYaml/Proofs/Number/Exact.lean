import Mathlib.Order.Compare
import Mathlib.Order.WithBot
import PolicyYaml.Proofs.Number.Order

/-!
The exact values of numbers, on a line of the rationals between two infinities with NaN past its end. The order of
numbers is the order of that line, and a number is an integer exactly if it equals one of 64 bits.
-/

namespace PolicyYaml

abbrev ExtendedRat := WithBot (WithTop ℚ)

abbrev ExactValue := WithTop ExtendedRat

namespace Double

def magnitude (d : Double) : ℚ :=
  if d.exponent.val = 0 then d.fraction.val / 2 ^ 52 * 2 ^ (-1022 : ℤ)
  else (1 + d.fraction.val / 2 ^ 52) * 2 ^ ((d.exponent.val : ℤ) - 1023)

def rational (d : Double) : ℚ := if d.negative then -d.magnitude else d.magnitude

def exact (d : Double) : ExactValue :=
  if d.isNaN then ⊤
  else if d.isInfinite then ((if d.negative then ⊥ else ⊤ : ExtendedRat) : ExactValue)
  else (((d.rational : WithTop ℚ) : ExtendedRat) : ExactValue)

theorem unitsPerOne_eq : (unitsPerOne : ℚ) = 2 ^ (1074 : ℤ) := by
  rw [unitsPerOne, natPower_eq 2 (by decide)]
  simp [natPower]

theorem magnitude_mul_unitsPerOne (d : Double) : d.magnitude * unitsPerOne = d.magnitudeUnits := by
  rw [unitsPerOne_eq, magnitude, magnitudeUnits, significand, placeShift]
  by_cases he : d.exponent.val = 0
  · rw [if_pos he, if_pos he, he, mul_assoc, ← zpow_add₀ (by norm_num)]
    norm_num
  · obtain ⟨e, hexponent⟩ : ∃ e, d.exponent.val = e + 1 := ⟨d.exponent.val - 1, by omega⟩
    have hpower : ((d.exponent.val : ℤ) - 1023) + 1074 = 52 + (e : ℤ) := by omega
    rw [if_neg he, if_neg he, mul_assoc, ← zpow_add₀ (by norm_num), hpower, zpow_add₀ (by norm_num), zpow_natCast,
      hexponent, hiddenBit]
    push_cast
    norm_num
    ring

theorem rational_eq {d : Double} (h : d.isNaN = false) : d.rational = d.units / unitsPerOne := by
  have hone : (unitsPerOne : ℚ) ≠ 0 := by exact_mod_cast unitsPerOne_pos.ne'
  rw [eq_div_iff hone, rational, units_of_isNaN_eq_false h]
  cases d.negative with
  | true => simp [magnitude_mul_unitsPerOne]
  | false => simp [magnitude_mul_unitsPerOne]

def infinityUnits : Nat := (infinity false).magnitudeUnits

theorem magnitudeUnits_of_isInfinite {d : Double} (h : d.isInfinite = true) : d.magnitudeUnits = infinityUnits :=
  magnitudeUnits_eq_of_rank_eq ((rank_of_isInfinite h).trans (rank_of_isInfinite rfl).symm)

theorem rank_lt_of_isFinite {d : Double} (h : d.isFinite = true) : d.rank < infinityRank := by
  have hfraction := d.fraction.isLt
  have hexponent := d.exponent.isLt
  rw [isFinite, bne_iff_ne] at h
  simp only [rank, infinityRank, hiddenBit]
  omega

theorem magnitudeUnits_lt_of_isFinite {d : Double} (h : d.isFinite = true) : d.magnitudeUnits < infinityUnits := by
  apply magnitudeUnits_lt_of_rank_lt
  rw [rank_of_isInfinite (d := infinity false) rfl]
  exact rank_lt_of_isFinite h

theorem int64_units_lt (i : Int64) :
    -(infinityUnits : Int) < i.toInt * unitsPerOne ∧ i.toInt * unitsPerOne < infinityUnits := by
  have hpower := magnitudeUnits_lt_of_isFinite (d := twoPow63 false) rfl
  rw [magnitudeUnits_twoPow63] at hpower
  have hpower' : (2 ^ 63 * unitsPerOne : Int) < infinityUnits := by exact_mod_cast hpower
  have hone : (0 : Int) < unitsPerOne := by exact_mod_cast unitsPerOne_pos
  have hmin := i.le_toInt
  have hmax := i.toInt_lt
  constructor <;> nlinarith

end Double

namespace ExtendedRat

def ofUnits (u : Int) : ExtendedRat :=
  if u ≤ -(Double.infinityUnits : Int) then ⊥
  else if Double.infinityUnits ≤ u then ⊤
  else ((u / Double.unitsPerOne : ℚ) : WithTop ℚ)

theorem ofUnits_of_between {u : Int} (hlow : -(Double.infinityUnits : Int) < u) (hhigh : u < Double.infinityUnits) :
    ofUnits u = ((u / Double.unitsPerOne : ℚ) : WithTop ℚ) := by
  rw [ofUnits, if_neg (by omega), if_neg (by omega)]

theorem ofUnits_lt_ofUnits {u v : Int} (hlow : -(Double.infinityUnits : Int) ≤ u) (huv : u < v)
    (hhigh : v ≤ Double.infinityUnits) : ofUnits u < ofUnits v := by
  have hone : (0 : ℚ) < Double.unitsPerOne := by exact_mod_cast Double.unitsPerOne_pos
  rw [ofUnits, ofUnits, if_neg (not_le.mpr (hlow.trans_lt huv)), if_neg (not_le.mpr (huv.trans_le hhigh))]
  by_cases hu : u ≤ -(Double.infinityUnits : Int)
  · rw [if_pos hu]
    split <;> exact WithBot.bot_lt_coe _
  · rw [if_neg hu]
    split
    · exact WithBot.coe_lt_coe.mpr (WithTop.coe_lt_top _)
    · have hlt : (u / Double.unitsPerOne : ℚ) < v / Double.unitsPerOne :=
        (div_lt_div_iff_of_pos_right hone).mpr (by exact_mod_cast huv)
      exact WithBot.coe_lt_coe.mpr (WithTop.coe_lt_coe.mpr hlt)

theorem compare_ofUnits {u v : Int} (hu : -(Double.infinityUnits : Int) ≤ u ∧ u ≤ Double.infinityUnits)
    (hv : -(Double.infinityUnits : Int) ≤ v ∧ v ≤ Double.infinityUnits) :
    Ord.compare (ofUnits u) (ofUnits v) = Ord.compare u v := by
  rcases Int.lt_trichotomy u v with hlt | rfl | hgt
  · rw [Int.compare_eq_lt.mpr hlt, compare_lt_iff_lt]
    exact ofUnits_lt_ofUnits hu.1 hlt hv.2
  · rw [Int.compare_eq_eq.mpr rfl, compare_eq_iff_eq]
  · rw [Int.compare_eq_gt.mpr hgt, compare_gt_iff_gt]
    exact ofUnits_lt_ofUnits hv.1 hgt hu.2

end ExtendedRat

namespace Double

theorem units_bounds (d : Double) : -(infinityUnits : Int) ≤ d.units ∧ d.units ≤ infinityUnits := by
  cases hnan : d.isNaN with
  | true =>
    rw [units_of_isNaN hnan]
    exact ⟨by omega, by omega⟩
  | false =>
    have hle : d.magnitudeUnits ≤ infinityUnits := by
      cases hinf : d.isInfinite with
      | true => exact (magnitudeUnits_of_isInfinite hinf).le
      | false => exact (magnitudeUnits_lt_of_isFinite ((isFinite_iff d).mpr ⟨hnan, hinf⟩)).le
    rw [units_of_isNaN_eq_false hnan]
    split
    · exact ⟨by omega, by omega⟩
    · exact ⟨by omega, by omega⟩

theorem exact_eq_ofUnits {d : Double} (h : d.isNaN = false) : d.exact = (ExtendedRat.ofUnits d.units : ExactValue) := by
  rw [exact, if_neg (by simp [h])]
  cases hinf : d.isInfinite with
  | true =>
    have hunits := magnitudeUnits_of_isInfinite hinf
    have hpos : 0 < infinityUnits := Nat.zero_lt_of_lt (magnitudeUnits_lt_of_isFinite (d := zero) rfl)
    rw [if_pos rfl, units_of_isNaN_eq_false h, hunits, ExtendedRat.ofUnits]
    cases d.negative with
    | true => simp only [↓reduceIte, le_refl]
    | false =>
      have hlow : ¬(infinityUnits : Int) ≤ -(infinityUnits : Int) := by omega
      simp only [Bool.false_eq_true, ↓reduceIte, hlow, le_refl]
  | false =>
    have hlt := magnitudeUnits_lt_of_isFinite ((isFinite_iff d).mpr ⟨h, hinf⟩)
    have hunits := units_of_isNaN_eq_false h
    rw [if_neg (by simp), ExtendedRat.ofUnits_of_between, rational_eq h]
    · rw [hunits]
      split <;> omega
    · rw [hunits]
      split <;> omega

end Double

namespace Number

def exact : Number → ExactValue
  | .int i => (((i.toInt : ℚ) : WithTop ℚ) : ExtendedRat)
  | .float d => d.exact

theorem exact_of_isNaN {n : Number} (h : n.isNaN = true) : n.exact = ⊤ := by
  cases n with
  | int i => contradiction
  | float d => exact if_pos h

theorem exact_eq_ofUnits {n : Number} (h : n.isNaN = false) :
    n.exact = (ExtendedRat.ofUnits n.units : ExactValue) := by
  cases n with
  | int i =>
    have hone : (Double.unitsPerOne : ℚ) ≠ 0 := by exact_mod_cast Double.unitsPerOne_pos.ne'
    obtain ⟨hlow, hhigh⟩ := Double.int64_units_lt i
    rw [exact, units, ExtendedRat.ofUnits_of_between hlow hhigh]
    push_cast
    rw [mul_div_cancel_right₀ _ hone]
  | float d => exact Double.exact_eq_ofUnits h

theorem units_bounds (n : Number) :
    -(Double.infinityUnits : Int) ≤ n.units ∧ n.units ≤ Double.infinityUnits := by
  cases n with
  | int i => exact ⟨(Double.int64_units_lt i).1.le, (Double.int64_units_lt i).2.le⟩
  | float d => exact d.units_bounds

theorem compare_eq_compare_exact (m n : Number) : m.compare n = Ord.compare m.exact n.exact := by
  rw [compare_eq_compareLex, compareLex, compareOn, compareOn]
  cases hm : m.isNaN <;> cases hn : n.isNaN
  -- Without NaN the units decide, and no two of them from one infinity to the other share a place on the line.
  · have hexact := WithTop.coe_strictMono.cmp_map_eq (ExtendedRat.ofUnits m.units) (ExtendedRat.ofUnits n.units)
    rw [cmp_eq_compare, cmp_eq_compare, ExtendedRat.compare_ofUnits m.units_bounds n.units_bounds] at hexact
    rw [exact_eq_ofUnits hm, exact_eq_ofUnits hn, hexact]
    rfl
  · have hlt : m.exact < n.exact := by
      rw [exact_eq_ofUnits hm, exact_of_isNaN hn]
      exact WithTop.coe_lt_top _
    rw [compare_lt_iff_lt.mpr hlt]
    rfl
  · have hgt : n.exact < m.exact := by
      rw [exact_of_isNaN hm, exact_eq_ofUnits hn]
      exact WithTop.coe_lt_top _
    rw [compare_gt_iff_gt.mpr hgt]
    rfl
  · rw [exact_of_isNaN hm, exact_of_isNaN hn, units_of_isNaN hm, units_of_isNaN hn, compare_eq_iff_eq.mpr rfl]
    rfl

/-- The comparison of an integer with a float, where a conversion to 64 bits has no result out of their range. -/
def checkedCompareIntDouble (i : Int64) (d : Double) : Option Ordering :=
  if d.isNaN || d.compare (Double.twoPow63 false) != .lt then some .lt
  else if d.compare (Double.twoPow63 true) == .lt then some .gt
  else
    (if isInt64 d.whole then some (Int64.ofInt d.whole) else none).map fun whole =>
      match Ord.compare i whole with
      | .eq => if d.hasFraction then (if d.negative then .gt else .lt) else .eq
      | o => o

theorem isInt64_whole {d : Double} (hnan : d.isNaN = false) (hlow : ¬d.compare (Double.twoPow63 true) = .lt)
    (hhigh : d.compare (Double.twoPow63 false) = .lt) : isInt64 d.whole = true := by
  rw [Double.compare_neg_twoPow63_eq_lt_iff hnan, Int.not_lt] at hlow
  rw [Double.compare_twoPow63_eq_lt_iff hnan] at hhigh
  have hwhole := Double.toInt_wholeInt64 hnan hlow hhigh
  rw [← Double.whole_eq hnan] at hwhole
  rw [← hwhole, isInt64_iff]
  exact ⟨d.wholeInt64.le_toInt, d.wholeInt64.toInt_lt⟩

theorem checkedCompareIntDouble_eq (i : Int64) (d : Double) :
    checkedCompareIntDouble i d = some (compareIntDouble i d) := by
  rw [checkedCompareIntDouble, compareIntDouble]
  split
  · rfl
  · rename_i hfirst
    split
    · rfl
    · rename_i hlow
      rw [Bool.or_eq_true, bne_iff_ne, not_or, not_not, Bool.not_eq_true] at hfirst
      rw [beq_iff_eq] at hlow
      rw [isInt64_whole hfirst.1 hlow hfirst.2]
      rfl

theorem exists_threshold (d : Double) :
    ∃ (k : Int) (o : Ordering), ∀ i : Int64, (int i).compare (float d) = (Ord.compare i.toInt k).then o := by
  cases hnan : d.isNaN with
  | true =>
    refine ⟨2 ^ 63, .eq, fun i => ?_⟩
    have hlt : Ord.compare i.toInt (2 ^ 63) = .lt := Int.compare_eq_lt.mpr i.toInt_lt
    rw [compare, compareIntDouble, hnan, hlt]
    rfl
  | false =>
    have hone : (0 : Int) < Double.unitsPerOne := by exact_mod_cast Double.unitsPerOne_pos
    -- What the float has behind the point is less than one, so it counts only where the integers are equal.
    refine ⟨d.units.tdiv Double.unitsPerOne, Ord.compare 0 (d.units.tmod Double.unitsPerOne), fun i => ?_⟩
    rw [compare, compareIntDouble_eq i hnan, ← compare_mul_add (Int.lt_tmod_of_pos d.units hone)
      (Int.tmod_lt_of_pos d.units hone), Int.mul_tdiv_add_tmod]

theorem toInt64?_eq_some_iff_equal (n : Number) (i : Int64) :
    n.toInt64? = some i ↔ n.equal (int i) = true := by
  rw [toInt64?_eq_some_iff, equal, beq_iff_eq, compare_eq_iff]
  rfl

theorem isInteger_iff_equal (n : Number) : n.isInteger = true ↔ ∃ i : Int64, n.equal (int i) = true := by
  rw [isInteger, Option.isSome_iff_exists]
  exact exists_congr fun i => toInt64?_eq_some_iff_equal n i

theorem compare_exact :
    (∀ m n : Number, m.compare n = Ord.compare m.exact n.exact) ∧
      (∀ d, ∃ (k : Int) (o : Ordering), ∀ i : Int64,
        (int i).compare (float d) = (Ord.compare i.toInt k).then o) ∧
      (∀ i d, checkedCompareIntDouble i d = some (compareIntDouble i d)) ∧
      (∀ (n : Number) (i : Int64), n.toInt64? = some i ↔ n.equal (int i) = true) ∧
      ∀ n : Number, n.isInteger = true ↔ ∃ i : Int64, n.equal (int i) = true :=
  ⟨compare_eq_compare_exact, exists_threshold, checkedCompareIntDouble_eq, toInt64?_eq_some_iff_equal,
    isInteger_iff_equal⟩

example : (int 9007199254740993).compare (float ⟨false, 1076, 0⟩) = .gt ∧
    (int 9007199254740992).compare (float ⟨false, 1076, 0⟩) = .eq := by decide +kernel

end Number

end PolicyYaml
