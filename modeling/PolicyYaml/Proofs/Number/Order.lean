import PolicyYaml.Proofs.Number.Units

namespace PolicyYaml

namespace Double

theorem magnitudeUnits_twoPow63 (negative : Bool) :
    (twoPow63 negative).magnitudeUnits = 2 ^ 63 * unitsPerOne := by
  have hpower : (twoPow63 negative).power = 11 := by simp [power, twoPow63]
  have hsignificand : (twoPow63 negative).significand = hiddenBit := by simp [significand, twoPow63]
  have hproduct : hiddenBit * natPower 2 11 = 2 ^ 63 := by decide
  rw [magnitudeUnits_eq_of_nonneg (by rw [hpower]; decide), hpower, hsignificand, hproduct]

theorem compare_twoPow63_eq_lt_iff {d : Double} (h : d.isNaN = false) :
    d.compare (twoPow63 false) = .lt ↔ d.units < 2 ^ 63 * unitsPerOne := by
  rw [compare_eq_compare_units h rfl, units_of_isNaN_eq_false (d := twoPow63 false) rfl,
    magnitudeUnits_twoPow63, Int.compare_eq_lt]
  simp [twoPow63]

theorem compare_neg_twoPow63_eq_lt_iff {d : Double} (h : d.isNaN = false) :
    d.compare (twoPow63 true) = .lt ↔ d.units < -(2 ^ 63 * unitsPerOne) := by
  rw [compare_eq_compare_units h rfl, units_of_isNaN_eq_false (d := twoPow63 true) rfl,
    magnitudeUnits_twoPow63, Int.compare_eq_lt]
  simp [twoPow63]

theorem toInt_wholeInt64 {d : Double} (h : d.isNaN = false) (hlow : -(2 ^ 63 * unitsPerOne) ≤ d.units)
    (hhigh : d.units < 2 ^ 63 * unitsPerOne) : d.wholeInt64.toInt = d.units.tdiv unitsPerOne := by
  have hone : (0 : Int) < unitsPerOne := by exact_mod_cast unitsPerOne_pos
  have hdiv := Int.mul_tdiv_add_tmod d.units unitsPerOne
  have hrest := Int.tmod_lt_of_pos d.units hone
  have hrest' := Int.lt_tmod_of_pos d.units hone
  rw [wholeInt64, whole_eq h]
  apply Int64.toInt_ofInt_of_le
  · by_contra hlt
    nlinarith
  · by_contra hge
    rcases Int.le_total 0 d.units with hsign | hsign
    · have := Int.tmod_nonneg unitsPerOne hsign
      nlinarith
    · nlinarith

theorem compare_zero_tmod {d : Double} (h : d.isNaN = false) :
    Ord.compare 0 (d.units.tmod unitsPerOne) =
      if d.hasFraction then (if d.negative then .gt else .lt) else .eq := by
  have hfraction := hasFraction_iff_tmod h
  cases hf : d.hasFraction with
  | false =>
    have hzero : d.units.tmod unitsPerOne = 0 := by simpa [hf] using hfraction
    rw [hzero]
    rfl
  | true =>
    have hne := hfraction.mp hf
    have hunits := units_of_isNaN_eq_false h
    cases hn : d.negative with
    | false =>
      have hsign := Int.tmod_nonneg (a := d.units) unitsPerOne (by rw [hunits, hn]; simp)
      exact Int.compare_eq_lt.mpr (by omega)
    | true =>
      have hsign := Int.tmod_nonneg (a := -d.units) unitsPerOne (by rw [hunits, hn]; simp)
      rw [Int.neg_tmod] at hsign
      exact Int.compare_eq_gt.mpr (by omega)

theorem inInt64Range_iff {d : Double} (h : d.isNaN = false) :
    d.inInt64Range = true ↔ -(2 ^ 63 * unitsPerOne) ≤ d.units ∧ d.units < 2 ^ 63 * unitsPerOne := by
  have hlow := compare_neg_twoPow63_eq_lt_iff h
  have hhigh := compare_twoPow63_eq_lt_iff h
  rw [inInt64Range, h, Bool.not_false, Bool.true_and, Bool.and_eq_true, bne_iff_ne, beq_iff_eq, hhigh, ne_eq, hlow,
    Int.not_lt]

theorem isFinite_of_inInt64Range {d : Double} (h : d.isNaN = false) (hrange : d.inInt64Range = true) :
    d.isFinite = true := by
  rw [isFinite_iff]
  refine ⟨h, Bool.eq_false_iff.mpr fun hinf => ?_⟩
  obtain ⟨hlow, hhigh⟩ := (inInt64Range_iff h).mp hrange
  have hrank : (twoPow63 false).rank < d.rank := by
    rw [rank_of_isInfinite hinf]
    decide
  have hlt := magnitudeUnits_lt_of_rank_lt hrank
  rw [magnitudeUnits_twoPow63] at hlt
  have hlt' : (2 ^ 63 * unitsPerOne : Int) < d.magnitudeUnits := by exact_mod_cast hlt
  rw [units_of_isNaN_eq_false h] at hlow hhigh
  cases hn : d.negative <;> simp only [hn, Bool.false_eq_true, ↓reduceIte] at hlow hhigh <;> linarith

end Double

theorem compare_mul_add {i q r u : Int} (hlow : -u < r) (hhigh : r < u) :
    Ord.compare (i * u) (u * q + r) = (Ord.compare i q).then (Ord.compare 0 r) := by
  rcases Int.lt_trichotomy i q with h | rfl | h
  · rw [Int.compare_eq_lt.mpr h]
    exact Int.compare_eq_lt.mpr (by nlinarith)
  · rw [Int.compare_eq_eq.mpr rfl]
    apply compareInt_congr
    · constructor <;> intro <;> linarith
    · constructor <;> intro <;> linarith
  · rw [Int.compare_eq_gt.mpr h]
    exact Int.compare_eq_gt.mpr (by nlinarith)

theorem compareInt64_eq (i j : Int64) : Ord.compare i j = Ord.compare i.toInt j.toInt := by
  change compareOfLessAndEq i j = compareOfLessAndEq i.toInt j.toInt
  simp only [compareOfLessAndEq, Int64.lt_iff_toInt_lt, Int64.toInt_inj]

namespace Number

theorem compareIntDouble_eq (i : Int64) {d : Double} (h : d.isNaN = false) :
    compareIntDouble i d = Ord.compare (i.toInt * Double.unitsPerOne) d.units := by
  have hone : (0 : Int) < Double.unitsPerOne := by exact_mod_cast Double.unitsPerOne_pos
  have hmin := i.le_toInt
  have hmax := i.toInt_lt
  have hhigh := Double.compare_twoPow63_eq_lt_iff h
  have hlow := Double.compare_neg_twoPow63_eq_lt_iff h
  rw [compareIntDouble, h]
  by_cases hd : d.compare (Double.twoPow63 false) = .lt
  · by_cases hd' : d.compare (Double.twoPow63 true) = .lt
    · have hlt := hlow.mp hd'
      have hgt : Ord.compare (i.toInt * Double.unitsPerOne) d.units = .gt := Int.compare_eq_gt.mpr (by nlinarith)
      simp [hd, hd', hgt]
    · have hwhole := Double.toInt_wholeInt64 h (Int.not_lt.mp fun hlt => hd' (hlow.mpr hlt)) (hhigh.mp hd)
      have hsplit := compare_mul_add (i := i.toInt) (q := d.units.tdiv Double.unitsPerOne)
        (Int.lt_tmod_of_pos d.units hone) (Int.tmod_lt_of_pos d.units hone)
      rw [Int.mul_tdiv_add_tmod, ← hwhole, ← compareInt64_eq, Double.compare_zero_tmod h] at hsplit
      rw [hsplit]
      simp only [hd, hd', Bool.false_or, bne_self_eq_false, Bool.false_eq_true, ↓reduceIte, beq_iff_eq]
      cases Ord.compare i d.wholeInt64 <;> rfl
  · have hge := Int.not_lt.mp fun hlt => hd (hhigh.mpr hlt)
    have hlt : Ord.compare (i.toInt * Double.unitsPerOne) d.units = .lt := Int.compare_eq_lt.mpr (by nlinarith)
    simp [hd, hlt]

def isNaN : Number → Bool
  | .int _ => false
  | .float d => d.isNaN

def units : Number → Int
  | .int i => i.toInt * Double.unitsPerOne
  | .float d => d.units

theorem units_of_isNaN {n : Number} (h : n.isNaN = true) : n.units = 0 := by
  cases n with
  | int i => contradiction
  | float d => exact Double.units_of_isNaN h

theorem compare_int_float (i : Int64) (d : Double) :
    (int i).compare (float d) = compareLex (compareOn isNaN) (compareOn units) (int i) (float d) := by
  rw [compare, compareLex, compareOn, compareOn]
  cases hd : d.isNaN with
  | false =>
    rw [compareIntDouble_eq i hd, isNaN, isNaN, hd]
    rfl
  | true =>
    rw [compareIntDouble, isNaN, isNaN, hd]
    rfl

theorem compare_eq_compareLex (m n : Number) :
    m.compare n = compareLex (compareOn isNaN) (compareOn units) m n := by
  cases m with
  | int i =>
    cases n with
    | int j =>
      have hone : (0 : Int) < Double.unitsPerOne := by exact_mod_cast Double.unitsPerOne_pos
      rw [compare, compareInt64_eq]
      apply compareInt_congr
      · exact (Int.mul_lt_mul_right hone).symm
      · exact (Int.mul_lt_mul_right hone).symm
    | float e => exact compare_int_float i e
  | float d =>
    cases n with
    | int j =>
      have hswap := compare_int_float j d
      rw [compare] at hswap
      rw [compare, hswap]
      exact Std.OrientedCmp.eq_swap.symm
    | float e => exact Double.compare_eq_compareLex d e

instance : Std.TransCmp Number.compare := by
  have h : Number.compare = compareLex (compareOn isNaN) (compareOn units) :=
    funext fun m => funext fun n => compare_eq_compareLex m n
  rw [h]
  infer_instance

theorem compare_eq_iff (m n : Number) : m.compare n = .eq ↔ m.isNaN = n.isNaN ∧ m.units = n.units := by
  rw [compare_eq_compareLex, compareLex, Ordering.then_eq_eq, compareOn, compareOn, Std.compare_eq_iff_eq,
    Std.compare_eq_iff_eq]

theorem float_toInt64?_eq_some_iff (d : Double) (i : Int64) :
    (float d).toInt64? = some i ↔ d.isNaN = false ∧ d.units = i.toInt * Double.unitsPerOne := by
  have hone : (0 : Int) < Double.unitsPerOne := by exact_mod_cast Double.unitsPerOne_pos
  constructor
  · intro h
    rw [toInt64?] at h
    split at h
    · rename_i hd
      rw [Bool.and_eq_true, Bool.and_eq_true, Bool.not_eq_true'] at hd
      obtain ⟨⟨hfinite, hfraction⟩, hrange⟩ := hd
      have hnan := ((Double.isFinite_iff d).mp hfinite).1
      obtain ⟨hlow, hhigh⟩ := (Double.inInt64Range_iff hnan).mp hrange
      have hrest : d.units.tmod Double.unitsPerOne = 0 := by
        by_contra hne
        rw [(Double.hasFraction_iff_tmod hnan).mpr hne] at hfraction
        contradiction
      cases h
      refine ⟨hnan, ?_⟩
      rw [Double.toInt_wholeInt64 hnan hlow hhigh, Int.tdiv_mul_cancel_of_tmod_eq_zero hrest]
    · contradiction
  · rintro ⟨hnan, hunits⟩
    have hmin := i.le_toInt
    have hmax := i.toInt_lt
    have hlow : -(2 ^ 63 * Double.unitsPerOne) ≤ d.units := by rw [hunits]; nlinarith
    have hhigh : d.units < 2 ^ 63 * Double.unitsPerOne := by rw [hunits]; nlinarith
    have hrange := (Double.inInt64Range_iff hnan).mpr ⟨hlow, hhigh⟩
    have hfraction : d.hasFraction = false := by
      rw [Bool.eq_false_iff, ne_eq, Double.hasFraction_iff_tmod hnan, not_not, hunits, Int.mul_tmod_left]
    have hwhole : d.wholeInt64 = i := by
      apply Int64.toInt_inj.mp
      rw [Double.toInt_wholeInt64 hnan hlow hhigh, hunits, Int.mul_tdiv_cancel _ hone.ne']
    rw [toInt64?, Double.isFinite_of_inInt64Range hnan hrange, hfraction, hrange, hwhole]
    rfl

theorem toInt64?_eq_some_iff (n : Number) (i : Int64) :
    n.toInt64? = some i ↔ n.isNaN = false ∧ n.units = i.toInt * Double.unitsPerOne := by
  cases n with
  | int j =>
    have hone : (Double.unitsPerOne : Int) ≠ 0 := by exact_mod_cast Double.unitsPerOne_pos.ne'
    rw [toInt64?, Option.some.injEq, isNaN, units, Int.mul_eq_mul_right_iff hone, Int64.toInt_inj]
    exact (and_iff_right rfl).symm
  | float d => exact float_toInt64?_eq_some_iff d i

end Number

end PolicyYaml
