import Mathlib.Tactic.NormNum
import PolicyYaml.Number.Text
import PolicyYaml.Proofs.Number.DecimalText
import PolicyYaml.Proofs.Number.Quarters

namespace PolicyYaml

namespace Double

theorem eq_of_rank {d e : Double} (hsign : d.negative = e.negative) (hrank : d.rank = e.rank) : d = e := by
  obtain ⟨_, exponent, fraction⟩ := d
  obtain ⟨_, exponent', fraction'⟩ := e
  have := fraction.isLt
  have := fraction'.isLt
  simp only [rank, hiddenBit] at hrank hsign
  have hexponent : exponent.val = exponent'.val := by omega
  have hfraction : fraction.val = fraction'.val := by omega
  rw [mk.injEq]
  exact ⟨hsign, Fin.ext hexponent, Fin.ext hfraction⟩

theorem rank_of_isZero {d : Double} (h : d.isZero = true) : d.rank = 0 := by
  simp only [isZero, Bool.and_eq_true, beq_iff_eq] at h
  simp [rank, h]

theorem rank_of_isInfinite {d : Double} (h : d.isInfinite = true) : d.rank = infinityRank := by
  simp only [isInfinite, Bool.and_eq_true, beq_iff_eq] at h
  simp [rank, infinityRank, h]

theorem isFinite_iff (d : Double) : d.isFinite = true ↔ d.isNaN = false ∧ d.isInfinite = false := by
  simp only [isFinite, isNaN, isInfinite]
  by_cases he : d.exponent.val = 2047 <;> by_cases hf : d.fraction.val = 0 <;> simp [he, hf]

theorem pos_of_covers {d : Double} {x : ℚ} (hz : d.isZero = false) (h : d.interval.Covers x) : 0 < x := by
  have hlow : 0 < d.lowQuarters * 2 ^ d.placeShift := by
    apply Nat.mul_pos _ (Nat.two_pow_pos _)
    simp only [isZero, Bool.and_eq_false_iff, beq_eq_false_iff_ne] at hz
    simp only [lowQuarters, significand, hiddenBit]
    split <;> split <;> omega
  have hlow' : (0 : ℚ) < (d.lowQuarters * 2 ^ d.placeShift : Nat) := by exact_mod_cast hlow
  rw [covers_iff] at h
  have hx : 0 < x / leastQuarter := by
    split at h
    · exact hlow'.trans_le h.1
    · exact hlow'.trans h.1
  exact (div_pos_iff_of_pos_right leastQuarter_pos).mp hx

end Double

namespace FloatLayout

theorem eq_of_chars_of_isFinite (layout : FloatLayout) {d e : Double} (hd : d.isFinite = true)
    (he : e.isFinite = true) (h : layout.chars d = layout.chars e) : d = e := by
  obtain ⟨dec, hread, hsign, hd⟩ := ofChars?_chars layout hd
  obtain ⟨dec', hread', hsign', he⟩ := ofChars?_chars layout he
  rw [h, hread'] at hread
  cases hread
  apply Double.eq_of_rank (hsign.symm.trans hsign')
  cases hdz : d.isZero <;> cases hez : e.isZero <;> simp only [hdz, hez, Bool.false_eq_true, ↓reduceIte] at hd he
  · exact Double.rank_eq_of_covers hd he
  · have := Double.pos_of_covers hdz hd
    linarith
  · have := Double.pos_of_covers hez he
    linarith
  · rw [Double.rank_of_isZero hdz, Double.rank_of_isZero hez]

end FloatLayout

namespace Number

theorem floatText_of_isNaN {d : Double} (h : d.isNaN = true) : floatText d = "NaN".toList := by
  simp [floatText, FloatLayout.chars, h, floatLayout]

theorem floatText_of_isInfinite {d : Double} (h : d.isInfinite = true) :
    floatText d = FloatLayout.sign d.negative ++ "inf".toList := by
  have hnan : d.isNaN = false := by
    simp only [Double.isInfinite, Bool.and_eq_true, beq_iff_eq] at h
    simp [Double.isNaN, h]
  simp [floatText, FloatLayout.chars, h, hnan, floatLayout]

theorem ofChars?_isSome_iff (d : Double) :
    (Decimal.ofChars? (floatText d)).isSome = true ↔ d.isFinite = true := by
  constructor
  · intro h
    rw [Double.isFinite_iff]
    constructor
    · by_contra hnan
      rw [floatText_of_isNaN (Bool.not_eq_false _ ▸ hnan)] at h
      exact absurd h (by decide)
    · by_contra hinf
      rw [floatText_of_isInfinite (Bool.not_eq_false _ ▸ hinf)] at h
      revert h
      cases d.negative <;> decide
  · intro h
    obtain ⟨dec, hread, -⟩ := FloatLayout.ofChars?_chars floatLayout h
    rw [floatText, hread]
    rfl

theorem infinity_ne_nan (negative : Bool) : FloatLayout.sign negative ++ "inf".toList ≠ "NaN".toList := by
  cases negative <;> decide

theorem oneNaN_eq_of_floatText {d e : Double} (h : floatText d = floatText e) : d.oneNaN = e.oneNaN := by
  by_cases hd : d.isFinite = true
  · have he : e.isFinite = true := by rwa [← ofChars?_isSome_iff, ← h, ofChars?_isSome_iff]
    rw [FloatLayout.eq_of_chars_of_isFinite floatLayout hd he h]
  have he : ¬e.isFinite = true := by rwa [← ofChars?_isSome_iff, ← h, ofChars?_isSome_iff]
  rw [Double.isFinite_iff] at hd he
  cases hdn : d.isNaN <;> cases hen : e.isNaN
  · have hdi : d.isInfinite = true := by simpa [hdn] using hd
    have hei : e.isInfinite = true := by simpa [hen] using he
    rw [floatText_of_isInfinite hdi, floatText_of_isInfinite hei] at h
    have hsign : d.negative = e.negative := by
      revert h
      generalize d.negative = a
      generalize e.negative = b
      revert a b
      decide
    rw [Double.eq_of_rank hsign (by rw [Double.rank_of_isInfinite hdi, Double.rank_of_isInfinite hei])]
  · have hdi : d.isInfinite = true := by simpa [hdn] using hd
    rw [floatText_of_isInfinite hdi, floatText_of_isNaN hen] at h
    exact absurd h (infinity_ne_nan _)
  · have hei : e.isInfinite = true := by simpa [hen] using he
    rw [floatText_of_isInfinite hei, floatText_of_isNaN hdn] at h
    exact absurd h.symm (infinity_ne_nan _)
  · rw [Double.oneNaN_of_isNaN hdn, Double.oneNaN_of_isNaN hen]

end Number

namespace FloatLayout

structure IsFloatBody (cs : List Char) : Prop where
  opens : ∃ c rest, cs = c :: rest ∧ c.isDigit = true
  marked : '.' ∈ cs ∨ 'e' ∈ cs
  chars : ∀ c ∈ cs, c.isDigit = true ∨ c ∈ ['.', 'e', '-']

theorem natText_opens (n : Nat) : ∃ c rest, natText n = c :: rest ∧ c.isDigit = true := by
  cases hcs : natText n with
  | nil => exact absurd hcs (Decimal.natText_ne_nil n)
  | cons c rest => exact ⟨c, rest, rfl, Decimal.isDigit_natText (n := n) (by simp [hcs])⟩

theorem intText_chars {i : Int} {c : Char} (h : c ∈ intText i) : c.isDigit = true ∨ c = '-' := by
  rcases List.mem_append.mp h with h | h
  · unfold sign at h
    split at h
    · exact .inr (List.mem_singleton.mp h)
    · exact absurd h List.not_mem_nil
  · exact .inl (Decimal.isDigit_natText h)

theorem isFloatBody_positional (n : Nat) (point : Int) : IsFloatBody (positional (natText n) point) := by
  have hdigit : ∀ c ∈ natText n, c.isDigit = true := fun _ => Decimal.isDigit_natText
  obtain ⟨c, rest, hcs, hc⟩ := natText_opens n
  unfold positional
  split
  · refine ⟨⟨'0', _, rfl, rfl⟩, .inl (by simp), ?_⟩
    intro x hx
    simp only [List.cons_append, List.nil_append, List.mem_cons, List.mem_append] at hx
    rcases hx with rfl | rfl | hx | hx
    · exact .inl rfl
    · exact .inr (by simp)
    · exact .inl (isDigit_zeros hx)
    · exact .inl (hdigit x hx)
  split
  · refine ⟨⟨c, rest.take (point.toNat - 1) ++ ['.'] ++ (natText n).drop point.toNat, ?_, hc⟩, .inl (by simp), ?_⟩
    · obtain ⟨k, hk⟩ : ∃ k, point.toNat = k + 1 := ⟨point.toNat - 1, by omega⟩
      simp [hcs, hk]
    · intro x hx
      simp only [List.mem_append, List.mem_singleton] at hx
      rcases hx with (hx | rfl) | hx
      · exact .inl (hdigit x (List.mem_of_mem_take hx))
      · exact .inr (by simp)
      · exact .inl (hdigit x (List.mem_of_mem_drop hx))
  · refine ⟨⟨c, _, by rw [hcs, List.cons_append, List.cons_append], hc⟩, .inl (by simp), ?_⟩
    intro x hx
    simp only [List.mem_append, List.mem_cons, List.not_mem_nil, or_false] at hx
    rcases hx with (hx | hx) | rfl | rfl
    · exact .inl (hdigit x hx)
    · exact .inl (isDigit_zeros hx)
    · exact .inr (by simp)
    · exact .inl rfl

theorem isFloatBody_scientific (n : Nat) (point : Int) : IsFloatBody (scientific (natText n) point) := by
  have hdigit : ∀ c ∈ natText n, c.isDigit = true := fun _ => Decimal.isDigit_natText
  obtain ⟨c, rest, hcs, hc⟩ := natText_opens n
  have hexponent {x : Char} (hx : x ∈ intText (point - 1)) : x.isDigit = true ∨ x ∈ ['.', 'e', '-'] := by
    rcases intText_chars hx with hx | rfl
    · exact .inl hx
    · exact .inr (by simp)
  rw [hcs] at hdigit ⊢
  unfold scientific
  cases rest with
  | nil =>
    refine ⟨⟨c, _, rfl, hc⟩, .inr (by simp), ?_⟩
    intro x hx
    simp only [List.cons_append, List.nil_append, List.mem_cons] at hx
    rcases hx with rfl | rfl | hx
    · exact .inl hc
    · exact .inr (by simp)
    · exact hexponent hx
  | cons c' rest =>
    refine ⟨⟨c, _, rfl, hc⟩, .inl (by simp), ?_⟩
    intro x hx
    simp only [List.cons_append, List.mem_cons, List.mem_append, List.not_mem_nil, or_false] at hx
    rcases hx with rfl | rfl | rfl | (hx | rfl) | hx
    · exact .inl hc
    · exact .inr (by simp)
    · exact .inl (hdigit x (by simp))
    · exact .inl (hdigit x (by simp [hx]))
    · exact .inr (by simp)
    · exact hexponent hx

theorem chars_cases (layout : FloatLayout) (d : Double) :
    layout.chars d = layout.nan.toList ∨ layout.chars d = sign d.negative ++ layout.infinity.toList ∨
      ∃ body, layout.chars d = sign d.negative ++ body ∧ IsFloatBody body := by
  unfold chars
  split
  · exact .inl rfl
  split
  · exact .inr (.inl rfl)
  refine .inr (.inr ?_)
  split
  · exact ⟨_, rfl, ⟨⟨'0', _, rfl, rfl⟩, .inl (by simp), by simp⟩⟩
  · dsimp only
    split
    · exact ⟨_, rfl, isFloatBody_positional _ _⟩
    · exact ⟨_, rfl, isFloatBody_scientific _ _⟩

end FloatLayout

end PolicyYaml
