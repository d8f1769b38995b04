import Mathlib.Tactic.NormNum
import PolicyYaml.Number.Decimal
import PolicyYaml.Proofs.Number.Interval

namespace PolicyYaml

namespace Decimal

def magnitude (d : Decimal) : ℚ := d.digits * 10 ^ d.exponent

theorem natOfDigits_eq (cs : List Char) : natOfDigits cs = Nat.ofDigitChars 10 cs 0 := by
  rw [Nat.ofDigitChars_eq_foldl]
  rfl

theorem natOfDigits_natText (n : Nat) : natOfDigits (FloatLayout.natText n) = n := by
  rw [natOfDigits_eq, FloatLayout.natText, Nat.ofDigitChars_ten_toDigits]

theorem natOfDigits_zeros_append (n : Nat) (cs : List Char) :
    natOfDigits (List.replicate n '0' ++ cs) = natOfDigits cs := by
  simp only [natOfDigits_eq, Nat.ofDigitChars_append, Nat.ofDigitChars_replicate_zero, Nat.mul_zero]

theorem natOfDigits_append_zeros (n : Nat) (cs : List Char) :
    natOfDigits (cs ++ List.replicate n '0') = natOfDigits cs * 10 ^ n := by
  simp only [natOfDigits_eq, Nat.ofDigitChars_append, Nat.ofDigitChars_replicate_zero, Nat.mul_comm]

theorem isDigit_natText {n : Nat} {c : Char} (h : c ∈ FloatLayout.natText n) : c.isDigit = true :=
  Nat.isDigit_of_mem_toDigits (by decide) (by decide) h

theorem natText_ne_nil (n : Nat) : FloatLayout.natText n ≠ [] := Nat.toDigits_ne_nil

theorem splitSign_digits {cs : List Char} (h : ∀ c ∈ cs.head?, c.isDigit = true) : splitSign cs = (false, cs) := by
  unfold splitSign
  split
  · simp at h
  · simp at h
  · rfl

theorem splitSign_sign {negative : Bool} {cs : List Char} (h : ∀ c ∈ cs.head?, c.isDigit = true) :
    splitSign (FloatLayout.sign negative ++ cs) = (negative, cs) := by
  cases negative with
  | true => rfl
  | false => exact splitSign_digits h

theorem splitSign_intText (i : Int) :
    splitSign (FloatLayout.intText i) = (decide (i < 0), FloatLayout.natText i.natAbs) :=
  splitSign_sign fun _ hc => isDigit_natText (List.mem_of_mem_head? hc)

theorem exponent?_intText (i : Int) : exponent? ('e' :: FloatLayout.intText i) = some i := by
  have hall : (FloatLayout.natText i.natAbs).all Char.isDigit = true :=
    List.all_eq_true.mpr fun _ hc => isDigit_natText hc
  simp only [exponent?, splitSign_intText, true_or, ne_eq, natText_ne_nil, not_false_eq_true, hall, and_self,
    ↓reduceIte, natOfDigits_natText, Option.some.injEq, decide_eq_true_eq]
  split <;> omega

theorem span_digits {ds : List Char} (tail : List Char) (hds : ∀ c ∈ ds, c.isDigit = true)
    (htail : ∀ c ∈ tail.head?, c.isDigit = false) :
    (ds ++ tail).takeWhile Char.isDigit = ds ∧ (ds ++ tail).dropWhile Char.isDigit = tail := by
  rw [List.takeWhile_append_of_pos hds, List.dropWhile_append_of_pos hds]
  cases tail with
  | nil => simp
  | cons c cs => simp [htail c (by simp)]

theorem splitSign_sign_append (negative : Bool) {whole : List Char} (tail : List Char) (hne : whole ≠ [])
    (hwhole : ∀ c ∈ whole, c.isDigit = true) :
    splitSign (FloatLayout.sign negative ++ (whole ++ tail)) = (negative, whole ++ tail) := by
  apply splitSign_sign
  cases whole with
  | nil => contradiction
  | cons c cs => simpa using hwhole c (by simp)

theorem ofChars?_pointed (negative : Bool) (whole fraction : List Char) {cs tail : List Char} {e : Int}
    (hcs : cs = whole ++ '.' :: (fraction ++ tail)) (hne : whole ≠ [])
    (hwhole : ∀ c ∈ whole, c.isDigit = true) (hfraction : ∀ c ∈ fraction, c.isDigit = true)
    (htail : ∀ c ∈ tail.head?, c.isDigit = false) (he : exponent? tail = some e) :
    ofChars? (FloatLayout.sign negative ++ cs) =
      some ⟨negative, natOfDigits (whole ++ fraction), e - fraction.length⟩ := by
  subst hcs
  obtain ⟨htake, hdrop⟩ := span_digits ('.' :: (fraction ++ tail)) hwhole (by simp)
  obtain ⟨htake', hdrop'⟩ := span_digits tail hfraction htail
  simp only [ofChars?, splitSign_sign_append negative _ hne hwhole, htake, hdrop, htake', hdrop', hne,
    false_and, ↓reduceIte, he, Option.map_some]

theorem ofChars?_whole (negative : Bool) {whole tail : List Char} {e : Int} (hne : whole ≠ [])
    (hwhole : ∀ c ∈ whole, c.isDigit = true) (htail : ∀ c ∈ tail.head?, c.isDigit = false ∧ c ≠ '.')
    (he : exponent? tail = some e) :
    ofChars? (FloatLayout.sign negative ++ (whole ++ tail)) = some ⟨negative, natOfDigits whole, e⟩ := by
  obtain ⟨htake, hdrop⟩ := span_digits tail hwhole fun c hc => (htail c hc).1
  simp only [ofChars?, splitSign_sign_append negative _ hne hwhole, htake, hdrop]
  cases tail with
  | nil => simp [hne, he]
  | cons c cs => simp [(htail c (by simp)).2, hne, he]

theorem exponent?_nil : exponent? [] = some 0 := rfl

end Decimal

namespace FloatLayout

open Decimal

theorem isDigit_zeros {k : Nat} {c : Char} (h : c ∈ List.replicate k '0') : c.isDigit = true := by
  rw [List.eq_of_mem_replicate h]
  rfl

theorem ofChars?_positional (negative : Bool) (n : Nat) (point : Int) :
    ∃ d, ofChars? (sign negative ++ positional (natText n) point) = some d ∧ d.negative = negative ∧
      d.magnitude = n * 10 ^ (point - (natText n).length) := by
  have hdigits : ∀ c ∈ natText n, c.isDigit = true := fun _ => isDigit_natText
  have hne := natText_ne_nil n
  unfold positional
  split
  · have hfraction : ∀ c ∈ List.replicate (-point).toNat '0' ++ natText n, c.isDigit = true := by
      intro c hc
      rcases List.mem_append.mp hc with hc | hc
      · exact isDigit_zeros hc
      · exact hdigits c hc
    refine ⟨_, ofChars?_pointed negative ['0'] _ (by simp) (by simp) (fun c hc => isDigit_zeros (k := 1) hc)
      hfraction (by simp) exponent?_nil, rfl, ?_⟩
    have hvalue : natOfDigits (['0'] ++ (List.replicate (-point).toNat '0' ++ natText n)) = n := by
      rw [show ['0'] = List.replicate 1 '0' from rfl, natOfDigits_zeros_append, natOfDigits_zeros_append,
        natOfDigits_natText]
    simp only [magnitude, hvalue, List.length_append, List.length_replicate]
    congr 2
    omega
  split
  · refine ⟨_, ofChars?_pointed negative ((natText n).take point.toNat) ((natText n).drop point.toNat) (by simp)
      (by simp [hne]; omega) (fun c hc => hdigits c (List.mem_of_mem_take hc))
      (fun c hc => hdigits c (List.mem_of_mem_drop hc)) (by simp) exponent?_nil, rfl, ?_⟩
    simp only [magnitude, List.take_append_drop, natOfDigits_natText, List.length_drop]
    congr 2
    omega
  · have hwhole : ∀ c ∈ natText n ++ List.replicate (point - (natText n).length).toNat '0',
        c.isDigit = true := by
      intro c hc
      rcases List.mem_append.mp hc with hc | hc
      · exact hdigits c hc
      · exact isDigit_zeros hc
    refine ⟨_, ofChars?_pointed negative _ ['0'] (by simp) (by simp [hne]) hwhole
      (fun c hc => isDigit_zeros (k := 1) hc) (by simp) exponent?_nil, rfl, ?_⟩
    have hvalue : natOfDigits (natText n ++ List.replicate (point - (natText n).length).toNat '0' ++ ['0']) =
        n * 10 ^ (point - (natText n).length).toNat * 10 := by
      rw [show ['0'] = List.replicate 1 '0' from rfl, natOfDigits_append_zeros, natOfDigits_append_zeros,
        natOfDigits_natText, pow_one]
    have hpoint : (10 : ℚ) ^ (point - (natText n).length) = 10 ^ (point - (natText n).length).toNat := by
      rw [← zpow_natCast, Int.toNat_of_nonneg (by omega)]
    simp only [magnitude, hvalue, hpoint]
    simp

theorem ofChars?_scientific (negative : Bool) (n : Nat) (point : Int) :
    ∃ d, ofChars? (sign negative ++ scientific (natText n) point) = some d ∧ d.negative = negative ∧
      d.magnitude = n * 10 ^ (point - (natText n).length) := by
  have hdigits : ∀ c ∈ natText n, c.isDigit = true := fun _ => isDigit_natText
  have hexponent := exponent?_intText (point - 1)
  have hvalue := natOfDigits_natText n
  unfold scientific
  match hcs : natText n with
  | [] => exact absurd hcs (natText_ne_nil n)
  | [c] =>
    rw [hcs] at hdigits hvalue
    refine ⟨_, by simpa using ofChars?_whole negative (by simp) hdigits (by simp) hexponent, rfl, ?_⟩
    simp [magnitude, hvalue]
  | c :: c' :: cs =>
    rw [hcs] at hdigits hvalue
    refine ⟨_, ofChars?_pointed negative [c] (c' :: cs) (by simp) (by simp)
      (by simpa using hdigits c (by simp)) (fun x hx => hdigits x (by simp [hx])) (by simp) hexponent, rfl, ?_⟩
    simp only [magnitude, List.singleton_append, hvalue, List.length_cons]
    congr 2
    push_cast
    ring

theorem ofChars?_chars (layout : FloatLayout) {d : Double} (hf : d.isFinite = true) :
    ∃ dec, ofChars? (layout.chars d) = some dec ∧ dec.negative = d.negative ∧
      if d.isZero then dec.magnitude = 0 else d.interval.Covers dec.magnitude := by
  have hnan : d.isNaN = false := by simp_all [Double.isFinite, Double.isNaN]
  have hinf : d.isInfinite = false := by simp_all [Double.isFinite, Double.isInfinite]
  cases hz : d.isZero with
  | true =>
    simp only [chars, hnan, hinf, hz, Bool.false_eq_true, ↓reduceIte]
    refine ⟨⟨d.negative, 0, -1⟩, ?_, rfl, by simp [magnitude]⟩
    cases d.negative <;> rfl
  | false =>
    have hcovers := Double.shortest_covers layout.tie hf
    have hpoint (n : Nat) (e : Int) : (natText n).length + e - (natText n).length = e := by omega
    simp only [chars, hnan, hinf, hz, Bool.false_eq_true, ↓reduceIte]
    generalize d.shortest layout.tie = digits at hcovers
    split
    · obtain ⟨dec, hread, hsign, hvalue⟩ :=
        ofChars?_positional d.negative digits.1 ((natText digits.1).length + digits.2)
      rw [hpoint] at hvalue
      exact ⟨dec, hread, hsign, hvalue ▸ hcovers⟩
    · obtain ⟨dec, hread, hsign, hvalue⟩ :=
        ofChars?_scientific d.negative digits.1 ((natText digits.1).length + digits.2)
      rw [hpoint] at hvalue
      exact ⟨dec, hread, hsign, hvalue ▸ hcovers⟩

end FloatLayout
end PolicyYaml
