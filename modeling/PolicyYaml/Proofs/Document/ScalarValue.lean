import PolicyYaml.Document.Layout
import PolicyYaml.Proofs.Number.Rounding

namespace PolicyYaml

theorem FloatLayout.head?_natText {n : Nat} (hn : n ≠ 0) : (natText n).head? ≠ some '0' := by
  induction n using Nat.strongRecOn with
  | ind n ih =>
    rw [natText]
    by_cases hlt : n < 10
    · rw [Nat.toDigits_of_lt_base hlt]
      have hdigit : ∀ m < 10, m ≠ 0 → [m.digitChar].head? ≠ some '0' := by decide
      exact hdigit n hlt hn
    · rw [Nat.toDigits_of_base_le (by decide) (by omega), List.head?_append]
      obtain ⟨c, rest, hcs, -⟩ := natText_opens (n / 10)
      have hhead := ih (n / 10) (by omega) (by omega)
      rw [natText] at hcs hhead
      rw [hcs] at hhead ⊢
      exact hhead

namespace Document

open FloatLayout Decimal

theorem isWord_eq_false {words : List String} {cs : List Char} (i : Nat) (others : List Char)
    (hothers : (words.all fun w => others.any fun o => w.toList[i]? == some o) = true) (h : ∀ c ∈ cs[i]?, c ∉ others) :
    (words.any fun w => w.toList == cs) = false := by
  rw [List.any_eq_false]
  intro w hw heq
  obtain ⟨o, ho, hget⟩ := List.any_eq_true.mp (List.all_eq_true.mp hothers w hw)
  rw [beq_iff_eq.mp heq, beq_iff_eq] at hget
  exact h o hget ho

theorem isNullWord_cons {c : Char} (rest : List Char) (h : c ∉ ['n', 'N', '~']) : isNullWord (c :: rest) = false :=
  isWord_eq_false 0 ['n', 'N', '~'] (by decide) (by simpa using h)

theorem boolean?_cons {c : Char} (rest : List Char) (h : c ∉ ['t', 'T', 'f', 'F']) : boolean? (c :: rest) = none := by
  have htrue : (["true", "True", "TRUE"].any fun w => w.toList == c :: rest) = false :=
    isWord_eq_false 0 ['t', 'T', 'f', 'F'] (by decide) (by simpa using h)
  have hfalse : (["false", "False", "FALSE"].any fun w => w.toList == c :: rest) = false :=
    isWord_eq_false 0 ['t', 'T', 'f', 'F'] (by decide) (by simpa using h)
  rw [boolean?, htrue, hfalse]
  rfl

theorem digit?_of_isDigit {c : Char} (h : c.isDigit = true) : digit? 10 c = some (digitValue c) := by
  have hlt : c.toNat - 48 < 10 := by
    simp only [Char.isDigit, Bool.and_eq_true, decide_eq_true_eq, UInt32.le_iff_toNat_le] at h
    have : c.toNat ≤ 57 := h.2
    omega
  rw [digit?, if_pos h]
  exact if_pos hlt

theorem foldlM_digits {cs : List Char} (h : ∀ c ∈ cs, c.isDigit = true) (n : Nat) :
    cs.foldlM (fun n c => (digit? 10 c).map (10 * n + ·)) n = some (cs.foldl (fun n c => 10 * n + digitValue c) n) := by
  induction cs generalizing n with
  | nil => rfl
  | cons c rest ih =>
    rw [List.foldlM_cons, digit?_of_isDigit (h c List.mem_cons_self)]
    exact ih (fun x hx => h x (List.mem_cons_of_mem _ hx)) _

theorem digits?_of_isDigit {cs : List Char} (hne : cs ≠ []) (h : ∀ c ∈ cs, c.isDigit = true) :
    digits? 10 cs = some (natOfDigits cs) := by
  cases cs with
  | nil => contradiction
  | cons c rest => exact foldlM_digits h 0

theorem foldlM_eq_none {cs : List Char} {c : Char} (hc : c ∈ cs) (h : digit? 10 c = none) (n : Nat) :
    cs.foldlM (fun n c => (digit? 10 c).map (10 * n + ·)) n = none := by
  induction cs generalizing n with
  | nil => contradiction
  | cons d rest ih =>
    rw [List.foldlM_cons]
    rcases List.mem_cons.mp hc with rfl | hc
    · rw [h]
      rfl
    · cases digit? 10 d with
      | none => rfl
      | some m => exact ih hc _

theorem digits?_eq_none {cs : List Char} {c : Char} (hc : c ∈ cs) (h : digit? 10 c = none) : digits? 10 cs = none := by
  cases cs with
  | nil => contradiction
  | cons d rest => exact foldlM_eq_none hc h 0

theorem magnitude?_eq {cs : List Char} (h : ∀ c ∈ cs, c ∉ ['x', 'o', 'b']) : magnitude? cs = digits? 10 cs := by
  unfold magnitude?
  split
  · simp at h
  · simp at h
  · simp at h
  · rfl

theorem not_mem_of_isDigit {c : Char} {others : List Char} (hothers : others.any Char.isDigit = false)
    (h : c.isDigit = true) : c ∉ others := by
  rw [List.any_eq_false] at hothers
  exact fun hmem => hothers c hmem h

theorem magnitude?_natText (n : Nat) : magnitude? (natText n) = some n := by
  have hdigits : ∀ c ∈ natText n, c.isDigit = true := fun _ => isDigit_natText
  rw [magnitude?_eq fun c hc => not_mem_of_isDigit (by decide) (hdigits c hc),
    digits?_of_isDigit (natText_ne_nil n) hdigits, natOfDigits_natText]

theorem dropSign_sign {negative : Bool} {c : Char} (rest : List Char) (h : c.isDigit = true) :
    dropSign (sign negative ++ c :: rest) = c :: rest := by
  cases negative with
  | true => rfl
  | false =>
    have hc : c ∉ ['+', '-'] := not_mem_of_isDigit (by decide) h
    rw [sign, if_neg Bool.false_ne_true, List.nil_append]
    unfold dropSign
    split <;> simp_all

theorem dropPlus_sign {negative : Bool} {c : Char} (rest : List Char) (h : c.isDigit = true) :
    dropPlus (sign negative ++ c :: rest) = sign negative ++ c :: rest := by
  cases negative with
  | true => rfl
  | false =>
    have hc : c ∉ ['+'] := not_mem_of_isDigit (by decide) h
    have hsign : sign false ++ c :: rest = c :: rest := rfl
    rw [hsign]
    unfold dropPlus
    split <;> simp_all

theorem anyInteger?_sign {negative : Bool} {c : Char} (rest : List Char) (h : c.isDigit = true)
    (hpadded : isZeroPadded (sign negative ++ c :: rest) = false) :
    anyInteger? (sign negative ++ c :: rest) =
      (magnitude? (c :: rest)).map fun n : Nat => if negative then -(n : Int) else (n : Int) := by
  unfold anyInteger?
  rw [hpadded]
  cases negative with
  | true =>
    have hsign : sign true ++ c :: rest = '-' :: c :: rest := rfl
    rw [hsign]
    simp only [Bool.false_eq_true, ↓reduceIte]
    cases magnitude? (c :: rest) <;> rfl
  | false =>
    have hc : c ∉ ['-'] := not_mem_of_isDigit (by decide) h
    have hsign : sign false ++ c :: rest = c :: rest := rfl
    rw [dropPlus_sign rest h, hsign]
    simp only [Bool.false_eq_true, ↓reduceIte]
    split
    · simp_all
    · rfl

theorem isZeroPadded_intText (i : Int) : isZeroPadded (intText i) = false := by
  obtain ⟨c, rest, hcs, hc⟩ := natText_opens i.natAbs
  rw [isZeroPadded, intText, hcs, dropSign_sign rest hc]
  split
  · rename_i d others heq
    cases heq
    by_cases hzero : i.natAbs = 0
    · rw [hzero] at hcs
      exact absurd hcs (by simp [natText])
    · exact absurd (by rw [hcs]; rfl) (head?_natText hzero)
  · rfl

theorem anyInteger?_intText (i : Int) : anyInteger? (intText i) = some i := by
  obtain ⟨c, rest, hcs, hc⟩ := natText_opens i.natAbs
  have hmagnitude := magnitude?_natText i.natAbs
  have hpadded := isZeroPadded_intText i
  rw [intText, hcs] at *
  rw [anyInteger?_sign rest hc hpadded, hmagnitude, Option.map_some]
  simp only [decide_eq_true_eq]
  congr 1
  split <;> omega

theorem resolvePlain_intText {i : Int} (h : fitsBits 64 i = true) : resolvePlain (intText i) = some (.integer i) := by
  have hread : readInteger (intText i) = .integer i := by
    rw [readInteger, anyInteger?_intText]
    exact if_pos h
  obtain ⟨c, rest, hcs, hc⟩ : ∃ c rest, intText i = c :: rest ∧ (c.isDigit = true ∨ c = '-') := by
    obtain ⟨c, rest, hcs, hc⟩ := natText_opens i.natAbs
    rw [intText, hcs, sign]
    split
    · exact ⟨'-', _, rfl, .inr rfl⟩
    · exact ⟨c, rest, rfl, .inl hc⟩
  have hcases : c ∉ ['n', 'N', '~'] ∧ c ∉ ['t', 'T', 'f', 'F'] := by
    rcases hc with hc | rfl
    · exact ⟨not_mem_of_isDigit (by decide) hc, not_mem_of_isDigit (by decide) hc⟩
    · decide
  rw [hcs] at hread ⊢
  rw [resolvePlain, isNullWord_cons rest hcases.1, boolean?_cons rest hcases.2, hread]
  rfl

theorem anyInteger?_floatBody (negative : Bool) {body : List Char} (h : IsFloatBody body) :
    isZeroPadded (sign negative ++ body) = false ∧ anyInteger? (sign negative ++ body) = none := by
  obtain ⟨⟨c, rest, rfl, hc⟩, hmarked, hchars⟩ := h
  obtain ⟨m, hm, hnone⟩ : ∃ m ∈ c :: rest, digit? 10 m = none ∧ m.isDigit = false := by
    rcases hmarked with h | h
    · exact ⟨_, h, by decide⟩
    · exact ⟨_, h, by decide⟩
  have hpadded : isZeroPadded (sign negative ++ c :: rest) = false := by
    rw [isZeroPadded, dropSign_sign rest hc]
    split
    · rename_i d others heq
      cases heq
      rw [List.all_eq_false]
      have hne : m ≠ '0' := by
        rintro rfl
        simp at hnone
      exact ⟨m, (List.mem_cons.mp hm).resolve_left hne, by simp [hnone.2]⟩
    · rfl
  refine ⟨hpadded, ?_⟩
  have hnotation : ∀ x ∈ c :: rest, x ∉ ['x', 'o', 'b'] := by
    intro x hx
    rcases hchars x hx with h | h
    · exact not_mem_of_isDigit (by decide) h
    · revert h
      simp
      grind
  rw [anyInteger?_sign rest hc hpadded, magnitude?_eq hnotation, digits?_eq_none hm hnone.1]
  rfl

theorem float?_sign {negative : Bool} {c : Char} (rest : List Char) (h : c.isDigit = true) :
    float? (sign negative ++ c :: rest) =
      match ofChars? (sign negative ++ c :: rest) with
      | some d => if d.toDouble.isFinite then some d.toDouble else none
      | none => none := by
  have hdot : c ∉ ['.'] := not_mem_of_isDigit (by decide) h
  have hfirst : ∀ d ∈ (sign negative ++ c :: rest)[0]?, d ∉ ['.'] := by
    cases negative with
    | true => simp [sign]
    | false => simpa [sign] using hdot
  have hnegative : (["-.inf", "-.Inf", "-.INF"].any fun w => w.toList == sign negative ++ c :: rest) = false := by
    cases negative with
    | true => exact isWord_eq_false 1 ['.'] (by decide) (by simpa [sign] using hdot)
    | false =>
      have hminus : c ∉ ['-'] := not_mem_of_isDigit (by decide) h
      exact isWord_eq_false 0 ['-'] (by decide) (by simpa [sign] using hminus)
  rw [float?, dropPlus_sign rest h, isWord_eq_false 0 ['.'] (by decide) hfirst, hnegative,
    isWord_eq_false 0 ['.'] (by decide) hfirst]
  rfl

theorem resolvePlain_of_isFinite {d : Double} (hf : d.isFinite = true) :
    resolvePlain (floatLayout.chars d) = some (.float d) := by
  obtain ⟨dec, hread, hvalue⟩ := toDouble_of_chars floatLayout hf
  rcases chars_cases floatLayout d with h | h | ⟨body, h, hbody⟩
  · have hnone : ofChars? floatLayout.nan.toList = none := by decide
    rw [h, hnone] at hread
    contradiction
  · have hnone (negative : Bool) : ofChars? (sign negative ++ floatLayout.infinity.toList) = none := by
      cases negative <;> decide
    rw [h, hnone] at hread
    contradiction
  · obtain ⟨hpadded, hinteger⟩ := anyInteger?_floatBody d.negative hbody
    obtain ⟨c, rest, rfl, hc⟩ := hbody.opens
    have hfloat : float? (floatLayout.chars d) = some d := by
      rw [h] at hread ⊢
      rw [float?_sign rest hc, hread]
      simp only [hvalue, hf, ↓reduceIte]
    have hinteger : readInteger (floatLayout.chars d) = .other := by
      rw [h, readInteger, hinteger]
    obtain ⟨c', rest', hcs, hnull, hbool⟩ : ∃ c' rest', floatLayout.chars d = c' :: rest' ∧
        c' ∉ ['n', 'N', '~'] ∧ c' ∉ ['t', 'T', 'f', 'F'] := by
      rw [h, sign]
      split
      · exact ⟨'-', _, rfl, by decide, by decide⟩
      · exact ⟨c, rest, rfl, not_mem_of_isDigit (by decide) hc, not_mem_of_isDigit (by decide) hc⟩
    rw [← h] at hpadded
    rw [hcs] at hfloat hinteger hpadded ⊢
    rw [resolvePlain, isNullWord_cons rest' hnull, boolean?_cons rest' hbool, hinteger, hpadded]
    simp only [Bool.false_eq_true, ↓reduceIte, hfloat]
    rfl

theorem resolvePlain_floatChars (d : Double) :
    resolvePlain (floatLayout.chars d.oneNaN) = some (.float d.oneNaN) := by
  cases hnan : d.isNaN with
  | true =>
    rw [Double.oneNaN_of_isNaN hnan]
    rfl
  | false =>
    rw [Double.oneNaN, hnan]
    cases hinf : d.isInfinite with
    | false => exact resolvePlain_of_isFinite ((Double.isFinite_iff d).mpr ⟨hnan, hinf⟩)
    | true =>
      have hsign : d.negative = (Double.infinity d.negative).negative := rfl
      have hd : d = .infinity d.negative := by
        apply Double.eq_of_rank hsign
        rw [Double.rank_of_isInfinite hinf, Double.rank_of_isInfinite]
        rfl
      rw [hd]
      cases d.negative <;> rfl

end Document

end PolicyYaml
