import PolicyYaml.Proofs.Document.LiteralText
import PolicyYaml.Proofs.Document.ScalarValue
import PolicyYaml.Proofs.Document.SingleQuoted

namespace PolicyYaml

namespace Document

theorem laterIndicator_eq_false {cs : List Char} (h : ∀ c ∈ cs, c ≠ ':' ∧ c ≠ '#') (afterBlank : Bool) :
    Contents.laterIndicator afterBlank cs = false := by
  induction cs generalizing afterBlank with
  | nil => rfl
  | cons c rest ih =>
    rw [List.forall_mem_cons] at h
    rw [Contents.laterIndicator, ih h.2, beq_eq_false_iff_ne.mpr h.1.1, beq_eq_false_iff_ne.mpr h.1.2]
    rfl

theorem mem_digits_of_isDigit {c : Char} (h : c.isDigit = true) : c ∈ "0123456789".toList := by
  simp only [Char.isDigit, Bool.and_eq_true, decide_eq_true_eq, UInt32.le_iff_toNat_le] at h
  obtain ⟨hleast, hmost⟩ : 48 ≤ c.toNat ∧ c.toNat ≤ 57 := h
  rw [← Char.ofNat_toNat c]
  generalize c.toNat = n at hleast hmost
  have hdigits : ∀ n ≤ 57, 48 ≤ n → Char.ofNat n ∈ "0123456789".toList := by decide
  exact hdigits n hmost hleast

theorem numberChar_cases {c : Char} (h : c.isDigit = true ∨ c ∈ ['.', 'e', '-']) :
    isPrintable c = true ∧ isBreak c = false ∧ isBlank c = false ∧ c ≠ ' ' ∧ c ≠ ':' ∧ c ≠ '#' := by
  have hall : (("0123456789".toList ++ ['.', 'e', '-']).all fun c => decide (isPrintable c = true ∧
      isBreak c = false ∧ isBlank c = false ∧ c ≠ ' ' ∧ c ≠ ':' ∧ c ≠ '#')) = true := by decide
  have hmem : c ∈ "0123456789".toList ++ ['.', 'e', '-'] := List.mem_append.mpr (h.imp_left mem_digits_of_isDigit)
  exact of_decide_eq_true (List.all_eq_true.mp hall c hmem)

theorem isPlainText_of_digit {c : Char} {rest : List Char} (hc : c.isDigit = true)
    (hrest : ∀ x ∈ rest, x.isDigit = true ∨ x ∈ ['.', 'e', '-']) (negative : Bool) :
    IsPlainText (FloatLayout.sign negative ++ c :: rest) := by
  have hbody : ∀ x ∈ c :: rest, x.isDigit = true ∨ x ∈ ['.', 'e', '-'] := by
    rw [List.forall_mem_cons]
    exact ⟨.inl hc, hrest⟩
  have hall : ∀ x ∈ FloatLayout.sign negative ++ c :: rest, x.isDigit = true ∨ x ∈ ['.', 'e', '-'] := by
    cases negative with
    | true => exact List.forall_mem_cons.mpr ⟨.inr (by decide), hbody⟩
    | false => exact hbody
  have hlater (cs : List Char) (hcs : ∀ x ∈ cs, x.isDigit = true ∨ x ∈ ['.', 'e', '-']) (afterBlank : Bool) :
      Contents.laterIndicator afterBlank cs = false :=
    laterIndicator_eq_false (fun x hx => (numberChar_cases (hcs x hx)).2.2.2.2) afterBlank
  have hclear : ("0123456789".toList.all fun d => decide (d ≠ '-' ∧ d ≠ '.' ∧ d ≠ '?' ∧ d ≠ ':' ∧
      Contents.isLeadingIndicator d = false)) = true := by decide
  obtain ⟨hminus, hdot, hquestion, hcolon, hleading⟩ :=
    of_decide_eq_true (List.all_eq_true.mp hclear c (mem_digits_of_isDigit hc))
  refine ⟨fun x hx => (numberChar_cases (hall x hx)).1, fun x hx => (numberChar_cases (hall x hx)).2.1, ?_, ?_, ?_⟩
  · cases negative with
    | true =>
      obtain ⟨-, hbreak, hblank, -⟩ := numberChar_cases (.inl hc)
      have hmarker : Contents.startsMarker ('-' :: c :: rest) = false := by
        unfold Contents.startsMarker
        split <;> simp_all
      have hword : wordEnds (c :: rest) = false := by rw [wordEnds, hblank, hbreak]; rfl
      show Contents.hasIndicator ('-' :: c :: rest) = false
      rw [Contents.hasIndicator, hmarker, hword, hlater _ hbody]
      rfl
    | false =>
      have hmarker : Contents.startsMarker (c :: rest) = false := by
        unfold Contents.startsMarker
        split <;> simp_all
      show Contents.hasIndicator (c :: rest) = false
      rw [Contents.hasIndicator, hmarker, hleading, hlater _ hrest, beq_eq_false_iff_ne.mpr hminus,
        beq_eq_false_iff_ne.mpr hquestion, beq_eq_false_iff_ne.mpr hcolon]
      rfl
  · cases negative with
    | true => exact ⟨'-', _, rfl, by decide⟩
    | false => exact ⟨c, rest, rfl, (numberChar_cases (.inl hc)).2.2.2.1⟩
  · intro hlast
    exact (numberChar_cases (hall _ (List.mem_of_getLast? hlast))).2.2.2.1 rfl

theorem isPlainText_intText (i : Int) : IsPlainText (FloatLayout.intText i) := by
  obtain ⟨c, rest, hcs, hc⟩ := FloatLayout.natText_opens i.natAbs
  rw [FloatLayout.intText, hcs]
  refine isPlainText_of_digit hc (fun x hx => .inl ?_) _
  exact Decimal.isDigit_natText (n := i.natAbs) (hcs ▸ List.mem_cons_of_mem _ hx)

theorem isPlainText_words :
    ∀ w ∈ ["null", "true", "false", ".nan", ".inf", "-.inf"], IsPlainText w.toList := by
  have hall : ∀ w ∈ ["null", "true", "false", ".nan", ".inf", "-.inf"],
    (w.toList.all fun c => decide (isPrintable c = true ∧ isBreak c = false ∧ c ≠ ' ')) = true := by decide
  have hindicator : ∀ w ∈ ["null", "true", "false", ".nan", ".inf", "-.inf"],
    w.toList ≠ [] ∧ Contents.hasIndicator w.toList = false := by decide
  intro w hw
  obtain ⟨hne, hindicator⟩ := hindicator w hw
  obtain ⟨c, rest, hcs⟩ := List.exists_cons_of_ne_nil hne
  have hclear (c : Char) (hc : c ∈ w.toList) : isPrintable c = true ∧ isBreak c = false ∧ c ≠ ' ' :=
    of_decide_eq_true (List.all_eq_true.mp (hall w hw) c hc)
  refine ⟨fun c hc => (hclear c hc).1, fun c hc => (hclear c hc).2.1, hindicator, ?_, ?_⟩
  · exact ⟨c, rest, hcs, (hclear c (hcs ▸ List.mem_cons_self)).2.2⟩
  · exact fun hlast => (hclear _ (List.mem_of_getLast? hlast)).2.2 rfl

theorem isPlainText_floatChars (d : Double) : IsPlainText (floatLayout.chars d) := by
  rcases FloatLayout.chars_cases floatLayout d with h | h | ⟨body, h, ⟨c, rest, rfl, hc⟩, -, hchars⟩
  · rw [h]
    exact isPlainText_words ".nan" (by decide)
  · rw [h]
    cases d.negative with
    | true => exact isPlainText_words "-.inf" (by decide)
    | false => exact isPlainText_words ".inf" (by decide)
  · rw [h]
    exact isPlainText_of_digit hc (fun x hx => hchars x (List.mem_cons_of_mem _ hx)) _

theorem isPlainText_of_allowsPlain {cs : List Char} (h : (Contents.ofChars cs).allowsPlain = true) (hne : cs ≠ []) :
    IsPlainText cs := by
  simp only [Contents.allowsPlain, Contents.ofChars, Bool.not_eq_true', Bool.or_eq_false_iff, List.any_eq_false] at h
  obtain ⟨⟨⟨⟨⟨hindicator, hspecial⟩, hbreak⟩, hopen, hclose⟩, -⟩, -⟩ := h
  obtain ⟨c, rest, rfl⟩ := List.exists_cons_of_ne_nil hne
  refine ⟨by simpa using hspecial, by simpa using hbreak, hindicator, ⟨c, rest, rfl, ?_⟩, ?_⟩
  · rintro rfl
    contradiction
  · intro hlast
    rw [hlast] at hclose
    contradiction

theorem printable_of_special {cs : List Char} (h : (cs.any fun c => !isPrintable c) = false) :
    ∀ c ∈ cs, isPrintable c = true := by simpa using h

def ScalarStyle.Suits (cs : List Char) : ScalarStyle → Prop
  | .plain => IsPlainText cs
  | .singleQuoted => IsQuotable cs
  | .doubleQuoted => True
  | .literal => cs ≠ [] ∧ ∀ c ∈ cs, isPrintable c = true

theorem wantedStyle_cases (cs : List Char) :
    wantedStyle cs = .literal ∨ '\n' ∉ cs ∧ wantedStyle cs = .singleQuoted ∨
      '\n' ∉ cs ∧ wantedStyle cs = .plain ∧ needsQuotes cs = false := by
  unfold wantedStyle
  split
  · exact .inl rfl
  · rename_i hfeed
    have hfeed : '\n' ∉ cs := by simpa using hfeed
    split
    · exact .inr (.inl ⟨hfeed, rfl⟩)
    · rename_i hquotes
      exact .inr (.inr ⟨hfeed, rfl, Bool.eq_false_iff.mpr hquotes⟩)

theorem ne_nil_of_needsQuotes {cs : List Char} (h : needsQuotes cs = false) : cs ≠ [] := by
  rintro rfl
  contradiction

theorem settle_literal (shortKey : Bool) (cs : List Char) :
    ScalarStyle.settle .literal shortKey cs = .doubleQuoted ∨
      ScalarStyle.settle .literal shortKey cs = .literal ∧ shortKey = false ∧ ScalarStyle.literal.Suits cs := by
  simp only [ScalarStyle.settle]
  split
  · exact .inl rfl
  split
  · rename_i hallows
    simp only [Contents.allowsLiteral, Contents.ofChars, Bool.and_eq_true, Bool.not_eq_true',
      Bool.or_eq_false_iff, List.isEmpty_eq_false_iff] at hallows
    exact .inr ⟨rfl, hallows.2, hallows.1.2, printable_of_special hallows.1.1.1.1⟩
  · exact .inl rfl

theorem settle_singleQuoted (shortKey : Bool) {cs : List Char} (h : '\n' ∉ cs) :
    ScalarStyle.settle .singleQuoted shortKey cs = .doubleQuoted ∨
      ScalarStyle.settle .singleQuoted shortKey cs = .singleQuoted ∧ ScalarStyle.singleQuoted.Suits cs := by
  simp only [ScalarStyle.settle]
  split
  · exact .inl rfl
  split
  · rename_i hallows
    simp only [Contents.allowsSingleQuoted, Contents.ofChars, Bool.not_eq_true', Bool.or_eq_false_iff] at hallows
    exact .inr ⟨rfl, printable_of_special hallows.1.1, h, hallows.1.2, hallows.2⟩
  · exact .inl rfl

theorem settle_plain (shortKey : Bool) {cs : List Char} (hne : cs ≠ []) :
    ScalarStyle.settle .plain shortKey cs =
      if (Contents.ofChars cs).allowsPlain then .plain else ScalarStyle.settle .singleQuoted shortKey cs := by
  have hempty : cs.isEmpty = false := List.isEmpty_eq_false_iff.mpr hne
  simp only [ScalarStyle.settle, hempty, Bool.and_false, Bool.not_false, Bool.and_true]
  split
  · rename_i hbreak
    have hplain : (Contents.ofChars cs).allowsPlain = false := by
      simp [Contents.allowsPlain, (Bool.and_eq_true_iff.mp hbreak).2]
    rw [hplain]
    rfl
  · rfl

theorem settle_wantedStyle (shortKey : Bool) (cs : List Char) :
    (wantedStyle cs).settle shortKey cs = .doubleQuoted ∨
      (wantedStyle cs).settle shortKey cs = .singleQuoted ∧ ScalarStyle.singleQuoted.Suits cs ∨
      (wantedStyle cs).settle shortKey cs = .plain ∧ ScalarStyle.plain.Suits cs ∧ needsQuotes cs = false ∨
      (wantedStyle cs).settle shortKey cs = .literal ∧ shortKey = false ∧ ScalarStyle.literal.Suits cs := by
  rcases wantedStyle_cases cs with h | ⟨hfeed, h⟩ | ⟨hfeed, h, hquotes⟩
  · rw [h]
    exact (settle_literal shortKey cs).imp_right fun h => .inr (.inr h)
  · rw [h]
    exact (settle_singleQuoted shortKey hfeed).imp_right .inl
  · have hne := ne_nil_of_needsQuotes hquotes
    rw [h, settle_plain shortKey hne]
    split
    · rename_i hallows
      exact .inr (.inr (.inl ⟨rfl, isPlainText_of_allowsPlain hallows hne, hquotes⟩))
    · exact (settle_singleQuoted shortKey hfeed).imp_right .inl

theorem suits_settle (shortKey : Bool) (cs : List Char) : ((wantedStyle cs).settle shortKey cs).Suits cs := by
  rcases settle_wantedStyle shortKey cs with h | ⟨h, hsuits⟩ | ⟨h, hsuits, -⟩ | ⟨h, -, hsuits⟩ <;> rw [h]
  · exact trivial
  all_goals exact hsuits

theorem settle_shortKey (cs : List Char) :
    (wantedStyle cs).settle true cs = .plain ↔ (wantedStyle cs).settle false cs = .plain := by
  have hsingle (shortKey : Bool) (h : '\n' ∉ cs) : ScalarStyle.settle .singleQuoted shortKey cs ≠ .plain := by
    rcases settle_singleQuoted shortKey h with h | ⟨h, -⟩ <;> rw [h] <;> decide
  have hliteral (shortKey : Bool) : ScalarStyle.settle .literal shortKey cs ≠ .plain := by
    rcases settle_literal shortKey cs with h | ⟨h, -⟩ <;> rw [h] <;> decide
  rcases wantedStyle_cases cs with h | ⟨hfeed, h⟩ | ⟨hfeed, h, hquotes⟩
  · rw [h]
    exact iff_of_false (hliteral true) (hliteral false)
  · rw [h]
    exact iff_of_false (hsingle true hfeed) (hsingle false hfeed)
  · have hne := ne_nil_of_needsQuotes hquotes
    rw [h, settle_plain true hne, settle_plain false hne]
    split
    · exact Iff.rfl
    · exact iff_of_false (hsingle true hfeed) (hsingle false hfeed)

theorem eq_of_resolvePlain {cs : List Char} {s : String} (h : resolvePlain cs = some (.string s)) :
    s = String.ofList cs := by
  unfold resolvePlain at h
  repeat' split at h
  all_goals cases h
  rfl

theorem resolvePlain_of_needsQuotes {cs : List Char} (h : needsQuotes cs = false) :
    resolvePlain cs = some (.string (String.ofList cs)) := by
  unfold needsQuotes at h
  split at h
  · rename_i s hs
    rw [hs, eq_of_resolvePlain hs]
  · contradiction

end Document

end PolicyYaml
