import PolicyYaml.Proofs.Number.FloatText

namespace PolicyYaml.Number

def oneNaN : Number → Number
  | .int i => .int i
  | .float d => .float d.oneNaN

def isNumberStart (c : Char) : Bool := c.isDigit || ['-', 'N', 'i'].contains c

def isNumberChar (c : Char) : Bool := c.isDigit || ['-', '.', 'e', 'N', 'a', 'i', 'n', 'f'].contains c

theorem isNumberChar_of_floatBody {c : Char} (h : c.isDigit = true ∨ c ∈ ['.', 'e', '-']) :
    isNumberChar c = true := by
  rcases h with h | h
  · simp [isNumberChar, h]
  · have hall : ['.', 'e', '-'].all isNumberChar = true := by decide
    exact List.all_eq_true.mp hall c h

theorem isNumberChar_of_sign {negative : Bool} {c : Char} (h : c ∈ FloatLayout.sign negative) :
    isNumberChar c = true := by
  cases negative with
  | false => exact absurd h List.not_mem_nil
  | true =>
    rw [List.mem_singleton.mp h]
    rfl

theorem isNumberChar_of_mem_chars {n : Number} {c : Char} (h : c ∈ n.chars) : isNumberChar c = true := by
  cases n with
  | int i =>
    rcases FloatLayout.intText_chars h with h | rfl
    · simp [isNumberChar, h]
    · rfl
  | float d =>
    rw [chars, floatText] at h
    rcases FloatLayout.chars_cases floatLayout d with hd | hd | ⟨body, hd, hbody⟩
    · rw [hd] at h
      have hall : floatLayout.nan.toList.all isNumberChar = true := by decide
      exact List.all_eq_true.mp hall c h
    · rw [hd] at h
      rcases List.mem_append.mp h with h | h
      · exact isNumberChar_of_sign h
      · have hall : floatLayout.infinity.toList.all isNumberChar = true := by decide
        exact List.all_eq_true.mp hall c h
    · rw [hd] at h
      rcases List.mem_append.mp h with h | h
      · exact isNumberChar_of_sign h
      · exact isNumberChar_of_floatBody (hbody.chars c h)

theorem sign_append_opens (negative : Bool) {body : List Char}
    (h : ∃ c rest, body = c :: rest ∧ isNumberStart c = true) :
    ∃ c rest, FloatLayout.sign negative ++ body = c :: rest ∧ isNumberStart c = true := by
  cases negative with
  | false => exact h
  | true => exact ⟨'-', body, rfl, rfl⟩

theorem opens_of_isDigit {body : List Char} (h : ∃ c rest, body = c :: rest ∧ c.isDigit = true) :
    ∃ c rest, body = c :: rest ∧ isNumberStart c = true := by
  obtain ⟨c, rest, hcs, hc⟩ := h
  exact ⟨c, rest, hcs, by simp [isNumberStart, hc]⟩

theorem chars_opens (n : Number) : ∃ c rest, n.chars = c :: rest ∧ isNumberStart c = true := by
  cases n with
  | int i => exact sign_append_opens _ (opens_of_isDigit (FloatLayout.natText_opens _))
  | float d =>
    rw [chars, floatText]
    rcases FloatLayout.chars_cases floatLayout d with hd | hd | ⟨body, hd, hbody⟩
    · exact ⟨'N', ['a', 'N'], hd, rfl⟩
    · rw [hd]
      exact sign_append_opens _ ⟨'i', ['n', 'f'], rfl, rfl⟩
    · rw [hd]
      exact sign_append_opens _ (opens_of_isDigit hbody.opens)

theorem intText_injective {i j : Int} (h : FloatLayout.intText i = FloatLayout.intText j) : i = j := by
  have hsplit := congrArg Decimal.splitSign h
  rw [Decimal.splitSign_intText, Decimal.splitSign_intText, Prod.mk.injEq] at hsplit
  obtain ⟨hsign, htext⟩ := hsplit
  have habs : i.natAbs = j.natAbs := by
    rw [← Decimal.natOfDigits_natText i.natAbs, htext, Decimal.natOfDigits_natText]
  rw [decide_eq_decide] at hsign
  omega

theorem floatText_marked (d : Double) : ∃ c ∈ floatText d, c.isDigit = false ∧ c ≠ '-' := by
  rw [floatText]
  rcases FloatLayout.chars_cases floatLayout d with hd | hd | ⟨body, hd, hbody⟩
  · exact ⟨'N', by rw [hd]; decide, by decide⟩
  · exact ⟨'i', by rw [hd]; exact List.mem_append_right _ (by decide), by decide⟩
  · rcases hbody.marked with h | h
    · exact ⟨'.', by rw [hd]; exact List.mem_append_right _ h, by decide⟩
    · exact ⟨'e', by rw [hd]; exact List.mem_append_right _ h, by decide⟩

theorem intText_ne_floatText (i : Int) (d : Double) : FloatLayout.intText i ≠ floatText d := by
  intro h
  obtain ⟨c, hc, hdigit, hsign⟩ := floatText_marked d
  rw [← h] at hc
  rcases FloatLayout.intText_chars hc with hc | hc
  · rw [hdigit] at hc
    contradiction
  · exact hsign hc

theorem oneNaN_eq_of_chars {m n : Number} (h : m.chars = n.chars) : m.oneNaN = n.oneNaN := by
  cases m with
  | int i =>
    cases n with
    | int j => rw [Int64.toInt_inj.mp (intText_injective h)]
    | float e => exact absurd h (intText_ne_floatText _ e)
  | float d =>
    cases n with
    | int j => exact absurd h.symm (intText_ne_floatText _ d)
    | float e => rw [oneNaN, oneNaN, oneNaN_eq_of_floatText h]

end PolicyYaml.Number
