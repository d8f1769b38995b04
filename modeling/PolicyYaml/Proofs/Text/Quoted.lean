import Mathlib.Tactic.SplitIfs
import PolicyYaml.Text.Quoted

namespace PolicyYaml.Text

def hexDigitValue (c : Char) : Nat := if c.isDigit then c.toNat - 48 else c.toNat - 87

def unquotedChar? : List Char → Option (Char × List Char)
  | '"' :: _ => none
  | '\\' :: 'n' :: rest => some ('\n', rest)
  | '\\' :: 'r' :: rest => some ('\r', rest)
  | '\\' :: 't' :: rest => some ('\t', rest)
  | '\\' :: 'b' :: rest => some ('\x08', rest)
  | '\\' :: 'f' :: rest => some ('\x0c', rest)
  | '\\' :: 'u' :: '0' :: '0' :: a :: b :: rest =>
    some (Char.ofNat (16 * hexDigitValue a + hexDigitValue b), rest)
  | '\\' :: c :: rest => some (c, rest)
  | c :: rest => some (c, rest)
  | [] => none

theorem hexDigits_control {c : Char} (h : isControl c = true) :
    Char.ofNat (16 * hexDigitValue (hexDigit (c.toNat / 16)) + hexDigitValue (hexDigit (c.toNat % 16))) = c := by
  have hlt : c.toNat < 32 := by simpa [isControl] using h
  have hvalue : ∀ n < 32, 16 * hexDigitValue (hexDigit (n / 16)) + hexDigitValue (hexDigit (n % 16)) = n := by
    decide
  rw [hvalue _ hlt, Char.ofNat_toNat]

theorem unquotedChar?_quotedChar (c : Char) (rest : List Char) :
    unquotedChar? (quotedChar c ++ rest) = some (c, rest) := by
  unfold quotedChar
  split_ifs with h1 h2 h3 h4 h5 h6 h7 h8
  · rw [h1]; rfl
  · rw [h2]; rfl
  · rw [h3]; rfl
  · rw [h4]; rfl
  · rw [h5]; rfl
  · rw [h6]; rfl
  · rw [h7]; rfl
  · simp only [List.cons_append, List.nil_append, unquotedChar?, hexDigits_control h8]
  · unfold unquotedChar?
    split <;> simp_all

theorem quote_ne_quotedChar_append (c : Char) (r s : List Char) : '"' :: r ≠ quotedChar c ++ s := by
  intro h
  have hread := congrArg unquotedChar? h
  rw [unquotedChar?_quotedChar] at hread
  exact absurd hread (by simp [unquotedChar?])

theorem quoted_append_inj {cs ds r s : List Char} (h : quoted cs ++ r = quoted ds ++ s) : cs = ds ∧ r = s := by
  simp only [quoted, List.cons_append, List.append_assoc, List.nil_append, List.cons.injEq, true_and] at h
  induction cs generalizing ds with
  | nil =>
    cases ds with
    | nil => simpa using h
    | cons d ds =>
      rw [List.flatMap_cons, List.append_assoc] at h
      exact absurd h (quote_ne_quotedChar_append d _ _)
  | cons c cs ih =>
    cases ds with
    | nil =>
      rw [List.flatMap_cons, List.append_assoc] at h
      exact absurd h.symm (quote_ne_quotedChar_append c _ _)
    | cons d ds =>
      have hread := congrArg unquotedChar? h
      simp only [List.flatMap_cons, List.append_assoc, unquotedChar?_quotedChar, Option.some.injEq,
        Prod.mk.injEq] at hread
      obtain ⟨rfl, htail⟩ := hread
      obtain ⟨rfl, rfl⟩ := ih htail
      exact ⟨rfl, rfl⟩

end PolicyYaml.Text
