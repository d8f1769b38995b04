import PolicyYaml.Document.Expansion
import PolicyYaml.Proofs.Document.Styles

namespace PolicyYaml

namespace Tree

inductive IsWritableScalar : Tree → Prop
  | null : IsWritableScalar .null
  | boolean (b : Bool) : IsWritableScalar (.boolean b)
  | integer {i : Int} : fitsBits 64 i = true → IsWritableScalar (.integer i)
  | float {d : Double} : d.oneNaN = d → IsWritableScalar (.float d)
  | string (s : String) : IsWritableScalar (.string s)

/-- A tree without tags whose numbers are not too large and whose keys are distinct texts. -/
inductive IsWritable : Tree → Prop
  | scalar {t : Tree} : t.IsWritableScalar → IsWritable t
  | sequence {items : List Tree} : (∀ t ∈ items, t.IsWritable) → IsWritable (.sequence items)
  | mapping {entries : List (Tree × Tree)} : (∀ e ∈ entries, ∃ s, e.1 = .string s) →
      (∀ e ∈ entries, e.2.IsWritable) → distinctKeys entries = true → IsWritable (.mapping entries)

end Tree

namespace Document

def scalarStyle (shortKey : Bool) : Tree → ScalarStyle
  | .string s => (wantedStyle s.toList).settle shortKey s.toList
  | _ => .plain

def scalarContent : Tree → List Char
  | .string s => s.toList
  | scalar => scalarChars 0 false scalar

theorem scalarChars_eq {t : Tree} (h : t.IsWritableScalar) (indent : Nat) (shortKey : Bool) :
    scalarChars indent shortKey t = styled indent (scalarContent t) (scalarStyle shortKey t) := by
  cases h <;> rfl

theorem suits_scalarStyle {t : Tree} (h : t.IsWritableScalar) (shortKey : Bool) :
    (scalarStyle shortKey t).Suits (scalarContent t) := by
  cases h with
  | null => exact isPlainText_words "null" (by decide)
  | boolean b =>
    cases b with
    | true => exact isPlainText_words "true" (by decide)
    | false => exact isPlainText_words "false" (by decide)
  | integer _ => exact isPlainText_intText _
  | float _ => exact isPlainText_floatChars _
  | string s => exact suits_settle shortKey s.toList

def isPlainScalar (t : Tree) : Bool := scalarStyle false t == .plain

theorem isPlainScalar_eq (shortKey : Bool) (t : Tree) : (scalarStyle shortKey t == .plain) = isPlainScalar t := by
  cases shortKey with
  | false => rfl
  | true =>
    cases t with
    | string s => exact Bool.eq_iff_iff.mpr (by simpa [isPlainScalar, scalarStyle] using settle_shortKey s.toList)
    | _ => rfl

theorem scalarTree_content {t : Tree} (h : t.IsWritableScalar) :
    scalarTree none (isPlainScalar t) (scalarContent t) = some t := by
  cases h with
  | null => rfl
  | boolean b => cases b <;> rfl
  | integer hi => exact resolvePlain_intText hi
  | @float d hd =>
    have hread := resolvePlain_floatChars d
    rw [hd] at hread
    exact hread
  | string s =>
    show (if isPlainScalar (.string s) then resolvePlain s.toList else some (.string (String.ofList s.toList))) = _
    split
    · rename_i hplain
      have hstyle : (wantedStyle s.toList).settle false s.toList = .plain := by
        simpa [isPlainScalar, scalarStyle] using hplain
      rcases settle_wantedStyle false s.toList with h | ⟨h, -⟩ | ⟨-, -, hquotes⟩ | ⟨h, -⟩
      · rw [h] at hstyle
        contradiction
      · rw [h] at hstyle
        contradiction
      · rw [resolvePlain_of_needsQuotes hquotes, String.ofList_toList]
      · rw [h] at hstyle
        contradiction
    · rw [String.ofList_toList]

end Document

end PolicyYaml
