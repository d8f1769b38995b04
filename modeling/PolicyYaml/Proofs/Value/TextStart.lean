import PolicyYaml.Proofs.Number.Text
import PolicyYaml.Value.Text

namespace PolicyYaml.Value

/-- What the first character of a text tells. Objects and sets that are not empty begin alike. -/
inductive TextKind where
  | null
  | boolean
  | number
  | string
  | bracketed
  | braced
  | emptySet
  | undefined

def startKind? (c : Char) : Option TextKind :=
  if Number.isNumberStart c then some .number
  else
    match c with
    | 'n' => some .null
    | 't' | 'f' => some .boolean
    | '"' => some .string
    | '[' => some .bracketed
    | '\x7b' => some .braced
    | 's' => some .emptySet
    | 'u' => some .undefined
    | _ => none

def textKind : Value → TextKind
  | .null => .null
  | .boolean _ => .boolean
  | .number _ => .number
  | .string _ => .string
  | .array _ => .bracketed
  | .object _ => .braced
  | .set [] => .emptySet
  | .set (_ :: _) => .braced
  | .undefined => .undefined

theorem chars_number (n : Number) : (number n).chars = n.chars := rfl

theorem chars_string (t : String) : (string t).chars = Text.quoted t.toList := rfl

theorem chars_array (items : List Value) : (array items).chars = '[' :: (itemChars items ++ [']']) := rfl

theorem chars_object (fields : List (Value × Value)) :
    (object fields).chars = '\x7b' :: (fieldChars fields ++ ['\x7d']) := rfl

theorem chars_set_cons (v : Value) (rest : List Value) :
    (set (v :: rest)).chars = '\x7b' :: (itemChars (v :: rest) ++ ['\x7d']) := rfl

theorem chars_starts (v : Value) : ∃ c rest, v.chars = c :: rest ∧ startKind? c = some v.textKind := by
  cases v with
  | null => exact ⟨'n', ['u', 'l', 'l'], rfl, rfl⟩
  | boolean b =>
    cases b with
    | true => exact ⟨'t', ['r', 'u', 'e'], rfl, rfl⟩
    | false => exact ⟨'f', ['a', 'l', 's', 'e'], rfl, rfl⟩
  | number n =>
    obtain ⟨c, rest, hcs, hc⟩ := n.chars_opens
    exact ⟨c, rest, by rw [chars_number, hcs], if_pos hc⟩
  | string s => exact ⟨'"', _, by rw [chars_string, Text.quoted], rfl⟩
  | array items => exact ⟨'[', _, chars_array items, rfl⟩
  | object fields => exact ⟨'\x7b', _, chars_object fields, rfl⟩
  | set elements =>
    cases elements with
    | nil => exact ⟨'s', ['e', 't', '(', ')'], rfl, rfl⟩
    | cons v rest => exact ⟨'\x7b', _, chars_set_cons v rest, rfl⟩
  | undefined => exact ⟨'u', ['n', 'd', 'e', 'f', 'i', 'n', 'e', 'd'], rfl, rfl⟩

def isDelimiter (c : Char) : Bool := [',', ':', ']', '\x7d'].contains c

theorem startKind?_of_isDelimiter {c : Char} (h : isDelimiter c = true) : startKind? c = none := by
  simp only [isDelimiter, List.contains_iff_mem, List.mem_cons, List.not_mem_nil, or_false] at h
  rcases h with rfl | rfl | rfl | rfl <;> rfl

theorem not_isNumberChar_of_isDelimiter {c : Char} (h : isDelimiter c = true) :
    Number.isNumberChar c = false := by
  simp only [isDelimiter, List.contains_iff_mem, List.mem_cons, List.not_mem_nil, or_false] at h
  rcases h with rfl | rfl | rfl | rfl <;> rfl

def EndsValue (r : List Char) : Prop := ∀ c ∈ r.head?, isDelimiter c = true

theorem endsValue_cons {c : Char} (r : List Char) (h : isDelimiter c = true) : EndsValue (c :: r) := by
  intro x hx
  rw [List.head?_cons, Option.mem_some_iff] at hx
  exact hx ▸ h

theorem endsValue_nil : EndsValue [] := by
  intro c hc
  exact absurd hc (by simp)

theorem delimiter_ne_chars {c : Char} (h : isDelimiter c = true) (v : Value) (r s : List Char) :
    c :: r ≠ v.chars ++ s := by
  obtain ⟨x, rest, hcs, hx⟩ := v.chars_starts
  intro he
  rw [hcs, List.cons_append, List.cons.injEq] at he
  rw [← he.1, startKind?_of_isDelimiter h] at hx
  contradiction

theorem textKind_eq_of_chars {a b : Value} {r s : List Char} (h : a.chars ++ r = b.chars ++ s) :
    a.textKind = b.textKind := by
  obtain ⟨c, rest, hcs, hc⟩ := a.chars_starts
  obtain ⟨d, rest', hds, hd⟩ := b.chars_starts
  rw [hcs, hds, List.cons_append, List.cons_append, List.cons.injEq] at h
  rw [h.1, hd, Option.some.injEq] at hc
  exact hc.symm

end PolicyYaml.Value
