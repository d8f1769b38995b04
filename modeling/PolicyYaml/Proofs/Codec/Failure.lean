import PolicyYaml.Codec.Decode
import PolicyYaml.Codec.Encode

/-!
Chains of steps of which the first failing one decides, and the recursions of `encode` and `decode` as such
chains.
-/

namespace PolicyYaml.Codec

def failure? {ε α : Type} : Except ε α → Option ε
  | .ok _ => none
  | .error e => some e

section Chains

variable {ε α β : Type} {x : Except ε α} {f : α → Except ε β}

theorem failure?_eq_none_iff : failure? x = none ↔ ∃ a, x = .ok a := by
  cases x <;> simp [failure?]

theorem failure?_eq_some_iff {e : ε} : failure? x = some e ↔ x = .error e := by
  cases x <;> simp [failure?]

theorem failure?_map (g : α → β) : failure? (x.map g) = failure? x := by
  cases x <;> rfl

theorem failure?_bind {causes causes' : List ε} (hx : failure? x = causes.head?)
    (hf : ∀ a, x = .ok a → failure? (f a) = causes'.head?) :
    failure? (x >>= f) = (causes ++ causes').head? := by
  cases x with
  | ok a =>
    have hnil : causes = [] := List.head?_eq_none_iff.mp hx.symm
    rw [hnil, List.nil_append]
    exact hf a rfl
  | error e =>
    rw [List.head?_append, ← hx]
    rfl

theorem bind_eq_ok_iff {b : β} : x >>= f = .ok b ↔ ∃ a, x = .ok a ∧ f a = .ok b := by
  cases x with
  | ok a =>
    constructor
    · intro h
      exact ⟨a, rfl, h⟩
    · rintro ⟨_, hx, h⟩
      cases hx
      exact h
  | error e =>
    constructor
    · intro h
      contradiction
    · rintro ⟨_, h, -⟩
      contradiction

theorem map_eq_ok_iff {g : α → β} {b : β} : x.map g = .ok b ↔ ∃ a, x = .ok a ∧ g a = b := by
  cases x <;> simp [Except.map]

end Chains

theorem exists_eq_append_cons_iff {α : Type} {x : α} {rest : List α} {P : List α → α → Prop} :
    (∃ before a after, x :: rest = before ++ a :: after ∧ P before a) ↔
      P [] x ∨ ∃ before a after, rest = before ++ a :: after ∧ P (x :: before) a := by
  constructor
  · rintro ⟨before, a, after, hsplit, h⟩
    cases before with
    | nil =>
      cases hsplit
      exact .inl h
    | cons y before =>
      cases hsplit
      exact .inr ⟨before, a, after, rfl, h⟩
  · rintro (h | ⟨before, a, after, rfl, h⟩)
    · exact ⟨[], x, rest, rfl, h⟩
    · exact ⟨x :: before, a, after, rfl, h⟩

theorem encodeItems_cons (path : Path) (index : Nat) (v : Value) (rest : List Value) :
    encodeItems path index (v :: rest) =
      encodeAt (path ++ [segment index]) v >>= fun first =>
        (encodeItems path (index + 1) rest).map fun others => first :: others := by
  rw [encodeItems]
  rfl

theorem encodeFields_cons (path : Path) (seen : List String) (k v : Value) (rest : List (Value × Value)) :
    encodeFields path seen ((k, v) :: rest) =
      if isUnwritableKey k then .error (.unsupportedValue path.text)
      else if seen.contains (keyText k) then .error (.keyCollision (Path.text (path ++ [keyText k])))
      else encodeAt (path ++ [keyText k]) v >>= fun first =>
        (encodeFields path (keyText k :: seen) rest).map fun others => (.string (keyText k), first) :: others := by
  rw [encodeFields]
  cases isUnwritableKey k
  · cases hc : seen.contains (keyText k)
    · simp only [Bool.false_eq_true, ↓reduceIte, hc]
      rfl
    · simp only [Bool.false_eq_true, ↓reduceIte, hc]
      rfl
  · rfl

theorem decodeItems_cons (t : Tree) (rest : List Tree) :
    decodeItems (t :: rest) =
      decode t >>= fun first => (decodeItems rest).map fun others => first :: others := by
  rw [decodeItems]
  rfl

theorem decodeEntries_cons (fields : TextFields) (k v : Tree) (rest : List (Tree × Tree)) :
    decodeEntries fields ((k, v) :: rest) =
      treeKey k >>= fun key =>
        if fields.contains key then .error (duplicateKey key)
        else decode v >>= fun value => decodeEntries (fields.insert key value) rest := by
  rw [decodeEntries]
  cases treeKey k with
  | error e => rfl
  | ok key =>
    cases hc : fields.contains key <;> simp only [bind, Except.bind, hc]

theorem contains_eq_true_iff (fields : TextFields) (key : String) :
    fields.contains key = true ↔ key ∈ fields.map Prod.fst := by
  rw [TextFields.contains, List.any_eq_true, List.mem_map]
  simp only [beq_iff_eq]

theorem decodeEntries_cons_of_fresh {k : Tree} {key : String} (hk : treeKey k = .ok key) {fields : TextFields}
    (hfresh : key ∉ fields.map Prod.fst) (v : Tree) (rest : List (Tree × Tree)) :
    decodeEntries fields ((k, v) :: rest) =
      decode v >>= fun value => decodeEntries (fields.insert key value) rest := by
  rw [← contains_eq_true_iff] at hfresh
  rw [decodeEntries_cons, hk]
  exact if_neg hfresh

end PolicyYaml.Codec
