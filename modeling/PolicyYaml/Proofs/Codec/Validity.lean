import PolicyYaml.Codec.Basic
import PolicyYaml.Proofs.Codec.KeyOffence
import PolicyYaml.Proofs.Document.BlankText

namespace PolicyYaml.Codec

theorem decode_eq_ok_null_iff (t : Tree) : decode t = .ok .null ↔ t.isNull = true := by
  induction t using Tree.structuralInduction with
  | tagged tag content ih => exact ih
  | null => exact iff_of_true rfl rfl
  | boolean | integer | float | string =>
    rw [decode]
    simp [Tree.isNull]
  | sequence items ih =>
    rw [decode]
    cases decodeItems items <;> simp [Tree.isNull, Except.map]
  | mapping entries ih =>
    rw [decode]
    cases decodeEntries [] entries <;> simp [Tree.isNull, Except.map, TextFields.toObject]

theorem isKeyOffence_of_decode {t : Tree} {e : CodecError} (h : decode t = .error e) : IsKeyOffence t e := by
  have hhead : (keyOffences t).head? = some e := by
    rw [← failure?_decode, h]
    rfl
  exact (mem_keyOffences_iff t e).mp (List.mem_of_head? hhead)

theorem parseFailure_ne_malformed {reason : String} (h : reason.toList.head? ≠ some 'm') :
    CodecError.parseFailure reason ≠ malformed := by
  intro heq
  cases heq
  contradiction

theorem ne_malformed_of_isKeyOffence {t : Tree} {e : CodecError} (h : IsKeyOffence t e) : e ≠ malformed := by
  cases h with
  | sequence => decide
  | mapping => decide
  | duplicate =>
    apply parseFailure_ne_malformed
    simp [duplicateKeyReason]

structure VerdictsAgree (parsed : Except CodecError Tree) (valid : Bool) (outcome : Except CodecError Value) :
    Prop where
  of_value : ∀ v, outcome = .ok v → (valid = true ↔ v ≠ .null)
  of_failure : ∀ e, valid = true → outcome = .error e → ∃ tree, parsed = .ok tree ∧ IsKeyOffence tree e
  of_rejection : valid = false → outcome = .ok .null ∨ ∃ e, parsed = .error e ∧ outcome = .error e

section Parser

variable (parse : String → Except CodecError Tree)

def accepts (text : String) : Bool :=
  match parse text with
  | .ok tree => !tree.isNull
  | .error _ => false

def valueOf (text : String) : Except CodecError Value := if isBlank text then .ok .null else parse text >>= decode

/-- All that is asked of a parser: a blank text is no document for it, or null. -/
def NullOnBlank : Prop :=
  ∀ text, isBlank text = true → (∃ e, parse text = .error e) ∨ parse text = .ok .null

variable {parse}

theorem accepts_of_error {text : String} {e : CodecError} (h : parse text = .error e) :
    accepts parse text = false := by
  rw [accepts, h]

theorem accepts_of_ok {text : String} {tree : Tree} (h : parse text = .ok tree) :
    accepts parse text = !tree.isNull := by
  rw [accepts, h]

theorem verdictsAgree_null (parsed : Except CodecError Tree) : VerdictsAgree parsed false (.ok .null) := by
  refine ⟨?_, ?_, fun _ => .inl rfl⟩
  · intro v hv
    cases hv
    exact iff_of_false Bool.false_ne_true fun hne => hne rfl
  · intro e hvalid
    contradiction

theorem verdictsAgree_error (e : CodecError) : VerdictsAgree (.error e) false (.error e) := by
  refine ⟨?_, ?_, fun _ => .inr ⟨e, rfl, rfl⟩⟩
  · intro v hv
    contradiction
  · intro e' hvalid
    contradiction

theorem verdictsAgree_decode (tree : Tree) : VerdictsAgree (.ok tree) (!tree.isNull) (decode tree) := by
  refine ⟨?_, fun e _ he => ⟨tree, rfl, isKeyOffence_of_decode he⟩, ?_⟩
  · intro v hv
    have hnull := decode_eq_ok_null_iff tree
    rw [hv, Except.ok.injEq] at hnull
    rw [ne_eq, hnull, Bool.not_eq_true', Bool.not_eq_true]
  · intro hvalid
    rw [Bool.not_eq_false'] at hvalid
    exact .inl ((decode_eq_ok_null_iff tree).mpr hvalid)

theorem verdictsAgree_of_nullOnBlank (h : NullOnBlank parse) (text : String) :
    VerdictsAgree (parse text) (accepts parse text) (valueOf parse text) := by
  cases hblank : isBlank text with
  | true =>
    have hvalue : valueOf parse text = .ok .null := by
      rw [valueOf, hblank]
      rfl
    have hrejected : accepts parse text = false := by
      rcases h text hblank with ⟨e, he⟩ | hnull
      · exact accepts_of_error he
      · exact accepts_of_ok hnull
    rw [hvalue, hrejected]
    apply verdictsAgree_null
  | false =>
    have hvalue : valueOf parse text = parse text >>= decode := by
      rw [valueOf, hblank]
      rfl
    cases hparse : parse text with
    | error e =>
      rw [hvalue, accepts_of_error hparse, hparse]
      apply verdictsAgree_error
    | ok tree =>
      rw [hvalue, accepts_of_ok hparse, hparse]
      apply verdictsAgree_decode

end Parser

theorem nullOnBlank_readTree : NullOnBlank readTree := by
  intro text hblank
  have hfiller : ∀ c ∈ text.toList, Document.isFiller c = true := List.all_eq_true.mp hblank
  rcases Tree.read?_of_isFiller hfiller with hnone | hnull
  · exact .inl ⟨malformed, by rw [readTree, hnone]⟩
  · exact .inr (by rw [readTree, hnull])

theorem isValid_eq_accepts (text : String) : isValid text = accepts readTree text := by
  rw [isValid, checkDocument, accepts]
  cases readTree text <;> rfl

theorem unmarshal_eq_valueOf (text : String) : unmarshal text = valueOf readTree text := rfl

theorem readTree_eq_malformed {text : String} {e : CodecError} (h : readTree text = .error e) : e = malformed := by
  rw [readTree] at h
  split at h
  · contradiction
  · cases h
    rfl

theorem isValid_agrees_with_unmarshal :
    (∀ text v, unmarshal text = .ok v → (isValid text = true ↔ v ≠ .null)) ∧
      (∀ text e, isValid text = true → unmarshal text = .error e →
        e ≠ malformed ∧ ∃ tree, readTree text = .ok tree ∧ IsKeyOffence tree e) ∧
      (∀ text, isValid text = false → unmarshal text = .ok .null ∨
        unmarshal text = .error malformed ∧ readTree text = .error malformed) ∧
      ∀ parse, NullOnBlank parse → ∀ text,
        VerdictsAgree (parse text) (accepts parse text) (valueOf parse text) := by
  have hagree (text : String) : VerdictsAgree (readTree text) (isValid text) (unmarshal text) := by
    rw [isValid_eq_accepts, unmarshal_eq_valueOf]
    exact verdictsAgree_of_nullOnBlank nullOnBlank_readTree text
  refine ⟨fun text => (hagree text).of_value, ?_, ?_, fun parse => verdictsAgree_of_nullOnBlank⟩
  · intro text e hvalid he
    obtain ⟨tree, htree, hoffence⟩ := (hagree text).of_failure e hvalid he
    exact ⟨ne_malformed_of_isKeyOffence hoffence, tree, htree, hoffence⟩
  · intro text hvalid
    rcases (hagree text).of_rejection hvalid with hnull | ⟨e, hparse, he⟩
    · exact .inl hnull
    · have hmalformed := readTree_eq_malformed hparse
      rw [hmalformed] at hparse he
      exact .inr ⟨he, hparse⟩

theorem isValid_agrees_with_unmarshal_on_tagged_null_and_clash :
    let tilde := "!t ~"
    let clash := "1: a\n\"1\": b\n"
    let broken := "["
    let y := Tree.mapping [(.integer 1, .string "a"), (.string "1", .string "b")]
    let refuseBlank (text : String) : Except CodecError Tree :=
      if isBlank text then .error (.parseFailure "end of stream") else .ok (.tagged "t" .null)
    (unmarshal tilde = .ok .null ∧ isValid tilde = false) ∧
      (unmarshal clash = .error (duplicateKey "1") ∧ IsKeyOffence y (duplicateKey "1")) ∧
      (isValid broken = false ∧ unmarshal broken = .error malformed) ∧
      VerdictsAgree (refuseBlank "\t") (accepts refuseBlank "\t") (valueOf refuseBlank "\t") := by
  intro tilde clash broken y refuseBlank
  obtain ⟨hvalue, hfailure, hrejection, hparser⟩ := isValid_agrees_with_unmarshal
  have htilde : unmarshal tilde = .ok .null := by
    have hread : Tree.read? tilde.toList = some (.tagged "t" .null) := by decide +kernel
    have hblank : isBlank tilde = false := by decide +kernel
    rw [unmarshal, hblank, readTree, hread]
    rfl
  have hclashRead : readTree clash = .ok y := by
    have hread : Tree.read? clash.toList = some y := by decide +kernel
    rw [readTree, hread]
  have hclash : unmarshal clash = .error (duplicateKey "1") := by
    have hblank : isBlank clash = false := by decide +kernel
    rw [unmarshal, hblank, hclashRead]
    rfl
  have hvalid : isValid clash = true := by decide +kernel
  have hbroken : isValid broken = false := by decide +kernel
  refine ⟨⟨htilde, ?_⟩, ⟨hclash, ?_⟩, ⟨hbroken, ?_⟩, ?_⟩
  · rw [← Bool.not_eq_true, hvalue tilde .null htilde]
    exact fun hne => hne rfl
  · obtain ⟨-, tree, htree, hoffence⟩ := hfailure clash _ hvalid hclash
    rw [hclashRead, Except.ok.injEq] at htree
    rw [htree]
    exact hoffence
  · rcases hrejection broken hbroken with hok | ⟨herror, -⟩
    · have hread : Tree.read? broken.toList = none := by decide +kernel
      have hblank : isBlank broken = false := by decide +kernel
      rw [unmarshal, hblank, readTree, hread] at hok
      cases hok
    · exact herror
  · apply hparser refuseBlank
    intro text hblank
    exact .inl ⟨.parseFailure "end of stream", if_pos hblank⟩

end PolicyYaml.Codec
