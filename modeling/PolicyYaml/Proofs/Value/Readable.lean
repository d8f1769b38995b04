import PolicyYaml.Proofs.Text.Quoted
import PolicyYaml.Proofs.Value.OneNaN
import PolicyYaml.Proofs.Value.TextStart

/-!
Canonical text is read in one way only: what follows a value in it begins with a delimiter, and up to
there the text determines the value.
-/

namespace PolicyYaml.Value

def IsReadable (a : Value) : Prop :=
  ∀ (b : Value) (r s : List Char), EndsValue r → EndsValue s → a.chars ++ r = b.chars ++ s →
    a.oneNaN = b.oneNaN ∧ r = s

theorem takeWhile_numberChars (n : Number) {r : List Char} (hr : EndsValue r) :
    (n.chars ++ r).takeWhile Number.isNumberChar = n.chars := by
  rw [List.takeWhile_append_of_pos fun c hc => Number.isNumberChar_of_mem_chars hc]
  cases r with
  | nil => rw [List.takeWhile_nil, List.append_nil]
  | cons c r =>
    have hc := not_isNumberChar_of_isDelimiter (hr c (by simp))
    rw [List.takeWhile_cons_of_neg (by simp [hc]), List.append_nil]

theorem number_readable {m n : Number} {r s : List Char} (hr : EndsValue r) (hs : EndsValue s)
    (h : m.chars ++ r = n.chars ++ s) : m.oneNaN = n.oneNaN ∧ r = s := by
  have hchars : m.chars = n.chars := by
    rw [← takeWhile_numberChars m hr, h, takeWhile_numberChars n hs]
  refine ⟨Number.oneNaN_eq_of_chars hchars, ?_⟩
  rw [hchars] at h
  exact List.append_cancel_left h

theorem endsValue_moreItems (items : List Value) {c : Char} (r : List Char) (hc : isDelimiter c = true) :
    EndsValue (moreItemChars items ++ c :: r) := by
  cases items with
  | nil => exact endsValue_cons r hc
  | cons v rest => exact endsValue_cons _ rfl

theorem endsValue_moreFields (fields : List (Value × Value)) {c : Char} (r : List Char)
    (hc : isDelimiter c = true) : EndsValue (moreFieldChars fields ++ c :: r) := by
  cases fields with
  | nil => exact endsValue_cons r hc
  | cons f rest => exact endsValue_cons _ rfl

section Members

variable {c : Char} (hc : isDelimiter c = true) (hcomma : c ≠ ',')

include hc hcomma

theorem moreItems_readable {items items' : List Value} {r s : List Char} (hread : ∀ v ∈ items, v.IsReadable)
    (h : moreItemChars items ++ c :: r = moreItemChars items' ++ c :: s) :
    oneNaNItems items = oneNaNItems items' ∧ r = s := by
  induction items generalizing items' with
  | nil =>
    cases items' with
    | nil => simpa [moreItemChars] using h
    | cons v rest =>
      rw [moreItemChars, moreItemChars, List.nil_append, List.cons_append, List.cons.injEq] at h
      exact absurd h.1 hcomma
  | cons v rest ih =>
    cases items' with
    | nil =>
      rw [moreItemChars, moreItemChars, List.nil_append, List.cons_append, List.cons.injEq] at h
      exact absurd h.1.symm hcomma
    | cons v' rest' =>
      simp only [moreItemChars, List.cons_append, List.append_assoc, List.cons.injEq, true_and] at h
      obtain ⟨hv, htail⟩ := hread v (by simp) v' _ _ (endsValue_moreItems rest r hc)
        (endsValue_moreItems rest' s hc) h
      obtain ⟨hrest, hrs⟩ := ih (fun w hw => hread w (List.mem_cons_of_mem _ hw)) htail
      rw [oneNaNItems, oneNaNItems, hv, hrest]
      exact ⟨rfl, hrs⟩

theorem items_readable {items items' : List Value} {r s : List Char} (hread : ∀ v ∈ items, v.IsReadable)
    (h : itemChars items ++ c :: r = itemChars items' ++ c :: s) :
    oneNaNItems items = oneNaNItems items' ∧ r = s := by
  cases items with
  | nil =>
    cases items' with
    | nil => simpa [itemChars] using h
    | cons v rest =>
      rw [itemChars, itemChars, List.nil_append, List.append_assoc] at h
      exact absurd h (delimiter_ne_chars hc v _ _)
  | cons v rest =>
    cases items' with
    | nil =>
      rw [itemChars, itemChars, List.nil_append, List.append_assoc] at h
      exact absurd h.symm (delimiter_ne_chars hc v _ _)
    | cons v' rest' =>
      rw [itemChars, itemChars, List.append_assoc, List.append_assoc] at h
      obtain ⟨hv, htail⟩ := hread v (by simp) v' _ _ (endsValue_moreItems rest r hc)
        (endsValue_moreItems rest' s hc) h
      obtain ⟨hrest, hrs⟩ := moreItems_readable hc hcomma (fun w hw => hread w (List.mem_cons_of_mem _ hw)) htail
      rw [oneNaNItems, oneNaNItems, hv, hrest]
      exact ⟨rfl, hrs⟩

omit hcomma in
theorem field_readable {k v k' v' : Value} {fields fields' : List (Value × Value)} {r s : List Char}
    (hk : k.IsReadable) (hv : v.IsReadable)
    (h : k.chars ++ ':' :: ' ' :: (v.chars ++ (moreFieldChars fields ++ c :: r)) =
      k'.chars ++ ':' :: ' ' :: (v'.chars ++ (moreFieldChars fields' ++ c :: s))) :
    (k.oneNaN, v.oneNaN) = (k'.oneNaN, v'.oneNaN) ∧
      moreFieldChars fields ++ c :: r = moreFieldChars fields' ++ c :: s := by
  obtain ⟨hkey, htail⟩ := hk k' _ _ (endsValue_cons _ rfl) (endsValue_cons _ rfl) h
  simp only [List.cons.injEq, true_and] at htail
  obtain ⟨hvalue, hrest⟩ := hv v' _ _ (endsValue_moreFields fields r hc) (endsValue_moreFields fields' s hc) htail
  rw [hkey, hvalue]
  exact ⟨rfl, hrest⟩

theorem moreFields_readable {fields fields' : List (Value × Value)} {r s : List Char}
    (hread : ∀ f ∈ fields, f.1.IsReadable ∧ f.2.IsReadable)
    (h : moreFieldChars fields ++ c :: r = moreFieldChars fields' ++ c :: s) :
    oneNaNFields fields = oneNaNFields fields' ∧ r = s := by
  induction fields generalizing fields' with
  | nil =>
    cases fields' with
    | nil => simpa [moreFieldChars] using h
    | cons f rest =>
      rw [moreFieldChars, moreFieldChars, List.nil_append, List.cons_append, List.cons.injEq] at h
      exact absurd h.1 hcomma
  | cons f rest ih =>
    cases fields' with
    | nil =>
      rw [moreFieldChars, moreFieldChars, List.nil_append, List.cons_append, List.cons.injEq] at h
      exact absurd h.1.symm hcomma
    | cons f' rest' =>
      simp only [moreFieldChars, List.cons_append, List.append_assoc, List.cons.injEq, true_and] at h
      obtain ⟨hk, hv⟩ := hread f (by simp)
      obtain ⟨hf, htail⟩ := field_readable hc hk hv h
      obtain ⟨hrest, hrs⟩ := ih (fun w hw => hread w (List.mem_cons_of_mem _ hw)) htail
      rw [oneNaNFields, oneNaNFields, hf, hrest]
      exact ⟨rfl, hrs⟩

theorem fields_readable {fields fields' : List (Value × Value)} {r s : List Char}
    (hread : ∀ f ∈ fields, f.1.IsReadable ∧ f.2.IsReadable)
    (h : fieldChars fields ++ c :: r = fieldChars fields' ++ c :: s) :
    oneNaNFields fields = oneNaNFields fields' ∧ r = s := by
  cases fields with
  | nil =>
    cases fields' with
    | nil => simpa [fieldChars] using h
    | cons f rest =>
      rw [fieldChars, fieldChars, List.nil_append, List.append_assoc] at h
      exact absurd h (delimiter_ne_chars hc _ _ _)
  | cons f rest =>
    cases fields' with
    | nil =>
      rw [fieldChars, fieldChars, List.nil_append, List.append_assoc] at h
      exact absurd h.symm (delimiter_ne_chars hc _ _ _)
    | cons f' rest' =>
      simp only [fieldChars, List.cons_append, List.append_assoc] at h
      obtain ⟨hk, hv⟩ := hread f (by simp)
      obtain ⟨hf, htail⟩ := field_readable hc hk hv h
      obtain ⟨hrest, hrs⟩ := moreFields_readable hc hcomma (fun w hw => hread w (List.mem_cons_of_mem _ hw)) htail
      rw [oneNaNFields, oneNaNFields, hf, hrest]
      exact ⟨rfl, hrs⟩

end Members

theorem colon_ne_moreItems (items : List Value) (r s : List Char) :
    ':' :: r ≠ moreItemChars items ++ '\x7d' :: s := by
  intro h
  cases items with
  | nil =>
    rw [moreItemChars, List.nil_append, List.cons.injEq] at h
    exact absurd h.1 (by decide)
  | cons v rest =>
    rw [moreItemChars, List.cons_append, List.cons.injEq] at h
    exact absurd h.1 (by decide)

theorem boolChars_append_inj {a b : Bool} {r s : List Char} (h : boolChars a ++ r = boolChars b ++ s) :
    a = b ∧ r = s := by
  have hstart : ∀ c : Bool, ∃ rest, boolChars c = (if c then 't' else 'f') :: rest := by
    intro c
    cases c
    · exact ⟨['a', 'l', 's', 'e'], rfl⟩
    · exact ⟨['r', 'u', 'e'], rfl⟩
  have hab : a = b := by
    obtain ⟨as, ha⟩ := hstart a
    obtain ⟨bs, hb⟩ := hstart b
    rw [ha, hb, List.cons_append, List.cons_append, List.cons.injEq] at h
    revert h
    cases a <;> cases b <;> simp
  subst hab
  exact ⟨rfl, List.append_cancel_left h⟩

theorem array_readable {items items' : List Value} {r s : List Char} (hread : ∀ v ∈ items, v.IsReadable)
    (h : (array items).chars ++ r = (array items').chars ++ s) :
    (array items).oneNaN = (array items').oneNaN ∧ r = s := by
  simp only [chars_array, List.cons_append, List.append_assoc, List.nil_append, List.cons.injEq, true_and] at h
  obtain ⟨hitems, hrs⟩ := items_readable (c := ']') rfl (by decide) hread h
  rw [oneNaN, oneNaN, hitems]
  exact ⟨rfl, hrs⟩

theorem set_readable {elements elements' : List Value} {r s : List Char}
    (hread : ∀ v ∈ elements, v.IsReadable) (hkind : (set elements).textKind = (set elements').textKind)
    (h : (set elements).chars ++ r = (set elements').chars ++ s) :
    (set elements).oneNaN = (set elements').oneNaN ∧ r = s := by
  cases elements with
  | nil =>
    cases elements' with
    | nil => exact ⟨rfl, List.append_cancel_left h⟩
    | cons v rest => simp [textKind] at hkind
  | cons v rest =>
    cases elements' with
    | nil => simp [textKind] at hkind
    | cons v' rest' =>
      simp only [chars_set_cons, List.cons_append, List.append_assoc, List.nil_append, List.cons.injEq,
        true_and] at h
      obtain ⟨hitems, hrs⟩ := items_readable (c := '\x7d') rfl (by decide) hread h
      rw [oneNaN, oneNaN, hitems]
      exact ⟨rfl, hrs⟩

theorem object_readable {fields fields' : List (Value × Value)} {r s : List Char}
    (hread : ∀ f ∈ fields, f.1.IsReadable ∧ f.2.IsReadable)
    (h : (object fields).chars ++ r = (object fields').chars ++ s) :
    (object fields).oneNaN = (object fields').oneNaN ∧ r = s := by
  simp only [chars_object, List.cons_append, List.append_assoc, List.nil_append, List.cons.injEq, true_and] at h
  obtain ⟨hfields, hrs⟩ := fields_readable (c := '\x7d') rfl (by decide) hread h
  rw [oneNaN, oneNaN, hfields]
  exact ⟨rfl, hrs⟩

theorem object_ne_set {fields : List (Value × Value)} {elements : List Value} {r s : List Char}
    (hread : (∀ f ∈ fields, f.1.IsReadable) ∨ ∀ v ∈ elements, v.IsReadable)
    (h : (object fields).chars ++ r = (set elements).chars ++ s) : False := by
  have hkind := textKind_eq_of_chars h
  cases elements with
  | nil => simp [textKind] at hkind
  | cons v rest =>
    simp only [chars_object, chars_set_cons, List.cons_append, List.append_assoc, List.nil_append,
      List.cons.injEq, true_and] at h
    cases fields with
    | nil =>
      rw [fieldChars, itemChars, List.nil_append, List.append_assoc] at h
      exact delimiter_ne_chars rfl v _ _ h
    | cons f fields =>
      simp only [fieldChars, itemChars, List.cons_append, List.append_assoc] at h
      have hr := endsValue_moreItems rest s (c := '\x7d') rfl
      rcases hread with hread | hread
      · exact colon_ne_moreItems _ _ _ (hread f (by simp) v _ _ (endsValue_cons _ rfl) hr h).2
      · exact colon_ne_moreItems _ _ _ (hread v (by simp) f.1 _ _ hr (endsValue_cons _ rfl) h.symm).2.symm

theorem isReadable (a : Value) : a.IsReadable := by
  induction a using structuralInduction with
  | null =>
    intro b r s hr hs h
    have hkind := textKind_eq_of_chars h
    cases b with
    | null => exact ⟨rfl, List.append_cancel_left h⟩
    | set elements => cases elements <;> simp [textKind] at hkind
    | _ => simp [textKind] at hkind
  | boolean a =>
    intro b r s hr hs h
    have hkind := textKind_eq_of_chars h
    cases b with
    | boolean b =>
      obtain ⟨rfl, hrs⟩ := boolChars_append_inj h
      exact ⟨rfl, hrs⟩
    | set elements => cases elements <;> simp [textKind] at hkind
    | _ => simp [textKind] at hkind
  | number n =>
    intro b r s hr hs h
    have hkind := textKind_eq_of_chars h
    cases b with
    | number m =>
      obtain ⟨hnumber, hrs⟩ := number_readable hr hs h
      rw [oneNaN, oneNaN, hnumber]
      exact ⟨rfl, hrs⟩
    | set elements => cases elements <;> simp [textKind] at hkind
    | _ => simp [textKind] at hkind
  | string t =>
    intro b r s hr hs h
    have hkind := textKind_eq_of_chars h
    cases b with
    | string u =>
      obtain ⟨htext, hrs⟩ := Text.quoted_append_inj h
      rw [String.toList_inj.mp htext]
      exact ⟨rfl, hrs⟩
    | set elements => cases elements <;> simp [textKind] at hkind
    | _ => simp [textKind] at hkind
  | array items ih =>
    intro b r s hr hs h
    have hkind := textKind_eq_of_chars h
    cases b with
    | array items' => exact array_readable ih h
    | set elements => cases elements <;> simp [textKind] at hkind
    | _ => simp [textKind] at hkind
  | object fields ih =>
    intro b r s hr hs h
    have hkind := textKind_eq_of_chars h
    cases b with
    | object fields' => exact object_readable ih h
    | set elements => exact (object_ne_set (.inl fun f hf => (ih f hf).1) h).elim
    | _ => simp [textKind] at hkind
  | set elements ih =>
    intro b r s hr hs h
    have hkind := textKind_eq_of_chars h
    cases b with
    | set elements' => exact set_readable ih hkind h
    | object fields => exact (object_ne_set (.inr ih) h.symm).elim
    | _ => cases elements <;> simp [textKind] at hkind
  | undefined =>
    intro b r s hr hs h
    have hkind := textKind_eq_of_chars h
    cases b with
    | undefined => exact ⟨rfl, List.append_cancel_left h⟩
    | set elements => cases elements <;> simp [textKind] at hkind
    | _ => simp [textKind] at hkind

end PolicyYaml.Value
