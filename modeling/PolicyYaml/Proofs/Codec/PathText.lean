import PolicyYaml.Proofs.Codec.Outcome
import PolicyYaml.Proofs.Number.DecimalText
import PolicyYaml.Proofs.Value.WellFormed

/-!
The texts of paths. A slash inside of a key reads like one between two segments, so that a text may lead to two
places. It does not where no key goes on after another key of its object with a slash.
-/

namespace PolicyYaml.Codec

namespace Path

def chars (p : Path) : List Char := p.flatMap fun s => '/' :: s.toList

theorem toList_text (p : Path) : p.text.toList = p.chars := by
  rw [text, String.toList_join, List.flatMap_map, chars]
  simp

theorem text_inj {p q : Path} : p.text = q.text ↔ p.chars = q.chars := by
  rw [← toList_text, ← toList_text, String.toList_inj]

theorem chars_cons (s : String) (p : Path) : chars (s :: p) = '/' :: (s.toList ++ p.chars) := rfl

theorem chars_append (p q : Path) : chars (p ++ q) = p.chars ++ q.chars := List.flatMap_append

theorem text_cons (s : String) (p : Path) : text (s :: p) = "/" ++ s ++ text p := by
  rw [← String.toList_inj, toList_text, chars_cons, String.toList_append, String.toList_append, toList_text]
  rfl

theorem text_append (p q : Path) : text (p ++ q) = text p ++ text q := by
  rw [← String.toList_inj, String.toList_append, toList_text, toList_text, toList_text, chars_append]

theorem text_cons_ne_nil (s : String) (p : Path) : text (s :: p) ≠ text [] := by
  rw [ne_eq, text_inj, chars_cons]
  exact List.cons_ne_nil _ _

theorem text_cons_inj {s : String} {p q : Path} : text (s :: p) = text (s :: q) ↔ p.text = q.text := by
  rw [text_inj, text_inj, chars_cons, chars_cons, List.cons.injEq, List.append_cancel_left_eq, and_iff_right rfl]

theorem eq_or_goes_on {s t : String} {p q : Path} {rest : List Char} (ht : t.toList = s.toList ++ rest)
    (hp : p.chars = rest ++ q.chars) :
    s = t ∧ p.text = q.text ∨ ∃ u, t = s ++ "/" ++ u ∧ p.text = "/" ++ u ++ q.text := by
  cases rest with
  | nil =>
    rw [List.append_nil, String.toList_inj] at ht
    exact .inl ⟨ht.symm, text_inj.mpr hp⟩
  | cons c cs =>
    cases p with
    | nil => contradiction
    | cons s' p' =>
      rw [chars_cons, List.cons_append, List.cons.injEq] at hp
      obtain ⟨rfl, htail⟩ := hp
      refine .inr ⟨String.ofList cs, ?_, ?_⟩
      · rw [← String.toList_inj, ht]
        simp
      · rw [← String.toList_inj, toList_text, chars_cons, htail]
        simp [toList_text]

theorem eq_or_goes_on_of_text {s t : String} {p q : Path} (h : text (s :: p) = text (t :: q)) :
    (s = t ∧ p.text = q.text) ∨ (∃ u, t = s ++ "/" ++ u ∧ p.text = "/" ++ u ++ q.text) ∨
      ∃ u, s = t ++ "/" ++ u ∧ q.text = "/" ++ u ++ p.text := by
  rw [text_inj, chars_cons, chars_cons, List.cons.injEq, List.append_eq_append_iff] at h
  rcases h.2 with ⟨rest, ht, hp⟩ | ⟨rest, hs, hq⟩
  · exact (eq_or_goes_on ht hp).imp_right .inl
  · rcases eq_or_goes_on hs hq with ⟨hsame, htext⟩ | hgoes
    · exact .inl ⟨hsame.symm, htext.symm⟩
    · exact .inr (.inr hgoes)

/-- The ways agree up to a segment that the second has with a slash and more text behind it. The first spells this slash
and this text with the segments that follow. -/
def IsMistakenFor (p q : Path) : Prop :=
  ∃ r s u p' q', p = r ++ s :: p' ∧ q = r ++ (s ++ "/" ++ u) :: q' ∧ text p' = "/" ++ u ++ text q'

theorem IsMistakenFor.cons {p q : Path} (h : p.IsMistakenFor q) (s : String) : IsMistakenFor (s :: p) (s :: q) := by
  obtain ⟨r, s', u, p', q', rfl, rfl, htext⟩ := h
  exact ⟨s :: r, s', u, p', q', rfl, rfl, htext⟩

theorem IsMistakenFor.text_eq {p q : Path} (h : p.IsMistakenFor q) : p.text = q.text := by
  obtain ⟨r, s, u, p', q', rfl, rfl, htext⟩ := h
  rw [text_append, text_append, text_cons, text_cons, htext]
  simp only [String.append_assoc]

theorem IsMistakenFor.ne {p q : Path} (h : p.IsMistakenFor q) : p ≠ q := by
  obtain ⟨r, s, u, p', q', rfl, rfl, -⟩ := h
  intro heq
  have hsegment : s = s ++ "/" ++ u := (List.cons.inj (List.append_cancel_left heq)).1
  have hlength := congrArg String.length hsegment
  rw [String.length_append, String.length_append] at hlength
  have hslash : "/".length = 1 := rfl
  omega

theorem text_eq_iff (p q : Path) : p.text = q.text ↔ p = q ∨ p.IsMistakenFor q ∨ q.IsMistakenFor p := by
  constructor
  · intro h
    -- the ways go together up to the first segments that differ, of which one goes on after the other
    induction p generalizing q with
    | nil =>
      cases q with
      | nil => exact .inl rfl
      | cons t q => exact absurd h.symm (text_cons_ne_nil t q)
    | cons s p ih =>
      cases q with
      | nil => exact absurd h (text_cons_ne_nil s p)
      | cons t q =>
        rcases eq_or_goes_on_of_text h with ⟨rfl, htext⟩ | ⟨u, rfl, htext⟩ | ⟨u, rfl, htext⟩
        · rcases ih q htext with rfl | hpq | hqp
          · exact .inl rfl
          · exact .inr (.inl (hpq.cons s))
          · exact .inr (.inr (hqp.cons s))
        · exact .inr (.inl ⟨[], s, u, p, q, rfl, rfl, htext⟩)
        · exact .inr (.inr ⟨[], t, u, q, p, rfl, rfl, htext⟩)
  · rintro (rfl | h | h)
    · rfl
    · exact h.text_eq
    · exact h.text_eq.symm

theorem IsMistakenFor.exists_slash {p q : Path} (h : p.IsMistakenFor q) : ∃ s ∈ q, '/' ∈ s.toList := by
  obtain ⟨r, s, u, p', q', -, rfl, -⟩ := h
  exact ⟨s ++ "/" ++ u, by simp, by simp⟩

end Path

theorem segment_injective {i j : Nat} (h : segment i = segment j) : i = j := by
  have hvalue := congrArg Decimal.natOfDigits (String.ofList_injective h)
  rwa [Decimal.natOfDigits_natText, Decimal.natOfDigits_natText] at hvalue

theorem slash_not_mem_segment (i : Nat) : '/' ∉ (segment i).toList := by
  rw [segment, String.toList_ofList]
  intro h
  have hdigit := Decimal.isDigit_natText h
  contradiction

def Apart (s t : String) : Prop := s ≠ t ∧ (∀ u, t ≠ s ++ "/" ++ u) ∧ ∀ u, s ≠ t ++ "/" ++ u

theorem Apart.symm {s t : String} (h : Apart s t) : Apart t s := ⟨h.1.symm, h.2.2, h.2.1⟩

theorem Apart.text_ne {s t : String} (h : Apart s t) (p q : Path) : Path.text (s :: p) ≠ Path.text (t :: q) := by
  intro htext
  rcases Path.eq_or_goes_on_of_text htext with ⟨heq, -⟩ | ⟨u, ht, -⟩ | ⟨u, hs, -⟩
  · exact h.1 heq
  · exact h.2.1 u ht
  · exact h.2.2 u hs

theorem ne_of_slash_not_mem {s t u : String} (h : '/' ∉ s.toList) : s ≠ t ++ "/" ++ u := by
  rintro rfl
  simp at h

theorem apart_of_slash_not_mem {s t : String} (hs : '/' ∉ s.toList) (ht : '/' ∉ t.toList) (h : s ≠ t) : Apart s t :=
  ⟨h, fun _ => ne_of_slash_not_mem ht, fun _ => ne_of_slash_not_mem hs⟩

def KeysApart (fields : List (Value × Value)) : Prop :=
  fields.Pairwise fun f g => Apart (keyText f.1) (keyText g.1)

theorem eq_or_apart_of_getElem? {members : List Value} {i j : Nat} {w w' : Value} (hw : members[i]? = some w)
    (hw' : members[j]? = some w') : segment i = segment j ∧ w = w' ∨ Apart (segment i) (segment j) := by
  by_cases hij : i = j
  · subst hij
    rw [hw, Option.some.injEq] at hw'
    exact .inl ⟨rfl, hw'⟩
  · exact .inr (apart_of_slash_not_mem (slash_not_mem_segment i) (slash_not_mem_segment j)
      fun h => hij (segment_injective h))

theorem Member.eq_or_apart {v w w' : Value} {s t : String} (hw : Member v s w) (hw' : Member v t w')
    (hkeys : ∀ fields, v = .object fields → KeysApart fields) : s = t ∧ w = w' ∨ Apart s t := by
  obtain ⟨_, hw, rfl⟩ := hw
  obtain ⟨_, hw', rfl⟩ := hw'
  cases hw with
  | item hi =>
    cases hw' with
    | item hj => exact eq_or_apart_of_getElem? hi hj
  | element hi =>
    cases hw' with
    | element hj => exact eq_or_apart_of_getElem? hi hj
  | @field fields k w hf =>
    cases hw' with
    | @field _ k' w' hg =>
      have hsymm : Std.Symm fun f g : Value × Value => Apart (keyText f.1) (keyText g.1) := ⟨fun _ _ => Apart.symm⟩
      by_cases heq : (k, w) = (k', w')
      · cases heq
        exact .inl ⟨rfl, rfl⟩
      · have hapart : Apart (keyText k) (keyText k') := List.Pairwise.forall (hkeys fields rfl) hf hg heq
        rw [keyText_eq, keyText_eq] at hapart
        exact .inr hapart

theorem Leads.eq_of_text {v x y : Value} {p q : Path} (hp : Leads v p x) (hq : Leads v q y)
    (hkeys : ∀ r fields, Leads v r (.object fields) → KeysApart fields) (htext : p.text = q.text) :
    p = q ∧ x = y := by
  induction hp generalizing q with
  | here v =>
    cases hq with
    | here => exact ⟨rfl, rfl⟩
    | step => exact absurd htext.symm (Path.text_cons_ne_nil _ _)
  | @step v w x s p hw _ ih =>
    cases hq with
    | here => exact absurd htext (Path.text_cons_ne_nil s p)
    | @step _ w' _ t q hw' hq =>
      rcases hw.eq_or_apart hw' fun fields hv => hkeys [] fields (hv ▸ .here v) with ⟨rfl, rfl⟩ | hapart
      · obtain ⟨rfl, rfl⟩ := ih hq (fun r fields hr => hkeys (s :: r) fields (.step hw hr))
          (Path.text_cons_inj.mp htext)
        exact ⟨rfl, rfl⟩
      · exact absurd htext (hapart.text_ne p q)

theorem Leads.segment_cases {v x : Value} {p : Path} (hp : Leads v p x) {s : String} (hs : s ∈ p) :
    (∃ i, s = segment i) ∨ ∃ r fields f, Leads v r (.object fields) ∧ f ∈ fields ∧ s = keyText f.1 := by
  induction hp with
  | here => contradiction
  | @step v w x t p hw _ ih =>
    rcases List.mem_cons.mp hs with rfl | hs
    · obtain ⟨_, hw, rfl⟩ := hw
      cases hw with
      | item => exact .inl ⟨_, rfl⟩
      | element => exact .inl ⟨_, rfl⟩
      | @field _ k _ hf => exact .inr ⟨[], _, _, .here _, hf, (keyText_eq k).symm⟩
    · refine (ih hs).imp_right ?_
      rintro ⟨r, fields, f, hr, hf, htext⟩
      exact ⟨t :: r, fields, f, .step hw hr, hf, htext⟩

theorem Leads.eq_of_text_of_no_slash {v x y : Value} {p q : Path} (hp : Leads v p x) (hq : Leads v q y)
    (hkeys : ∀ r fields, Leads v r (.object fields) → ∀ f ∈ fields, '/' ∉ (keyText f.1).toList)
    (htext : p.text = q.text) : p = q := by
  have hclear {p x} (hp : Leads v p x) (s : String) (hs : s ∈ p) : '/' ∉ s.toList := by
    rcases hp.segment_cases hs with ⟨i, rfl⟩ | ⟨r, fields, f, hr, hf, rfl⟩
    · exact slash_not_mem_segment i
    · exact hkeys r fields hr f hf
  rcases (Path.text_eq_iff p q).mp htext with heq | hpq | hqp
  · exact heq
  · obtain ⟨s, hs, hslash⟩ := hpq.exists_slash
    exact absurd hslash (hclear hq s hs)
  · obtain ⟨s, hs, hslash⟩ := hqp.exists_slash
    exact absurd hslash (hclear hp s hs)

inductive IsUnsupported : Value → Prop
  | undefined : IsUnsupported .undefined
  | key {fields : List (Value × Value)} {k w : Value} :
    (k, w) ∈ fields → k.asString? = none → k.HasUndefined → IsUnsupported (.object fields)

theorem exists_unsupported_of_marshal {v : Value} {path : String}
    (h : marshal v = .error (.unsupportedValue path)) :
    ∃ p x, Leads v p x ∧ IsUnsupported x ∧ p.text = path := by
  cases isOffence_of_marshal h with
  | undefinedValue hp => exact ⟨_, _, hp.leads, .undefined, (Place.text_eq _).symm⟩
  | undefinedKey hp hmem hstring hundefined =>
    exact ⟨_, _, hp.leads, .key hmem hstring hundefined, (Place.text_eq _).symm⟩

/-- The path of an unsupported value is the text of a way to it, and of no other way exactly if none with this text is
mistaken for another. -/
theorem unsupportedValue_located {v : Value} {path : String} (h : marshal v = .error (.unsupportedValue path)) :
    (∃ p x, Leads v p x ∧ IsUnsupported x ∧ p.text = path) ∧
      ((∃! p : Path, (∃ x, Leads v p x) ∧ p.text = path) ↔
        ¬∃ p q x y, Leads v p x ∧ Leads v q y ∧ p.text = path ∧ p.IsMistakenFor q) ∧
      ((∀ r fields, Leads v r (.object fields) → ∀ f ∈ fields, '/' ∉ (keyText f.1).toList) →
        ∃! p : Path, (∃ x, Leads v p x) ∧ p.text = path) ∧
      ((∀ r fields, Leads v r (.object fields) → KeysApart fields) →
        ∃! place : Path × Value, Leads v place.1 place.2 ∧ place.1.text = path) := by
  obtain ⟨p, x, hp, hx, htext⟩ := exists_unsupported_of_marshal h
  refine ⟨⟨p, x, hp, hx, htext⟩, ⟨?_, ?_⟩, ?_, ?_⟩
  · rintro ⟨only, -, honly⟩ ⟨q, r, y, z, hq, hr, hqtext, hmistaken⟩
    have hrtext : r.text = path := hmistaken.text_eq.symm.trans hqtext
    exact hmistaken.ne ((honly q ⟨⟨y, hq⟩, hqtext⟩).trans (honly r ⟨⟨z, hr⟩, hrtext⟩).symm)
  · intro hclear
    refine ⟨p, ⟨⟨x, hp⟩, htext⟩, ?_⟩
    rintro q ⟨⟨y, hq⟩, hqtext⟩
    rcases (Path.text_eq_iff q p).mp (hqtext.trans htext.symm) with heq | hqp | hpq
    · exact heq
    · exact absurd ⟨q, p, y, x, hq, hp, hqtext, hqp⟩ hclear
    · exact absurd ⟨p, q, x, y, hp, hq, htext, hpq⟩ hclear
  · intro hkeys
    refine ⟨p, ⟨⟨x, hp⟩, htext⟩, ?_⟩
    rintro q ⟨⟨y, hq⟩, hqtext⟩
    exact hq.eq_of_text_of_no_slash hp hkeys (hqtext.trans htext.symm)
  · intro hkeys
    refine ⟨(p, x), ⟨hp, htext⟩, ?_⟩
    rintro ⟨q, y⟩ ⟨hq, hqtext⟩
    obtain ⟨rfl, rfl⟩ := hq.eq_of_text hp hkeys (hqtext.trans htext.symm)
    rfl

theorem unsupportedValue_located_under_slash :
    let v := Value.object [(.string "x/y", .array [.undefined]), (.string "z", .null)]
    marshal v = .error (.unsupportedValue "/x/y/0") ∧
      ∃! place : Path × Value, Leads v place.1 place.2 ∧ place.1.text = "/x/y/0" := by
  intro v
  have hmarshal : marshal v = .error (.unsupportedValue "/x/y/0") := by decide
  refine ⟨hmarshal, (unsupportedValue_located hmarshal).2.2.2 ?_⟩
  have hapart : Apart "x/y" "z" := by
    refine ⟨by decide, fun u => ne_of_slash_not_mem (by decide), ?_⟩
    intro u h
    have hchars := congrArg String.toList h
    simp [String.toList_append] at hchars
  intro r fields hr
  subst v
  cases hr with
  | here => exact List.pairwise_pair.mpr hapart
  | step hmember hrest =>
    obtain ⟨_, henters, rfl⟩ := hmember
    cases henters with
    | field hf =>
      simp only [List.mem_cons, List.not_mem_nil, or_false, Prod.mk.injEq] at hf
      rcases hf with ⟨-, rfl⟩ | ⟨-, rfl⟩
      · cases hrest with
        | step hitem hrest =>
          obtain ⟨_, henters, rfl⟩ := hitem
          cases henters with
          | item hi =>
            rw [List.mem_singleton.mp (List.mem_of_getElem? hi)] at hrest
            cases hrest with
            | step hmember =>
              obtain ⟨_, henters, -⟩ := hmember
              cases henters
      · cases hrest with
        | step hmember =>
          obtain ⟨_, henters, -⟩ := hmember
          cases henters

theorem exists_path_of_two_places :
    ¬∀ v path, v.WellFormed → marshal v = .error (.unsupportedValue path) →
      ∃! p : Path, (∃ x, Leads v p x) ∧ p.text = path := by
  intro hunique
  let inner := Value.object [(.string "b", .null)]
  let v := Value.object [(.string "a", inner), (.string "a/b", .undefined)]
  have hinner : inner.WellFormed :=
    .object (by simpa using .string _) (by simpa using .null) (List.pairwise_singleton _ _)
  have hv : v.WellFormed := by
    refine .object ?_ ?_ ?_
    · simpa using ⟨.string _, .string _⟩
    · simpa using ⟨hinner, .undefined⟩
    · unfold Ascending.IsAscending
      decide
  obtain ⟨only, -, honly⟩ := hunique v "/a/b" hv (by decide)
  have hfirst : Leads v ["a", "b"] .null :=
    .step ⟨_, .field List.mem_cons_self, rfl⟩ (.step ⟨_, .field List.mem_cons_self, rfl⟩ (.here _))
  have hsecond : Leads v ["a/b"] .undefined :=
    .step ⟨_, .field (List.mem_cons_of_mem _ List.mem_cons_self), rfl⟩ (.here _)
  -- both ways have the text, so that both would be the only one
  have heq := (honly _ ⟨⟨_, hfirst⟩, by decide⟩).trans (honly _ ⟨⟨_, hsecond⟩, by decide⟩).symm
  contradiction

end PolicyYaml.Codec
