import PolicyYaml.Proofs.Codec.KeyText
import PolicyYaml.Proofs.Codec.Outcome

/-!
A value with `undefined` in it is never written. What is reported is the `undefined`, unless the texts of two keys
clash before the walk meets it.
-/

namespace PolicyYaml.Codec

namespace Stop

theorem offences_of_isUndefined {stop : Stop} (h : stop.isUndefined = true) :
    ∃ path, stop.offences.head? = some (.unsupportedValue path) := by
  cases stop with
  | value place v => exact ⟨place.text, by rw [offences, if_pos h]; rfl⟩
  | key place earlier k => exact ⟨place.text, by rw [offences, if_pos h]; rfl⟩

theorem offences_of_isClash {stop : Stop} (h : stop.isUndefined = false) (hclash : stop.isClash = true) :
    ∃ path, stop.offences.head? = some (.keyCollision path) := by
  cases stop with
  | value place v => contradiction
  | key place earlier k => exact ⟨Place.text (place ++ [.key k]), by rw [offences, h, if_pos hclash]; rfl⟩

theorem offences_eq_nil {stop : Stop} (h : stop.isUndefined = false) (hclash : stop.isClash = false) :
    stop.offences = [] := by
  cases stop with
  | value place v =>
    rw [offences, h]
    rfl
  | key place earlier k =>
    rw [offences, h, hclash]
    rfl

end Stop

/-- Whether no two keys clash among the stops before the first `undefined`. -/
def MeetsUndefinedFirst (stops : List Stop) : Prop :=
  ∀ stop ∈ stops.takeWhile fun s => !s.isUndefined, stop.isClash = false

theorem meetsUndefinedFirst_cons_iff (stop : Stop) (rest : List Stop) :
    MeetsUndefinedFirst (stop :: rest) ↔
      stop.isUndefined = true ∨ stop.isClash = false ∧ MeetsUndefinedFirst rest := by
  rw [MeetsUndefinedFirst, MeetsUndefinedFirst, List.takeWhile_cons]
  cases stop.isUndefined <;> simp

theorem head?_offences {stops : List Stop} (h : ∃ stop ∈ stops, stop.isUndefined = true) :
    (MeetsUndefinedFirst stops ∧ ∃ path, (stops.flatMap Stop.offences).head? = some (.unsupportedValue path)) ∨
      ¬MeetsUndefinedFirst stops ∧ ∃ path, (stops.flatMap Stop.offences).head? = some (.keyCollision path) := by
  induction stops with
  | nil => simp at h
  | cons stop rest ih =>
    rw [meetsUndefinedFirst_cons_iff, List.flatMap_cons, List.head?_append]
    cases hundefined : stop.isUndefined with
    | true =>
      obtain ⟨path, hpath⟩ := Stop.offences_of_isUndefined hundefined
      exact .inl ⟨.inl rfl, path, by rw [hpath, Option.some_or]⟩
    | false =>
      cases hclash : stop.isClash with
      | true =>
        obtain ⟨path, hpath⟩ := Stop.offences_of_isClash hundefined hclash
        exact .inr ⟨by simp, path, by rw [hpath, Option.some_or]⟩
      | false =>
        have hrest : ∃ stop ∈ rest, stop.isUndefined = true := by
          obtain ⟨s, hs, hsome⟩ := h
          rcases List.mem_cons.mp hs with rfl | hs
          · rw [hundefined] at hsome
            contradiction
          · exact ⟨s, hs, hsome⟩
        simpa [Stop.offences_eq_nil hundefined hclash] using ih hrest

def StopsAtUndefined (v : Value) : Prop := ∃ stop : Stop, stop.IsFrom [] v ∧ stop.isUndefined = true

theorem StopsAtUndefined.of_enters {v w : Value} {s : Step} (hm : Enters v s w) (h : StopsAtUndefined w) :
    StopsAtUndefined v := by
  obtain ⟨stop, ⟨p, x, hp, hx⟩, hundefined⟩ := h
  cases hx with
  | value => exact ⟨.value (s :: p) x, ⟨s :: p, x, .step hm hp, .value x⟩, hundefined⟩
  | key before after k y => exact ⟨.key (s :: p) _ k, ⟨s :: p, _, .step hm hp, .key before after k y⟩, hundefined⟩

theorem stopsAtUndefined {v : Value} (h : v.HasUndefined) : StopsAtUndefined v := by
  induction h with
  | here => exact ⟨.value [] .undefined, ⟨[], _, .here _, .value _⟩, rfl⟩
  | item hw _ ih =>
    obtain ⟨i, hi⟩ := List.getElem?_of_mem hw
    exact ih.of_enters (.item hi)
  | element hw _ ih =>
    obtain ⟨i, hi⟩ := List.getElem?_of_mem hw
    exact ih.of_enters (.element hi)
  | @key fields f hf hundefined _ =>
    obtain ⟨before, after, rfl⟩ := List.append_of_mem hf
    refine ⟨.key [] _ f.1, ⟨[], _, .here _, .key before after f.1 f.2⟩, (Stop.isUndefined_key_iff _ _ f.1).mpr ⟨?_, hundefined⟩⟩
    cases hk : f.1 <;> first | rfl | (rw [hk] at hundefined; cases hundefined)
  | field hf _ ih => exact ih.of_enters (.field hf)

theorem exists_mem_walk {v : Value} (h : v.HasUndefined) : ∃ stop ∈ walk [] v, stop.isUndefined = true := by
  obtain ⟨stop, hfrom, hundefined⟩ := stopsAtUndefined h
  exact ⟨stop, (mem_walk_iff [] v stop).mpr hfrom, hundefined⟩

theorem meetsUndefinedFirst_of_nodup {v : Value}
    (h : ∀ p fields, Leads v p (.object fields) → (fields.map fun f => keyText f.1).Nodup) :
    MeetsUndefinedFirst (walk [] v) := by
  intro stop hstop
  obtain ⟨p, x, hp, hx⟩ := (mem_walk_iff [] v stop).mp ((List.takeWhile_sublist _).subset hstop)
  cases hx with
  | value => rfl
  | key before after k w =>
    have hnodup := h p.path _ hp.leads
    rw [List.map_append, List.map_cons, List.nodup_append] at hnodup
    rw [Bool.eq_false_iff, ne_eq, Stop.isClash_key_iff]
    rintro ⟨k', hmem, htext⟩
    obtain ⟨f, hf, rfl⟩ := List.mem_map.mp hmem
    rw [← keyText_eq, ← keyText_eq] at htext
    exact hnodup.2.2 _ (List.mem_map_of_mem hf) _ List.mem_cons_self htext

theorem marshal_of_hasUndefined {v : Value} (h : v.HasUndefined) :
    (∃ e, marshal v = .error e ∧ IsOffence v e) ∧
      ((∃ path, marshal v = .error (.unsupportedValue path)) ↔ MeetsUndefinedFirst (walk [] v)) ∧
      ((∃ path, marshal v = .error (.keyCollision path)) ↔ ¬MeetsUndefinedFirst (walk [] v)) ∧
      ((∀ p fields, Leads v p (.object fields) → (fields.map fun f => keyText f.1).Nodup) →
        ∃ path, marshal v = .error (.unsupportedValue path)) := by
  have hmarshal (e : CodecError) : marshal v = .error e ↔ ((walk [] v).flatMap Stop.offences).head? = some e := by
    rw [← failure?_eq_some_iff, failure?_marshal]
    rfl
  rcases head?_offences (exists_mem_walk h) with ⟨hfirst, path, hpath⟩ | ⟨hnot, path, hpath⟩
  · rw [← hmarshal] at hpath
    refine ⟨⟨_, hpath, isOffence_of_marshal hpath⟩, iff_of_true ⟨path, hpath⟩ hfirst, ?_, fun _ => ⟨path, hpath⟩⟩
    refine iff_of_false ?_ (not_not_intro hfirst)
    rintro ⟨other, hother⟩
    rw [hpath] at hother
    cases hother
  · rw [← hmarshal] at hpath
    refine ⟨⟨_, hpath, isOffence_of_marshal hpath⟩, ?_, iff_of_true ⟨path, hpath⟩ hnot, ?_⟩
    · refine iff_of_false ?_ hnot
      rintro ⟨other, hother⟩
      rw [hpath] at hother
      cases hother
    · exact fun hnodup => absurd (meetsUndefinedFirst_of_nodup hnodup) hnot

theorem marshal_of_hasUndefined_in_key :
    let v := Value.object [(.string "a", .array [.null, .undefined]), (.array [.undefined], .null)]
    v.HasUndefined ∧ MeetsUndefinedFirst (walk [] v) ∧ ∃ path, marshal v = .error (.unsupportedValue path) := by
  intro v
  have h : v.HasUndefined := .key (List.mem_cons_of_mem _ List.mem_cons_self) (.item List.mem_cons_self .here)
  have hfirst : MeetsUndefinedFirst (walk [] v) := by
    unfold MeetsUndefinedFirst
    decide
  exact ⟨h, hfirst, (marshal_of_hasUndefined h).2.1.mpr hfirst⟩

theorem marshal_undefined_behind_clash :
    let v := Value.object [(.number (.int 1), .null), (.string "1", .null), (.string "z", .undefined)]
    v.WellFormed ∧ v.HasUndefined ∧ marshal v = .error (.keyCollision "/1") := by
  intro v
  refine ⟨.object ?_ ?_ ?_, .field (List.mem_cons_of_mem _ (List.mem_cons_of_mem _ List.mem_cons_self)) .here, rfl⟩
  · simpa using ⟨.number _, .string _, .string _⟩
  · simpa using ⟨.null, .undefined⟩
  · unfold Ascending.IsAscending
    decide

end PolicyYaml.Codec
