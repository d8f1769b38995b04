import PolicyYaml.Proofs.Document.Yields

namespace PolicyYaml

theorem Double.oneNaN_of_isNaN_eq_false {d : Double} (h : d.isNaN = false) : d.oneNaN = d := by
  rw [oneNaN, h]
  rfl

theorem Double.isNaN_ofRank (negative : Bool) (rank : Nat) : (ofRank negative rank).isNaN = false := by
  simp only [ofRank, isNaN, infinityRank, hiddenBit]
  by_cases hrank : rank < 2047 * 4503599627370496
  · have hexponent : min rank (2047 * 4503599627370496) / 4503599627370496 % 2048 ≠ 2047 := by omega
    simp [hexponent]
  · have hfraction : min rank (2047 * 4503599627370496) % 4503599627370496 = 0 := by omega
    simp [hfraction]

theorem Double.oneNaN_ofInt (i : Int) : (ofInt i).oneNaN = ofInt i := by
  apply oneNaN_of_isNaN_eq_false
  rw [ofInt, ofRatio]
  split
  · exact isNaN_ofRank _ _
  · exact isNaN_ofRank _ _

inductive Tree.HasOneNaN : Tree → Prop
  | null : HasOneNaN .null
  | boolean (b : Bool) : HasOneNaN (.boolean b)
  | integer (i : Int) : HasOneNaN (.integer i)
  | float {d : Double} : d.oneNaN = d → HasOneNaN (.float d)
  | string (s : String) : HasOneNaN (.string s)
  | sequence {items : List Tree} : (∀ t ∈ items, HasOneNaN t) → HasOneNaN (.sequence items)
  | mapping {entries : List (Tree × Tree)} : (∀ e ∈ entries, HasOneNaN e.2) → HasOneNaN (.mapping entries)
  | tagged {tag : String} {content : Tree} : HasOneNaN content → HasOneNaN (.tagged tag content)

namespace Document

theorem oneNaN_of_float? {cs : List Char} {d : Double} (h : float? cs = some d) : d.oneNaN = d := by
  unfold float? at h
  split at h
  · cases h
    rfl
  split at h
  · cases h
    rfl
  split at h
  · cases h
    rfl
  split at h
  · rename_i dec _
    split at h
    · rename_i hfinite
      cases h
      apply Double.oneNaN_of_isNaN_eq_false
      rw [Double.isFinite, bne_iff_ne] at hfinite
      rw [Double.isNaN, Bool.and_eq_false_iff]
      exact .inl (beq_eq_false_iff_ne.mpr hfinite)
    · contradiction
  · contradiction

theorem hasOneNaN_of_resolvePlain {cs : List Char} {t : Tree} (h : resolvePlain cs = some t) : t.HasOneNaN := by
  unfold resolvePlain at h
  split at h
  · cases h
    exact .null
  split at h
  · cases h
    exact .boolean _
  split at h
  · cases h
    exact .integer _
  · contradiction
  split at h
  · rename_i d hd
    cases h
    split at hd
    · contradiction
    · exact .float (oneNaN_of_float? hd)
  · cases h
    exact .string _

theorem hasOneNaN_of_untyped {plain : Bool} {content : List Char} {t : Tree}
    (h : (if plain then resolvePlain content else some (.string (String.ofList content))) = some t) :
    t.HasOneNaN := by
  split at h
  · exact hasOneNaN_of_resolvePlain h
  · cases h
    exact .string _

theorem hasOneNaN_of_scalarTree {tag : Option Tag} {plain : Bool} {content : List Char} {t : Tree}
    (h : scalarTree tag plain content = some t) : t.HasOneNaN := by
  unfold scalarTree at h
  split at h
  · obtain ⟨b, -, rfl⟩ := Option.map_eq_some_iff.mp h
    exact .boolean b
  · split at h
    · cases h
      exact .integer _
    · contradiction
  · obtain ⟨d, hd, rfl⟩ := Option.map_eq_some_iff.mp h
    exact .float (oneNaN_of_float? hd)
  · split at h
    · cases h
      exact .null
    · contradiction
  · cases h
    exact .string _
  · exact hasOneNaN_of_untyped h
  · exact hasOneNaN_of_untyped h

theorem isBuiltUp_hasOneNaN : IsBuiltUp fun _ t => t.HasOneNaN where
  scalar _ _ _ _ _ := hasOneNaN_of_scalarTree
  sequence _ _ := .sequence
  mapping _ _ h := .mapping fun e he => (h e he).2
  tagged _ _ _ := .tagged

end Document

theorem Tree.hasOneNaN_of_read? {cs : List Char} {t : Tree} (h : read? cs = some t) : t.HasOneNaN :=
  Document.isBuiltUp_hasOneNaN.of_read? h

end PolicyYaml
