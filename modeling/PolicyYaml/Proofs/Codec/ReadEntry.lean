import PolicyYaml.Codec.Basic
import PolicyYaml.Proofs.Codec.Failure
import PolicyYaml.Proofs.Document.TreeEquality
import PolicyYaml.Proofs.Text.NameOrder

namespace PolicyYaml.Codec

theorem exists_members {items : List Tree} {values : List Value} (h : decodeItems items = .ok values) :
    ∃ members : List (Tree × Value), items = members.map Prod.fst ∧ values = members.map Prod.snd ∧
      ∀ m ∈ members, decode m.1 = .ok m.2 := by
  induction items generalizing values with
  | nil =>
    rw [decodeItems] at h
    cases h
    exact ⟨[], rfl, rfl, by simp⟩
  | cons t rest ih =>
    rw [decodeItems_cons] at h
    obtain ⟨first, hfirst, h⟩ := bind_eq_ok_iff.mp h
    obtain ⟨others, hothers, rfl⟩ := map_eq_ok_iff.mp h
    obtain ⟨members, rfl, rfl, hmembers⟩ := ih hothers
    exact ⟨(t, first) :: members, rfl, rfl, List.forall_mem_cons.mpr ⟨hfirst, hmembers⟩⟩

structure ReadEntry where
  key : Tree
  tree : Tree
  text : String
  value : Value
  treeKey_key : treeKey key = .ok text
  decode_tree : decode tree = .ok value

namespace ReadEntry

def source (e : ReadEntry) : Tree × Tree := (e.key, e.tree)

def field (e : ReadEntry) : String × Value := (e.text, e.value)

end ReadEntry

theorem exists_readEntries {entries : List (Tree × Tree)} {kept fields : TextFields}
    (h : decodeEntries kept entries = .ok fields) :
    ∃ es : List ReadEntry, entries = es.map ReadEntry.source ∧
      fields = (es.map ReadEntry.field).foldl (fun kept f => Ascending.insert Text.compareNames f kept) kept ∧
      (es.map ReadEntry.text).Nodup ∧ ∀ text ∈ es.map ReadEntry.text, text ∉ kept.map Prod.fst := by
  induction entries generalizing kept with
  | nil =>
    rw [decodeEntries] at h
    cases h
    exact ⟨[], rfl, rfl, List.nodup_nil, by simp⟩
  | cons e rest ih =>
    obtain ⟨k, t⟩ := e
    rw [decodeEntries_cons] at h
    obtain ⟨text, htext, h⟩ := bind_eq_ok_iff.mp h
    split at h
    · contradiction
    · rename_i hfresh
      rw [contains_eq_true_iff] at hfresh
      obtain ⟨value, hvalue, h⟩ := bind_eq_ok_iff.mp h
      obtain ⟨es, rfl, rfl, hnodup, hkept⟩ := ih h
      refine ⟨⟨k, t, text, value, htext, hvalue⟩ :: es, rfl, rfl, ?_, ?_⟩
      · rw [List.map_cons, List.nodup_cons]
        refine ⟨fun hmem => hkept _ hmem ?_, hnodup⟩
        exact (Text.mem_names_insert _ _ _).mpr (.inl rfl)
      · rw [List.map_cons, List.forall_mem_cons]
        refine ⟨hfresh, ?_⟩
        intro other hother hmem
        exact hkept other hother ((Text.mem_names_insert _ _ _).mpr (.inr hmem))

def sortEntries (es : List ReadEntry) : List (String × ReadEntry) := Text.sortNames (es.map fun e => (e.text, e))

theorem mem_sortEntries_iff (es : List ReadEntry) (a : String × ReadEntry) :
    a ∈ sortEntries es ↔ a.2 ∈ es ∧ a.1 = a.2.text := by
  rw [sortEntries, (Text.sortNames_perm _).mem_iff, List.mem_map]
  constructor
  · rintro ⟨e, he, rfl⟩
    exact ⟨he, rfl⟩
  · rintro ⟨he, htext⟩
    exact ⟨a.2, he, Prod.ext htext.symm rfl⟩

theorem map_sortEntries {β : Type} (g : ReadEntry → β) (es : List ReadEntry) :
    (sortEntries es).map (fun a => (a.1, g a.2)) = Text.sortNames (es.map fun e => (e.text, g e)) := by
  rw [sortEntries, Text.map_sortNames, List.map_map]
  rfl

theorem nodup_sortEntries {es : List ReadEntry} (h : (es.map ReadEntry.text).Nodup) :
    ((sortEntries es).map Prod.fst).Nodup := by
  rw [sortEntries, ((Text.sortNames_perm _).map _).nodup_iff, List.map_map]
  exact h

theorem toObject_readEntries {es : List ReadEntry} (h : (es.map ReadEntry.text).Nodup) :
    TextFields.toObject (Ascending.ofList Text.compareNames (es.map ReadEntry.field)) =
      .object ((sortEntries es).map fun a => (.string a.1, a.2.value)) := by
  have hnames : ((es.map ReadEntry.field).map Prod.fst).Nodup := by
    rw [List.map_map]
    exact h
  have hsorted : Ascending.ofList Text.compareNames (es.map ReadEntry.field) =
      (sortEntries es).map fun a => (a.1, a.2.value) :=
    (Text.ofList_eq_sortNames hnames).trans (map_sortEntries ReadEntry.value es).symm
  rw [hsorted, TextFields.toObject, List.map_map]
  rfl

theorem decode_mapping {entries : List (Tree × Tree)} {v : Value} (h : decode (.mapping entries) = .ok v) :
    ∃ es : List ReadEntry, entries = es.map ReadEntry.source ∧ (es.map ReadEntry.text).Nodup ∧
      v = .object ((sortEntries es).map fun a => (.string a.1, a.2.value)) := by
  rw [decode] at h
  obtain ⟨fields, hfields, rfl⟩ := map_eq_ok_iff.mp h
  obtain ⟨es, hentries, rfl, hnodup, -⟩ := exists_readEntries hfields
  exact ⟨es, hentries, hnodup, toObject_readEntries hnodup⟩

/-- What a tree is read as, member by member. -/
inductive Decodes : Tree → Value → Prop
  | null : Decodes .null .null
  | boolean (b : Bool) : Decodes (.boolean b) (.boolean b)
  | integer (i : Int) : Decodes (.integer i) (.number (decodeInteger i))
  | float (d : Double) : Decodes (.float d) (.number (.float d))
  | string (s : String) : Decodes (.string s) (.string s)
  | sequence {members : List (Tree × Value)} : (∀ m ∈ members, Decodes m.1 m.2) →
    Decodes (.sequence (members.map Prod.fst)) (.array (members.map Prod.snd))
  | mapping {es : List ReadEntry} : (es.map ReadEntry.text).Nodup → (∀ e ∈ es, Decodes e.tree e.value) →
    Decodes (.mapping (es.map ReadEntry.source)) (.object ((sortEntries es).map fun a => (.string a.1, a.2.value)))
  | tagged (tag : String) {content : Tree} {v : Value} : Decodes content v → Decodes (.tagged tag content) v

theorem decodes_of_decode {t : Tree} {v : Value} (h : decode t = .ok v) : Decodes t v := by
  induction t using Tree.structuralInduction generalizing v with
  | null | boolean | integer | float | string =>
    rw [decode] at h
    cases h
    constructor
  | sequence items ih =>
    rw [decode] at h
    obtain ⟨values, hvalues, rfl⟩ := map_eq_ok_iff.mp h
    obtain ⟨members, rfl, rfl, hmembers⟩ := exists_members hvalues
    exact .sequence fun m hm => ih _ (List.mem_map_of_mem hm) (hmembers m hm)
  | mapping entries ih =>
    obtain ⟨es, rfl, hnodup, rfl⟩ := decode_mapping h
    exact .mapping hnodup fun e he => (ih _ (List.mem_map_of_mem he)).2 e.decode_tree
  | tagged tag content ih => exact .tagged tag (ih h)

theorem forall_mem_sortEntries {es : List ReadEntry} {P : ReadEntry → Prop} (h : ∀ e ∈ es, P e) :
    ∀ a ∈ sortEntries es, P a.2 :=
  fun a ha => h a.2 ((mem_sortEntries_iff es a).mp ha).1

theorem exists_tree_of_unmarshal {text : String} {v : Value} (h : unmarshal text = .ok v) :
    ∃ t, decode t = .ok v ∧ (t = .null ∨ Tree.read? text.toList = some t) := by
  rw [unmarshal] at h
  split at h
  · cases h
    exact ⟨.null, by rw [decode], .inl rfl⟩
  · obtain ⟨t, hread, hdecode⟩ := bind_eq_ok_iff.mp h
    rw [readTree] at hread
    split at hread
    · rename_i hsome
      cases hread
      exact ⟨t, hdecode, .inr hsome⟩
    · contradiction

end PolicyYaml.Codec
