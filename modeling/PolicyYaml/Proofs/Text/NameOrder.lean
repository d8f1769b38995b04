import Mathlib.Data.List.Nodup
import PolicyYaml.Proofs.Ascending
import PolicyYaml.Text.ByteOrder

namespace PolicyYaml.Text

variable {α : Type}

def sortNames (fields : List (String × α)) : List (String × α) :=
  fields.mergeSort fun a b => compareNames a b != .gt

theorem sortNames_perm (fields : List (String × α)) : (sortNames fields).Perm fields :=
  List.mergeSort_perm _ _

theorem compareNames_eq_iff {a b : String × α} : compareNames a b = .eq ↔ a.1 = b.1 :=
  compareBytes_eq_iff

theorem ne_of_compareNames_gt {a b : String × α} (h : compareNames a b = .gt) : a.1 ≠ b.1 := by
  intro heq
  rw [compareNames_eq_iff.mpr heq] at h
  contradiction

theorem nodup_of_isAscending {fields : List (String × α)} (h : Ascending.IsAscending compareNames fields) :
    (fields.map Prod.fst).Nodup := by
  rw [List.Nodup, List.pairwise_map]
  refine List.Pairwise.imp ?_ h
  intro a b hlt heq
  rw [compareNames_eq_iff.mpr heq] at hlt
  contradiction

theorem pairwise_sortNames (fields : List (String × α)) :
    (sortNames fields).Pairwise fun a b => (compareNames a b != .gt) = true :=
  Ascending.pairwise_mergeSort fields

theorem map_sortNames {β : Type} (g : α → β) (fields : List (String × α)) :
    (sortNames fields).map (fun f => (f.1, g f.2)) = sortNames (fields.map fun f => (f.1, g f.2)) :=
  List.map_mergeSort fun _ _ _ _ => rfl

theorem ne_gt_of_lt {a b : String × α} (h : compareNames a b = .lt) : (compareNames a b != .gt) = true := by
  rw [h]
  rfl

theorem sortNames_sortNames (fields : List (String × α)) : sortNames (sortNames fields) = sortNames fields :=
  List.mergeSort_of_pairwise (pairwise_sortNames fields)

theorem ofList_eq_sortNames {fields : List (String × α)} (h : (fields.map Prod.fst).Nodup) :
    Ascending.ofList compareNames fields = sortNames fields := by
  rw [List.Nodup, List.pairwise_map] at h
  have hdistinct : fields.Pairwise fun a b => compareNames a b ≠ .eq :=
    h.imp fun hne heq => hne (compareNames_eq_iff.mp heq)
  exact (Ascending.mergeSort_eq_ofList hdistinct).symm

theorem mem_names_insert (a : String × α) (kept : List (String × α)) (name : String) :
    name ∈ (Ascending.insert compareNames a kept).map Prod.fst ↔ name = a.1 ∨ name ∈ kept.map Prod.fst := by
  induction kept with
  | nil => simp [Ascending.insert]
  | cons b rest ih =>
    rw [Ascending.insert]
    cases hab : compareNames a b with
    | lt => simp
    | eq => simp [compareNames_eq_iff.mp hab]
    | gt => rw [List.map_cons, List.mem_cons, ih, List.map_cons, List.mem_cons, or_left_comm]

end PolicyYaml.Text
