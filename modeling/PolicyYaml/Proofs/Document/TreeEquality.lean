import PolicyYaml.Document.Tree

namespace PolicyYaml.Tree

@[elab_as_elim]
theorem structuralInduction {P : Tree → Prop} (null : P .null) (boolean : ∀ b, P (.boolean b))
    (integer : ∀ i, P (.integer i)) (float : ∀ d, P (.float d)) (string : ∀ s, P (.string s))
    (sequence : ∀ items, (∀ t ∈ items, P t) → P (.sequence items))
    (mapping : ∀ entries, (∀ e ∈ entries, P e.1 ∧ P e.2) → P (.mapping entries))
    (tagged : ∀ tag content, P content → P (.tagged tag content)) (t : Tree) : P t := by
  apply @Tree.rec P (fun items => ∀ t ∈ items, P t) (fun entries => ∀ e ∈ entries, P e.1 ∧ P e.2)
    (fun e => P e.1 ∧ P e.2) null boolean integer float string sequence mapping tagged
  · exact fun t ht => absurd ht List.not_mem_nil
  · intro t rest ht hrest
    exact List.forall_mem_cons.mpr ⟨ht, hrest⟩
  · exact fun e he => absurd he List.not_mem_nil
  · intro e rest he hrest
    exact List.forall_mem_cons.mpr ⟨he, hrest⟩
  · exact fun k v hk hv => ⟨hk, hv⟩

mutual

def same : Tree → Tree → Bool
  | .null, .null => true
  | .boolean a, .boolean b => a == b
  | .integer a, .integer b => a == b
  | .float a, .float b => a == b
  | .string a, .string b => a == b
  | .sequence a, .sequence b => sameItems a b
  | .mapping a, .mapping b => sameEntries a b
  | .tagged tag a, .tagged tag' b => tag == tag' && same a b
  | _, _ => false

def sameItems : List Tree → List Tree → Bool
  | [], [] => true
  | a :: as, b :: bs => same a b && sameItems as bs
  | _, _ => false

def sameEntries : List (Tree × Tree) → List (Tree × Tree) → Bool
  | [], [] => true
  | (k, v) :: as, (k', v') :: bs => same k k' && same v v' && sameEntries as bs
  | _, _ => false

end

theorem sameItems_iff {as bs : List Tree} (h : ∀ a ∈ as, ∀ b, same a b = true ↔ a = b) :
    sameItems as bs = true ↔ as = bs := by
  induction as generalizing bs with
  | nil => cases bs <;> simp [sameItems]
  | cons a as ih =>
    cases bs with
    | nil => simp [sameItems]
    | cons b bs =>
      rw [sameItems, Bool.and_eq_true, h a (by simp), ih fun x hx => h x (List.mem_cons_of_mem _ hx),
        List.cons.injEq]

theorem sameEntries_iff {as bs : List (Tree × Tree)}
    (h : ∀ e ∈ as, (∀ t, same e.1 t = true ↔ e.1 = t) ∧ ∀ t, same e.2 t = true ↔ e.2 = t) :
    sameEntries as bs = true ↔ as = bs := by
  induction as generalizing bs with
  | nil => cases bs <;> simp [sameEntries]
  | cons e as ih =>
    obtain ⟨k, v⟩ := e
    cases bs with
    | nil => simp [sameEntries]
    | cons e' bs =>
      obtain ⟨hk, hv⟩ := h (k, v) (by simp)
      rw [sameEntries, Bool.and_eq_true, Bool.and_eq_true, hk, hv,
        ih fun x hx => h x (List.mem_cons_of_mem _ hx), List.cons.injEq, Prod.ext_iff]

theorem same_iff (a b : Tree) : same a b = true ↔ a = b := by
  induction a using structuralInduction generalizing b with
  | null => cases b <;> simp [same]
  | boolean => cases b <;> simp [same]
  | integer => cases b <;> simp [same]
  | float => cases b <;> simp [same]
  | string => cases b <;> simp [same]
  | sequence as ih => cases b <;> simp [same, sameItems_iff ih]
  | mapping as ih => cases b <;> simp [same, sameEntries_iff ih]
  | tagged tag a ih => cases b <;> simp [same, ih]

instance : DecidableEq Tree := fun a b => decidable_of_iff _ (same_iff a b)

end PolicyYaml.Tree
