namespace PolicyYaml.Ascending

/-- Puts `a` in its place. An equal member gives way to it. -/
def insert {α : Type} (order : α → α → Ordering) (a : α) : List α → List α
  | [] => [a]
  | b :: rest =>
    match order a b with
    | .lt => a :: b :: rest
    | .eq => a :: rest
    | .gt => b :: insert order a rest

def ofList {α : Type} (order : α → α → Ordering) (members : List α) : List α :=
  members.foldl (fun kept a => insert order a kept) []

def IsAscending {α : Type} (order : α → α → Ordering) (members : List α) : Prop :=
  members.Pairwise fun a b => order a b = .lt

theorem isAscending_nil {α : Type} (order : α → α → Ordering) : IsAscending order [] :=
  List.Pairwise.nil

theorem ofList_append_singleton {α : Type} (order : α → α → Ordering) (members : List α) (a : α) :
    ofList order (members ++ [a]) = insert order a (ofList order members) := by
  simp [ofList]

theorem map_insert {α β : Type} {order : α → α → Ordering} {order' : β → β → Ordering} {f : α → β}
    (h : ∀ a b, order' (f a) (f b) = order a b) (a : α) (members : List α) :
    (insert order a members).map f = insert order' (f a) (members.map f) := by
  induction members with
  | nil => rfl
  | cons b rest ih =>
    rw [List.map_cons, insert, insert, h]
    cases order a b with
    | lt | eq => rfl
    | gt => exact congrArg (f b :: ·) ih

theorem map_ofList {α β : Type} {order : α → α → Ordering} {order' : β → β → Ordering} {f : α → β}
    (h : ∀ a b, order' (f a) (f b) = order a b) (members : List α) :
    (ofList order members).map f = ofList order' (members.map f) := by
  rw [ofList, ofList, List.foldl_map]
  exact (List.foldl_hom (List.map f) fun kept a => (map_insert h a kept).symm).symm

theorem ofList_induction {α : Type} {order : α → α → Ordering} {P : List α → Prop} (members : List α)
    (empty : P []) (step : ∀ kept a, P kept → P (insert order a kept)) : P (ofList order members) := by
  suffices h : ∀ kept, P kept → P (members.foldl (fun kept a => insert order a kept) kept) from h [] empty
  induction members with
  | nil => exact fun _ h => h
  | cons a rest ih => exact fun kept h => ih _ (step kept a h)

theorem mem_of_mem_insert {α : Type} {order : α → α → Ordering} {a b : α} {members : List α}
    (h : b ∈ insert order a members) : b = a ∨ b ∈ members := by
  induction members with
  | nil => simpa [insert] using h
  | cons c rest ih =>
    simp only [insert] at h
    split at h
    · simpa using h
    · simp only [List.mem_cons] at h ⊢
      exact h.imp_right .inr
    · simp only [List.mem_cons] at h ⊢
      rcases h with h | h
      · exact .inr (.inl h)
      · exact (ih h).imp_right .inr

theorem mem_of_mem_ofList {α : Type} {order : α → α → Ordering} {b : α} {members : List α}
    (h : b ∈ ofList order members) : b ∈ members := by
  suffices hkept : ∀ kept, b ∈ members.foldl (fun kept a => insert order a kept) kept → b ∈ kept ∨ b ∈ members from
    (hkept [] h).resolve_left List.not_mem_nil
  clear h
  induction members with
  | nil => exact fun kept h => .inl h
  | cons a rest ih =>
    intro kept h
    rcases ih _ h with hinsert | hrest
    · rcases mem_of_mem_insert hinsert with rfl | hkept
      · exact .inr List.mem_cons_self
      · exact .inl hkept
    · exact .inr (List.mem_cons_of_mem _ hrest)

theorem isAscending_insert {α : Type} {order : α → α → Ordering} [Std.TransCmp order] (a : α)
    {members : List α} (h : IsAscending order members) : IsAscending order (insert order a members) := by
  induction members with
  | nil => simp [insert, IsAscending]
  | cons b rest ih =>
    obtain ⟨hb, hrest⟩ := List.pairwise_cons.mp h
    cases hab : order a b with
    | lt =>
      simp only [insert, hab]
      refine List.pairwise_cons.mpr ⟨fun c hc => ?_, h⟩
      rcases List.mem_cons.mp hc with rfl | hc
      · exact hab
      · exact Std.TransCmp.lt_trans hab (hb c hc)
    | eq =>
      simp only [insert, hab]
      exact List.pairwise_cons.mpr ⟨fun c hc => Std.TransCmp.lt_of_eq_of_lt hab (hb c hc), hrest⟩
    | gt =>
      simp only [insert, hab]
      refine List.pairwise_cons.mpr ⟨fun c hc => ?_, ih hrest⟩
      rcases mem_of_mem_insert hc with rfl | hc
      · exact Std.OrientedCmp.gt_iff_lt.mp hab
      · exact hb c hc

theorem isAscending_ofList {α : Type} {order : α → α → Ordering} [Std.TransCmp order]
    (members : List α) : IsAscending order (ofList order members) :=
  ofList_induction members (isAscending_nil order) fun _ a h => isAscending_insert a h

end PolicyYaml.Ascending
