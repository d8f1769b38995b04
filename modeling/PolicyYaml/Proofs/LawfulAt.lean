namespace PolicyYaml

variable {α β : Type}

/-- What a lawful comparison owes to `a`, whatever it is compared with. The chain law says at once that the
order is transitive and that equal arguments can be replaced. -/
structure LawfulAt (order : α → α → Ordering) (a : α) : Prop where
  swap : ∀ b, order b a = (order a b).swap
  chain : ∀ b c, (order a b).isLE = true → (order b c).isLE = true →
    order a c = (order a b).then (order b c)

theorem chain_then {ab ab' bc bc' ac ac' : Ordering}
    (h : ab.isLE = true → bc.isLE = true → ac = ab.then bc)
    (h' : ab'.isLE = true → bc'.isLE = true → ac' = ab'.then bc')
    (hab : (ab.then ab').isLE = true) (hbc : (bc.then bc').isLE = true) :
    ac.then ac' = (ab.then ab').then (bc.then bc') := by
  rw [h (Ordering.isLE_left_of_isLE_then hab) (Ordering.isLE_left_of_isLE_then hbc)]
  cases ab with
  | lt => rfl
  | gt => contradiction
  | eq =>
    rw [Ordering.eq_then] at hab
    cases bc with
    | lt => cases ab' <;> first | rfl | contradiction
    | gt => contradiction
    | eq => exact h' hab hbc

namespace LawfulAt

variable {order : α → α → Ordering}

theorem of_transCmp [Std.TransCmp order] (a : α) : LawfulAt order a := by
  constructor
  · intro b
    exact Std.OrientedCmp.eq_swap
  · intro b c hab hbc
    cases h : order a b with
    | lt =>
      rw [Std.TransCmp.lt_of_lt_of_isLE h hbc]
      rfl
    | eq => rw [Std.TransCmp.congr_left h, Ordering.eq_then]
    | gt =>
      rw [h] at hab
      contradiction

theorem transCmp (h : ∀ a, LawfulAt order a) : Std.TransCmp order where
  eq_swap := (h _).swap _
  isLE_trans := by
    intro a b c hab hbc
    rw [(h a).chain b c hab hbc, Ordering.isLE_then_iff_and]
    exact ⟨hab, .inr hbc⟩

theorem comap {f : β → α} {b : β} (h : LawfulAt order (f b)) : LawfulAt (fun x y => order (f x) (f y)) b where
  swap x := h.swap (f x)
  chain x y := h.chain (f x) (f y)

theorem lex {order' : α → α → Ordering} {a : α} (h : LawfulAt order a) (h' : LawfulAt order' a) :
    LawfulAt (compareLex order order') a := by
  constructor
  · intro b
    rw [compareLex, compareLex, h.swap, h'.swap, Ordering.swap_then]
  · intro b c hab hbc
    exact chain_then (h.chain b c) (h'.chain b c) hab hbc

theorem swap_list {as : List α} (h : ∀ a ∈ as, LawfulAt order a) (bs : List α) :
    List.compareLex order bs as = (List.compareLex order as bs).swap := by
  induction as generalizing bs with
  | nil => cases bs <;> rfl
  | cons a as ih =>
    cases bs with
    | nil => rfl
    | cons b bs =>
      rw [List.compareLex_cons_cons, List.compareLex_cons_cons, Ordering.swap_then, (h a (by simp)).swap,
        ih fun x hx => h x (List.mem_cons_of_mem _ hx)]

theorem chain_list {as : List α} (h : ∀ a ∈ as, LawfulAt order a) (bs cs : List α)
    (hab : (List.compareLex order as bs).isLE = true) (hbc : (List.compareLex order bs cs).isLE = true) :
    List.compareLex order as cs = (List.compareLex order as bs).then (List.compareLex order bs cs) := by
  induction as generalizing bs cs with
  | nil =>
    cases bs with
    | nil => rfl
    | cons b bs =>
      cases cs with
      | nil => contradiction
      | cons c cs => rfl
  | cons a as ih =>
    cases bs with
    | nil => contradiction
    | cons b bs =>
      cases cs with
      | nil => contradiction
      | cons c cs =>
        rw [List.compareLex_cons_cons] at hab hbc
        rw [List.compareLex_cons_cons, List.compareLex_cons_cons, List.compareLex_cons_cons]
        refine chain_then ((h a (by simp)).chain b c) ?_ hab hbc
        exact ih (fun x hx => h x (List.mem_cons_of_mem _ hx)) bs cs

theorem list {as : List α} (h : ∀ a ∈ as, LawfulAt order a) : LawfulAt (List.compareLex order) as :=
  ⟨swap_list h, chain_list h⟩

end LawfulAt

end PolicyYaml
