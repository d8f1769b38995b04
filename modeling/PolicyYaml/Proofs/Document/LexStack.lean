import PolicyYaml.Proofs.Document.LexBlock

namespace PolicyYaml.Document

theorem endLine_append (cs : List Char) {ds : List Char} (h : ds ≠ []) : endLine (cs ++ ds) = cs ++ endLine ds := by
  have hlast : (cs ++ ds).getLast? = ds.getLast? := by
    rw [List.getLast?_append, List.getLast?_eq_some_getLast h]
    rfl
  rw [endLine, endLine, hlast]
  split
  · rfl
  · rw [List.append_assoc]

theorem endLine_of_unbroken {cs : List Char} {c : Char} (h : cs.getLast? = some c) (hc : isBreak c = false) :
    endLine cs = cs ++ ['\n'] := by
  rw [endLine, h, Option.any_some, hc]
  rfl

theorem endLine_cons (c : Char) {cs : List Char} (h : cs ≠ []) : endLine (c :: cs) = c :: endLine cs :=
  endLine_append [c] h

theorem endLine_opens (c : Char) (cs : List Char) : ∃ rest, endLine (c :: cs) = c :: rest := by
  rw [endLine]
  split
  · exact ⟨cs, rfl⟩
  · exact ⟨cs ++ ['\n'], rfl⟩

theorem styled_opens {style : ScalarStyle} {cs : List Char} (h : style.Suits cs) (indent : Nat) :
    ∃ c rest, styled indent cs style = c :: rest ∧ IsEntryStart c := by
  cases style with
  | plain =>
    obtain ⟨c, rest, rfl, -⟩ := h.opens
    exact ⟨c, rest, rfl, h.isEntryStart⟩
  | singleQuoted => exact ⟨'\'', _, rfl, by decide⟩
  | doubleQuoted => exact ⟨'"', _, rfl, by decide⟩
  | literal => exact ⟨'|', _, rfl, by decide⟩

theorem styled_ne_nil {style : ScalarStyle} {cs : List Char} (h : style.Suits cs) (indent : Nat) :
    styled indent cs style ≠ [] := by
  obtain ⟨c, rest, hstyled, -⟩ := styled_opens h indent
  rw [hstyled]
  exact List.cons_ne_nil c rest

theorem endLine_styled {style : ScalarStyle} {cs : List Char} (h : style.Suits cs) (indent : Nat) :
    endLine (styled indent cs style) = styled indent cs style ++ styledEnd cs style := by
  cases style with
  | plain =>
    have hne : styled indent cs .plain ≠ [] := styled_ne_nil h indent
    exact endLine_of_unbroken (List.getLast?_eq_some_getLast hne) (h.unbroken _ (List.getLast_mem _))
  | singleQuoted => exact endLine_of_unbroken (List.getLast?_concat (l := '\'' :: singleQuotedBody indent false cs)) rfl
  | doubleQuoted => exact endLine_of_unbroken (List.getLast?_concat (l := '"' :: cs.flatMap doubleQuotedChar)) rfl
  | literal =>
    obtain ⟨ds, c, rfl⟩ := (List.eq_nil_or_concat' cs).resolve_left h.1
    obtain ⟨before, hbefore⟩ := literalBody_append indent true ds c
    have hlast : (styled indent (ds ++ [c]) .literal).getLast? = (ds ++ [c]).getLast? := by
      rw [styled, hbefore, List.getLast?_concat, ← List.cons_append, ← List.cons_append, ← List.append_assoc,
        List.getLast?_concat]
    rw [endLine, hlast, styledEnd, literalEnd]
    split
    · rw [List.append_nil]
    · rfl

structure IsLexedEntry (column : Nat) (start : Token) (text : List Char) (ts : List Token) : Prop where
  opens : ∃ c rest, text = c :: rest ∧ IsEntryStart c
  reaches : ∀ {b b' : Blocks} {p : Position} {outside : Int} {next : List Char}, Blocks.Opens column start b b' →
    p.column = column → Follows outside next → outside ≤ column →
    ∃ q : Position, q.column = outside.toNat ∧
      (b.within ⟨endLine text ++ (spaces outside.toNat ++ next), p⟩ true none).Reaches
        (((b'.extend ts).close outside).within ⟨next, q⟩ true none)

theorem stack_cons (column : Nat) (text text' : List Char) (more : List (List Char)) :
    stack column (text :: text' :: more) = endLine text ++ spaces column ++ stack column (text' :: more) := by
  rw [stack]
  simp

theorem stack_opens (column : Nat) (c : Char) (cs : List Char) (more : List (List Char)) :
    ∃ rest, stack column ((c :: cs) :: more) = c :: rest := by
  cases more with
  | nil => exact ⟨cs, rfl⟩
  | cons text others =>
    obtain ⟨rest, hrest⟩ := endLine_opens c cs
    refine ⟨rest ++ spaces column ++ stack column (text :: others), ?_⟩
    rw [stack_cons, hrest]
    rfl

theorem endLine_stack (column : Nat) (text : List Char) (c : Char) (cs : List Char) (more : List (List Char)) :
    endLine (stack column (text :: (c :: cs) :: more)) =
      endLine text ++ (spaces column ++ endLine (stack column ((c :: cs) :: more))) := by
  obtain ⟨rest, hrest⟩ := stack_opens column c cs more
  have hne : stack column ((c :: cs) :: more) ≠ [] := by
    rw [hrest]
    exact List.cons_ne_nil c rest
  rw [stack_cons, endLine_append _ hne, List.append_assoc]

theorem reaches_stack {column : Nat} {start : Token} {entries : List (List Char × List Token)} (hne : entries ≠ [])
    (hentries : ∀ e ∈ entries, IsLexedEntry column start e.1 e.2) {b b' : Blocks}
    (hopens : Blocks.Opens column start b b') {p : Position} (hp : p.column = column) {outside : Int}
    {next : List Char} (hnext : Follows outside next) (houtside : outside ≤ column) :
    ∃ q : Position, q.column = outside.toNat ∧
      (b.within ⟨endLine (stack column (entries.map Prod.fst)) ++ (spaces outside.toNat ++ next), p⟩ true none).Reaches
        (((b'.extend (entries.flatMap Prod.snd)).close outside).within ⟨next, q⟩ true none) := by
  induction entries generalizing b b' p with
  | nil => contradiction
  | cons e rest ih =>
    rw [List.forall_mem_cons] at hentries
    obtain ⟨hfirst, hrest⟩ := hentries
    cases rest with
    | nil =>
      obtain ⟨q, hq, hreaches⟩ := hfirst.reaches hopens hp hnext houtside
      refine ⟨q, hq, ?_⟩
      rw [List.flatMap_cons, List.flatMap_nil, List.append_nil]
      exact hreaches
    | cons e' more =>
      obtain ⟨text', ts'⟩ := e'
      obtain ⟨c, body, rfl, hc⟩ := (hrest (text', ts') List.mem_cons_self).opens
      obtain ⟨line, hline⟩ := stack_opens column c body (more.map Prod.fst)
      have hfollows : Follows column
          (endLine (stack column ((c :: body) :: more.map Prod.fst)) ++ (spaces outside.toNat ++ next)) := by
        obtain ⟨later, hlater⟩ := endLine_opens c line
        rw [hline, hlater]
        exact .entry hc
      -- The next entry stands at the column of the collection, so the end of this one does not close it.
      obtain ⟨q, hq, hreaches⟩ := hfirst.reaches hopens hp hfollows (Int.le_refl _)
      have hindent : (b'.extend e.2).indent = column := hopens.indent_eq
      rw [Blocks.close_of_le (Int.le_of_eq hindent)] at hreaches
      obtain ⟨q', hq', hothers⟩ := ih (List.cons_ne_nil _ more) hrest (.stays hindent) hq
      refine ⟨q', hq', ?_⟩
      rw [Blocks.extend_extend] at hothers
      rw [List.map_cons, List.map_cons, endLine_stack, List.flatMap_cons, List.append_assoc, List.append_assoc]
      exact hreaches.trans hothers

end PolicyYaml.Document
