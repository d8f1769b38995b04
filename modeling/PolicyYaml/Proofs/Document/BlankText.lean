import PolicyYaml.Document.Read

namespace PolicyYaml

namespace Document

def isFiller (c : Char) : Bool := c == ' ' || c == '\t' || c == '\n' || c == '\r'

theorem isAllowed_of_isFiller {c : Char} (h : isFiller c = true) : isAllowed c = true := by
  simp only [isFiller, Bool.or_eq_true, beq_iff_eq] at h
  rcases h with ((rfl | rfl) | rfl) | rfl <;> decide

namespace Lexer

theorem skipFiller_of_isFiller {cs : List Char} {p : Position} {keyAllowed inComment : Bool}
    (hkey : keyAllowed = true) (hcomment : inComment = false) (h : ∀ c ∈ cs, isFiller c = true) :
    (skipFiller false cs p keyAllowed inComment).1.rest = [] ∨
      ∃ rest, (skipFiller false cs p keyAllowed inComment).1.rest = '\t' :: rest := by
  -- Line breaks set the flags anew, so they are variables of the induction.
  fun_induction skipFiller false cs p keyAllowed inComment with
  | case1 inComment p keyAllowed => exact .inl rfl
  | case2 inComment rest p keyAllowed ih =>
    apply ih
    · rw [hkey, Bool.true_or]
    · rfl
    · intro c hc
      exact h c (List.mem_cons_of_mem _ (List.mem_cons_of_mem _ hc))
  | case3 c rest p keyAllowed inComment _ hbreak ih =>
    apply ih
    · rw [hkey, Bool.true_or]
    · rfl
    · intro c hc
      exact h c (List.mem_cons_of_mem _ hc)
  | case4 c rest p keyAllowed inComment _ hbreak hskip ih =>
    apply ih hkey hcomment
    intro c hc
    exact h c (List.mem_cons_of_mem _ hc)
  | case5 c rest p keyAllowed inComment _ hbreak hskip hhash =>
    rw [beq_iff_eq.mp hhash] at h
    have hfiller := h '#' List.mem_cons_self
    contradiction
  | case6 c rest p keyAllowed inComment _ hbreak hskip hhash =>
    have hfiller := h c List.mem_cons_self
    simp only [isFiller, Bool.or_eq_true, beq_iff_eq] at hfiller
    rcases hfiller with ((rfl | rfl) | rfl) | rfl
    · simp at hskip
    · exact .inr ⟨rest, rfl⟩
    · contradiction
    · contradiction

theorem token_tab (l : Lexer) (rest : List Char) : l.token '\t' rest = none := by
  have hmarker (mark : Char) (h : mark ≠ '\t') : isMarker mark ('\t' :: rest) = false := by
    match rest with
    | [] | [_] => rfl
    | b :: c :: rest => simp [isMarker, h.symm]
  have hplain : beginsPlain l.inFlow '\t' rest = false := rfl
  simp [token, hmarker, hplain]

theorem dropStaleKeys_of_none {l : Lexer} (h : l.pending = none) (houter : l.outerPending = []) :
    l.dropStaleKeys = some l := by
  rw [dropStaleKeys, h, houter]
  cases l
  cases h
  cases houter
  rfl

theorem unindent_of_nil {l : Lexer} (h : l.outerIndents = []) (column : Int) : l.unindent column = l := by
  rw [unindent, h, closeBlocks]
  exact ite_self l

end Lexer

theorem tokens?_of_isFiller {cs : List Char} (h : ∀ c ∈ cs, isFiller c = true) :
    tokens? cs = none ∨ tokens? cs = some [] := by
  have hallowed : cs.all isAllowed = true := by
    rw [List.all_eq_true]
    intro c hc
    exact isAllowed_of_isFiller (h c hc)
  have hkeys : (Lexer.start cs).toNextToken.dropStaleKeys = some (Lexer.start cs).toNextToken :=
    Lexer.dropStaleKeys_of_none rfl rfl
  have hindent (column : Int) : (Lexer.start cs).toNextToken.unindent column = (Lexer.start cs).toNextToken :=
    Lexer.unindent_of_nil rfl column
  rw [tokens?, if_pos hallowed, Lexer.run, hkeys]
  simp only [Option.bind_eq_bind, Option.bind_some, hindent]
  rcases Lexer.skipFiller_of_isFiller (p := .start) rfl rfl h with hend | ⟨rest, htab⟩
  · have hrest : (Lexer.start cs).toNextToken.cursor.rest = [] := hend
    simp only [hrest]
    exact .inr rfl
  · have hrest : (Lexer.start cs).toNextToken.cursor.rest = '\t' :: rest := htab
    simp only [hrest, Lexer.token_tab]
    exact .inl rfl

end Document

theorem Tree.read?_of_isFiller {cs : List Char} (h : ∀ c ∈ cs, Document.isFiller c = true) :
    read? cs = none ∨ read? cs = some .null := by
  rcases Document.tokens?_of_isFiller h with hts | hts
  · exact .inl (by rw [read?, hts]; rfl)
  · exact .inr (by rw [read?, hts]; rfl)

end PolicyYaml
