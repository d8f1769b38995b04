import PolicyYaml.Proofs.Document.LexNode

namespace PolicyYaml.Document

def IsClear (cs : List Char) : Prop := ∀ c ∈ cs, isPrintable c = true

theorem isClear_nil : IsClear [] := fun _ hc => absurd hc List.not_mem_nil

theorem isClear_of_all {cs : List Char} (h : cs.all isPrintable = true) : IsClear cs := List.all_eq_true.mp h

theorem isClear_append {cs ds : List Char} : IsClear (cs ++ ds) ↔ IsClear cs ∧ IsClear ds := List.forall_mem_append

theorem isClear_cons {c : Char} {cs : List Char} : IsClear (c :: cs) ↔ isPrintable c = true ∧ IsClear cs :=
  List.forall_mem_cons

theorem isClear_spaces (n : Nat) : IsClear (spaces n) := by
  intro c hc
  rw [List.eq_of_mem_replicate hc]
  rfl

theorem isClear_flatMap {f : Char → List Char} {cs : List Char} (h : ∀ c ∈ cs, IsClear (f c)) :
    IsClear (cs.flatMap f) := by
  intro x hx
  obtain ⟨c, hc, hx⟩ := List.mem_flatMap.mp hx
  exact h c hc x hx

theorem isAllowed_of_isPrintable {c : Char} (h : isPrintable c = true) : isAllowed c = true := by
  simp only [isPrintable, isAllowed, Bool.or_eq_true, Bool.and_eq_true, decide_eq_true_eq, beq_iff_eq] at h ⊢
  grind

theorem isClear_singleQuotedBody {cs : List Char} (h : IsClear cs) (indent : Nat) (afterBreak : Bool) :
    IsClear (singleQuotedBody indent afterBreak cs) := by
  have hindent (afterBreak : Bool) : IsClear (if afterBreak then spaces indent else []) := by
    split
    · exact isClear_spaces indent
    · exact isClear_nil
  induction cs generalizing afterBreak with
  | nil => exact hindent afterBreak
  | cons c rest ih =>
    obtain ⟨hc, hrest⟩ := isClear_cons.mp h
    rw [singleQuotedBody]
    split
    · exact isClear_cons.mpr ⟨rfl, ih hrest _⟩
    split
    · refine isClear_append.mpr ⟨?_, isClear_cons.mpr ⟨hc, ih hrest _⟩⟩
      split
      · exact isClear_cons.mpr ⟨rfl, isClear_nil⟩
      · exact isClear_nil
    · refine isClear_append.mpr ⟨isClear_append.mpr ⟨hindent afterBreak, ?_⟩, ih hrest _⟩
      split
      · exact isClear_of_all rfl
      · exact isClear_cons.mpr ⟨hc, isClear_nil⟩

theorem isClear_literalBody {cs : List Char} (h : IsClear cs) (indent : Nat) (lineStart : Bool) :
    IsClear (literalBody indent lineStart cs) := by
  induction cs generalizing lineStart with
  | nil => exact h
  | cons c rest ih =>
    obtain ⟨hc, hrest⟩ := isClear_cons.mp h
    rw [literalBody]
    split
    · exact isClear_cons.mpr ⟨hc, ih hrest _⟩
    · refine isClear_append.mpr ⟨?_, isClear_cons.mpr ⟨hc, ih hrest _⟩⟩
      split
      · exact isClear_spaces indent
      · exact isClear_nil

theorem isClear_hexDigits (count n : Nat) : IsClear (hexDigits count n) := by
  have hdigit : ∀ m < 16, isPrintable (Nat.digitChar m).toUpper = true := by decide
  induction count generalizing n with
  | zero => exact isClear_nil
  | succ count ih =>
    rw [hexDigits, isClear_append]
    refine ⟨ih _, isClear_cons.mpr ⟨hdigit _ (Nat.mod_lt _ (by decide)), isClear_nil⟩⟩

theorem isClear_doubleQuotedChar (c : Char) : IsClear (doubleQuotedChar c) := by
  unfold doubleQuotedChar
  split
  · rename_i h
    simp only [Bool.and_eq_true] at h
    exact isClear_cons.mpr ⟨h.1.1.1, isClear_nil⟩
  split
  · rename_i letter hletter
    obtain ⟨before, later, hlist, -⟩ := List.lookup_eq_some_iff.mp hletter
    have hmem : (c, letter) ∈ before ++ (c, letter) :: later := by simp
    rw [← hlist] at hmem
    have hall : ∀ e ∈ [('\x00', '0'), ('\x07', 'a'), ('\x08', 'b'), ('\t', 't'), ('\n', 'n'), ('\x0b', 'v'),
        ('\x0c', 'f'), ('\r', 'r'), ('\x1b', 'e'), ('"', '"'), ('\\', '\\'), ('\u0085', 'N'), ('\u00a0', '_'),
        ('\u2028', 'L'), ('\u2029', 'P')], isPrintable e.2 = true := by decide
    exact isClear_cons.mpr ⟨rfl, isClear_cons.mpr ⟨hall _ hmem, isClear_nil⟩⟩
  repeat' split
  all_goals exact isClear_cons.mpr ⟨rfl, isClear_cons.mpr ⟨rfl, isClear_hexDigits _ _⟩⟩

theorem isClear_literalHints (cs : List Char) : IsClear (literalHints cs) := by
  unfold literalHints
  repeat' split
  all_goals exact isClear_of_all rfl

theorem isClear_styled {style : ScalarStyle} {cs : List Char} (h : style.Suits cs) (indent : Nat) :
    IsClear (styled indent cs style) := by
  cases style with
  | plain => exact h.printable
  | singleQuoted =>
    rw [styled, isClear_cons, isClear_append]
    exact ⟨rfl, isClear_singleQuotedBody h.printable _ _, isClear_of_all rfl⟩
  | doubleQuoted =>
    rw [styled, isClear_cons, isClear_append]
    exact ⟨rfl, isClear_flatMap fun c _ => isClear_doubleQuotedChar c, isClear_of_all rfl⟩
  | literal =>
    rw [styled, isClear_cons, isClear_append, isClear_cons]
    exact ⟨rfl, isClear_literalHints cs, rfl, isClear_literalBody h.2 _ _⟩

theorem isClear_endLine {cs : List Char} (h : IsClear cs) : IsClear (endLine cs) := by
  rw [endLine]
  split
  · exact h
  · exact isClear_append.mpr ⟨h, isClear_of_all rfl⟩

theorem isClear_stack {entries : List (List Char)} (h : ∀ e ∈ entries, IsClear e) (indent : Nat) :
    IsClear (stack indent entries) := by
  induction entries with
  | nil => exact isClear_nil
  | cons e rest ih =>
    rw [List.forall_mem_cons] at h
    cases rest with
    | nil => exact h.1
    | cons e' more =>
      rw [stack_cons, isClear_append, isClear_append]
      exact ⟨⟨isClear_endLine h.1, isClear_spaces indent⟩, ih h.2⟩

theorem isClear_entryGap {place : Place} (h : IsClear place.gap) (column : Nat) : IsClear (place.entryGap column) := by
  rw [Place.entryGap]
  split
  · exact isClear_cons.mpr ⟨rfl, isClear_spaces column⟩
  · exact h

theorem isClear_afterMark (column : Nat) : IsClear (Place.afterMark column).gap := isClear_spaces 1

theorem isClear_afterKey (column : Nat) : IsClear (Place.afterKey column).gap := isClear_spaces 1

theorem isClear_fieldChars (s : String) {v : Tree}
    (hv : ∀ place : Place, IsClear place.gap → IsClear (nodeChars place v)) (column : Nat) :
    IsClear (fieldChars column (.string s, v)) := by
  rw [fieldChars]
  split
  · rw [isClear_append, isClear_cons]
    exact ⟨isClear_styled (suits_settle true s.toList) _, rfl, hv _ (isClear_afterKey column)⟩
  · rw [isClear_append, isClear_append, isClear_cons]
    refine ⟨⟨isClear_endLine ?_, isClear_spaces column⟩, rfl, hv _ (isClear_afterMark column)⟩
    rw [isClear_cons, nodeChars_scalar (.string s), isClear_append, scalarChars_eq (.string s)]
    exact ⟨rfl, isClear_afterMark column, isClear_styled (suits_scalarStyle (.string s) false) _⟩

theorem isClear_nodeChars {t : Tree} (h : t.IsWritable) (place : Place) (hgap : IsClear place.gap) :
    IsClear (nodeChars place t) := by
  induction h generalizing place with
  | scalar h =>
    rw [nodeChars_scalar h, scalarChars_eq h]
    exact isClear_append.mpr ⟨hgap, isClear_styled (suits_scalarStyle h false) _⟩
  | @sequence items _ ih =>
    rw [nodeChars]
    split
    · exact isClear_append.mpr ⟨hgap, isClear_of_all rfl⟩
    · refine isClear_append.mpr ⟨isClear_entryGap hgap _, isClear_stack ?_ _⟩
      rw [itemChars_eq_map]
      intro e he
      obtain ⟨t, ht, rfl⟩ := List.mem_map.mp he
      exact isClear_cons.mpr ⟨rfl, ih t ht _ (isClear_afterMark _)⟩
  | @mapping entries hkeys _ _ ih =>
    rw [nodeChars]
    split
    · exact isClear_append.mpr ⟨hgap, isClear_of_all rfl⟩
    · refine isClear_append.mpr ⟨isClear_entryGap hgap _, isClear_stack ?_ _⟩
      rw [entryChars_eq_map]
      intro e he
      obtain ⟨⟨k, v⟩, hmem, rfl⟩ := List.mem_map.mp he
      obtain ⟨s, rfl⟩ : ∃ s, k = .string s := hkeys (k, v) hmem
      exact isClear_fieldChars s (ih (.string s, v) hmem) _

theorem tokens?_chars {t : Tree} (h : t.IsWritable) : tokens? t.chars = some (nodeTokens false t) := by
  have hallowed : t.chars.all isAllowed = true := by
    rw [List.all_eq_true]
    exact fun c hc => isAllowed_of_isPrintable (isClear_endLine (isClear_nodeChars h .root isClear_nil) c hc)
  obtain ⟨q, hq, steps, hsteps, hrun⟩ := isLexed_of_isWritable h .root ⟨-1, [], []⟩ .start true false (-1) []
    Place.fits_root .nothing (Int.le_refl _)
  let done := (Blocks.mk (-1) [] []).extend (nodeTokens false t)
  have hend : ((done.close (-1)).within ⟨[], q⟩ true none).settle = some ((done.close (-1)).within ⟨[], q⟩ true none) :=
    Blocks.settle_settled .nothing hq true
  -- A step takes at least one character, so the fuel of one more than the text lasts to the end.
  have hfuel : t.chars.length + 1 = t.chars.length - steps + 1 + steps := by
    have : steps ≤ t.chars.length := by simpa [Tree.chars, spaces, Blocks.within] using hsteps
    omega
  rw [tokens?, if_pos hallowed, hfuel]
  have hstart : Lexer.start t.chars = (Blocks.mk (-1) [] []).within
      ⟨endLine (nodeChars .root t) ++ (spaces (-1 : Int).toNat ++ []), .start⟩ true none := by
    simp [Lexer.start, Tree.chars, spaces, Blocks.within]
  have htokens : (done.close (-1)).tokens.reverse = nodeTokens false t := by
    rw [Blocks.close_of_le (show done.indent ≤ -1 from Int.le_refl (-1))]
    simp [done, Blocks.extend]
  rw [hstart, hrun, Lexer.run_succ, hend, ← htokens]
  rfl

end PolicyYaml.Document
