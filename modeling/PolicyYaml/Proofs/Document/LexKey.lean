import PolicyYaml.Proofs.Document.LexBlock
import PolicyYaml.Proofs.Document.Writable

namespace PolicyYaml.Document

theorem utf8Size_of_wide {c : Char} {n : Nat} (h : n < c.toNat) :
    (n = 0xff → 2 ≤ c.utf8Size) ∧ (n = 0xffff → c.utf8Size = 4) := by
  have hle (m : UInt32) (hm : m.toNat ≤ n) : ¬c.val ≤ m := by
    rw [UInt32.le_iff_toNat_le]
    exact fun hle => absurd (Nat.lt_of_lt_of_le h (Nat.le_trans hle hm)) (Nat.lt_irrefl _)
  unfold Char.utf8Size
  refine ⟨?_, ?_⟩
  · rintro rfl
    rw [if_neg (hle _ (by decide))]
    split
    · exact Nat.le_refl 2
    split
    · exact Nat.le_succ 2
    · decide
  · rintro rfl
    rw [if_neg (hle _ (by decide)), if_neg (hle _ (by decide)), if_neg (hle _ (by decide))]

theorem length_doubleQuotedChar (c : Char) : (doubleQuotedChar c).length ≤ 4 * c.utf8Size := by
  have hpos := c.utf8Size_pos
  unfold doubleQuotedChar
  split
  · simp only [List.length_singleton]
    omega
  split
  · simp only [List.length_cons, List.length_nil]
    omega
  split
  · simp only [List.length_cons, length_hexDigits]
    omega
  split
  · have := (utf8Size_of_wide (c := c) (n := 0xff) (by omega)).1 rfl
    simp only [List.length_cons, length_hexDigits]
    omega
  · rw [(utf8Size_of_wide (c := c) (n := 0xffff) (by omega)).2 rfl]
    simp only [List.length_cons, length_hexDigits]
    omega

theorem length_flatMap_le {f : Char → List Char} {k : Nat} (h : ∀ c, (f c).length ≤ k * c.utf8Size) (cs : List Char) :
    (cs.flatMap f).length ≤ k * (String.ofList cs).utf8ByteSize := by
  induction cs with
  | nil => exact Nat.zero_le _
  | cons c rest ih =>
    have hcons : String.ofList (c :: rest) = String.singleton c ++ String.ofList rest := by
      rw [String.singleton_eq_ofList, ← String.ofList_append]
      rfl
    rw [List.flatMap_cons, List.length_append, hcons, String.utf8ByteSize_append, String.utf8ByteSize_singleton,
      Nat.mul_add]
    exact Nat.add_le_add (h c) ih

def singleQuotedChar (c : Char) : List Char := if c == '\'' then ['\'', '\''] else [c]

theorem singleQuotedBody_of_unbroken {cs : List Char} (h : ∀ c ∈ cs, isBreak c = false) (indent : Nat) :
    singleQuotedBody indent false cs = cs.flatMap singleQuotedChar := by
  induction cs with
  | nil => rfl
  | cons c rest ih =>
    rw [List.forall_mem_cons] at h
    rw [List.flatMap_cons, ← ih h.2]
    by_cases hspace : c = ' '
    · subst hspace
      rfl
    · rw [singleQuotedBody_word h.1 hspace]
      rfl

theorem unbroken_singleQuotedChar {c : Char} (h : isBreak c = false) : ∀ x ∈ singleQuotedChar c, isBreak x = false := by
  unfold singleQuotedChar
  split
  · rw [List.forall_mem_cons, List.forall_mem_singleton]
    exact ⟨rfl, rfl⟩
  · simpa using h

theorem length_singleQuotedChar (c : Char) : (singleQuotedChar c).length ≤ 2 * c.utf8Size := by
  have hpos := c.utf8Size_pos
  unfold singleQuotedChar
  split <;> simp only [List.length_cons, List.length_nil] <;> omega

theorem length_styled_le {s : String} (h : s.utf8ByteSize ≤ 128) (hunbroken : ∀ c ∈ s.toList, isBreak c = false)
    (indent : Nat) {style : ScalarStyle} (hstyle : style ≠ .literal) :
    (styled indent s.toList style).length ≤ 1024 := by
  -- No style makes a character longer than four times its bytes, and quotes add two more.
  have hbytes : (String.ofList s.toList).utf8ByteSize ≤ 128 := by rwa [String.ofList_toList]
  cases style with
  | plain =>
    have hsingle (c : Char) : [c].length ≤ 1 * c.utf8Size := by
      rw [Nat.one_mul]
      exact c.utf8Size_pos
    have hlength := length_flatMap_le hsingle s.toList
    rw [List.flatMap_singleton'] at hlength
    show s.toList.length ≤ 1024
    omega
  | singleQuoted =>
    have hlength := length_flatMap_le length_singleQuotedChar s.toList
    rw [styled, singleQuotedBody_of_unbroken hunbroken, List.length_cons, List.length_append, List.length_singleton]
    omega
  | doubleQuoted =>
    have hlength := length_flatMap_le length_doubleQuotedChar s.toList
    rw [styled, List.length_cons, List.length_append, List.length_singleton]
    omega
  | literal => contradiction

section Key

variable {b b' : Blocks} {p : Position} {rest : List Char}

theorem reaches_key {c : Char} {body cs : List Char} {plain : Bool} {read : Cursor → Option ScalarEnd}
    (hc : IsEntryStart c) (hopens : Blocks.Opens p.column .blockMappingStart b b') (hword : wordEnds rest = true)
    (hlength : (c :: body).length ≤ 1024)
    (htoken : (b.within ⟨c :: (body ++ ':' :: rest), p⟩ true none).token c (body ++ ':' :: rest) =
      (b.within ⟨c :: (body ++ ':' :: rest), p⟩ true none).scalar plain read)
    (hread : read ⟨c :: (body ++ ':' :: rest), p⟩ =
      some ⟨cs, ⟨':' :: rest, p.advance (c :: body).length⟩, false⟩) :
    (b.within ⟨c :: (body ++ ':' :: rest), p⟩ true none).Reaches
      ((b'.extend [.key, .scalar plain cs, .value]).within
        ⟨rest, (p.advance (c :: body).length).next⟩ false none) := by
  have hscalar := htoken.trans (b.scalar_within _ true plain hread)
  let key : PendingKey := ⟨b.indent == (p.column : Int), b.tokens.length, p⟩
  -- The key is on the line of its colon and not too long, so it is not given up before the colon.
  have hfresh : key.isStale (p.advance (c :: body).length) = false := by
    have hline : ¬p.line < p.line := Nat.lt_irrefl _
    have hindex : ¬p.index + 1024 < p.index + (c :: body).length := by omega
    show (decide (p.line < p.line) || decide (p.index + 1024 < p.index + (c :: body).length)) = false
    rw [decide_eq_false hline, decide_eq_false hindex]
    rfl
  have hinside : b.indent ≤ (p.advance (c :: body).length).column := by
    have := hopens.indent_le
    simp only [Position.advance]
    omega
  have hmark := (Lexer.token_colon ((b.push (.scalar plain cs)).within ⟨':' :: rest, p.advance (c :: body).length⟩
    false (some key)) hword).trans (Blocks.valueMark_key hopens _ _ _)
  refine (Lexer.reaches_of_token (Blocks.settle_spaces (n := 0) hc ?_) rfl hscalar ?_).trans
    (Lexer.reaches_of_token (Blocks.settle_fresh (by decide) hinside hfresh) rfl hmark (Nat.lt_succ_self _))
  · simpa using hopens.indent_le
  · show (':' :: rest).length < (c :: (body ++ ':' :: rest)).length
    simp only [List.length_append, List.length_cons]
    omega

theorem reaches_plainKey {cs : List Char} (h : IsPlainText cs) (hlength : cs.length ≤ 1024)
    (hopens : Blocks.Opens p.column .blockMappingStart b b') (hword : wordEnds rest = true) :
    (b.within ⟨cs ++ ':' :: rest, p⟩ true none).Reaches
      ((b'.extend [.key, .scalar true cs, .value]).within ⟨rest, (p.advance cs.length).next⟩ false none) := by
  obtain ⟨c, body, rfl, -⟩ := h.opens
  have hat : (b.indent + 1).toNat ≤ p.column + 1 := by
    have := hopens.indent_le
    omega
  have hread := (plainScalar_text h hat (':' :: rest)).trans (plainScalar_colon _ hword _ _)
  rw [List.reverse_reverse] at hread
  exact reaches_key h.isEntryStart hopens hword hlength (Lexer.token_plain _ rfl h (':' :: rest) (by simp)) hread

theorem reaches_singleQuotedKey {cs : List Char} (h : IsQuotable cs) (hunbroken : ∀ c ∈ cs, isBreak c = false)
    {indent : Nat} (hindent : 0 < indent)
    (hlength : ('\'' :: (singleQuotedBody indent false cs ++ ['\''])).length ≤ 1024)
    (hopens : Blocks.Opens p.column .blockMappingStart b b') (hword : wordEnds rest = true) :
    (b.within ⟨'\'' :: (singleQuotedBody indent false cs ++ ['\''] ++ ':' :: rest), p⟩ true none).Reaches
      ((b'.extend [.key, .scalar false cs, .value]).within
        ⟨rest, (p.advance ('\'' :: (singleQuotedBody indent false cs ++ ['\''])).length).next⟩ false none) := by
  have hbody : ∀ c ∈ singleQuotedBody indent false cs ++ ['\''], isBreak c = false := by
    simp only [singleQuotedBody_of_unbroken hunbroken, List.mem_append, List.mem_flatMap, List.mem_singleton]
    rintro x (⟨c, hc, hx⟩ | rfl)
    · exact unbroken_singleQuotedChar (hunbroken c hc) x hx
    · rfl
  have hread := singleQuotedScalar_body h hindent (':' :: rest) (by simp)
    (show 0 < p.next.column from Nat.succ_pos _)
  rw [Position.after_of_unbroken hbody, Position.next_advance] at hread
  refine reaches_key (by decide) hopens hword hlength (Lexer.token_singleQuote _ _) ?_
  rw [List.append_assoc]
  exact hread

theorem reaches_doubleQuotedKey (cs : List Char) (hlength : ('"' :: (cs.flatMap doubleQuotedChar ++ ['"'])).length ≤ 1024)
    (hopens : Blocks.Opens p.column .blockMappingStart b b') (hword : wordEnds rest = true) :
    (b.within ⟨'"' :: (cs.flatMap doubleQuotedChar ++ ['"'] ++ ':' :: rest), p⟩ true none).Reaches
      ((b'.extend [.key, .scalar false cs, .value]).within
        ⟨rest, (p.advance ('"' :: (cs.flatMap doubleQuotedChar ++ ['"'])).length).next⟩ false none) := by
  have hread := doubleQuotedScalar_body cs (':' :: rest) (show 0 < p.next.column from Nat.succ_pos _)
  have hend : (cs.flatMap doubleQuotedChar).length + 1 = (cs.flatMap doubleQuotedChar ++ ['"']).length := by
    rw [List.length_append, List.length_singleton]
  rw [Position.next_advance, hend] at hread
  refine reaches_key (by decide) hopens hword hlength (Lexer.token_doubleQuote _ _) ?_
  rw [List.append_assoc]
  exact hread

theorem reaches_styledKey {cs : List Char} {style : ScalarStyle} (hsuits : style.Suits cs) (hstyle : style ≠ .literal)
    (hunbroken : ∀ c ∈ cs, isBreak c = false) {indent : Nat} (hindent : 0 < indent)
    (hlength : (styled indent cs style).length ≤ 1024) (hopens : Blocks.Opens p.column .blockMappingStart b b')
    (hword : wordEnds rest = true) :
    (b.within ⟨styled indent cs style ++ ':' :: rest, p⟩ true none).Reaches
      ((b'.extend [.key, .scalar (style == .plain) cs, .value]).within
        ⟨rest, (p.advance (styled indent cs style).length).next⟩ false none) := by
  cases style with
  | plain => exact reaches_plainKey hsuits hlength hopens hword
  | singleQuoted => exact reaches_singleQuotedKey hsuits hunbroken hindent hlength hopens hword
  | doubleQuoted => exact reaches_doubleQuotedKey cs hlength hopens hword
  | literal => contradiction

theorem reaches_shortKey {s : String} (hshort : isShortKey (.string s) = true) (column : Nat)
    (hopens : Blocks.Opens p.column .blockMappingStart b b') (hword : wordEnds rest = true) :
    ∃ q : Position, p.column < q.column ∧
      (b.within ⟨shortKeyChars column (.string s) ++ ':' :: rest, p⟩ true none).Reaches
        ((b'.extend [.key, .scalar (isPlainScalar (.string s)) s.toList, .value]).within ⟨rest, q⟩ false none) := by
  simp only [isShortKey, Bool.and_eq_true, Bool.not_eq_true', decide_eq_true_eq] at hshort
  obtain ⟨hunbroken, hbytes⟩ := hshort
  have hunbroken : ∀ c ∈ s.toList, isBreak c = false := by simpa using hunbroken
  have hstyle : scalarStyle true (.string s) ≠ .literal := by
    rcases settle_wantedStyle true s.toList with h | ⟨h, -⟩ | ⟨h, -⟩ | ⟨-, h, -⟩
    · exact fun heq => absurd (h.symm.trans heq) (by decide)
    · exact fun heq => absurd (h.symm.trans heq) (by decide)
    · exact fun heq => absurd (h.symm.trans heq) (by decide)
    · contradiction
  have hreaches := reaches_styledKey (suits_settle true s.toList) hstyle hunbroken (Nat.succ_pos (column + 1))
    (length_styled_le hbytes hunbroken _ hstyle) hopens hword
  rw [← isPlainScalar_eq true]
  refine ⟨_, ?_, hreaches⟩
  simp only [Position.advance, Position.next]
  omega

end Key

end PolicyYaml.Document
