import PolicyYaml.Proofs.Document.LexKey
import PolicyYaml.Proofs.Document.LexStack

namespace PolicyYaml.Document

mutual

def nodeTokens (openEntries : Bool) : Tree → List Token
  | .sequence items =>
    if items.isEmpty then [.flowSequenceStart, .flowSequenceEnd]
    else if openEntries then itemTokens items
    else .blockSequenceStart :: (itemTokens items ++ [.blockEnd])
  | .mapping entries =>
    if entries.isEmpty then [.flowMappingStart, .flowMappingEnd]
    else .blockMappingStart :: (entryTokens entries ++ [.blockEnd])
  | scalar => [.scalar (isPlainScalar scalar) (scalarContent scalar)]

def itemTokens : List Tree → List Token
  | [] => []
  | t :: rest => .blockEntry :: nodeTokens false t ++ itemTokens rest

def entryTokens : List (Tree × Tree) → List Token
  | [] => []
  | (k, v) :: rest =>
    .key :: nodeTokens false k ++ .value :: nodeTokens (isShortKey k) v ++ entryTokens rest

end

structure Place.Fits (place : Place) (indent : Int) (p : Position) (keyAllowed openEntries : Bool) : Prop where
  scalarIndent : place.scalarIndent = indent.toNat + 2
  gap : ∃ n, place.gap = spaces n ∧ indent < p.column + n
  mappingColumn : indent < place.mappingColumn
  sequenceColumn : if openEntries then indent = place.sequenceColumn else indent < place.sequenceColumn
  sameLine : place.ownLine = false → keyAllowed = true ∧ place.mappingColumn = p.column + place.gap.length ∧
    place.sequenceColumn = p.column + place.gap.length

theorem Place.fits_root : Place.root.Fits (-1) .start true false where
  scalarIndent := rfl
  gap := ⟨0, rfl, by decide⟩
  mappingColumn := by decide
  sequenceColumn := by decide
  sameLine _ := ⟨rfl, rfl, rfl⟩

theorem Place.fits_afterMark {column : Nat} {p : Position} (h : p.column = column) :
    (Place.afterMark column).Fits column p.next true false := by
  have hnext : p.next.column = column + 1 := by rw [← h]; rfl
  refine ⟨rfl, ⟨1, rfl, ?_⟩, ?_, ?_, fun _ => ⟨rfl, ?_, ?_⟩⟩
  · omega
  · show (column : Int) < (column + 2 : Nat)
    omega
  · show (column : Int) < (column + 2 : Nat)
    omega
  · rw [hnext]
    rfl
  · rw [hnext]
    rfl

theorem Place.fits_afterKey {column : Nat} {q : Position} (h : column < q.column) (keyAllowed : Bool) :
    (Place.afterKey column).Fits column q keyAllowed true := by
  refine ⟨rfl, ⟨1, rfl, ?_⟩, ?_, rfl, fun h => absurd h.symm Bool.false_ne_true⟩
  · omega
  · show (column : Int) < (column + 2 : Nat)
    omega

/-- A tree is read wherever it is written in the right place. -/
def IsLexed (t : Tree) : Prop :=
  ∀ (place : Place) (b : Blocks) (p : Position) (keyAllowed openEntries : Bool) (column : Int) (next : List Char),
    place.Fits b.indent p keyAllowed openEntries → Follows column next → column ≤ b.indent →
    ∃ q : Position, q.column = column.toNat ∧
      (b.within ⟨endLine (nodeChars place t) ++ (spaces column.toNat ++ next), p⟩ keyAllowed none).Reaches
        (((b.extend (nodeTokens openEntries t)).close column).within ⟨next, q⟩ true none)

theorem nodeChars_scalar {t : Tree} (h : t.IsWritableScalar) (place : Place) :
    nodeChars place t = place.gap ++ scalarChars place.scalarIndent false t := by
  cases h <;> rw [nodeChars] <;> simp

theorem nodeTokens_scalar {t : Tree} (h : t.IsWritableScalar) (openEntries : Bool) :
    nodeTokens openEntries t = [.scalar (isPlainScalar t) (scalarContent t)] := by
  cases h <;> rw [nodeTokens] <;> simp

theorem isLexed_scalar {t : Tree} (h : t.IsWritableScalar) : IsLexed t := by
  intro place b p keyAllowed openEntries column next hfits hnext hcolumn
  obtain ⟨n, hgap, hn⟩ := hfits.gap
  have hsuits := suits_scalarStyle h false
  obtain ⟨q, hq, hreaches⟩ := reaches_styled hsuits hn hnext hcolumn keyAllowed
  refine ⟨q, hq, ?_⟩
  rw [nodeChars_scalar h, nodeTokens_scalar h, hgap, hfits.scalarIndent, scalarChars_eq h,
    endLine_append _ (styled_ne_nil hsuits _), endLine_styled hsuits]
  simp only [List.append_assoc]
  exact hreaches

section FirstEntry

variable {b : Blocks} {p : Position} {keyAllowed : Bool} {c : Char}

theorem reaches_sameLine (hc : IsEntryStart c) {n : Nat} (hindent : b.indent ≤ p.column + n) (rest : List Char) :
    (b.within ⟨spaces n ++ c :: rest, p⟩ keyAllowed none).Reaches
      (b.within ⟨c :: rest, p.advance n⟩ keyAllowed none) := by
  have hcolumn : b.indent ≤ (p.advance n).column + (0 : Nat) := by
    simp only [Position.advance]
    omega
  refine Lexer.reaches_of_settle (Blocks.settle_spaces hc hindent) (Blocks.settle_spaces (n := 0) hc hcolumn) ?_
  show (c :: rest).length ≤ (spaces n ++ c :: rest).length
  simp only [List.length_append]
  omega

theorem reaches_ownLine (hc : IsEntryStart c) {column : Nat} (hindent : b.indent ≤ column) (rest : List Char) :
    (b.within ⟨'\n' :: (spaces column ++ c :: rest), p⟩ keyAllowed none).Reaches
      (b.within ⟨c :: rest, p.nextLine.advance column⟩ true none) := by
  have hcolumn : b.indent ≤ (p.nextLine.advance column).column := by
    simp only [Position.advance, Position.nextLine]
    omega
  have hskip : Lexer.skipFiller false ('\n' :: (spaces column ++ c :: rest)) p keyAllowed false =
      (⟨c :: rest, p.nextLine.advance column⟩, true) := by
    rw [skipFiller_break, skipFiller_spaces, skipFiller_entry _ _ hc]
  have hsettle : (b.within ⟨'\n' :: (spaces column ++ c :: rest), p⟩ keyAllowed none).settle =
      some (b.within ⟨c :: rest, p.nextLine.advance column⟩ true none) := by
    rw [Blocks.settle_within hskip (by simp), Blocks.close_of_le]
    exact hcolumn
  refine Lexer.reaches_of_settle hsettle (Blocks.settle_spaces (n := 0) hc (by simpa using hcolumn)) ?_
  show (c :: rest).length ≤ ('\n' :: (spaces column ++ c :: rest)).length
  simp only [List.length_cons, List.length_append]
  omega

theorem reaches_firstEntry {place : Place} {openEntries : Bool}
    (hfits : place.Fits b.indent p keyAllowed openEntries) {column : Nat}
    (hcolumn : column = place.sequenceColumn ∨ column = place.mappingColumn) (hc : IsEntryStart c)
    (rest : List Char) :
    ∃ q : Position, q.column = column ∧
      (b.within ⟨place.entryGap column ++ c :: rest, p⟩ keyAllowed none).Reaches
        (b.within ⟨c :: rest, q⟩ true none) := by
  have hindent : b.indent ≤ column := by
    have hsequence := hfits.sequenceColumn
    have hmapping := hfits.mappingColumn
    rcases hcolumn with rfl | rfl
    · cases openEntries with
      | true => exact Int.le_of_eq hsequence
      | false => exact Int.le_of_lt hsequence
    · exact Int.le_of_lt hmapping
  cases hline : place.ownLine with
  | true =>
    rw [Place.entryGap, hline, if_pos rfl, List.cons_append]
    exact ⟨_, Nat.zero_add _, reaches_ownLine hc hindent rest⟩
  | false =>
    obtain ⟨rfl, hmapping, hsequence⟩ := hfits.sameLine hline
    obtain ⟨n, hgap, -⟩ := hfits.gap
    have hlength : place.gap.length = n := by rw [hgap, spaces, List.length_replicate]
    have hat : p.column + n = column := by omega
    rw [Place.entryGap, hline, if_neg Bool.false_ne_true, hgap]
    exact ⟨_, hat, reaches_sameLine hc (by omega) rest⟩

end FirstEntry

theorem nodeChars_afterMark (column : Nat) (t : Tree) : ∃ rest, nodeChars (.afterMark column) t = ' ' :: rest := by
  cases t with
  | sequence items =>
    rw [nodeChars]
    split <;> exact ⟨_, rfl⟩
  | mapping entries =>
    rw [nodeChars]
    split <;> exact ⟨_, rfl⟩
  | _ => exact ⟨_, by rw [nodeChars] <;> first | rfl | simp⟩

theorem nodeChars_afterKey (column : Nat) (t : Tree) :
    ∃ c rest, nodeChars (.afterKey column) t = c :: rest ∧ wordEnds (c :: rest) = true := by
  cases t with
  | sequence items =>
    rw [nodeChars]
    split
    · exact ⟨' ', _, rfl, rfl⟩
    · exact ⟨'\n', _, rfl, rfl⟩
  | mapping entries =>
    rw [nodeChars]
    split
    · exact ⟨' ', _, rfl, rfl⟩
    · exact ⟨'\n', _, rfl, rfl⟩
  | _ => exact ⟨' ', _, by rw [nodeChars] <;> first | rfl | simp, rfl⟩

theorem isLexedEntry_item {t : Tree} (ht : IsLexed t) (column : Nat) :
    IsLexedEntry column .blockSequenceStart ('-' :: nodeChars (.afterMark column) t)
      (.blockEntry :: nodeTokens false t) := by
  refine ⟨⟨'-', _, rfl, by decide⟩, ?_⟩
  intro b b' p outside next hopens hp hnext houtside
  obtain ⟨rest, hrest⟩ := nodeChars_afterMark column t
  obtain ⟨line, hline⟩ := endLine_opens ' ' rest
  have hindent : (b'.push .blockEntry).indent = column := hopens.indent_eq
  have hfits := Place.fits_afterMark hp
  rw [← hindent] at hfits houtside
  obtain ⟨q, hq, hnode⟩ := ht _ _ _ _ _ _ _ hfits hnext houtside
  refine ⟨q, hq, ?_⟩
  have hne : nodeChars (.afterMark column) t ≠ [] := by
    rw [hrest]
    exact List.cons_ne_nil ' ' rest
  rw [endLine_cons '-' hne, ← Blocks.push_extend]
  rw [hrest, hline] at hnode ⊢
  refine Lexer.Reaches.trans (reaches_dash ?_) hnode
  rwa [hp]

theorem isLexedEntry_short {s : String} {v : Tree} (hshort : isShortKey (.string s) = true) (hv : IsLexed v)
    (column : Nat) :
    IsLexedEntry column .blockMappingStart
      (shortKeyChars column (.string s) ++ ':' :: nodeChars (.afterKey column) v)
      (.key :: nodeTokens false (.string s) ++ .value :: nodeTokens true v) := by
  obtain ⟨c, rest, hkey, hc⟩ := styled_opens (suits_settle true s.toList) (column + 2)
  refine ⟨⟨c, rest ++ ':' :: nodeChars (.afterKey column) v, ?_, hc⟩, ?_⟩
  · rw [← List.cons_append, ← hkey]
    rfl
  intro b b' p outside next hopens hp hnext houtside
  obtain ⟨d, body, hvalue, hword⟩ := nodeChars_afterKey column v
  obtain ⟨line, hline⟩ := endLine_opens d body
  have hopens' : Blocks.Opens p.column .blockMappingStart b b' := by rwa [hp]
  have hends : wordEnds (d :: (line ++ (spaces outside.toNat ++ next))) = true := hword
  obtain ⟨q, hq, hkeyReaches⟩ := reaches_shortKey hshort column hopens' hends
  rw [hp] at hq
  let inner := b'.extend [.key, .scalar (isPlainScalar (.string s)) s.toList, .value]
  have hindent : inner.indent = column := hopens.indent_eq
  have hfits := Place.fits_afterKey hq false
  rw [← hindent] at hfits houtside
  obtain ⟨q', hq', hnode⟩ := hv _ inner _ _ _ _ _ hfits hnext houtside
  refine ⟨q', hq', ?_⟩
  have htokens : (b'.extend (.key :: nodeTokens false (.string s) ++ .value :: nodeTokens true v)) =
      inner.extend (nodeTokens true v) := by
    rw [nodeTokens_scalar (.string s), Blocks.extend_extend]
    rfl
  rw [htokens, hvalue, endLine_append _ (List.cons_ne_nil _ _), endLine_cons _ (List.cons_ne_nil _ _), hline]
  rw [hvalue, hline] at hnode
  rw [List.append_assoc]
  exact hkeyReaches.trans hnode

theorem isLexedEntry_long {k v : Tree} (hk : IsLexed k) (hv : IsLexed v) (column : Nat) :
    IsLexedEntry column .blockMappingStart
      (endLine ('?' :: nodeChars (.afterMark column) k) ++ spaces column ++ ':' :: nodeChars (.afterMark column) v)
      (.key :: nodeTokens false k ++ .value :: nodeTokens false v) := by
  obtain ⟨keyRest, hkey⟩ := nodeChars_afterMark column k
  obtain ⟨keyLine, hkeyLine⟩ := endLine_opens ' ' keyRest
  obtain ⟨valueRest, hvalue⟩ := nodeChars_afterMark column v
  obtain ⟨valueLine, hvalueLine⟩ := endLine_opens ' ' valueRest
  have hmark : endLine ('?' :: nodeChars (.afterMark column) k) = '?' :: ' ' :: keyLine := by
    rw [hkey, endLine_cons _ (List.cons_ne_nil _ _), hkeyLine]
  refine ⟨⟨'?', _, by rw [hmark]; rfl, by decide⟩, ?_⟩
  intro b b' p outside next hopens hp hnext houtside
  let tail := ':' :: ' ' :: (valueLine ++ (spaces outside.toNat ++ next))
  have hindent : (b'.push .key).indent = column := hopens.indent_eq
  have hfits := Place.fits_afterMark hp
  rw [← hindent] at hfits
  -- The colon stands at the column of the mapping, so the key closes no more than what it opened itself.
  obtain ⟨q, hq, hkeyReaches⟩ := hk _ (b'.push .key) _ _ _ column tail hfits (.entry (by decide))
    (Int.le_of_eq hindent.symm)
  have hkeyIndent : ((b'.push .key).extend (nodeTokens false k)).indent = column := hindent
  rw [Blocks.close_of_le (Int.le_of_eq hkeyIndent)] at hkeyReaches
  let inner := ((b'.push .key).extend (nodeTokens false k)).push .value
  have hinner : inner.indent = column := hindent
  have hq : q.column = column := hq
  have hfits := Place.fits_afterMark hq
  rw [← hinner] at hfits houtside
  obtain ⟨q', hq', hvalueReaches⟩ := hv _ inner _ _ _ _ _ hfits hnext houtside
  refine ⟨q', hq', ?_⟩
  have htokens : b'.extend (.key :: nodeTokens false k ++ .value :: nodeTokens false v) =
      inner.extend (nodeTokens false v) := by
    simp [inner]
  rw [htokens, List.append_assoc, hmark, endLine_append _ (by simp), endLine_append _ (List.cons_ne_nil _ _),
    endLine_cons _ (by rw [hvalue]; exact List.cons_ne_nil _ _), hvalue, hvalueLine]
  rw [hkey, hkeyLine] at hkeyReaches
  rw [hvalue, hvalueLine] at hvalueReaches
  simp only [List.cons_append, List.append_assoc] at hkeyReaches hvalueReaches ⊢
  refine (reaches_question (by rwa [hp])).trans (hkeyReaches.trans ?_)
  exact (reaches_colon (by rw [hkeyIndent, hq])).trans hvalueReaches

theorem reaches_block {place : Place} {b b' : Blocks} {p : Position} {keyAllowed openEntries : Bool}
    (hfits : place.Fits b.indent p keyAllowed openEntries) {column : Nat}
    (hcolumn : column = place.sequenceColumn ∨ column = place.mappingColumn) {start : Token}
    {entries : List (List Char × List Token)} (hne : entries ≠ [])
    (hentries : ∀ e ∈ entries, IsLexedEntry column start e.1 e.2) (hopens : Blocks.Opens column start b b')
    {outside : Int} {next : List Char} (hnext : Follows outside next) (houtside : outside ≤ b.indent) :
    ∃ q : Position, q.column = outside.toNat ∧
      (b.within ⟨endLine (place.entryGap column ++ stack column (entries.map Prod.fst)) ++
          (spaces outside.toNat ++ next), p⟩ keyAllowed none).Reaches
        (((b'.extend (entries.flatMap Prod.snd)).close outside).within ⟨next, q⟩ true none) := by
  obtain ⟨⟨text, ts⟩, more, rfl⟩ := List.exists_cons_of_ne_nil hne
  obtain ⟨c, body, rfl, hc⟩ := (hentries (text, ts) List.mem_cons_self).opens
  obtain ⟨line, hline⟩ := stack_opens column c body (more.map Prod.fst)
  obtain ⟨rest, hrest⟩ := endLine_opens c line
  obtain ⟨q, hq, hfirst⟩ := reaches_firstEntry hfits hcolumn hc (rest ++ (spaces outside.toNat ++ next))
  obtain ⟨q', hq', hstack⟩ := reaches_stack hne hentries hopens hq hnext (Int.le_trans houtside hopens.indent_le)
  refine ⟨q', hq', ?_⟩
  rw [List.map_cons, hline, hrest] at hstack
  rw [List.map_cons, hline, endLine_append _ (List.cons_ne_nil c line), hrest, List.append_assoc]
  exact hfirst.trans hstack

theorem itemChars_eq_map (column : Nat) (items : List Tree) :
    itemChars column items = items.map fun t => '-' :: nodeChars (.afterMark column) t := by
  induction items with
  | nil => rw [itemChars]; rfl
  | cons t rest ih => rw [itemChars, ih, List.map_cons]

theorem itemTokens_eq_flatMap (items : List Tree) :
    itemTokens items = items.flatMap fun t => .blockEntry :: nodeTokens false t := by
  induction items with
  | nil => rw [itemTokens]; rfl
  | cons t rest ih => rw [itemTokens, ih, List.flatMap_cons]

theorem reaches_emptyNode {c d : Char} {start stop : Token} (hflow : IsEmptyFlow c d start stop) {place : Place}
    {b : Blocks} {p : Position} {keyAllowed openEntries : Bool} {column : Int} {next : List Char}
    (hfits : place.Fits b.indent p keyAllowed openEntries) (hnext : Follows column next) :
    ∃ q : Position, q.column = column.toNat ∧
      (b.within ⟨endLine (place.gap ++ [c, d]) ++ (spaces column.toNat ++ next), p⟩ keyAllowed none).Reaches
        (((b.extend [start, stop]).close column).within ⟨next, q⟩ true none) := by
  obtain ⟨n, hgap, hn⟩ := hfits.gap
  have hline : endLine [c, d] = [c, d, '\n'] := by cases hflow <;> rfl
  rw [endLine_append _ (by simp), hgap, hline, List.append_assoc]
  exact reaches_emptyFlow hflow hn hnext keyAllowed

theorem isLexed_sequence {items : List Tree} (hitems : ∀ t ∈ items, IsLexed t) : IsLexed (.sequence items) := by
  intro place b p keyAllowed openEntries column next hfits hnext hcolumn
  rw [nodeChars, nodeTokens]
  cases items with
  | nil =>
    rw [if_pos List.isEmpty_nil, if_pos List.isEmpty_nil]
    exact reaches_emptyNode .sequence hfits hnext
  | cons t rest =>
    let entries := (t :: rest).map fun t =>
      ('-' :: nodeChars (.afterMark place.sequenceColumn) t, Token.blockEntry :: nodeTokens false t)
    have htexts : itemChars place.sequenceColumn (t :: rest) = entries.map Prod.fst := by
      rw [itemChars_eq_map, List.map_map]
      rfl
    have htokens : itemTokens (t :: rest) = entries.flatMap Prod.snd := by
      rw [itemTokens_eq_flatMap, List.flatMap_map]
    have hentries : ∀ e ∈ entries, IsLexedEntry place.sequenceColumn .blockSequenceStart e.1 e.2 := by
      intro e he
      obtain ⟨t, ht, rfl⟩ := List.mem_map.mp he
      exact isLexedEntry_item (hitems t ht) _
    have hsequence := hfits.sequenceColumn
    rw [if_neg (by simp), if_neg (by simp), htexts, htokens]
    -- With open entries the items stand at the column of the mapping around them and open no block.
    cases openEntries with
    | true => exact reaches_block hfits (.inl rfl) (by simp [entries]) hentries (.stays hsequence) hnext hcolumn
    | false =>
      obtain ⟨q, hq, hreaches⟩ := reaches_block hfits (.inl rfl) (by simp [entries]) hentries (.opens hsequence) hnext
        hcolumn
      rw [Blocks.close_opened _ hsequence hcolumn] at hreaches
      exact ⟨q, hq, hreaches⟩

def fieldChars (column : Nat) (e : Tree × Tree) : List Char :=
  if isShortKey e.1 then shortKeyChars column e.1 ++ ':' :: nodeChars (.afterKey column) e.2
  else
    endLine ('?' :: nodeChars (.afterMark column) e.1) ++ spaces column ++ ':' :: nodeChars (.afterMark column) e.2

def fieldTokens (e : Tree × Tree) : List Token :=
  .key :: nodeTokens false e.1 ++ .value :: nodeTokens (isShortKey e.1) e.2

theorem entryChars_eq_map (column : Nat) (entries : List (Tree × Tree)) :
    entryChars column entries = entries.map (fieldChars column) := by
  induction entries with
  | nil => rw [entryChars]; rfl
  | cons e rest ih => rw [entryChars, ih, List.map_cons]; rfl

theorem entryTokens_eq_flatMap (entries : List (Tree × Tree)) : entryTokens entries = entries.flatMap fieldTokens := by
  induction entries with
  | nil => rw [entryTokens]; rfl
  | cons e rest ih => rw [entryTokens, ih, List.flatMap_cons]; rfl

theorem isLexedEntry_field (s : String) {v : Tree} (hv : IsLexed v) (column : Nat) :
    IsLexedEntry column .blockMappingStart (fieldChars column (.string s, v)) (fieldTokens (.string s, v)) := by
  rw [fieldChars, fieldTokens]
  cases hshort : isShortKey (.string s) with
  | true => exact isLexedEntry_short hshort hv column
  | false => exact isLexedEntry_long (isLexed_scalar (.string s)) hv column

theorem isLexed_mapping {entries : List (Tree × Tree)} (hkeys : ∀ e ∈ entries, ∃ s, e.1 = .string s)
    (hvalues : ∀ e ∈ entries, IsLexed e.2) : IsLexed (.mapping entries) := by
  intro place b p keyAllowed openEntries column next hfits hnext hcolumn
  rw [nodeChars, nodeTokens]
  cases entries with
  | nil =>
    rw [if_pos List.isEmpty_nil, if_pos List.isEmpty_nil]
    exact reaches_emptyNode .mapping hfits hnext
  | cons e rest =>
    let fields := (e :: rest).map fun e => (fieldChars place.mappingColumn e, fieldTokens e)
    have htexts : entryChars place.mappingColumn (e :: rest) = fields.map Prod.fst := by
      rw [entryChars_eq_map, List.map_map]
      rfl
    have htokens : entryTokens (e :: rest) = fields.flatMap Prod.snd := by
      rw [entryTokens_eq_flatMap, List.flatMap_map]
    have hfields : ∀ f ∈ fields, IsLexedEntry place.mappingColumn .blockMappingStart f.1 f.2 := by
      intro f hf
      obtain ⟨⟨k, v⟩, he, rfl⟩ := List.mem_map.mp hf
      obtain ⟨s, rfl⟩ : ∃ s, k = .string s := hkeys (k, v) he
      exact isLexedEntry_field s (hvalues (.string s, v) he) _
    rw [if_neg (by simp), if_neg (by simp), htexts, htokens]
    obtain ⟨q, hq, hreaches⟩ := reaches_block hfits (.inr rfl) (by simp [fields]) hfields (.opens hfits.mappingColumn)
      hnext hcolumn
    rw [Blocks.close_opened _ hfits.mappingColumn hcolumn] at hreaches
    exact ⟨q, hq, hreaches⟩

theorem isLexed_of_isWritable {t : Tree} (h : t.IsWritable) : IsLexed t := by
  induction h with
  | scalar h => exact isLexed_scalar h
  | sequence _ ih => exact isLexed_sequence ih
  | mapping hkeys _ _ ih => exact isLexed_mapping hkeys ih

end PolicyYaml.Document
