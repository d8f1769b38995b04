import PolicyYaml.Document.Stream
import PolicyYaml.Proofs.Document.LexNode

namespace PolicyYaml.Document

mutual

def nodeOf {ρ : Type} : Tree → Node ρ
  | .sequence items => .sequence none none (itemNodes items)
  | .mapping entries => .mapping none none (entryNodes entries)
  | scalar => .scalar none none (isPlainScalar scalar) (scalarContent scalar)

def itemNodes {ρ : Type} : List Tree → List (Node ρ)
  | [] => []
  | t :: rest => nodeOf t :: itemNodes rest

def entryNodes {ρ : Type} : List (Tree × Tree) → List (Node ρ × Node ρ)
  | [] => []
  | (k, v) :: rest => (nodeOf k, nodeOf v) :: entryNodes rest

end

theorem nodeOf_scalar {ρ : Type} {t : Tree} (h : t.IsWritableScalar) :
    (nodeOf t : Node ρ) = .scalar none none (isPlainScalar t) (scalarContent t) := by
  cases h <;> rw [nodeOf] <;> simp

def IsParsed (t : Tree) : Prop :=
  ∀ (handles : Handles) (openEntries allowsOpen : Bool) (fuel : Nat) (rest : List Token),
    2 * (nodeTokens openEntries t).length + 2 ≤ fuel →
    (openEntries = true → allowsOpen = true ∧ rest.head? ≠ some .blockEntry) →
    SourceNode.read handles true allowsOpen fuel (nodeTokens openEntries t ++ rest) = some (nodeOf t, rest)

theorem nodeTokens_opens (openEntries : Bool) (t : Tree) :
    ∃ first more, nodeTokens openEntries t = first :: more ∧ isExplicit (first :: more) = false ∧
      first ≠ .blockEnd ∧ first ≠ .key ∧ first ≠ .value ∧ (openEntries = false → first ≠ .blockEntry) := by
  cases t with
  | sequence items =>
    rw [nodeTokens]
    cases items with
    | nil => exact ⟨.flowSequenceStart, _, rfl, rfl, by simp⟩
    | cons t rest =>
      cases openEntries with
      | true =>
        refine ⟨.blockEntry, nodeTokens false t ++ itemTokens rest, ?_, rfl, by simp⟩
        simp [itemTokens]
      | false => exact ⟨.blockSequenceStart, _, rfl, rfl, by simp⟩
  | mapping entries =>
    rw [nodeTokens]
    cases entries with
    | nil => exact ⟨.flowMappingStart, _, rfl, rfl, by simp⟩
    | cons e rest => exact ⟨.blockMappingStart, _, rfl, rfl, by simp⟩
  | _ => exact ⟨_, [], by rw [nodeTokens] <;> simp, rfl, by simp⟩

namespace SourceNode

theorem orMissing_of_head {ends : List Token} {first : Token} (h : first ∉ ends)
    (read : List Token → Option (SourceNode × List Token)) (more : List Token) :
    orMissing ends read (first :: more) = read (first :: more) := by
  rw [orMissing, if_neg]
  simpa using h

theorem orMissing_nodeTokens {ends : List Token} {openEntries : Bool}
    (h : ∀ t ∈ ends, t = .blockEnd ∨ t = .key ∨ t = .value ∨ t = .blockEntry ∧ openEntries = false) (t : Tree)
    (read : List Token → Option (SourceNode × List Token)) (rest : List Token) :
    orMissing ends read (nodeTokens openEntries t ++ rest) = read (nodeTokens openEntries t ++ rest) := by
  obtain ⟨first, more, htokens, -, hend, hkey, hvalue, hentry⟩ := nodeTokens_opens openEntries t
  rw [htokens]
  apply orMissing_of_head
  intro hmem
  rcases h first hmem with h | h | h | ⟨h, hclosed⟩
  · exact hend h
  · exact hkey h
  · exact hvalue h
  · exact hentry hclosed h

theorem read_scalar (handles : Handles) (block openEntries : Bool) (fuel : Nat) (plain : Bool) (content : List Char)
    (rest : List Token) :
    read handles block openEntries (fuel + 1) (.scalar plain content :: rest) =
      some (.scalar none none plain content, rest) := by
  rw [read]
  · rfl
  · simp

theorem read_emptySequence (handles : Handles) (block openEntries : Bool) (fuel : Nat) (rest : List Token) :
    read handles block openEntries (fuel + 2) (.flowSequenceStart :: .flowSequenceEnd :: rest) =
      some (.sequence none none [], rest) := by
  rw [read]
  · rfl
  · simp

theorem read_emptyMapping (handles : Handles) (block openEntries : Bool) (fuel : Nat) (rest : List Token) :
    read handles block openEntries (fuel + 2) (.flowMappingStart :: .flowMappingEnd :: rest) =
      some (.mapping none none [], rest) := by
  rw [read]
  · rfl
  · simp

theorem read_blockSequence (handles : Handles) (openEntries : Bool) (fuel : Nat) (rest : List Token) :
    read handles true openEntries (fuel + 1) (.blockSequenceStart :: rest) =
      (readBlockItems handles fuel rest []).map fun (items, rest) => (.sequence none none items, rest) := by
  rw [read]
  · rfl
  · simp

theorem read_openSequence (handles : Handles) (block : Bool) (fuel : Nat) (rest : List Token) :
    read handles block true (fuel + 1) (.blockEntry :: rest) =
      (readOpenItems handles fuel (.blockEntry :: rest) []).map fun (items, rest) =>
        (.sequence none none items, rest) := by
  rw [read]
  · rfl
  · simp

theorem read_blockMapping (handles : Handles) (openEntries : Bool) (fuel : Nat) (rest : List Token) :
    read handles true openEntries (fuel + 1) (.blockMappingStart :: rest) =
      (readBlockEntries handles fuel rest []).map fun (entries, rest) => (.mapping none none entries, rest) := by
  rw [read]
  · rfl
  · simp

theorem readItems_itemTokens {readItems : Nat → List Token → List SourceNode → Option (List SourceNode × List Token)}
    {items : List Tree} {rest left : List Token}
    (hstop : ∀ fuel before, readItems (fuel + 1) rest before = some (before.reverse, left))
    (hitem : ∀ t ∈ items, ∀ fuel before more, 2 * (nodeTokens false t).length + 2 ≤ fuel →
      readItems (fuel + 1) (.blockEntry :: (nodeTokens false t ++ more)) before = readItems fuel more (nodeOf t :: before))
    {fuel : Nat} (hfuel : 2 * (itemTokens items).length + 1 ≤ fuel) (before : List SourceNode) :
    readItems fuel (itemTokens items ++ rest) before = some (before.reverse ++ itemNodes items, left) := by
  induction items generalizing fuel before with
  | nil =>
    obtain ⟨fuel, rfl⟩ : ∃ k, fuel = k + 1 := ⟨fuel - 1, by omega⟩
    rw [itemTokens, itemNodes, List.append_nil, List.nil_append, hstop]
  | cons t others ih =>
    rw [List.forall_mem_cons] at hitem
    rw [itemTokens, List.length_append, List.length_cons] at hfuel
    obtain ⟨fuel, rfl⟩ : ∃ k, fuel = k + 1 := ⟨fuel - 1, by omega⟩
    rw [itemTokens, List.append_assoc, List.cons_append, hitem.1 fuel before _ (by omega),
      ih hitem.2 (by omega), itemNodes]
    simp

theorem readBlockItems_itemTokens {items : List Tree} (hitems : ∀ t ∈ items, IsParsed t) (handles : Handles)
    {fuel : Nat} (hfuel : 2 * (itemTokens items).length + 1 ≤ fuel) (rest : List Token) (before : List SourceNode) :
    readBlockItems handles fuel (itemTokens items ++ .blockEnd :: rest) before =
      some (before.reverse ++ itemNodes items, rest) := by
  refine readItems_itemTokens ?_ ?_ hfuel before
  · intro fuel before
    rw [readBlockItems]
  · intro t ht fuel before more hfuel
    rw [readBlockItems, orMissing_nodeTokens (by simp), hitems t ht handles false false fuel more hfuel (by simp)]

theorem readOpenItems_itemTokens {items : List Tree} (hitems : ∀ t ∈ items, IsParsed t) (handles : Handles)
    {fuel : Nat} (hfuel : 2 * (itemTokens items).length + 1 ≤ fuel) {rest : List Token}
    (hrest : rest.head? ≠ some .blockEntry) (before : List SourceNode) :
    readOpenItems handles fuel (itemTokens items ++ rest) before = some (before.reverse ++ itemNodes items, rest) := by
  refine readItems_itemTokens ?_ ?_ hfuel before
  · intro fuel before
    rw [readOpenItems]
    rintro others rfl
    exact hrest rfl
  · intro t ht fuel before more hfuel
    rw [readOpenItems, orMissing_nodeTokens (by simp), hitems t ht handles false false fuel more hfuel (by simp)]

theorem head?_entryTokens (entries : List (Tree × Tree)) (rest : List Token) :
    (entryTokens entries ++ .blockEnd :: rest).head? ≠ some .blockEntry := by
  cases entries with
  | nil => simp [entryTokens]
  | cons e others => simp [entryTokens]

theorem readBlockEntries_entryTokens {entries : List (Tree × Tree)}
    (hentries : ∀ e ∈ entries, IsParsed e.1 ∧ IsParsed e.2) (handles : Handles) {fuel : Nat}
    (hfuel : 2 * (entryTokens entries).length + 1 ≤ fuel) (rest : List Token)
    (before : List (SourceNode × SourceNode)) :
    readBlockEntries handles fuel (entryTokens entries ++ .blockEnd :: rest) before =
      some (before.reverse ++ entryNodes entries, rest) := by
  induction entries generalizing fuel before with
  | nil =>
    obtain ⟨fuel, rfl⟩ : ∃ k, fuel = k + 1 := ⟨fuel - 1, by omega⟩
    rw [entryTokens, entryNodes, List.append_nil, List.nil_append, readBlockEntries]
  | cons e others ih =>
    rw [List.forall_mem_cons] at hentries
    obtain ⟨⟨hkey, hvalue⟩, hothers⟩ := hentries
    rw [entryTokens, List.length_append, List.length_append, List.length_cons, List.length_cons] at hfuel
    obtain ⟨fuel, rfl⟩ : ∃ k, fuel = k + 1 := ⟨fuel - 1, by omega⟩
    have hnext := head?_entryTokens others rest
    rw [entryTokens, List.append_assoc, List.append_assoc, List.cons_append, readBlockEntries,
      orMissing_nodeTokens (by simp), hkey handles false true fuel _ (by omega) (by simp)]
    simp only [List.cons_append]
    rw [orMissing_nodeTokens (by simp), hvalue handles _ true fuel _ (by omega) fun _ => ⟨rfl, hnext⟩]
    simp only
    rw [ih hothers (by omega), entryNodes]
    simp

end SourceNode

theorem isParsed_scalar {t : Tree} (h : t.IsWritableScalar) : IsParsed t := by
  intro handles openEntries allowsOpen fuel rest hfuel _
  obtain ⟨fuel, rfl⟩ : ∃ k, fuel = k + 1 := ⟨fuel - 1, by omega⟩
  rw [nodeTokens_scalar h, nodeOf_scalar h]
  exact SourceNode.read_scalar handles true allowsOpen fuel _ _ rest

theorem isParsed_sequence {items : List Tree} (hitems : ∀ t ∈ items, IsParsed t) : IsParsed (.sequence items) := by
  intro handles openEntries allowsOpen fuel rest hfuel hopen
  rw [nodeTokens, nodeOf] at *
  cases items with
  | nil =>
    obtain ⟨fuel, rfl⟩ : ∃ k, fuel = k + 2 := ⟨fuel - 2, by omega⟩
    exact SourceNode.read_emptySequence handles true allowsOpen fuel rest
  | cons t others =>
    obtain ⟨fuel, rfl⟩ : ∃ k, fuel = k + 1 := ⟨fuel - 1, by omega⟩
    rw [if_neg (by simp)] at hfuel ⊢
    cases openEntries with
    | true =>
      obtain ⟨rfl, hrest⟩ := hopen rfl
      have hlength : 2 * (itemTokens (t :: others)).length + 1 ≤ fuel := by
        simp only [if_true] at hfuel
        omega
      have hread := SourceNode.readOpenItems_itemTokens hitems handles hlength hrest []
      have hfirst : itemTokens (t :: others) ++ rest =
          .blockEntry :: (nodeTokens false t ++ itemTokens others ++ rest) := by rw [itemTokens]; rfl
      rw [if_pos rfl, hfirst, SourceNode.read_openSequence, ← hfirst, hread]
      rfl
    | false =>
      have hlength : 2 * (itemTokens (t :: others)).length + 1 ≤ fuel := by
        simp at hfuel
        omega
      have hread := SourceNode.readBlockItems_itemTokens hitems handles hlength rest []
      rw [if_neg Bool.false_ne_true, List.cons_append, SourceNode.read_blockSequence, List.append_assoc,
        List.singleton_append, hread]
      rfl

theorem isParsed_mapping {entries : List (Tree × Tree)} (hentries : ∀ e ∈ entries, IsParsed e.1 ∧ IsParsed e.2) :
    IsParsed (.mapping entries) := by
  intro handles openEntries allowsOpen fuel rest hfuel hopen
  rw [nodeTokens, nodeOf] at *
  cases entries with
  | nil =>
    obtain ⟨fuel, rfl⟩ : ∃ k, fuel = k + 2 := ⟨fuel - 2, by omega⟩
    exact SourceNode.read_emptyMapping handles true allowsOpen fuel rest
  | cons e others =>
    obtain ⟨fuel, rfl⟩ : ∃ k, fuel = k + 1 := ⟨fuel - 1, by omega⟩
    rw [if_neg (by simp)] at hfuel ⊢
    have hlength : 2 * (entryTokens (e :: others)).length + 1 ≤ fuel := by
      simp at hfuel
      omega
    have hread := SourceNode.readBlockEntries_entryTokens hentries handles hlength rest []
    rw [List.cons_append, SourceNode.read_blockMapping, List.append_assoc, List.singleton_append, hread]
    rfl

theorem isParsed_of_isWritable {t : Tree} (h : t.IsWritable) : IsParsed t := by
  induction h with
  | scalar h => exact isParsed_scalar h
  | sequence _ ih => exact isParsed_sequence ih
  | mapping hkeys _ _ ih =>
    refine isParsed_mapping fun e he => ⟨?_, ih e he⟩
    obtain ⟨s, hs⟩ := hkeys e he
    rw [hs]
    exact isParsed_scalar (.string s)

theorem singleDocument?_nodeTokens {t : Tree} (h : t.IsWritable) :
    singleDocument? (nodeTokens false t) = some (some (nodeOf t)) := by
  have hread := isParsed_of_isWritable h Handles.default false false (4 * ((nodeTokens false t).length + 1)) []
    (by omega) (by simp)
  obtain ⟨first, more, htokens, hexplicit, -⟩ := nodeTokens_opens false t
  rw [List.append_nil, htokens] at hread
  rw [htokens]
  simp only [singleDocument?, firstDocument, hexplicit, hread]
  rfl

end PolicyYaml.Document
