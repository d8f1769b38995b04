import PolicyYaml.Document.Token

/-!
From tokens to nodes, whose tags are in full and whose aliases still are names.
-/

namespace PolicyYaml.Document

inductive Tag where
  | boolean
  | integer
  | float
  | null
  | named (name : String)
  | foreign
  deriving DecidableEq

inductive Node (ρ : Type) where
  | alias (target : ρ)
  | scalar (anchor : Option (List Char)) (tag : Option Tag) (plain : Bool) (content : List Char)
  | sequence (anchor : Option (List Char)) (tag : Option Tag) (items : List (Node ρ))
  | mapping (anchor : Option (List Char)) (tag : Option Tag) (entries : List (Node ρ × Node ρ))

abbrev SourceNode := Node (List Char)

namespace Tag

def coreStart : String := "tag:yaml.org,2002:"

def ofBytes (bytes : List UInt8) : Option Tag :=
  let bytes := bytes.takeWhile (· != 0)
  if bytes.head? == some 33 then
    let name := if bytes.length = 1 then bytes else bytes.drop 1
    (String.fromUTF8? ⟨name.toArray⟩).map .named
  else
    let core := [("bool", Tag.boolean), ("int", .integer), ("float", .float), ("null", .null)]
    match core.find? fun (name, _) => (coreStart ++ name).toByteArray.data.toList == bytes with
    | some (_, tag) => some tag
    | none => some .foreign

end Tag

abbrev Handles := List (List Char × List UInt8)

namespace Handles

def default : Handles :=
  [(['!'], [33]), (['!', '!'], Tag.coreStart.toByteArray.data.toList)]

def expand? (handles : Handles) (t : TagName) : Option (List UInt8) :=
  if t.handle.isEmpty then some t.suffix else (handles.lookup t.handle).map (· ++ t.suffix)

end Handles

structure Properties where
  anchor : Option (List Char)
  tag : Option (List UInt8)

namespace Properties

def isNone (p : Properties) : Bool := p.anchor.isNone && p.tag.isNone

def read (handles : Handles) : List Token → Option (Properties × List Token)
  | .anchor a :: .tag t :: rest => (handles.expand? t).map fun t => (⟨some a, some t⟩, rest)
  | .tag t :: .anchor a :: rest => (handles.expand? t).map fun t => (⟨some a, some t⟩, rest)
  | .anchor a :: rest => some (⟨some a, none⟩, rest)
  | .tag t :: rest => (handles.expand? t).map fun t => (⟨none, some t⟩, rest)
  | rest => some (⟨none, none⟩, rest)

def scalar (p : Properties) (plain : Bool) (content : List Char) : SourceNode :=
  .scalar p.anchor (p.tag.bind Tag.ofBytes) plain content

def writtenScalar (p : Properties) (plain : Bool) (content : List Char) : SourceNode :=
  if p.tag == some [33] then .scalar p.anchor none plain content else p.scalar plain content

def sequence (p : Properties) (items : List SourceNode) : SourceNode :=
  .sequence p.anchor (p.tag.bind Tag.ofBytes) items

def mapping (p : Properties) (entries : List (SourceNode × SourceNode)) : SourceNode :=
  .mapping p.anchor (p.tag.bind Tag.ofBytes) entries

end Properties

namespace SourceNode

def missing : SourceNode := .scalar none none true []

def orMissing (ends : List Token) (read : List Token → Option (SourceNode × List Token))
    (ts : List Token) : Option (SourceNode × List Token) :=
  match ts with
  | t :: _ => if ends.contains t then some (missing, ts) else read ts
  | [] => read ts

def afterComma : List Token → Option (List Token)
  | .flowEntry :: rest => some rest
  | _ => none

mutual

def read (handles : Handles) (block openEntries : Bool) :
    (fuel : Nat) → List Token → Option (SourceNode × List Token)
  | 0, _ => none
  | fuel + 1, ts =>
    match ts with
    | .alias name :: rest => some (.alias name, rest)
    | _ =>
      match Properties.read handles ts with
      | none => none
      | some (p, ts) =>
        match ts with
        | .scalar plain content :: rest => some (p.writtenScalar plain content, rest)
        | .flowSequenceStart :: rest =>
          (readFlowItems handles true fuel rest []).map fun (items, rest) => (p.sequence items, rest)
        | .flowMappingStart :: rest =>
          (readFlowEntries handles true fuel rest []).map fun (es, rest) => (p.mapping es, rest)
        | .blockEntry :: _ =>
          if openEntries then
            (readOpenItems handles fuel ts []).map fun (items, rest) => (p.sequence items, rest)
          else if p.isNone then none
          else some (p.scalar true [], ts)
        | .blockSequenceStart :: rest =>
          if block then
            (readBlockItems handles fuel rest []).map fun (items, rest) => (p.sequence items, rest)
          else if p.isNone then none
          else some (p.scalar true [], ts)
        | .blockMappingStart :: rest =>
          if block then
            (readBlockEntries handles fuel rest []).map fun (es, rest) => (p.mapping es, rest)
          else if p.isNone then none
          else some (p.scalar true [], ts)
        | _ => if p.isNone then none else some (p.scalar true [], ts)

def readBlockItems (handles : Handles) :
    (fuel : Nat) → List Token → List SourceNode → Option (List SourceNode × List Token)
  | 0, _, _ => none
  | fuel + 1, ts, items =>
    match ts with
    | .blockEntry :: rest =>
      match orMissing [.blockEntry, .blockEnd] (read handles true false fuel) rest with
      | some (item, rest) => readBlockItems handles fuel rest (item :: items)
      | none => none
    | .blockEnd :: rest => some (items.reverse, rest)
    | _ => none

def readOpenItems (handles : Handles) :
    (fuel : Nat) → List Token → List SourceNode → Option (List SourceNode × List Token)
  | 0, _, _ => none
  | fuel + 1, ts, items =>
    match ts with
    | .blockEntry :: rest =>
      match orMissing [.blockEntry, .key, .value, .blockEnd] (read handles true false fuel) rest with
      | some (item, rest) => readOpenItems handles fuel rest (item :: items)
      | none => none
    | _ => some (items.reverse, ts)

def readBlockEntries (handles : Handles) :
    (fuel : Nat) → List Token → List (SourceNode × SourceNode) →
      Option (List (SourceNode × SourceNode) × List Token)
  | 0, _, _ => none
  | fuel + 1, ts, entries =>
    match ts with
    | .key :: rest =>
      match orMissing [.key, .value, .blockEnd] (read handles true true fuel) rest with
      | none => none
      | some (k, .value :: rest) =>
        match orMissing [.key, .value, .blockEnd] (read handles true true fuel) rest with
        | some (v, rest) => readBlockEntries handles fuel rest ((k, v) :: entries)
        | none => none
      | some (k, rest) => readBlockEntries handles fuel rest ((k, missing) :: entries)
    | .blockEnd :: rest => some (entries.reverse, rest)
    | _ => none

def readFlowItems (handles : Handles) (first : Bool) :
    (fuel : Nat) → List Token → List SourceNode → Option (List SourceNode × List Token)
  | 0, _, _ => none
  | fuel + 1, ts, items =>
    match ts with
    | .flowSequenceEnd :: rest => some (items.reverse, rest)
    | _ =>
      match if first then some ts else afterComma ts with
      | none => none
      | some (.flowSequenceEnd :: rest) => some (items.reverse, rest)
      | some (.key :: rest) =>
        match readPair handles fuel rest with
        | some (item, rest) => readFlowItems handles false fuel rest (item :: items)
        | none => none
      | some rest =>
        match read handles false false fuel rest with
        | some (item, rest) => readFlowItems handles false fuel rest (item :: items)
        | none => none

/-- Reads a key with its value as a mapping of its own. A missing key takes the token after its mark
with it. -/
def readPair (handles : Handles) : (fuel : Nat) → List Token → Option (SourceNode × List Token)
  | 0, _ => none
  | fuel + 1, ts =>
    let key :=
      match ts with
      | .value :: rest | .flowEntry :: rest | .flowSequenceEnd :: rest => some (missing, rest)
      | _ => read handles false false fuel ts
    match key with
    | none => none
    | some (k, .value :: rest) =>
      match orMissing [.flowEntry, .flowSequenceEnd] (read handles false false fuel) rest with
      | some (v, rest) => some (.mapping none none [(k, v)], rest)
      | none => none
    | some (k, rest) => some (.mapping none none [(k, missing)], rest)

def readFlowEntries (handles : Handles) (first : Bool) :
    (fuel : Nat) → List Token → List (SourceNode × SourceNode) →
      Option (List (SourceNode × SourceNode) × List Token)
  | 0, _, _ => none
  | fuel + 1, ts, entries =>
    match ts with
    | .flowMappingEnd :: rest => some (entries.reverse, rest)
    | _ =>
      match if first then some ts else afterComma ts with
      | none => none
      | some (.flowMappingEnd :: rest) => some (entries.reverse, rest)
      | some (.key :: rest) =>
        match orMissing [.value, .flowEntry, .flowMappingEnd] (read handles false false fuel) rest with
        | none => none
        | some (k, .value :: rest) =>
          match orMissing [.flowEntry, .flowMappingEnd] (read handles false false fuel) rest with
          | some (v, rest) => readFlowEntries handles false fuel rest ((k, v) :: entries)
          | none => none
        | some (k, rest) => readFlowEntries handles false fuel rest ((k, missing) :: entries)
      | some rest =>
        match read handles false false fuel rest with
        | some (k, rest) => readFlowEntries handles false fuel rest ((k, missing) :: entries)
        | none => none

end

end SourceNode

end PolicyYaml.Document
