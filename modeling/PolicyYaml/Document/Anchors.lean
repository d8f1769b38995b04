import PolicyYaml.Document.Node

namespace PolicyYaml.Document

abbrev LinkedNode := Node Nat

abbrev AnchorNumbers := List (List Char × Nat)

namespace AnchorNumbers

def add (numbers : AnchorNumbers) (name : List Char) : AnchorNumbers :=
  (name, numbers.length) :: numbers.filter fun e => e.1 != name

end AnchorNumbers

structure Linked (α : Type) where
  part : α
  numbers : AnchorNumbers
  targets : List (Nat × LinkedNode)

namespace Linked

def anchored (anchor : Option (List Char)) (numbers : AnchorNumbers)
    (inner : AnchorNumbers → Option (Linked LinkedNode)) : Option (Linked LinkedNode) :=
  match anchor with
  | none => inner numbers
  | some name =>
    (inner (numbers.add name)).map fun l => { l with targets := (numbers.length, l.part) :: l.targets }

end Linked

mutual

def link (numbers : AnchorNumbers) : SourceNode → Option (Linked LinkedNode)
  | .alias name => (numbers.lookup name).map fun number => ⟨.alias number, numbers, []⟩
  | .scalar anchor tag plain content =>
    Linked.anchored anchor numbers fun numbers => some ⟨.scalar anchor tag plain content, numbers, []⟩
  | .sequence anchor tag items =>
    Linked.anchored anchor numbers fun numbers =>
      (linkItems numbers items).map fun l => ⟨.sequence anchor tag l.part, l.numbers, l.targets⟩
  | .mapping anchor tag entries =>
    Linked.anchored anchor numbers fun numbers =>
      (linkEntries numbers entries).map fun l => ⟨.mapping anchor tag l.part, l.numbers, l.targets⟩

def linkItems (numbers : AnchorNumbers) : List SourceNode → Option (Linked (List LinkedNode))
  | [] => some ⟨[], numbers, []⟩
  | n :: rest => do
    let first ← link numbers n
    let others ← linkItems first.numbers rest
    some ⟨first.part :: others.part, others.numbers, first.targets ++ others.targets⟩

def linkEntries (numbers : AnchorNumbers) :
    List (SourceNode × SourceNode) → Option (Linked (List (LinkedNode × LinkedNode)))
  | [] => some ⟨[], numbers, []⟩
  | (k, v) :: rest => do
    let key ← link numbers k
    let value ← link key.numbers v
    let others ← linkEntries value.numbers rest
    some ⟨(key.part, value.part) :: others.part, others.numbers,
      key.targets ++ value.targets ++ others.targets⟩

end

mutual

def eventCount {ρ : Type} : Node ρ → Nat
  | .alias _ => 1
  | .scalar _ _ _ _ => 1
  | .sequence _ _ items => 2 + itemEvents items
  | .mapping _ _ entries => 2 + entryEvents entries

def itemEvents {ρ : Type} : List (Node ρ) → Nat
  | [] => 0
  | n :: rest => eventCount n + itemEvents rest

def entryEvents {ρ : Type} : List (Node ρ × Node ρ) → Nat
  | [] => 0
  | (k, v) :: rest => eventCount k + eventCount v + entryEvents rest

end

end PolicyYaml.Document
