import PolicyYaml.Document.Anchors
import PolicyYaml.Document.Resolve

namespace PolicyYaml.Document

def scalarTree (tag : Option Tag) (plain : Bool) (content : List Char) : Option Tree :=
  match tag with
  | some .boolean => (boolean? content).map .boolean
  | some .integer =>
    match readInteger content with
    | .integer i => some (.integer i)
    | _ => none
  | some .float => (float? content).map .float
  | some .null => if isNullWord content then some .null else none
  | some .foreign => some (.string (String.ofList content))
  | some (.named _) | none =>
    if plain then resolvePlain content else some (.string (String.ofList content))

abbrev Expansion := StateT Nat Option

/-- The node that an alias stands for: of those with its number, the one that comes last. -/
def follow (targets : List (Nat × LinkedNode)) (n : LinkedNode) : Expansion LinkedNode :=
  match n with
  | .alias number => do
    let left ← get
    if left = 0 then failure
    set (left - 1)
    match targets.reverse.lookup number with
    | some target => pure target
    | none => failure
  | n => pure n

def Node.localTag? {ρ : Type} : Node ρ → Option String
  | .scalar _ (some (.named name)) _ _ => some name
  | .sequence _ (some (.named name)) _ => some name
  | .mapping _ (some (.named name)) _ => some name
  | _ => none

def tagTree (tag : Option String) (t : Tree) : Tree :=
  match tag with
  | some name => .tagged name t
  | none => t

def contentTree (inner : Option (LinkedNode → Expansion Tree)) (n : LinkedNode) : Expansion Tree :=
  match n, inner with
  | .scalar _ tag plain content, _ => fun left => (scalarTree tag plain content).map fun t => (t, left)
  | .sequence _ _ items, some expand => do return .sequence (← items.mapM expand)
  | .mapping _ _ entries, some expand => do
    let entries ← entries.mapM fun (k, v) => do
      let k ← expand k
      let v ← expand v
      return (k, v)
    if Tree.distinctKeys entries then return .mapping entries else failure
  | _, _ => failure

def expand (targets : List (Nat × LinkedNode)) : (depth : Nat) → LinkedNode → Expansion Tree
  | 0, n => do
    let n ← follow targets n
    let tree ← contentTree none n
    return tagTree n.localTag? tree
  | depth + 1, n => do
    let n ← follow targets n
    let tree ← contentTree (some (expand targets depth)) n
    return tagTree n.localTag? tree

def maxDepth : Nat := 128

def treeOf? (n : SourceNode) : Option Tree := do
  let linked ← link [] n
  let (tree, _) ← (expand linked.targets maxDepth linked.part).run (100 * eventCount n)
  some tree

end PolicyYaml.Document
