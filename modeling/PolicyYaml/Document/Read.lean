import PolicyYaml.Document.Expansion
import PolicyYaml.Document.Lexer
import PolicyYaml.Document.Stream

namespace PolicyYaml.Tree

def read? (cs : List Char) : Option Tree := do
  let ts ← Document.tokens? cs
  let node ← Document.singleDocument? ts
  match node with
  | none => some .null
  | some node => Document.treeOf? node

end PolicyYaml.Tree
