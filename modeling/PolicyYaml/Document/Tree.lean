import PolicyYaml.Number.Double

namespace PolicyYaml

inductive Tree where
  | null
  | boolean (b : Bool)
  | integer (i : Int)
  | float (d : Double)
  | string (s : String)
  | sequence (items : List Tree)
  | mapping (entries : List (Tree × Tree))
  | tagged (tag : String) (content : Tree)

namespace Tree

def isNull : Tree → Bool
  | .null => true
  | .tagged _ content => content.isNull
  | _ => false

def untagged : Tree → Tree
  | .tagged _ content => content.untagged
  | t => t

def sameFloat (a b : Double) : Bool := a.compare b == .eq

def tagName (tag : String) : List Char :=
  match tag.toList with
  | '!' :: name => name
  | name => name

mutual

/-- Equality of nodes, where the entries of a mapping have no order. No integer is equal to a float. -/
def alike : Tree → Tree → Bool
  | .null, .null => true
  | .boolean a, .boolean b => a == b
  | .integer a, .integer b => a == b
  | .float a, .float b => sameFloat a b
  | .string a, .string b => a == b
  | .sequence a, .sequence b => alikeItems a b
  | .mapping a, .mapping b => a.length == b.length && alikeEntries a b
  | .tagged tag a, .tagged tag' b => tagName tag == tagName tag' && alike a b
  | _, _ => false

def alikeItems : List Tree → List Tree → Bool
  | [], [] => true
  | a :: as, b :: bs => alike a b && alikeItems as bs
  | _, _ => false

def alikeEntries : List (Tree × Tree) → List (Tree × Tree) → Bool
  | [], _ => true
  | (k, v) :: rest, others => others.any (fun e => alike k e.1 && alike v e.2) && alikeEntries rest others

end

def distinctKeys : List (Tree × Tree) → Bool
  | [] => true
  | (k, _) :: rest => rest.all (fun e => !alike k e.1) && distinctKeys rest

end Tree

end PolicyYaml
