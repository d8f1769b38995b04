import PolicyYaml.Document.Node

namespace PolicyYaml.Document

structure Directives where
  versioned : Bool
  handles : Handles

namespace Directives

def read : List Token → Directives → Option (Directives × List Token)
  | .version major minor :: rest, d =>
    if d.versioned || major != 1 || minor != 1 && minor != 2 then none
    else read rest { d with versioned := true }
  | .tagDirective handle start :: rest, d =>
    if (d.handles.lookup handle).isSome then none
    else read rest { d with handles := (handle, start) :: d.handles }
  | rest, d => some (d, rest)

end Directives

def endsDocument : List Token → Bool
  | [] => true
  | .version _ _ :: _ | .tagDirective _ _ :: _ | .documentStart :: _ | .documentEnd :: _ => true
  | _ => false

def isExplicit : List Token → Bool
  | .version _ _ :: _ | .tagDirective _ _ :: _ | .documentStart :: _ => true
  | _ => false

def firstDocument (ts : List Token) : Option (SourceNode × List Token) :=
  let fuel := 4 * (ts.length + 1)
  if isExplicit ts then
    match Directives.read ts ⟨false, []⟩ with
    | some (d, .documentStart :: rest) =>
      if endsDocument rest then some (.missing, rest)
      else SourceNode.read (d.handles ++ Handles.default) true false fuel rest
    | _ => none
  else SourceNode.read Handles.default true false fuel ts

def singleDocument? (ts : List Token) : Option (Option SourceNode) :=
  if ts.isEmpty then some none
  else
    match firstDocument ts with
    | some (node, rest) => if rest.all (· == .documentEnd) then some (some node) else none
    | none => none

end PolicyYaml.Document
