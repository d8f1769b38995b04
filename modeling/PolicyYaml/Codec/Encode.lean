import PolicyYaml.Document.Tree
import PolicyYaml.Error
import PolicyYaml.Value.Text

namespace PolicyYaml.Codec

abbrev Path := List String

def Path.text (path : Path) : String := String.join (path.map fun segment => "/" ++ segment)

def segment (index : Nat) : String := String.ofList (FloatLayout.natText index)

def keyText : Value → String
  | .string s => s
  | k => k.text

def isUnwritableKey : Value → Bool
  | .string _ => false
  | k => k.containsUndefined

def encodeNumber : Number → Tree
  | .int i => .integer i.toInt
  | .float d => .float d.oneNaN

mutual

/-- The tree of a value at a path. Sets become sequences, and keys become text. It fails at the first
`undefined` and at the first key with the text of an earlier one. -/
def encodeAt (path : Path) : Value → Except CodecError Tree
  | .null => .ok .null
  | .boolean b => .ok (.boolean b)
  | .number n => .ok (encodeNumber n)
  | .string s => .ok (.string s)
  | .array items => (encodeItems path 0 items).map .sequence
  | .set elements => (encodeItems path 0 elements).map .sequence
  | .object fields => (encodeFields path [] fields).map .mapping
  | .undefined => .error (.unsupportedValue path.text)

def encodeItems (path : Path) (index : Nat) : List Value → Except CodecError (List Tree)
  | [] => .ok []
  | v :: rest => do
    let first ← encodeAt (path ++ [segment index]) v
    let others ← encodeItems path (index + 1) rest
    return first :: others

def encodeFields (path : Path) (seen : List String) :
    List (Value × Value) → Except CodecError (List (Tree × Tree))
  | [] => .ok []
  | (k, v) :: rest => do
    if isUnwritableKey k then .error (.unsupportedValue path.text)
    let key := keyText k
    if seen.contains key then .error (.keyCollision (Path.text (path ++ [key])))
    let first ← encodeAt (path ++ [key]) v
    let others ← encodeFields path (key :: seen) rest
    return (.string key, first) :: others

end

def encode (v : Value) : Except CodecError Tree := encodeAt [] v

end PolicyYaml.Codec
