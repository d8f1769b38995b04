import PolicyYaml.Ascending
import PolicyYaml.Document.Tree
import PolicyYaml.Error
import PolicyYaml.Text.ByteOrder
import PolicyYaml.Value.Text

namespace PolicyYaml.Codec

def sequenceKey : CodecError := .parseFailure "unsupported mapping key: sequence"

def mappingKey : CodecError := .parseFailure "unsupported mapping key: mapping"

def duplicateKeyReason : String := "duplicate mapping key after conversion to string: "

def duplicateKey (key : String) : CodecError :=
  .parseFailure (duplicateKeyReason ++ (Value.string key).text)

def decodeInteger (i : Int) : Number :=
  if isInt64 i then .int (Int64.ofInt i) else .float (Double.ofInt i)

def treeKey : Tree → Except CodecError String
  | .string s => .ok s
  | .null => .ok "null"
  | .boolean b => .ok (if b then "true" else "false")
  | .integer i => .ok (decodeInteger i).text
  | .float d => .ok (Number.float d).text
  | .tagged _ content => treeKey content
  | .sequence _ => .error sequenceKey
  | .mapping _ => .error mappingKey

abbrev TextFields := List (String × Value)

namespace TextFields

def contains (fields : TextFields) (key : String) : Bool := fields.any fun f => f.1 == key

def insert (fields : TextFields) (key : String) (v : Value) : TextFields :=
  Ascending.insert Text.compareNames (key, v) fields

def toObject (fields : TextFields) : Value := .object (fields.map fun f => (.string f.1, f.2))

end TextFields

mutual

/-- The value of a tree. Tags are ignored. Of an entry first the key is read, then its text is compared
with those before, and then the value is read. -/
def decode : Tree → Except CodecError Value
  | .null => .ok .null
  | .boolean b => .ok (.boolean b)
  | .integer i => .ok (.number (decodeInteger i))
  | .float d => .ok (.number (.float d))
  | .string s => .ok (.string s)
  | .sequence items => (decodeItems items).map .array
  | .mapping entries => (decodeEntries [] entries).map TextFields.toObject
  | .tagged _ content => decode content

def decodeItems : List Tree → Except CodecError (List Value)
  | [] => .ok []
  | t :: rest => do
    let first ← decode t
    let others ← decodeItems rest
    return first :: others

def decodeEntries (fields : TextFields) : List (Tree × Tree) → Except CodecError TextFields
  | [] => .ok fields
  | (k, v) :: rest => do
    let key ← treeKey k
    if fields.contains key then .error (duplicateKey key)
    let value ← decode v
    decodeEntries (fields.insert key value) rest

end

end PolicyYaml.Codec
