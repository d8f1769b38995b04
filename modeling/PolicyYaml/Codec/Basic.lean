import PolicyYaml.Codec.Decode
import PolicyYaml.Codec.Encode
import PolicyYaml.Document.Layout
import PolicyYaml.Document.Read
import PolicyYaml.Journal

/-!
Values as documents: `marshal` writes them, `unmarshal` reads them, and `isValid` looks whether a text
is a document at all.
-/

namespace PolicyYaml.Codec

def malformed : CodecError := .parseFailure "malformed document"

def readTree (text : String) : Except CodecError Tree :=
  match Tree.read? text.toList with
  | some tree => .ok tree
  | none => .error malformed

def isBlank (text : String) : Bool :=
  text.toList.all fun c => c == ' ' || c == '\t' || c == '\n' || c == '\r'

def marshal (v : Value) : Except CodecError String := (encode v).map Tree.text

def unmarshal (text : String) : Except CodecError Value :=
  if isBlank text then .ok .null else readTree text >>= decode

def checkDocument (text : String) : Journaled Bool :=
  match readTree text with
  | .ok tree => pure !tree.isNull
  | .error e => do
    .note (.documentRejected e)
    return false

def isValid (text : String) : Bool := (checkDocument text).result

end PolicyYaml.Codec
