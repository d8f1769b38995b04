import PolicyYaml.Number.Basic
import PolicyYaml.Number.Shortest

namespace PolicyYaml.Number

def floatLayout : FloatLayout := ⟨-3, 16, .up, "NaN", "inf"⟩

def floatText (d : Double) : List Char := floatLayout.chars d

def chars : Number → List Char
  | .int i => FloatLayout.intText i.toInt
  | .float d => floatText d

def text (n : Number) : String := String.ofList n.chars

end PolicyYaml.Number
