import PolicyYaml.Value.Text

namespace PolicyYaml

def calledOn (name : String) (content : List Char) : List Char := name.toList ++ '(' :: (content ++ [')'])

def Number.debugChars : Number → List Char
  | .int i => calledOn "Int" (FloatLayout.intText i.toInt)
  | .float d => calledOn "Float" (Number.floatText d)

namespace Value

mutual

def debugChars : Value → List Char
  | .null => "Null".toList
  | .boolean b => calledOn "Boolean" (boolChars b)
  | .number n => calledOn "Number" n.debugChars
  | .string s => calledOn "String" (Text.debugQuoted s.toList)
  | .array items => calledOn "Array" ('[' :: (debugItems items ++ [']']))
  | .object fields => calledOn "Object" ('\x7b' :: (debugFields fields ++ ['\x7d']))
  | .set elements => calledOn "Set" ('\x7b' :: (debugItems elements ++ ['\x7d']))
  | .undefined => "Undefined".toList

def debugItems : List Value → List Char
  | [] => []
  | v :: rest => v.debugChars ++ moreDebugItems rest

def moreDebugItems : List Value → List Char
  | [] => []
  | v :: rest => ',' :: ' ' :: (v.debugChars ++ moreDebugItems rest)

def debugFields : List (Value × Value) → List Char
  | [] => []
  | (k, v) :: rest => k.debugChars ++ ':' :: ' ' :: (v.debugChars ++ moreDebugFields rest)

def moreDebugFields : List (Value × Value) → List Char
  | [] => []
  | (k, v) :: rest => ',' :: ' ' :: (k.debugChars ++ ':' :: ' ' :: (v.debugChars ++ moreDebugFields rest))

end

def debugList (values : List Value) : String := String.ofList ('[' :: (debugItems values ++ [']']))

end Value

end PolicyYaml
