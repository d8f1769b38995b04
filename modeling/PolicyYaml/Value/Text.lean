import PolicyYaml.Number.Text
import PolicyYaml.Text.Quoted
import PolicyYaml.Value.Basic

namespace PolicyYaml.Value

def boolChars (b : Bool) : List Char := if b then "true".toList else "false".toList

mutual

def chars : Value → List Char
  | .null => "null".toList
  | .boolean b => boolChars b
  | .number n => n.chars
  | .string s => Text.quoted s.toList
  | .array items => '[' :: (itemChars items ++ [']'])
  | .object fields => '\x7b' :: (fieldChars fields ++ ['\x7d'])
  | .set [] => "set()".toList
  | .set (v :: rest) => '\x7b' :: (itemChars (v :: rest) ++ ['\x7d'])
  | .undefined => "undefined".toList

def itemChars : List Value → List Char
  | [] => []
  | v :: rest => v.chars ++ moreItemChars rest

def moreItemChars : List Value → List Char
  | [] => []
  | v :: rest => ',' :: ' ' :: (v.chars ++ moreItemChars rest)

def fieldChars : List (Value × Value) → List Char
  | [] => []
  | (k, v) :: rest => k.chars ++ ':' :: ' ' :: (v.chars ++ moreFieldChars rest)

def moreFieldChars : List (Value × Value) → List Char
  | [] => []
  | (k, v) :: rest => ',' :: ' ' :: (k.chars ++ ':' :: ' ' :: (v.chars ++ moreFieldChars rest))

end

def text (v : Value) : String := String.ofList v.chars

end PolicyYaml.Value
