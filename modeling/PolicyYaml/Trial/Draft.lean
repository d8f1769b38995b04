import PolicyYaml.Value.DebugText
import PolicyYaml.Value.Order

namespace PolicyYaml

inductive Draft where
  | null
  | boolean (b : Bool)
  | int (i : Int64)
  | float (d : Double)
  | string (s : String)
  | array (items : List Draft)
  | object (fields : List (String × Draft))
  | undefined

namespace Draft

def mostMembers : Nat := 16

def mostLevels : Nat := 9

mutual

def toValueIn : (levels : Nat) → Draft → Value
  | 0, _ => .null
  | _ + 1, .null => .null
  | _ + 1, .boolean b => .boolean b
  | _ + 1, .int i => .number (.int i)
  | _ + 1, .float d => .number (.float d)
  | _ + 1, .string s => .string s
  | levels + 1, .array items => .array (itemsIn levels mostMembers items)
  | levels + 1, .object fields => Value.ofFields (fieldsIn levels mostMembers fields)
  | _ + 1, .undefined => .undefined

def itemsIn (levels : Nat) : (count : Nat) → List Draft → List Value
  | count + 1, d :: rest => toValueIn levels d :: itemsIn levels count rest
  | _, _ => []

def fieldsIn (levels : Nat) : (count : Nat) → List (String × Draft) → List (Value × Value)
  | count + 1, (key, d) :: rest => (.string key, toValueIn levels d) :: fieldsIn levels count rest
  | _, _ => []

end

def toValue (d : Draft) : Value := d.toValueIn mostLevels

def debugField (key : String) (content : List Char) : List Char :=
  '(' :: (Text.debugQuoted key.toList ++ ',' :: ' ' :: (content ++ [')']))

mutual

def debugChars : Draft → List Char
  | .null => "Null".toList
  | .boolean b => calledOn "Bool" (Value.boolChars b)
  | .int i => calledOn "Int" (FloatLayout.intText i.toInt)
  | .float d => calledOn "Float" (Number.floatText d)
  | .string s => calledOn "Str" (Text.debugQuoted s.toList)
  | .array items => calledOn "Array" ('[' :: (debugItems items ++ [']']))
  | .object fields => calledOn "Object" ('[' :: (debugFields fields ++ [']']))
  | .undefined => "Undefined".toList

def debugItems : List Draft → List Char
  | [] => []
  | d :: rest => d.debugChars ++ moreDebugItems rest

def moreDebugItems : List Draft → List Char
  | [] => []
  | d :: rest => ',' :: ' ' :: (d.debugChars ++ moreDebugItems rest)

def debugFields : List (String × Draft) → List Char
  | [] => []
  | (key, d) :: rest => debugField key d.debugChars ++ moreDebugFields rest

def moreDebugFields : List (String × Draft) → List Char
  | [] => []
  | (key, d) :: rest => ',' :: ' ' :: (debugField key d.debugChars ++ moreDebugFields rest)

end

def debugText (d : Draft) : String := String.ofList d.debugChars

end Draft

end PolicyYaml
