import PolicyYaml.Json.Basic
import PolicyYaml.Value.Order

namespace PolicyYaml

def Number.ofJson : JsonNumber → Number
  | .natural n =>
    if isInt64 n.toNat then .int (Int64.ofNat n.toNat) else .float (Double.ofInt n.toNat)
  | .signed i => .int i
  | .float d => .float d

namespace Value

mutual

def ofJson : Json → Value
  | .null => .null
  | .boolean b => .boolean b
  | .number n => .number (Number.ofJson n)
  | .text s => .string s
  | .array items => .array (ofJsonItems items)
  | .object members => ofFields (ofJsonMembers members)

def ofJsonItems : List Json → List Value
  | [] => []
  | j :: rest => ofJson j :: ofJsonItems rest

def ofJsonMembers : List (String × Json) → List (Value × Value)
  | [] => []
  | (key, j) :: rest => (.string key, ofJson j) :: ofJsonMembers rest

end

end Value

end PolicyYaml
