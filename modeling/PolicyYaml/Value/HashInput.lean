import PolicyYaml.Text.ByteOrder
import PolicyYaml.Value.Order

namespace PolicyYaml

inductive HashWrite where
  | byte (b : UInt8)
  | word (w : Nat)
  | run (bytes : List UInt8)
  deriving DecidableEq

def Double.word (d : Double) : Nat := (if d.negative then 2048 * hiddenBit else 0) + d.rank

def Number.hashWrites (n : Number) : List HashWrite :=
  match n.toInt64? with
  | some i => [.byte 0, .word i.toUInt64.toNat]
  | none =>
    if n.toDouble.isNaN then [.byte 1] else [.byte 2, .word n.toDouble.word]

namespace Value

mutual

def hashWrites (v : Value) : List HashWrite :=
  .word v.kindRank ::
    match v with
    | .null | .undefined => []
    | .boolean b => [.byte (if b then 1 else 0)]
    | .number n => n.hashWrites
    | .string s => [.run (Text.bytes s), .byte 255]
    | .array items => .word items.length :: hashItems items
    | .object fields => .word fields.length :: hashFields fields
    | .set elements => .word elements.length :: hashItems elements

def hashItems : List Value → List HashWrite
  | [] => []
  | v :: rest => v.hashWrites ++ hashItems rest

def hashFields : List (Value × Value) → List HashWrite
  | [] => []
  | (k, v) :: rest => k.hashWrites ++ v.hashWrites ++ hashFields rest

end

end Value

end PolicyYaml
