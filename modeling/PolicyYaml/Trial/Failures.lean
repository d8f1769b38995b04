import PolicyYaml.Trial.Case

namespace PolicyYaml

structure ArgumentTrial where
  builtin : String
  sample : List Value
  index : Nat
  param : String
  allowed : List String
  want : Option String
  withCounts : Bool
  numberAsInteger : Bool

namespace ArgumentTrial

def samples (numberAsInteger : Bool) : List (String × Value) :=
  [("array", .array [.number (.int 1), .number (.int 2), .number (.int 3)]),
    ("boolean", .boolean false),
    ("null", .null),
    (if numberAsInteger then "number[integer]" else "number", .number (.int 123)),
    ("object", Value.ofFields [(.string "a", .number (.int 1))]),
    ("set", Value.ofElements [.number (.int 0)]),
    ("string", .string "hello"),
    ("undefined", .undefined)]

def allowedText : List String → String
  | [only] => only
  | names => "any<" ++ ", ".intercalate (names.mergeSort fun a b => Text.compareBytes a b != .gt) ++ ">"

def plural (count : Nat) : String := if count = 1 then "" else "s"

def countCases (builtin : String) (sample : List Value) : List TrialCase :=
  let tooFew : TrialCase :=
    ⟨"wrong number of arguments (too few)", builtin, [], .error (.argumentCount 0 sample.length)⟩
  let got := sample.length + 1
  let tooMany : TrialCase :=
    ⟨s!"wrong number of arguments (too many) with {got} argument" ++ plural got, builtin,
      sample ++ [.null], .error (.argumentCount got sample.length)⟩
  if sample.isEmpty then [tooMany] else [tooFew, tooMany]

def typeCase (t : ArgumentTrial) (want : String) (typeName : String) (v : Value) : TrialCase :=
  ⟨t.param ++ " argument has incorrect type - " ++ typeName, t.builtin, t.sample.set t.index v,
    .error (.argumentType t.param typeName want)⟩

def typeCases (t : ArgumentTrial) : Option (List TrialCase) :=
  let want := t.want.getD (allowedText t.allowed)
  let refused := (samples t.numberAsInteger).filter fun s => !t.allowed.contains s.1
  if refused.isEmpty ∨ t.index < t.sample.length then
    some (refused.map fun s => t.typeCase want s.1 s.2)
  else none

def cases (t : ArgumentTrial) : Option (List TrialCase) :=
  t.typeCases.map fun types => (if t.withCounts then countCases t.builtin t.sample else []) ++ types

end ArgumentTrial

end PolicyYaml
