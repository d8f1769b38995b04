namespace PolicyYaml.Document

structure TagName where
  handle : List Char
  suffix : List UInt8
  deriving DecidableEq

inductive Token where
  | version (major minor : Nat)
  | tagDirective (handle : List Char) (start : List UInt8)
  | documentStart
  | documentEnd
  | blockSequenceStart
  | blockMappingStart
  | blockEnd
  | flowSequenceStart
  | flowSequenceEnd
  | flowMappingStart
  | flowMappingEnd
  | blockEntry
  | flowEntry
  | key
  | value
  | alias (name : List Char)
  | anchor (name : List Char)
  | tag (name : TagName)
  | scalar (plain : Bool) (content : List Char)
  deriving DecidableEq

end PolicyYaml.Document
