import PolicyYaml.Error
import PolicyYaml.Value.Basic

namespace PolicyYaml

inductive Event where
  | documentRejected (error : CodecError)
  | hostNameSkipped (name : String)
  | hostNameShadowed (name : String)
  | tablesMerged (host extension shadowed total : Nat)
  | registryReady (builtins : Nat) (strict : Bool) (disabled : Nat)
  | invoked (name : String) (args : List Value)
  | unknownIgnored (name : String)
  | failed (name : String) (error : BuiltinError)
  | failureIgnored (name : String)

namespace Event

def isTrace : Event → Bool
  | .documentRejected _ | .invoked _ _ => true
  | _ => false

def message : Event → String
  | .documentRejected _ => "yaml document rejected"
  | .hostNameSkipped _ => "host lists a builtin it cannot resolve; skipped"
  | .hostNameShadowed _ => "extension builtin shadows host builtin"
  | .tablesMerged _ _ _ _ => "builtin tables merged"
  | .registryReady _ _ _ => "builtin registry ready"
  | .invoked _ _ => "invoking builtin"
  | .unknownIgnored _ => "unknown builtin evaluates to undefined"
  | .failed _ _ => "builtin failed"
  | .failureIgnored _ => "non-strict call evaluates to undefined"

end Event

structure Journaled (α : Type) where
  events : List Event
  result : α
  deriving Inhabited

namespace Journaled

def note (e : Event) : Journaled Unit := ⟨[e], ()⟩

instance : Monad Journaled where
  pure a := ⟨[], a⟩
  bind x f := ⟨x.events ++ (f x.result).events, (f x.result).result⟩

@[simp]
theorem result_pure {α : Type} (a : α) : (pure a : Journaled α).result = a := rfl

@[simp]
theorem events_pure {α : Type} (a : α) : (pure a : Journaled α).events = [] := rfl

@[simp]
theorem result_bind {α β : Type} (x : Journaled α) (f : α → Journaled β) :
    (x >>= f).result = (f x.result).result := rfl

@[simp]
theorem events_bind {α β : Type} (x : Journaled α) (f : α → Journaled β) :
    (x >>= f).events = x.events ++ (f x.result).events := rfl

end Journaled

end PolicyYaml
