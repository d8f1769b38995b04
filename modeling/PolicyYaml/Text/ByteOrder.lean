namespace PolicyYaml.Text

def bytes (s : String) : List UInt8 := s.toByteArray.data.toList

def compareBytes : String → String → Ordering := compareOn bytes

instance : Std.TransCmp compareBytes := inferInstanceAs (Std.TransCmp (compareOn bytes))

theorem bytes_injective {a b : String} (h : bytes a = bytes b) : a = b :=
  String.toByteArray_inj.mp (ByteArray.ext (Array.toList_inj.mp h))

theorem compareBytes_eq_iff {a b : String} : compareBytes a b = .eq ↔ a = b :=
  ⟨fun h => bytes_injective (Std.LawfulEqOrd.eq_of_compare h), fun h => h ▸ Std.ReflCmp.compare_self⟩

def compareNames {α : Type} (a b : String × α) : Ordering := compareBytes a.1 b.1

instance {α : Type} : Std.TransCmp (@compareNames α) :=
  inferInstanceAs (Std.TransCmp (compareOn fun e : String × α => bytes e.1))

end PolicyYaml.Text
