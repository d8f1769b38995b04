/-!
Settings files as tables of items, with the rules by which lines may add to a table.
-/

namespace PolicyYaml.Toml

/-- How a table has come to be: by its header, as a step to a later header, as a step in a dotted key,
or in braces. -/
inductive TableKind where
  | header
  | implicit
  | dotted
  | inline
  deriving DecidableEq

inductive Item where
  | text (s : String)
  | boolean (b : Bool)
  | number (fits : Bool)
  | dateTime
  | array (items : List Item)
  | table (kind : TableKind) (entries : List (String × Item))
  | tables (items : List (List (String × Item)))

namespace Item

mutual

def fits : Item → Bool
  | .number fits => fits
  | .array items => allFit items
  | .table _ entries => entriesFit entries
  | .tables items => tablesFit items
  | .text _ | .boolean _ | .dateTime => true

def allFit : List Item → Bool
  | [] => true
  | item :: rest => item.fits && allFit rest

def entriesFit : List (String × Item) → Bool
  | [] => true
  | (_, item) :: rest => item.fits && entriesFit rest

def tablesFit : List (List (String × Item)) → Bool
  | [] => true
  | entries :: rest => entriesFit entries && tablesFit rest

end

end Item

structure Table where
  kind : TableKind
  entries : List (String × Item)

namespace Table

def get? (t : Table) (key : String) : Option Item := t.entries.lookup key

def put (t : Table) (key : String) (item : Item) : Table :=
  { t with entries := (key, item) :: t.entries.filter fun e => e.1 != key }

def toItem (t : Table) : Item := .table t.kind t.entries

/-- Changes the table at a path. Missing tables on the way are made, and a table in braces is never
entered. The steps of a dotted key enter no table that has a header. -/
def update (dotted : Bool) (f : Table → Option Table) : (path : List String) → Table → Option Table
  | [], t => f t
  | key :: path, t =>
    match t.get? key with
    | none =>
      (update dotted f path ⟨if dotted then .dotted else .implicit, []⟩).map fun inner =>
        t.put key inner.toItem
    | some (.table kind entries) =>
      if kind = .inline ∨ dotted ∧ kind = .header then none
      else (update dotted f path ⟨kind, entries⟩).map fun inner => t.put key inner.toItem
    | some (.tables (last :: others)) =>
      (update dotted f path ⟨.header, last⟩).map fun inner =>
        t.put key (.tables (inner.entries :: others))
    | some _ => none

def set (path : List String) (key : String) (item : Item) (t : Table) : Option Table :=
  t.update true
    (fun inner =>
      if decide (inner.kind = .dotted) == path.isEmpty || (inner.get? key).isSome then none
      else some (inner.put key item))
    path

def openTable (path : List String) (key : String) (t : Table) : Option Table :=
  t.update false
    (fun parent =>
      match parent.get? key with
      | none => some (parent.put key (.table .header []))
      | some (.table .implicit entries) => some (parent.put key (.table .header entries))
      | some _ => none)
    path

def openNext (path : List String) (key : String) (t : Table) : Option Table :=
  t.update false
    (fun parent =>
      match parent.get? key with
      | none => some (parent.put key (.tables [[]]))
      | some (.tables items) => some (parent.put key (.tables ([] :: items)))
      | some _ => none)
    path

def setIn (opened path : List String) (key : String) (item : Item) (t : Table) : Option Table :=
  t.update false (fun inner => inner.set path key item) opened

end Table

end PolicyYaml.Toml
