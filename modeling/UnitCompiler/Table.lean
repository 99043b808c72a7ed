import UnitCompiler.Kind

namespace UnitCompiler

/-- The index of a type in its arena. -/
abbrev TypeId := Nat

/-- What a table knows about one declared name. -/
structure Record where
  name : String
  ty : TypeId
  kind : Kind
  default : Option TypeId := none
  offset : Option UInt32 := none
deriving DecidableEq, Repr, Inhabited

/-- Declared names in the order of their declaration. -/
structure Table where
  records : List Record := []
deriving DecidableEq, Repr, Inhabited

/-- The name that a table refused. -/
structure DuplicateName where
  name : String
deriving DecidableEq, Repr

def DuplicateName.message (e : DuplicateName) : String :=
  s!"'{e.name}' is already declared"

namespace Table

def empty : Table := ⟨[]⟩

def size (t : Table) : Nat :=
  t.records.length

def isEmpty (t : Table) : Bool :=
  t.records.isEmpty

def names (t : Table) : List String :=
  t.records.map Record.name

def get? (t : Table) (name : String) : Option Record :=
  t.records.find? fun r => r.name == name

def contains (t : Table) (name : String) : Bool :=
  t.records.any fun r => r.name == name

def at? (t : Table) (i : Nat) : Option Record :=
  t.records[i]?

/-- Appends a record under a new name and gives its index. -/
def insert (t : Table) (r : Record) : Except DuplicateName (Nat × Table) :=
  if t.contains r.name then .error ⟨r.name⟩
  else .ok (t.size, ⟨t.records ++ [r]⟩)

/-- Places the records one after another, `word` bytes each. -/
def layOut (t : Table) (word : UInt32) : Table :=
  ⟨t.records.mapIdx fun k r => { r with offset := some (UInt32.ofNat k * word) }⟩

/-- The table of a list of records, where a record under a repeated name is left out. -/
def ofList (rs : List Record) : Table :=
  rs.foldl (fun t r => match t.insert r with
    | .ok (_, t') => t'
    | .error _ => t) empty

end Table

end UnitCompiler
