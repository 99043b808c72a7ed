import UnitCompiler.Table

namespace UnitCompiler

/-- A table that keeps the position of each name beside its records. -/
structure IndexedTable extends Table where
  positions : List (String × Nat) := []
deriving DecidableEq, Repr, Inhabited

namespace IndexedTable

def empty : IndexedTable := {}

def contains (t : IndexedTable) (name : String) : Bool :=
  (t.positions.lookup name).isSome

def get? (t : IndexedTable) (name : String) : Option Record :=
  (t.positions.lookup name).bind t.at?

/-- The position of the new record, and the table afterwards. -/
def insert (t : IndexedTable) (r : Record) : Except DuplicateName Nat × IndexedTable :=
  if t.contains r.name then (.error ⟨r.name⟩, t)
  else (.ok t.size, { records := t.records ++ [r], positions := (r.name, t.size) :: t.positions })

/-- Offsets are written into the records; positions stay. -/
def layOut (t : IndexedTable) (word : UInt32) : IndexedTable :=
  { t with toTable := t.toTable.layOut word }

end IndexedTable

end UnitCompiler
