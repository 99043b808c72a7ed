import UnitCompiler.Ty

namespace UnitCompiler

namespace TypeId

def text (id : TypeId) : String :=
  s!"type_{id}"

def int : TypeId := 0

def float : TypeId := 1

def string : TypeId := 2

def null : TypeId := 3

def ofLiteral : Literal → TypeId
  | .int _ => int
  | .float _ => float
  | .string _ => string
  | .null => null

end TypeId

/-- The types of a unit, each addressed by its index. -/
structure Arena where
  types : List Ty
deriving DecidableEq, Repr

namespace Arena

/-- Four types are there from the start. -/
def builtin : List Ty :=
  [.int, .float, .string, .struct "Null" .empty]

def initial : Arena := ⟨builtin⟩

def size (a : Arena) : Nat :=
  a.types.length

/-- Nothing was added to the four built-in types. -/
def isEmpty (a : Arena) : Bool :=
  a.size == builtin.length

def get? (a : Arena) (id : TypeId) : Option Ty :=
  a.types[id]?

def add (a : Arena) (t : Ty) : TypeId × Arena :=
  (a.size, ⟨a.types ++ [t]⟩)

def set (a : Arena) (id : TypeId) (t : Ty) : Arena :=
  ⟨a.types.set id t⟩

/-- The index of the next type, to which the arena can be cut back. -/
def mark (a : Arena) : Nat :=
  a.size

/-- The type was added at or after the mark. -/
def isFrom (id : TypeId) (mark : Nat) : Bool :=
  decide (mark ≤ id)

/-- Forgets the types from `mark` on, the built-in ones apart. -/
def truncate (a : Arena) (mark : Nat) : Arena :=
  ⟨a.types.take (max mark builtin.length)⟩

/-- Two constants of equal value are the same type. -/
def same (a : Arena) (x y : TypeId) : Bool :=
  x == y || match a.get? x, a.get? y with
    | some (.const u), some (.const v) => u.agrees v
    | _, _ => false

/-- The type of the values of a type: that of the literal for a constant. -/
def underlying (a : Arena) (id : TypeId) : TypeId :=
  match a.get? id with
  | some (.const v) => TypeId.ofLiteral v
  | _ => id

def isStruct (a : Arena) (id : TypeId) : Bool :=
  (a.get? id).any Ty.isStruct

def isConst (a : Arena) (id : TypeId) : Bool :=
  (a.get? id).any Ty.isConst

def isPrimitive (a : Arena) (id : TypeId) : Bool :=
  (a.get? id).any Ty.isPrimitive

def name (a : Arena) (id : TypeId) : String :=
  match a.get? id with
  | some t => t.text
  | none => s!"<missing {TypeId.text id}>"

end Arena

end UnitCompiler
