namespace UnitCompiler

/-- The size in bytes of one storage word. -/
def wordSize : Nat := 4

/-- The set of flags that says what a declaration binds; bits without a name are kept. -/
structure Kind where
  bits : UInt32
deriving DecidableEq, Repr, Inhabited

namespace Kind

def global : Kind := ⟨1⟩

def localVar : Kind := ⟨2⟩

def param : Kind := ⟨4⟩

def field : Kind := ⟨8⟩

def const : Kind := ⟨16⟩

def func : Kind := ⟨32⟩

def struct : Kind := ⟨64⟩

def union (a b : Kind) : Kind := ⟨a.bits ||| b.bits⟩

/-- All flags of `f` are set in `k`. -/
def has (k f : Kind) : Bool :=
  k.bits &&& f.bits == f.bits

/-- Some flag of `f` is set in `k`. -/
def meets (k f : Kind) : Bool :=
  k.bits &&& f.bits != 0

/-- The flags of bindings that have a place to be stored in. -/
def storage : Kind :=
  global.union (localVar.union (param.union field))

/-- The binding occupies storage at run time. -/
def isStored (k : Kind) : Bool :=
  k.meets storage && !k.has const

def named : List (String × Kind) :=
  [("GLOBAL", global), ("LOCAL", localVar), ("PARAM", param), ("FIELD", field), ("CONST", const),
    ("FUNC", func), ("STRUCT", struct)]

def names (k : Kind) : List String :=
  (named.filter fun p => k.has p.2).map Prod.fst

end Kind

/-- The first word of a static record. -/
inductive RecordTag where
  | int
  | float
  | string
  | structType
  | arrayType
deriving DecidableEq, Repr

namespace RecordTag

def value : RecordTag → Int32
  | .int => 1
  | .float => 2
  | .string => 4
  | .structType => 5
  | .arrayType => 6

def ofValue? (v : Int32) : Option RecordTag :=
  [int, float, string, structType, arrayType].find? fun t => t.value == v

def name : RecordTag → String
  | .int => "Int"
  | .float => "Float"
  | .string => "String"
  | .structType => "StructType"
  | .arrayType => "VectorType"

end RecordTag

end UnitCompiler
