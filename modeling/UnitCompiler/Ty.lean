import UnitCompiler.Literal
import UnitCompiler.Table

namespace UnitCompiler

/-- A type; types refer to each other by their index in the arena. -/
inductive Ty where
  | int
  | float
  | string
  | struct (name : String) (fields : Table)
  | array (label : String) (element : TypeId) (sizes : List UInt32)
  | function (result : TypeId) (params : Table)
  | const (value : Literal)
deriving DecidableEq, Repr, Inhabited

def maxInt32 : Nat := 2147483647

/-- The product of the sizes, if no size and no product on the way leaves the 32-bit integers. -/
def capacity? (sizes : List UInt32) : Option Nat :=
  sizes.foldlM (fun acc n =>
    if n.toNat ≤ maxInt32 ∧ acc * n.toNat ≤ maxInt32 then some (acc * n.toNat) else none) 1

namespace Ty

def isPrimitive : Ty → Bool
  | .int | .float | .string => true
  | _ => false

def isStruct : Ty → Bool
  | .struct _ _ => true
  | _ => false

def isConst : Ty → Bool
  | .const _ => true
  | _ => false

def structName? : Ty → Option String
  | .struct name _ => some name
  | _ => none

def arrayLabel? : Ty → Option String
  | .array label _ _ => some label
  | _ => none

def result? : Ty → Option TypeId
  | .function result _ => some result
  | _ => none

def constant? : Ty → Option Literal
  | .const value => some value
  | _ => none

def text : Ty → String
  | .int => "Int"
  | .float => "Float"
  | .string => "String"
  | .struct name _ => name
  | .array label _ _ => s!"Vector({label})"
  | .function _ _ => "Function"
  | .const value => s!"Const({value.text})"

/-- Structural equality, where constants are compared as values. -/
def agrees : Ty → Ty → Bool
  | .const a, .const b => a.agrees b
  | a, b => a == b

end Ty

end UnitCompiler
