import UnitCompiler.Arena
import UnitCompiler.Diagnostic

namespace UnitCompiler.Symbol

def struct (name : String) : String := "_t" ++ name

def global (name : String) : String := "_v" ++ name

def function (name : String) : String := "_f" ++ name

/-- The label with number `n` of a unit. -/
def generated (n : Nat) : String := "_" ++ String.ofList (Nat.toDigits 10 n)

/-- The label that a statement defines inside the function `func`. -/
def inFunction (func name : String) : String := func ++ "_l_" ++ name

def exit (func : String) : String := func ++ "_leave"

def intType : String := "__bbIntType"

def floatType : String := "__bbFltType"

def stringType : String := "__bbStrType"

def debugEnter : String := "__bbDebugEnter"

def debugLeave : String := "__bbDebugLeave"

def stringConst : String := "__bbStrConst"

def stringRelease : String := "__bbStrRelease"

def stringFromInt : String := "__bbStrFromInt"

def stringFromFloat : String := "__bbStrFromFloat"

def stringToInt : String := "__bbStrToInt"

def stringToFloat : String := "__bbStrToFloat"

def objectNew : String := "__bbObjNew"

def objectRelease : String := "__bbObjRelease"

def arrayAlloc : String := "__bbVecAlloc"

def arrayFree : String := "__bbVecFree"

/-- The label of the record that describes a type at run time. Functions and constants have none. -/
def descriptor (types : Arena) (id : TypeId) : Except Diagnostic String :=
  match types.get? id with
  | none => .error ⟨.nullType, s!"{TypeId.text id} does not exist", none, none⟩
  | some .int => .ok intType
  | some .float => .ok floatType
  | some .string => .ok stringType
  | some (.struct name _) => .ok (struct name)
  | some (.array label _ _) => .ok label
  | some t => .error (.unknownType s!"{t.text} has no runtime descriptor")

end UnitCompiler.Symbol
