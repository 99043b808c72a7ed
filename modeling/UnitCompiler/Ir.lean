import UnitCompiler.Text.Integer

namespace UnitCompiler

/-- An expression tree handed to the backend. -/
inductive Ir where
  | const (value : Int32)
  | slot (offset : Int)
  | global (label : String)
  | mem (addr : Ir)
  | framePointer
  | store (target value : Ir)
  | call (name : String) (args : List Ir)
  | intToFloat (value : Ir)
  | floatToInt (value : Ir)
  | jump (label : String)
  | seq (nodes : List Ir)
deriving Repr, BEq, Inhabited

namespace Ir

/-- The word stored at a label. -/
def wordAt (label : String) : Ir := .mem (.global label)

/-- A sequence node only where there are two nodes or more. -/
def ofList : List Ir → Option Ir
  | [] => none
  | [node] => some node
  | nodes => some (.seq nodes)

def isSeq : Ir → Bool
  | .seq _ => true
  | _ => false

/-- An offset always shows its sign. -/
def offsetText (offset : Int) : String :=
  if 0 ≤ offset then "+" ++ Text.integerText offset else Text.integerText offset

mutual

def text : Ir → String
  | .const v => Text.integerText v.toInt
  | .slot offset => s!"[fp{offsetText offset}]"
  | .global label => label
  | .mem addr => s!"[{text addr}]"
  | .framePointer => "fp"
  | .store target value => s!"{text target} := {text value}"
  | .call name args => name ++ "(" ++ String.intercalate ", " (texts args) ++ ")"
  | .intToFloat value => s!"float({text value})"
  | .floatToInt value => s!"int({text value})"
  | .jump label => s!"jmp {label}"
  | .seq nodes => String.intercalate "; " (texts nodes)

def texts : List Ir → List String
  | [] => []
  | node :: rest => text node :: texts rest

end

end Ir

end UnitCompiler
