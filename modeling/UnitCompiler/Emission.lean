import UnitCompiler.Ir
import UnitCompiler.Text.Quoted

namespace UnitCompiler

/-- One item of the output. -/
inductive Emission where
  | align (bytes : Nat)
  | word (value : Int32) (label : Option String)
  | pointer (label : String)
  | string (value label : String)
  | label (name : String)
  | enter (label : String) (frameBytes : Nat)
  | leave (teardown : Option Ir) (argBytes : Nat)
  | code (tree : Ir)
deriving Repr, BEq, Inhabited

namespace Emission

/-- The label that the item defines. -/
def defines? : Emission → Option String
  | .word _ symbol => symbol
  | .string _ symbol => some symbol
  | .label symbol => some symbol
  | .enter symbol _ => some symbol
  | _ => none

def text : Emission → String
  | .align n => s!"\t.align {n}"
  | .word v (some symbol) => s!"{symbol}:\t.word {Text.integerText v.toInt}"
  | .word v none => s!"\t.word {Text.integerText v.toInt}"
  | .pointer symbol => s!"\t.ptr {symbol}"
  | .string value symbol => s!"{symbol}:\t.string {Text.quoted value}"
  | .label symbol => s!"{symbol}:"
  | .enter symbol size => s!"{symbol}:\tenter {size}"
  | .leave (some teardown) bytes => s!"\t{teardown.text}\n\tret {bytes}"
  | .leave none bytes => s!"\tret {bytes}"
  | .code tree => s!"\t{tree.text}"

end Emission

end UnitCompiler
