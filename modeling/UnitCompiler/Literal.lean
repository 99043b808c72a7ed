import UnitCompiler.Single.Reader
import UnitCompiler.Single.Text
import UnitCompiler.Text.Blank
import UnitCompiler.Text.Quoted

namespace UnitCompiler

/-- A compile-time constant. -/
inductive Literal where
  | int (value : Int32)
  | float (value : Single)
  | string (value : String)
  | null
deriving DecidableEq, Repr, Inhabited

namespace Literal

/-- A float is rounded, halves away from zero. A text is read as an integer or else as a number that
loses its fraction; what cannot be read is 0. -/
def toInt32 : Literal → Int32
  | .int v => v
  | .float x => x.round
  | .string s =>
    let cs := Text.trim s.toList
    match Text.readInt32? cs with
    | some v => v
    | none => match Single.read? cs with
      | some x => x.truncate
      | none => 0
  | .null => 0

def toSingle : Literal → Single
  | .int v => Single.ofInt v.toInt
  | .float x => x
  | .string s => (Single.read? (Text.trim s.toList)).getD Single.zero
  | .null => Single.zero

def toText : Literal → String
  | .int v => Text.integerText v.toInt
  | .float x => x.text
  | .string s => s
  | .null => ""

/-- The integer zero stands for the null reference too. -/
def denotesNull : Literal → Bool
  | .null => true
  | .int v => v == 0
  | _ => false

def text : Literal → String
  | .int v => Text.integerText v.toInt
  | .float x => x.text
  | .string s => Text.quoted s
  | .null => "Null"

/-- Equality of constants, where floats are compared as numbers. -/
def agrees : Literal → Literal → Bool
  | .int a, .int b => a == b
  | .float a, .float b => a.agrees b
  | .string a, .string b => a == b
  | .null, .null => true
  | _, _ => false

end Literal

end UnitCompiler
