import UnitCompiler.Diagnostic
import UnitCompiler.Table

namespace UnitCompiler

/-- The index of a scope in its context. -/
abbrev ScopeId := Nat

def ScopeId.text (env : ScopeId) : String :=
  s!"env_{env}"

inductive ScopeKind where
  | unit
  | function
  | block
deriving DecidableEq, Repr

def ScopeKind.name : ScopeKind → String
  | .unit => "Unit"
  | .function => "Function"
  | .block => "Block"

/-- A statement label of a function: where it is defined, and where it is first jumped to. -/
structure JumpLabel where
  name : String
  defined : Option Span := none
  referenced : Option Span := none
deriving DecidableEq, Repr

/-- Changes the entry under `name`, which is added at the end if it is not there yet. -/
def JumpLabel.update (name : String) (f : JumpLabel → JumpLabel) : List JumpLabel → List JumpLabel
  | [] => [f ⟨name, none, none⟩]
  | l :: ls => if l.name = name then f l :: ls else l :: update name f ls

structure Scope where
  kind : ScopeKind
  parent : Option ScopeId
  symbol : String
  result : Option TypeId
  decls : Table := .empty
  children : List ScopeId := []
  types : List TypeId := []
  labels : List JumpLabel := []
deriving DecidableEq, Repr

namespace Scope

/-- The outermost scope of a unit. -/
def unit : Scope where
  kind := .unit
  parent := none
  symbol := "_main"
  result := none

def dangling (s : Scope) : List JumpLabel :=
  s.labels.filter fun l => l.defined.isNone

end Scope

end UnitCompiler
