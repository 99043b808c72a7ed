import UnitCompiler.Diagnostic

namespace UnitCompiler

/-- The passes over a program, in the order in which they run. -/
inductive Pass where
  | register
  | check
  | emit
  | emitData
deriving DecidableEq, Repr

namespace Pass

def name : Pass → String
  | .register => "proto"
  | .check => "semant"
  | .emit => "translate"
  | .emitData => "transdata"

def rank : Pass → Nat
  | .register => 0
  | .check => 1
  | .emit => 2
  | .emitData => 3

/-- The pass that has to be complete before this one. -/
def prerequisite : Pass → Option Pass
  | .register => none
  | .check => some .register
  | .emit => some .check
  | .emitData => some .emit

end Pass

/-- A step of a compilation that is worth a line in its log. -/
inductive Event where
  | unitStarted (decls : Nat) (debug : Bool)
  | unitFailed (d : Diagnostic)
  | passStarted (pass : Pass) (decls : Nat)
  | passCompleted (pass : Pass)
  | passFailed (pass : Pass) (d : Diagnostic)
  | visited (pass : Pass) (index : Nat) (kind : String)
  | skipped (index : Nat)
  | declarationFailed (pass : Pass) (d : Diagnostic)
  | backendRefused (pass : Pass) (e : BackendError)
deriving DecidableEq, Repr

def Event.text : Event → String
  | .unitStarted decls debug => s!"DEBUG building unit decls={decls} debug={debug}"
  | .unitFailed d => s!"DEBUG unit failed diagnostic={d.text}"
  | .passStarted pass decls => s!"DEBUG starting pass pass={pass.name} decls={decls}"
  | .passCompleted pass => s!"DEBUG pass complete pass={pass.name}"
  | .passFailed pass d => s!"DEBUG pass failed pass={pass.name} diagnostic={d.text}"
  | .visited pass index kind => s!"TRACE {pass.name} index={index} kind={kind}"
  | .skipped index => s!"TRACE skipping empty declaration index={index}"
  | .declarationFailed pass d => s!"DEBUG declaration failed pass={pass.name} diagnostic={d.text}"
  | .backendRefused pass e => s!"DEBUG backend failure pass={pass.name} error={e.text}"

end UnitCompiler
