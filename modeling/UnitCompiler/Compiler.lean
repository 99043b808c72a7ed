import UnitCompiler.Decl.Check
import UnitCompiler.Decl.Emit
import UnitCompiler.Listing

namespace UnitCompiler

/-- A session and the last pass that was completed in it. -/
structure Compiler where
  session : Session := {}
  completed : Option Pass := none

/-- What a pass leaves of the compiler, the program and the backend. -/
structure Compiled (β : Type) where
  compiler : Compiler
  program : DeclList
  backend : β
  outcome : Except Diagnostic Unit

namespace Compiler

def log (c : Compiler) (e : Event) : Compiler :=
  { c with session := { c.session with events := c.session.events ++ [e] } }

/-- Runs a pass that works on the context and the program. -/
def visit {β : Type} (c : Compiler) (x : SessionM (Visited DeclList)) (b : β) : Compiled β :=
  let (visited, session) := x c.session
  ⟨{ c with session }, visited.node, b, visited.outcome⟩

/-- Runs a pass that emits, outside of any function. -/
def emit {β : Type} (c : Compiler) (x : PassM β Unit) (program : DeclList) (b : β) : Compiled β :=
  match x { c.session with backend := b } with
  | .ok () s => ⟨{ c with session := s.toSession }, program, s.backend, .ok ()⟩
  | .error d s => ⟨{ c with session := s.toSession }, program, s.backend, .error d⟩

def perform {β : Type} [Backend β] (c : Compiler) (pass : Pass) (program : DeclList) (b : β) :
    Compiled β :=
  match pass with
  | .register => c.visit (program.register Context.root (.scope Context.root)) b
  | .check => c.visit (program.check Context.root) b
  | .emit => c.emit program.emit program b
  | .emitData => c.emit program.emitData program b

/-- Only a pass that succeeded is complete. -/
def conclude {β : Type} (pass : Pass) (r : Compiled β) : Compiled β :=
  match r.outcome with
  | .ok () =>
    { r with compiler := { r.compiler.log (.passCompleted pass) with completed := some pass } }
  | .error d => { r with compiler := r.compiler.log (.passFailed pass d) }

def outOfOrder (pass : Pass) (completed : Option Pass) : Diagnostic :=
  let last := (completed.map Pass.name).getD "none"
  .internal s!"{pass.name} pass run out of order (last completed: {last})"

/-- Runs a pass over a program, if it is the next one. -/
def run {β : Type} [Backend β] (c : Compiler) (pass : Pass) (program : DeclList) (b : β) :
    Compiled β :=
  if c.completed = pass.prerequisite then
    conclude pass ((c.log (.passStarted pass program.length)).perform pass program b)
  else ⟨c, program, b, .error (outOfOrder pass c.completed)⟩

/-- Runs passes in order, up to the first that fails. -/
def runAll {β : Type} [Backend β] (c : Compiler) (program : DeclList) (b : β) :
    List Pass → Compiled β
  | [] => ⟨c, program, b, .ok ()⟩
  | pass :: rest =>
    let r := c.run pass program b
    match r.outcome with
    | .error _ => r
    | .ok () => runAll r.compiler r.program r.backend rest

/-- Compiles a program into a backend. -/
def compile {β : Type} [Backend β] (c : Compiler) (program : DeclList) (b : β) : Compiled β :=
  c.runAll program b [.register, .check, .emit, .emitData]

end Compiler

end UnitCompiler
