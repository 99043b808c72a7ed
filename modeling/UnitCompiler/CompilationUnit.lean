import UnitCompiler.Compiler

namespace UnitCompiler

structure UnitOptions where
  debug : Bool := false
  defaultFile : Option String := none
deriving DecidableEq, Repr

inductive UnitState where
  | collecting (program : DeclList)
  | built (context : Context)
  | failed

/-- Declarations that are compiled together, once. -/
structure CompilationUnit where
  options : UnitOptions := {}
  state : UnitState := .collecting []

/-- Why a unit is closed to further declarations and builds. -/
inductive UnitError where
  | alreadyBuilt
  | failed
deriving DecidableEq, Repr

def UnitError.message : UnitError → String
  | .alreadyBuilt => "unit has already been built"
  | .failed => "unit failed to build and was released"

inductive BuildError where
  | closed (e : UnitError)
  | compilation (d : Diagnostic)
deriving DecidableEq, Repr

namespace BuildError

def message : BuildError → String
  | .closed e => e.message
  | .compilation d => d.text

def diagnostic? : BuildError → Option Diagnostic
  | .closed _ => none
  | .compilation d => some d

end BuildError

/-- What a build leaves, with the log of it. -/
structure Build (β : Type) where
  unit : CompilationUnit
  backend : β
  outcome : Except BuildError Unit
  events : List Event

namespace CompilationUnit

def add (u : CompilationUnit) (d : Decl) : Except UnitError CompilationUnit :=
  match u.state with
  | .collecting program => .ok { u with state := .collecting (program ++ [some d]) }
  | .built _ => .error .alreadyBuilt
  | .failed => .error .failed

def size (u : CompilationUnit) : Nat :=
  match u.state with
  | .collecting program => program.length
  | _ => 0

def isBuilt (u : CompilationUnit) : Bool :=
  match u.state with
  | .built _ => true
  | _ => false

def context? (u : CompilationUnit) : Option Context :=
  match u.state with
  | .built c => some c
  | _ => none

/-- Compiles the declarations into a backend. A failed unit forgets them. -/
def compileInto {β : Type} [Backend β] (u : CompilationUnit) (b : β) : Build β :=
  match u.state with
  | .built _ => ⟨u, b, .error (.closed .alreadyBuilt), []⟩
  | .failed => ⟨u, b, .error (.closed .failed), []⟩
  | .collecting program =>
    let started : Event := .unitStarted program.length (Backend.debug b)
    let r := ({ session := { events := [started] } } : Compiler).compile program b
    let session := r.compiler.session
    match r.outcome with
    | .ok () => ⟨{ u with state := .built session.context }, r.backend, .ok (), session.events⟩
    | .error d =>
      let d := d.withFile u.options.defaultFile
      ⟨{ u with state := .failed }, r.backend, .error (.compilation d),
        session.events ++ [.unitFailed d]⟩

/-- Compiles the declarations into a listing. -/
def build (u : CompilationUnit) : Build Listing :=
  u.compileInto (.empty u.options.debug)

end CompilationUnit

end UnitCompiler
