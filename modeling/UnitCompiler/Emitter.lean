import UnitCompiler.Backend
import UnitCompiler.Expr
import UnitCompiler.Frame
import UnitCompiler.Session

namespace UnitCompiler

/-- The state of the emitting passes. The frame is that of the function being emitted. -/
structure Emitter (β : Type) extends Session where
  backend : β
  frame : Option Frame := none

/-- A computation that emits. What was emitted before a failure stays emitted. -/
abbrev EmitM (β : Type) := EStateM EmitError (Emitter β)

/-- A computation that emits and reports every failure as a diagnostic. -/
abbrev PassM (β : Type) := EStateM Diagnostic (Emitter β)

namespace Emitter

def fail {β α : Type} (d : Diagnostic) : EmitM β α :=
  throw (.diagnostic d)

def ofExcept {β α : Type} (x : Except Diagnostic α) : EmitM β α :=
  match x with
  | .ok a => pure a
  | .error d => fail d

def log {β : Type} (e : Event) : PassM β Unit :=
  modify fun s => { s with events := s.events ++ [e] }

def send {β : Type} [Backend β] (e : Emission) : EmitM β Unit := fun s =>
  match Backend.accept s.backend e with
  | (.ok (), b) => .ok () { s with backend := b }
  | (.error err, b) => .error (.backend err) { s with backend := b }

def sendAll {β : Type} [Backend β] : List Emission → EmitM β Unit
  | [] => pure ()
  | e :: es => do
    send e
    sendAll es

def freshLabel {β : Type} : EmitM β String := fun s =>
  .ok s.context.freshLabel.1 { s with context := s.context.freshLabel.2 }

/-- Runs `x` inside a frame; the outer one is back afterwards, whatever happens. -/
def withFrame {β : Type} (frame : Frame) (x : EmitM β Unit) : EmitM β Unit := fun s =>
  match x { s with frame := some frame } with
  | .ok a s' => .ok a { s' with frame := s.frame }
  | .error e s' => .error e { s' with frame := s.frame }

/-- Where the variable that a name denotes is stored. -/
def location (c : Context) (frame : Option Frame) (env : ScopeId) (name : String) :
    Except Diagnostic Ir :=
  match c.lookup env name with
  | none => .error (.internal s!"variable '{name}' vanished")
  | some (owner, r) =>
    if r.kind.has .global then .ok (.wordAt (Symbol.global name))
    else if r.kind.meets (Kind.union .localVar .param) then
      match frame.bind fun f => f.offset? owner name with
      | some offset => .ok (.slot offset)
      | none => .error (.internal s!"variable '{name}' has no frame slot")
    else .error (.internal s!"'{name}' has no storage")

def locate {β : Type} (env : ScopeId) (name : String) : EmitM β Ir := do
  let s ← get
  ofExcept (location s.context s.frame env name)

/-- Emits the text under a new label and gives the code that makes a value of it. -/
def loadString {β : Type} [Backend β] (value : String) : EmitM β Ir := do
  let label ← freshLabel
  send (.string value label)
  pure (.call Symbol.stringConst [.global label])

end Emitter

namespace Value

/-- The code that converts a value between two types. -/
def conversion (source target : TypeId) (value : Ir) : Ir :=
  if source = TypeId.int ∧ target = TypeId.float then .intToFloat value
  else if source = TypeId.float ∧ target = TypeId.int then .floatToInt value
  else if source = TypeId.int ∧ target = TypeId.string then .call Symbol.stringFromInt [value]
  else if source = TypeId.float ∧ target = TypeId.string then .call Symbol.stringFromFloat [value]
  else if source = TypeId.string ∧ target = TypeId.int then .call Symbol.stringToInt [value]
  else if source = TypeId.string ∧ target = TypeId.float then .call Symbol.stringToFloat [value]
  else value

/-- The code that computes a value. -/
def emit {β : Type} [Backend β] : Value → EmitM β Ir
  | .const (.int v) _ => pure (.const v)
  | .const (.float x) _ => pure (.const x.bits.toInt32)
  | .const (.string s) _ => Emitter.loadString s
  | .const .null _ => pure (.const 0)
  | .var env name _ => Emitter.locate env name
  | .new _ label => pure (.call Symbol.objectNew [.global label])
  | .converted inner source target => do
    let value ← emit inner
    pure (conversion source target value)

end Value

end UnitCompiler
