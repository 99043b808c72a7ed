namespace UnitCompiler

structure Span where
  line : Nat := 0
  col : Nat := 0
deriving DecidableEq, Repr, Inhabited

def Span.text (s : Span) : String :=
  s!"{s.line}:{s.col}"

inductive DiagnosticKind where
  | duplicateIdentifier
  | undefinedLabel
  | notConstant
  | invalidFieldInitializer
  | unknownType
  | unknownIdentifier
  | nullType
  | typeMismatch
  | invalidArraySize
  | backendFailed
  | internal
deriving DecidableEq, Repr

def DiagnosticKind.text : DiagnosticKind → String
  | .duplicateIdentifier => "duplicate identifier"
  | .undefinedLabel => "undefined label"
  | .notConstant => "not constant"
  | .invalidFieldInitializer => "invalid field initializer"
  | .unknownType => "unknown type"
  | .unknownIdentifier => "unknown identifier"
  | .nullType => "null type"
  | .typeMismatch => "type mismatch"
  | .invalidArraySize => "invalid array size"
  | .backendFailed => "translation failed"
  | .internal => "internal error"

/-- A compile error. Position and file are filled in on the way out and never overwritten by an
enclosing declaration. -/
structure Diagnostic where
  kind : DiagnosticKind
  message : String
  pos : Option Span := none
  file : Option String := none
deriving DecidableEq, Repr

namespace Diagnostic

def located (d : Diagnostic) (pos : Span) : Diagnostic :=
  { d with pos := some pos }

def withPosition (d : Diagnostic) (pos : Span) : Diagnostic :=
  { d with pos := d.pos.or (some pos) }

def withFile (d : Diagnostic) (file : Option String) : Diagnostic :=
  { d with file := d.file.or file }

def location (d : Diagnostic) : String :=
  match d.file, d.pos with
  | some file, some pos => s!"{file}:{pos.text}: "
  | some file, none => s!"{file}: "
  | none, some pos => s!"at {pos.text}: "
  | none, none => ""

def text (d : Diagnostic) : String :=
  s!"{d.location}{d.kind.text}: {d.message}"

def duplicate (what name : String) : Diagnostic :=
  ⟨.duplicateIdentifier, s!"duplicate {what} '{name}'", none, none⟩

def notConstant (message : String) : Diagnostic :=
  ⟨.notConstant, message, none, none⟩

def unknownType (message : String) : Diagnostic :=
  ⟨.unknownType, message, none, none⟩

def typeMismatch (message : String) : Diagnostic :=
  ⟨.typeMismatch, message, none, none⟩

def internal (message : String) : Diagnostic :=
  ⟨.internal, message, none, none⟩

/-- What every refusal of the backend is reported as. -/
def backendFailed : Diagnostic :=
  ⟨.backendFailed, "translation failed", none, none⟩

def typeNotFound (name : String) : Diagnostic :=
  unknownType s!"type '{name}' not found"

def nameNotFound (name : String) : Diagnostic :=
  ⟨.unknownIdentifier, s!"identifier '{name}' not found", none, none⟩

def notVariable (name : String) : Diagnostic :=
  typeMismatch s!"'{name}' is not a variable"

def cannotConvert (source target : String) : Diagnostic :=
  typeMismatch s!"cannot convert {source} to {target}"

def uninitializedConstant : Diagnostic :=
  notConstant "constants must be initialized"

def initializerNotConstant : Diagnostic :=
  notConstant "expression must be constant"

def invalidField (message : String) : Diagnostic :=
  ⟨.invalidFieldInitializer, message, none, none⟩

def sizeNotConstant : Diagnostic :=
  notConstant "array sizes must be constant"

def negativeSize : Diagnostic :=
  ⟨.invalidArraySize, "array sizes must not be negative", none, none⟩

def capacityOverflow : Diagnostic :=
  ⟨.invalidArraySize, "array capacity overflows", none, none⟩

def dataNotConstant : Diagnostic :=
  notConstant "data expression must be constant"

def dataNull : Diagnostic :=
  typeMismatch "data must be an integer, float or string"

def labelUndefined (name : String) : Diagnostic :=
  ⟨.undefinedLabel, s!"label '{name}' is never defined", none, none⟩

/-- A declaration reached a later pass without its registration. -/
def unregistered (what : String) : Diagnostic :=
  internal s!"{what} used before proto"

/-- A statement reached the emitting pass unchecked. -/
def unchecked (what : String) : Diagnostic :=
  internal s!"{what} translated before semant"

/-- A registration type is gone from the arena. -/
def released (what : String) : Diagnostic :=
  ⟨.nullType, s!"{what} type released", none, none⟩

end Diagnostic

/-- A refusal of the backend. -/
inductive BackendError where
  | labelRedefined (label : String)
  | unbalancedFrame (reason : String)
  | other (reason : String)
deriving DecidableEq, Repr

def BackendError.text : BackendError → String
  | .labelRedefined label => s!"label '{label}' defined twice"
  | .unbalancedFrame reason => s!"unbalanced function frame: {reason}"
  | .other reason => reason

/-- A failure of the emitting passes. -/
inductive EmitError where
  | diagnostic (d : Diagnostic)
  | backend (e : BackendError)
deriving DecidableEq, Repr

namespace EmitError

def text : EmitError → String
  | .diagnostic d => d.text
  | .backend e => s!"codegen failure: {e.text}"

/-- A refusal of the backend loses its cause and has no position. -/
def toDiagnostic : EmitError → Diagnostic
  | .diagnostic d => d
  | .backend _ => Diagnostic.backendFailed

def mapDiagnostic (f : Diagnostic → Diagnostic) : EmitError → EmitError
  | .diagnostic d => .diagnostic (f d)
  | .backend e => .backend e

end EmitError

end UnitCompiler
