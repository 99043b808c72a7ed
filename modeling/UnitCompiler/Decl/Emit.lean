import UnitCompiler.Decl.Basic
import UnitCompiler.Emitter

namespace UnitCompiler

open Emitter

namespace Variable

/-- A global has a word of its own. -/
def storage (v : Variable) : List Emission :=
  if v.kind.has .global then [.align wordSize, .word 0 (some (Symbol.global v.ident))] else []

/-- A value computed at run time is stored into the variable. -/
def emit {β : Type} [Backend β] (v : Variable) : EmitM β Unit := do
  sendAll v.storage
  match v.registration with
  | some ⟨env, some init⟩ =>
    let value ← init.emit
    let target ← locate env v.ident
    send (.code (.store target value))
  | _ => pure ()

end Variable

namespace DataItem

def record {β : Type} (d : DataItem) : EmitM β DataConst :=
  match d.constant with
  | some f => pure f
  | none => fail (.unregistered "data")

/-- The payload of a text. -/
def emit {β : Type} [Backend β] (d : DataItem) : EmitM β Unit := do
  match ← d.record with
  | ⟨.string s, some label⟩ => send (.string s label)
  | _ => pure ()

/-- The record of a constant in the data segment: a tag, then the value or a pointer to the payload. -/
def emitData {β : Type} [Backend β] (d : DataItem) : EmitM β Unit := do
  match ← d.record with
  | ⟨.int v, _⟩ => sendAll [.word RecordTag.int.value none, .word v none]
  | ⟨.float x, _⟩ => sendAll [.word RecordTag.float.value none, .word x.bits.toInt32 none]
  | ⟨.string _, some label⟩ => sendAll [.word RecordTag.string.value none, .pointer label]
  | _ => fail (.internal "data record without payload")

end DataItem

namespace ArrayDecl

/-- A global array has a word of its own. -/
def storage (v : ArrayDecl) : List Emission :=
  if v.kind.has .global then [.word 0 (some (Symbol.global v.ident))] else []

/-- The descriptor of the array type: its tag, its capacity and the type of its elements. -/
def emit {β : Type} [Backend β] (v : ArrayDecl) : EmitM β Unit := do
  let types := (← get).context.types
  match v.ty with
  | none => fail (.unregistered s!"array '{v.ident}'")
  | some ty =>
    match types.get? ty with
    | some (.array label element sizes) =>
      match capacity? sizes with
      | none => fail .capacityOverflow
      | some capacity => do
        let element ← ofExcept (Symbol.descriptor types element)
        sendAll ([.align wordSize, .word RecordTag.arrayType.value (some label),
          .word (Int32.ofNat capacity) none, .pointer element] ++ v.storage)
    | _ => fail (.released "array")

end ArrayDecl

namespace StructHead

/-- The descriptor label of a field's type. -/
def fieldDescriptor (types : Arena) (r : Record) : Except Diagnostic String :=
  (Symbol.descriptor types r.ty).mapError fun d =>
    { d with message := s!"field '{r.name}': {d.message}" }

/-- The sentinel of an empty list of objects points to itself both ways. -/
def listHead (label : String) : List Emission :=
  [.word 0 (some label), .pointer label, .pointer label, .word 0 none, .word (-1) none]

/-- The type descriptor: the heads of two object lists, the number of fields, then the field types
twice, for the layout and for the initial values. -/
def emit {β : Type} [Backend β] (s : StructHead) : EmitM β Unit := do
  let c := (← get).context
  match s.ty with
  | none => fail (.unregistered s!"struct '{s.ident}'")
  | some ty =>
    match c.table? (.fields ty) with
    | none => fail (.released "struct")
    | some fields =>
      let descriptors ← ofExcept (fields.records.mapM (fieldDescriptor c.types))
      let used ← freshLabel
      let free ← freshLabel
      let pointers := descriptors.map Emission.pointer
      sendAll ([.align wordSize, .word RecordTag.structType.value (some (Symbol.struct s.ident))] ++
        listHead used ++ listHead free ++ [.word (Int32.ofNat descriptors.length) none] ++
        pointers ++ pointers)

end StructHead

namespace FunctionHead

/-- The first label that is jumped to and never defined, as a diagnostic at the jump. -/
def undefinedLabel? (c : Context) (env : ScopeId) : Option Diagnostic :=
  (c.scope env).dangling.head?.map fun l =>
    let d := Diagnostic.labelUndefined l.name
    match l.referenced with
    | some pos => d.located pos
    | none => d

/-- Tells the debugger, if there is one, which function is entered. -/
def emitDebugEnter {β : Type} [Backend β] (f : FunctionHead) (env : ScopeId) : EmitM β Unit := do
  if Backend.debug (← get).backend then do
    let name ← freshLabel
    sendAll [.string f.ident name,
      .code (.call Symbol.debugEnter [.framePointer, .const (Int32.ofNat env), .global name])]
  else pure ()

/-- The code that runs on the way out of a function. -/
def leaveCode (frame : Frame) (types : Arena) (debug : Bool) : Option Ir :=
  if debug then Ir.ofList (.call Symbol.debugLeave [] :: (frame.exitCode types).toList)
  else frame.exitCode types

/-- The end of a function, once every label that it jumps to is defined. -/
def emitLeave {β : Type} [Backend β] (env : ScopeId) (frame : Frame) : EmitM β Unit := do
  let c := (← get).context
  match undefinedLabel? c env with
  | some d => fail d
  | none => do
    send (.label (c.exitSymbol env))
    let debug := Backend.debug (← get).backend
    send (.leave (leaveCode frame c.types debug) frame.argBytes)

/-- The start of a function: its entry point, the initial values of its variables and the debugger's call. -/
def emitEnter {β : Type} [Backend β] (f : FunctionHead) (env : ScopeId) (frame : Frame) :
    EmitM β Unit := do
  let c := (← get).context
  send (.enter (Symbol.function f.ident) frame.size)
  sendAll ((frame.entryCode c.types).toList.map Emission.code)
  f.emitDebugEnter env

/-- A function around its statements, which `runBody` emits. -/
def emit {β : Type} [Backend β] (f : FunctionHead) (runBody : EmitM β Unit) : EmitM β Unit := do
  let c := (← get).context
  match f.env with
  | none => fail (.unregistered s!"function '{f.ident}'")
  | some env => do
    let frame := Frame.layout c env
    f.emitEnter env frame
    withFrame frame runBody
    emitLeave env frame

end FunctionHead

/-- How an error leaves a sequence of declarations: a diagnostic takes position and file of the
declaration, and a refusal of the backend becomes one plain diagnostic. -/
def DeclList.guarded {β : Type} (pass : Pass) (d : Decl) (x : EmitM β Unit) :
    PassM β Unit := fun s =>
  match x s with
  | .ok () s' => .ok () s'
  | .error (.diagnostic e) s' =>
    .error (d.stamp e)
      { s' with events := s'.events ++ [.declarationFailed pass (d.stamp e)] }
  | .error (.backend e) s' =>
    .error .backendFailed { s' with events := s'.events ++ [.backendRefused pass e] }

mutual

/-- Emits the static records and the code of a declaration. -/
def Decl.emit {β : Type} [Backend β] : Decl → EmitM β Unit
  | .var _ v => v.emit
  | .function _ head _ body => head.emit (Stmt.emitAll body)
  | .struct _ head fields => do
    EStateM.adaptExcept EmitError.diagnostic (DeclList.emitFrom 0 fields)
    head.emit
  | .data _ d => d.emit
  | .array _ v => v.emit

/-- Emits the declarations of a sequence from slot `index` on. -/
def DeclList.emitFrom {β : Type} [Backend β] (index : Nat) :
    List (Option Decl) → PassM β Unit
  | [] => pure ()
  | none :: rest => do
    Emitter.log (.skipped index)
    DeclList.emitFrom (index + 1) rest
  | some d :: rest => do
    Emitter.log (.visited .emit index d.noun)
    DeclList.guarded .emit d (Decl.emit d)
    DeclList.emitFrom (index + 1) rest

def Stmt.emit {β : Type} [Backend β] : Stmt → EmitM β Unit
  | .declare d => EStateM.adaptExcept (EmitError.mapDiagnostic d.stamp) (Decl.emit d)
  | .block body _ => Stmt.emitAll body
  | .goto label _ env =>
    match env with
    | none => fail (.unchecked "goto")
    | some env => do
      let c := (← get).context
      send (.code (.jump (c.jumpSymbol env label)))
  | .label name _ env =>
    match env with
    | none => fail (.unchecked "label")
    | some env => do
      let c := (← get).context
      send (.label (c.jumpSymbol env name))
  | .eval _ checked =>
    match checked with
    | none => fail (.unchecked "expression")
    | some value => do
      let code ← value.emit
      send (.code code)

/-- Emits statements in order; a diagnostic without a position takes that of its statement. -/
def Stmt.emitAll {β : Type} [Backend β] : List Stmt → EmitM β Unit
  | [] => pure ()
  | stmt :: rest => do
    EStateM.adaptExcept (EmitError.mapDiagnostic fun d => d.withPosition stmt.span) (Stmt.emit stmt)
    Stmt.emitAll rest

end

def DeclList.emit {β : Type} [Backend β] (seq : DeclList) : PassM β Unit :=
  DeclList.emitFrom 0 seq

/-- Only data declarations have a record in the data segment. -/
def Decl.emitData {β : Type} [Backend β] : Decl → EmitM β Unit
  | .data _ d => d.emitData
  | _ => pure ()

def DeclList.emitData {β : Type} [Backend β] : DeclList → PassM β Unit
  | [] => pure ()
  | none :: rest => DeclList.emitData rest
  | some d :: rest => do
    DeclList.guarded .emitData d d.emitData
    DeclList.emitData rest

end UnitCompiler
