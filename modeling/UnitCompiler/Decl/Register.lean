import UnitCompiler.Decl.Basic
import UnitCompiler.Session

namespace UnitCompiler

namespace Variable

/-- The constant that a field starts with, as a literal of the type of the field. -/
def fieldLiteral (types : Arena) (declared : TypeId) (value : Value) : Except Diagnostic Literal :=
  match value.fold? with
  | none => .error (.invalidField "field initializer must be constant")
  | some v => match types.get? declared with
    | some .int => .ok (.int v.toInt32)
    | some .float => .ok (.float v.toSingle)
    | some .string => .ok (.string v.toText)
    | some (.struct _ _) =>
      if v.denotesNull then .ok .null else .error (.invalidField "struct field initializers must be null")
    | _ => .error (.invalidField "field type cannot have an initializer")

/-- The constant of a constant or of a parameter default. -/
def constLiteral (types : Arena) (declared : TypeId) (value : Value) : Except Diagnostic Literal :=
  match value.fold? with
  | none => .error .initializerNotConstant
  | some v => .ok (if types.isStruct declared then .null else v)

/-- The record of an initialized variable, and its value if that is computed at run time. Constants are
wrapped in a type of their own. -/
def initialized (v : Variable) (env : ScopeId) (declared : TypeId) (value : Value) :
    CheckM (Record × Option Value) := do
  let types := (← get).types
  if v.kind.has .field then
    let lit ← CheckM.ofExcept (fieldLiteral types declared value)
    let wrapped ← CheckM.change fun c => c.addType env (.const lit)
    pure ({ name := v.ident, ty := declared, kind := v.kind, default := some wrapped }, none)
  else if v.kind.has .const || v.kind.has .param then
    let lit ← CheckM.ofExcept (constLiteral types declared value)
    let wrapped ← CheckM.change fun c => c.addType env (.const lit)
    if v.kind.has .param then
      pure ({ name := v.ident, ty := declared, kind := v.kind, default := some wrapped }, none)
    else pure ({ name := v.ident, ty := wrapped, kind := v.kind }, none)
  else pure ({ name := v.ident, ty := declared, kind := v.kind }, some value)

/-- A variable that is registered already stays as it is. -/
def register (v : Variable) (env : ScopeId) (target : Target) : CheckM Variable :=
  if v.registration.isSome then pure v
  else do
    let c ← get
    let declared ← CheckM.ofExcept (c.declaredType v.tag env)
    match v.init with
    | none =>
      if v.kind.has .const then throw .uninitializedConstant
      else do
        CheckM.insert target { name := v.ident, ty := declared, kind := v.kind } "variable"
        pure { v with registration := some ⟨env, none⟩ }
    | some init =>
      let value ← CheckM.ofExcept (init.check c env)
      let value ← CheckM.ofExcept (value.cast c.types declared)
      let (r, kept) ← v.initialized env declared value
      CheckM.insertOrRelease c.types.mark target r "variable"
      pure { v with registration := some ⟨env, kept⟩ }

end Variable

namespace DataItem

def register (d : DataItem) (env : ScopeId) : CheckM DataItem := do
  let value ← CheckM.ofExcept (d.expr.check (← get) env)
  match value.fold? with
  | none => throw .dataNotConstant
  | some .null => throw .dataNull
  | some (.string s) =>
    let label ← CheckM.change Context.freshLabel
    pure { d with constant := some ⟨.string s, some label⟩ }
  | some lit => pure { d with constant := some ⟨lit, none⟩ }

end DataItem

namespace ArrayDecl

/-- A dimension `n` holds the indices from 0 to `n`. -/
def dimension (c : Context) (env : ScopeId) (e : Expr) : Except Diagnostic UInt32 := do
  let value ← e.check c env
  match value.fold? with
  | none => .error .sizeNotConstant
  | some lit =>
    if lit.toInt32 < 0 then .error (Diagnostic.negativeSize.located e.span)
    else .ok (lit.toInt32.toUInt32 + 1)

def register (v : ArrayDecl) (env : ScopeId) (target : Target) : CheckM ArrayDecl := do
  let c ← get
  let element ← CheckM.ofExcept (c.declaredType v.tag env)
  let sizes ← CheckM.ofExcept (v.dims.mapM (dimension c env))
  let label ← CheckM.change Context.freshLabel
  let ty ← CheckM.change fun c => c.addType env (.array label element sizes)
  CheckM.insertOrRelease c.types.mark target
    { name := v.ident, ty := ty, kind := v.kind } "identifier"
  pure { v with ty := some ty }

end ArrayDecl

namespace StructHead

/-- The fields follow when the struct is checked, so that they can refer to any struct. -/
def register (s : StructHead) (env : ScopeId) (target : Target) : CheckM StructHead := do
  let mark := (← get).types.mark
  let ty ← CheckM.change fun c => c.addType env (.struct s.ident .empty)
  CheckM.insertOrRelease mark target { name := s.ident, ty := ty, kind := .struct } "identifier"
  pure { s with ty := some ty }

end StructHead

namespace FunctionHead

/-- The type of the function, still without parameters. -/
def declareType (f : FunctionHead) (env : ScopeId) : CheckM TypeId := do
  let result ← CheckM.ofExcept ((← get).declaredType f.tag env)
  CheckM.change fun c => c.addType env (.function result .empty)

/-- Registers a function around the registration of its parameters, which gets the type whose table
they go into. -/
def register {ν : Type} (f : FunctionHead) (env : ScopeId) (target : Target) (params : ν)
    (runParams : TypeId → SessionM (Visited ν)) : SessionM (FunctionHead × Visited ν) := do
  let mark := (← get).context.types.mark
  match ← Session.attempt (f.declareType env) with
  | .error d => pure (f, ⟨params, .error d⟩)
  | .ok ty =>
    let visited ← runParams ty
    match visited.outcome with
    | .error d =>
      modify fun s => { s with context := s.context.release mark }
      pure (f, ⟨visited.node, .error d⟩)
    | .ok () =>
      match ← Session.attempt (CheckM.insertOrRelease mark target
          { name := f.ident, ty := ty, kind := .func } "identifier") with
      | .error d => pure (f, ⟨visited.node, .error d⟩)
      | .ok () => pure ({ f with ty := some ty }, ⟨visited.node, .ok ()⟩)

end FunctionHead

namespace DeclList

/-- Structs of the first list, everything else of the second. -/
def merge (structs others : DeclList) : DeclList :=
  List.zipWith (fun a b => if a.any Decl.isStruct then a else b) structs others

/-- Two sweeps over a sequence, the first for its structs, so that their names are known to the rest. -/
def inTwoSweeps (sweep : Bool → SessionM (Visited DeclList)) : SessionM (Visited DeclList) := do
  let first ← sweep true
  match first.outcome with
  | .error _ => pure first
  | .ok () =>
    let second ← sweep false
    pure ⟨merge first.node second.node, second.outcome⟩

/-- A diagnostic on its way out of a sequence. -/
def report (pass : Pass) (d : Decl) (e : Diagnostic) : SessionM Diagnostic := do
  Session.log (.declarationFailed pass (d.stamp e))
  pure (d.stamp e)

end DeclList

mutual

/-- Enters the name of a declaration into the target table, together with the types it needs. -/
def Decl.register (env : ScopeId) (target : Target) : Decl → SessionM (Visited Decl)
  | .var site v => Visited.leaf (.var site v) (.var site) (v.register env target)
  | .function site head params body => do
    let (head', visited) ← head.register env target params fun ty =>
      DeclList.inTwoSweeps fun structs => DeclList.sweep structs env (.params ty) 0 params
    pure ⟨.function site head' visited.node body, visited.outcome⟩
  | .struct site head fields =>
    Visited.leaf (.struct site head fields) (.struct site · fields) (head.register env target)
  | .data site d => Visited.leaf (.data site d) (.data site) (d.register env)
  | .array site v => Visited.leaf (.array site v) (.array site) (v.register env target)

/-- One sweep, over the structs or over everything else, from slot `index` on. -/
def DeclList.sweep (structs : Bool) (env : ScopeId) (target : Target) (index : Nat) :
    List (Option Decl) → SessionM (Visited (List (Option Decl)))
  | [] => pure ⟨[], .ok ()⟩
  | none :: rest => do
    let visited ← DeclList.sweep structs env target (index + 1) rest
    pure ⟨none :: visited.node, visited.outcome⟩
  | some d :: rest =>
    if d.isStruct = structs then do
      Session.log (.visited .register index d.noun)
      let here ← Decl.register env target d
      match here.outcome with
      | .error e =>
        let e ← DeclList.report .register d e
        pure ⟨some here.node :: rest, .error e⟩
      | .ok () =>
        let visited ← DeclList.sweep structs env target (index + 1) rest
        pure ⟨some here.node :: visited.node, visited.outcome⟩
    else do
      let visited ← DeclList.sweep structs env target (index + 1) rest
      pure ⟨some d :: visited.node, visited.outcome⟩

end

/-- Registers every declaration of a sequence, structs first. -/
def DeclList.register (env : ScopeId) (target : Target) (seq : DeclList) : SessionM (Visited DeclList) :=
  DeclList.inTwoSweeps fun structs => DeclList.sweep structs env target 0 seq

end UnitCompiler
