import UnitCompiler.Context

namespace UnitCompiler

inductive Expr where
  | literal (value : Literal) (span : Span)
  | name (ident : String) (span : Span)
  | new (typeName : String) (span : Span)
deriving DecidableEq, Repr, Inhabited

def Expr.span : Expr → Span
  | .literal _ span => span
  | .name _ span => span
  | .new _ span => span

/-- A checked expression: names are resolved and conversions are explicit. -/
inductive Value where
  | const (value : Literal) (ty : TypeId)
  | var (env : ScopeId) (name : String) (ty : TypeId)
  | new (ty : TypeId) (label : String)
  | converted (inner : Value) (source target : TypeId)
deriving DecidableEq, Repr, Inhabited

def Expr.check (c : Context) (env : ScopeId) : Expr → Except Diagnostic Value
  | .literal value _ => .ok (.const value (.ofLiteral value))
  | .name ident span =>
    match c.lookup env ident with
    | none => .error ((Diagnostic.nameNotFound ident).located span)
    | some (owner, r) =>
      match c.types.get? r.ty with
      | some (.const value) => .ok (.const value (.ofLiteral value))
      | _ =>
        if r.kind.isStored then .ok (.var owner ident r.ty)
        else .error ((Diagnostic.notVariable ident).located span)
  | .new typeName span =>
    match c.structNamed? env typeName with
    | some ty => .ok (.new ty (Symbol.struct typeName))
    | none => .error ((Diagnostic.typeNotFound typeName).located span)

namespace Value

def ty : Value → TypeId
  | .const _ ty => ty
  | .var _ _ ty => ty
  | .new ty _ => ty
  | .converted _ _ target => target

def fold? : Value → Option Literal
  | .const value _ => some value
  | _ => none

/-- Only a number or a text converts to another number or text, and null to a struct. -/
def castLiteral (types : Arena) (value : Literal) (source target : TypeId) :
    Except Diagnostic Literal :=
  match value, types.get? target with
  | .null, some (.struct _ _) => .ok .null
  | .null, _ => .error (.cannotConvert (types.name source) (types.name target))
  | v, some .int => .ok (.int v.toInt32)
  | v, some .float => .ok (.float v.toSingle)
  | v, some .string => .ok (.string v.toText)
  | _, _ => .error (.cannotConvert (types.name source) (types.name target))

/-- Constants are converted at once, other values when they are computed. -/
def cast (types : Arena) (v : Value) (target : TypeId) : Except Diagnostic Value :=
  match v with
  | .const value source =>
    if types.same source target then .ok v
    else (castLiteral types value source target).map fun w => .const w target
  | _ =>
    if types.same v.ty target || (v.ty == TypeId.null && types.isStruct target) then .ok v
    else if types.isPrimitive v.ty && types.isPrimitive target then
      .ok (.converted v v.ty target)
    else .error (.cannotConvert (types.name v.ty) (types.name target))

end Value

end UnitCompiler
