import UnitCompiler.Scope
import UnitCompiler.Symbol

namespace UnitCompiler

/-- The table that a declaration goes into. -/
inductive Target where
  | scope (env : ScopeId)
  | fields (ty : TypeId)
  | params (ty : TypeId)
deriving DecidableEq, Repr

/-- A type as it is written in a declaration. -/
inductive TypeTag where
  | default
  | int
  | float
  | string
  | named (name : String)
deriving DecidableEq, Repr, Inhabited

/-- The types, scopes and generated labels of a unit. -/
structure Context where
  types : Arena
  scopes : List Scope
  labels : Nat
deriving DecidableEq, Repr

namespace Context

def initial : Context := ⟨.initial, [.unit], 0⟩

def root : ScopeId := 0

/-- An index without a scope reads as an empty unit scope. -/
def scope (c : Context) (env : ScopeId) : Scope :=
  c.scopes[env]?.getD .unit

def modifyScope (c : Context) (env : ScopeId) (f : Scope → Scope) : Context :=
  { c with scopes := c.scopes.modify env f }

def freshLabel (c : Context) : String × Context :=
  (Symbol.generated (c.labels + 1), { c with labels := c.labels + 1 })

/-- A function scope has a label of its own and is not a child of its parent. -/
def openFunction (c : Context) (parent : ScopeId) (result : TypeId) : ScopeId × Context :=
  let scope : Scope :=
    { kind := .function, parent := some parent, symbol := c.freshLabel.1, result := some result }
  (c.scopes.length, { c.freshLabel.2 with scopes := c.scopes ++ [scope] })

/-- A block belongs to the function of its parent. -/
def openBlock (c : Context) (parent : ScopeId) : ScopeId × Context :=
  let p := c.scope parent
  let env := c.scopes.length
  let scope : Scope :=
    { kind := .block, parent := some parent, symbol := p.symbol, result := p.result }
  (env, { c with scopes := c.scopes ++ [scope] }.modifyScope parent fun s =>
    { s with children := s.children ++ [env] })

/-- At most `fuel` scopes from `env` outward. -/
def outward (scopes : List Scope) : Nat → ScopeId → List ScopeId
  | 0, _ => []
  | fuel + 1, env =>
    env :: match scopes[env]?.bind Scope.parent with
      | some parent => outward scopes fuel parent
      | none => []

/-- The scope and those around it, innermost first. A function may name a parent that is opened after it, so
the number of scopes bounds the walk, not the index. -/
def enclosing (c : Context) (env : ScopeId) : List ScopeId :=
  outward c.scopes c.scopes.length env

/-- The function or unit scope that the scope belongs to. -/
def functionOf (c : Context) (env : ScopeId) : ScopeId :=
  ((c.enclosing env).find? fun e => (c.scope e).kind != .block).getD env

/-- The innermost declaration of a name, and the scope that holds it. -/
def lookup (c : Context) (env : ScopeId) (name : String) : Option (ScopeId × Record) :=
  (c.enclosing env).findSome? fun e => ((c.scope e).decls.get? name).map fun r => (e, r)

/-- Adds a type that the scope owns. -/
def addType (c : Context) (env : ScopeId) (t : Ty) : TypeId × Context :=
  let id := c.types.size
  (id, { c with types := (c.types.add t).2 }.modifyScope env fun s =>
    { s with types := s.types ++ [id] })

/-- Gives back the types from `mark` on. -/
def release (c : Context) (mark : Nat) : Context :=
  { c with
    types := c.types.truncate mark
    scopes := c.scopes.map fun s =>
      { s with types := s.types.filter fun id => !Arena.isFrom id mark } }

/-- The struct type that a name denotes; a nearer declaration of another kind hides it. -/
def structNamed? (c : Context) (env : ScopeId) (name : String) : Option TypeId :=
  match c.lookup env name with
  | some (_, r) => if r.kind.has .struct && c.types.isStruct r.ty then some r.ty else none
  | none => none

def typeOfTag (c : Context) (tag : TypeTag) (env : ScopeId) : Except Diagnostic (Option TypeId) :=
  match tag with
  | .default => .ok none
  | .int => .ok (some .int)
  | .float => .ok (some .float)
  | .string => .ok (some .string)
  | .named name => match c.structNamed? env name with
    | some ty => .ok (some ty)
    | none => .error (.typeNotFound name)

/-- A declaration without a written type is an integer. -/
def declaredType (c : Context) (tag : TypeTag) (env : ScopeId) : Except Diagnostic TypeId :=
  (c.typeOfTag tag env).map fun ty => ty.getD .int

def table? (c : Context) : Target → Option Table
  | .scope env => some (c.scope env).decls
  | .fields ty => match c.types.get? ty with
    | some (.struct _ fields) => some fields
    | _ => none
  | .params ty => match c.types.get? ty with
    | some (.function _ params) => some params
    | _ => none

def setTable (c : Context) (target : Target) (t : Table) : Context :=
  match target with
  | .scope env => c.modifyScope env fun s => { s with decls := t }
  | .fields ty => match c.types.get? ty with
    | some (.struct name _) => { c with types := c.types.set ty (.struct name t) }
    | _ => c
  | .params ty => match c.types.get? ty with
    | some (.function result _) => { c with types := c.types.set ty (.function result t) }
    | _ => c

/-- A target whose type is gone or of another sort has no table. -/
def missingTable : Target → Diagnostic
  | .scope env => .internal s!"{ScopeId.text env} is not a scope"
  | .fields ty => .internal s!"{TypeId.text ty} is not a struct type"
  | .params ty => .internal s!"{TypeId.text ty} is not a function type"

/-- Declares a record; `what` is what a duplicate is called in the diagnostic. -/
def insert (c : Context) (target : Target) (r : Record) (what : String) :
    Except Diagnostic (Nat × Context) :=
  match c.table? target with
  | none => .error (missingTable target)
  | some t => match t.insert r with
    | .ok (i, t') => .ok (i, c.setTable target t')
    | .error e => .error (.duplicate what e.name)

def layOutFields (c : Context) (ty : TypeId) (word : UInt32) : Except Diagnostic Context :=
  match c.table? (.fields ty) with
  | none => .error (missingTable (.fields ty))
  | some t => .ok (c.setTable (.fields ty) (t.layOut word))

def modifyLabel (c : Context) (env : ScopeId) (name : String) (f : JumpLabel → JumpLabel) : Context :=
  c.modifyScope (c.functionOf env) fun s => { s with labels := JumpLabel.update name f s.labels }

/-- Notes a jump to a label; the first one keeps its place. -/
def noteJump (c : Context) (env : ScopeId) (name : String) (pos : Span) : Context :=
  c.modifyLabel env name fun l => { l with referenced := l.referenced.or (some pos) }

def isPlaced (c : Context) (env : ScopeId) (name : String) : Bool :=
  (c.scope (c.functionOf env)).labels.any fun l => l.name == name && l.defined.isSome

def placeLabel (c : Context) (env : ScopeId) (name : String) (pos : Span) :
    Except Diagnostic Context :=
  if c.isPlaced env name then .error ((Diagnostic.duplicate "label" name).located pos)
  else .ok (c.modifyLabel env name fun l => { l with defined := some pos })

def jumpSymbol (c : Context) (env : ScopeId) (name : String) : String :=
  Symbol.inFunction (c.scope (c.functionOf env)).symbol name

def exitSymbol (c : Context) (env : ScopeId) : String :=
  Symbol.exit (c.scope (c.functionOf env)).symbol

end Context

end UnitCompiler
