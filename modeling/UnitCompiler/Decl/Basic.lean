import UnitCompiler.Expr

namespace UnitCompiler

/-- Where a declaration stands. -/
structure Site where
  pos : Span := {}
  file : Option String := none
deriving DecidableEq, Repr, Inhabited

/-- A diagnostic without a position or file takes those of the declaration around it. -/
def Site.stamp (site : Site) (d : Diagnostic) : Diagnostic :=
  (d.withPosition site.pos).withFile site.file

/-- The scope a variable was registered in, and its initial value if that is computed at run time. -/
structure Registration where
  env : ScopeId
  init : Option Value
deriving DecidableEq, Repr

structure Variable where
  ident : String
  tag : TypeTag
  kind : Kind
  init : Option Expr := none
  registration : Option Registration := none
deriving DecidableEq, Repr

/-- The constant of a data declaration; a text has a label of its own. -/
structure DataConst where
  value : Literal
  label : Option String
deriving DecidableEq, Repr

structure DataItem where
  expr : Expr
  constant : Option DataConst := none
deriving DecidableEq, Repr

structure ArrayDecl where
  ident : String
  tag : TypeTag
  kind : Kind
  dims : List Expr
  ty : Option TypeId := none
deriving DecidableEq, Repr

/-- A function without its parameters and body. -/
structure FunctionHead where
  ident : String
  tag : TypeTag
  ty : Option TypeId := none
  env : Option ScopeId := none
deriving DecidableEq, Repr

/-- A struct without its fields. -/
structure StructHead where
  ident : String
  ty : Option TypeId := none
deriving DecidableEq, Repr

mutual

/-- A declaration, with what the passes have found out about it so far. -/
inductive Decl where
  | var (site : Site) (v : Variable)
  | function (site : Site) (head : FunctionHead) (params : List (Option Decl)) (body : List Stmt)
  | struct (site : Site) (head : StructHead) (fields : List (Option Decl))
  | data (site : Site) (d : DataItem)
  | array (site : Site) (v : ArrayDecl)

/-- A statement of a function body, with what the check has found out about it. -/
inductive Stmt where
  | declare (d : Decl)
  | block (body : List Stmt) (span : Span)
  | goto (label : String) (span : Span) (env : Option ScopeId)
  | label (name : String) (span : Span) (env : Option ScopeId)
  | eval (e : Expr) (checked : Option Value)

end

instance : Inhabited Decl := ⟨.data {} { expr := default }⟩

instance : Inhabited Stmt := ⟨.block [] {}⟩

/-- A list of declarations, some of whose slots may be empty. -/
abbrev DeclList := List (Option Decl)

namespace Decl

def site : Decl → Site
  | .var site _ => site
  | .function site _ _ _ => site
  | .struct site _ _ => site
  | .data site _ => site
  | .array site _ => site

def noun : Decl → String
  | .var _ _ => "var"
  | .function _ _ _ _ => "function"
  | .struct _ _ _ => "struct"
  | .data _ _ => "data"
  | .array _ _ => "vector"

def ident? : Decl → Option String
  | .var _ v => some v.ident
  | .function _ head _ _ => some head.ident
  | .struct _ head _ => some head.ident
  | .data _ _ => none
  | .array _ v => some v.ident

def isStruct : Decl → Bool
  | .struct _ _ _ => true
  | _ => false

def stamp (d : Decl) (e : Diagnostic) : Diagnostic :=
  d.site.stamp e

end Decl

def Stmt.span : Stmt → Span
  | .declare d => d.site.pos
  | .block _ span => span
  | .goto _ span _ => span
  | .label _ span _ => span
  | .eval e _ => e.span

end UnitCompiler
