import UnitCompiler.Decl.Basic

namespace UnitCompiler

namespace Decl

/-- A variable of one of the kinds, as it is written: no pass has registered it yet. -/
def isVarOf (kinds : List Kind) : Decl → Bool
  | .var _ v => kinds.contains v.kind && v.registration.isNone
  | _ => false

def isArrayOf (kind : Kind) : Decl → Bool
  | .array _ v => v.kind == kind
  | _ => false

def isField (d : Decl) : Bool :=
  d.isVarOf [.field] || d.isArrayOf .field

def isParam (d : Decl) : Bool :=
  d.isVarOf [.param]

def isLocal (d : Decl) : Bool :=
  d.isVarOf [.localVar, Kind.union .localVar .const] || d.isArrayOf .localVar

def isLeaf : Decl → Bool
  | .var _ _ | .array _ _ | .data _ _ => true
  | .struct _ _ _ | .function _ _ _ _ => false

theorem isLeaf_of_isLocal {d : Decl} (h : d.isLocal = true) : d.isLeaf = true := by
  cases d with
  | var | array | data => rfl
  | struct | function => cases h

theorem isLeaf_of_isField {d : Decl} (h : d.isField = true) : d.isLeaf = true := by
  cases d with
  | var | array | data => rfl
  | struct | function => cases h

end Decl

def DeclList.each (p : Decl → Bool) (seq : DeclList) : Bool :=
  seq.all fun slot => slot.all p

mutual

def Stmt.isWellFormed : Stmt → Bool
  | .declare d => d.isLocal
  | .block body _ => Stmt.areWellFormed body
  | .goto _ _ _ | .label _ _ _ | .eval _ _ => true

def Stmt.areWellFormed : List Stmt → Bool
  | [] => true
  | stmt :: rest => Stmt.isWellFormed stmt && Stmt.areWellFormed rest

end

mutual

/-- The statement itself, or for a block the statements in it that are not blocks, at any depth. -/
def Stmt.atoms : Stmt → List Stmt
  | .declare d => [.declare d]
  | .block body _ => Stmt.atomsOfAll body
  | .goto name span env => [.goto name span env]
  | .label name span env => [.label name span env]
  | .eval e checked => [.eval e checked]

def Stmt.atomsOfAll : List Stmt → List Stmt
  | [] => []
  | stmt :: rest => Stmt.atoms stmt ++ Stmt.atomsOfAll rest

end

/-- Declarations whose kinds fit their place: globals outside, fields in structs, parameters and locals in
functions. -/
def Decl.isWellFormed : Decl → Bool
  | .var site v => (Decl.var site v).isVarOf [.global, Kind.union .global .const]
  | .array site v => (Decl.array site v).isArrayOf .global
  | .data _ _ => true
  | .struct _ _ fields => DeclList.each Decl.isField fields
  | .function _ _ params body => DeclList.each Decl.isParam params && Stmt.areWellFormed body

def DeclList.isWellFormed (program : DeclList) : Bool :=
  DeclList.each Decl.isWellFormed program

mutual

/-- No pass has been over the declaration yet, nor over any part of it. -/
def Decl.isFresh : Decl → Bool
  | .var _ v => v.registration.isNone
  | .function _ head params body =>
    head.ty.isNone && head.env.isNone && DeclList.areFresh params && Stmt.areFresh body
  | .struct _ head fields => head.ty.isNone && DeclList.areFresh fields
  | .data _ d => d.constant.isNone
  | .array _ v => v.ty.isNone

def DeclList.areFresh : List (Option Decl) → Bool
  | [] => true
  | none :: rest => DeclList.areFresh rest
  | some d :: rest => Decl.isFresh d && DeclList.areFresh rest

def Stmt.isFresh : Stmt → Bool
  | .declare d => Decl.isFresh d
  | .block body _ => Stmt.areFresh body
  | .goto _ _ env => env.isNone
  | .label _ _ env => env.isNone
  | .eval _ checked => checked.isNone

def Stmt.areFresh : List Stmt → Bool
  | [] => true
  | stmt :: rest => Stmt.isFresh stmt && Stmt.areFresh rest

end

namespace Decl

theorem exists_of_isVarOf {kinds : List Kind} {d : Decl} (h : d.isVarOf kinds = true) :
    ∃ site v, d = .var site v ∧ v.kind ∈ kinds ∧ v.registration = none := by
  cases d with
  | var site v => exact ⟨site, v, rfl, by simpa [isVarOf] using h⟩
  | function | struct | data | array => cases h

theorem exists_of_isArrayOf {kind : Kind} {d : Decl} (h : d.isArrayOf kind = true) :
    ∃ site v, d = .array site v ∧ v.kind = kind := by
  cases d with
  | array site v => exact ⟨site, v, rfl, by simpa [isArrayOf] using h⟩
  | function | struct | data | var => cases h

end Decl

theorem DeclList.each_iff {p : Decl → Bool} {seq : DeclList} :
    seq.each p = true ↔ ∀ d ∈ seq.filterMap id, p d = true := by
  simp only [DeclList.each, List.all_eq_true, List.mem_filterMap, id_eq, exists_eq_right]
  constructor
  · intro h d hd
    exact h (some d) hd
  · intro h slot hslot
    cases slot with
    | none => rfl
    | some d => exact h d hslot

end UnitCompiler
