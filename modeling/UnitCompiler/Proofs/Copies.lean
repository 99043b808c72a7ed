import UnitCompiler.Proofs.Mirror
import UnitCompiler.Proofs.WellFormed

namespace UnitCompiler

def Registration.shift (l : Shift) (r : Registration) : Registration :=
  ⟨l.env r.env, r.init.map (Value.shift l)⟩

structure DataConst.Copies (l : Shift) (f f' : DataConst) : Prop where
  value : f'.value = f.value
  label : Option.Rel l.Moves f.label f'.label

mutual

/-- The second declaration is the first one after a move, in all that is read of it when it is emitted. -/
inductive Decl.Copies (l : Shift) (live : TypeId → Prop) : Decl → Decl → Prop
  | var {site : Site} {v v' : Variable} (hident : v'.ident = v.ident) (hkind : v'.kind = v.kind)
      (hreg : v'.registration = v.registration.map (Registration.shift l)) :
      Decl.Copies l live (.var site v) (.var site v')
  | function {site : Site} {head head' : FunctionHead} {params params' : List (Option Decl)}
      {body body' : List Stmt} (hident : head'.ident = head.ident) (henv : head'.env = head.env.map l.env)
      (hne : ∀ env, head.env = some env → env ≠ Context.root) (hbody : Stmt.CopiesAll l live body body') :
      Decl.Copies l live (.function site head params body) (.function site head' params' body')
  | struct {site : Site} {head head' : StructHead} {fields fields' : List (Option Decl)}
      (hident : head'.ident = head.ident) (hty : head'.ty = head.ty.map l.ty)
      (hlive : ∀ ty, head.ty = some ty → live ty) (hfields : DeclList.Copies l live fields fields') :
      Decl.Copies l live (.struct site head fields) (.struct site head' fields')
  | data {site : Site} {d d' : DataItem} (h : Option.Rel (DataConst.Copies l) d.constant d'.constant) :
      Decl.Copies l live (.data site d) (.data site d')
  | array {site : Site} {v v' : ArrayDecl} (hident : v'.ident = v.ident) (hkind : v'.kind = v.kind)
      (hty : v'.ty = v.ty.map l.ty) : Decl.Copies l live (.array site v) (.array site v')

inductive DeclList.Copies (l : Shift) (live : TypeId → Prop) : List (Option Decl) → List (Option Decl) → Prop
  | nil : DeclList.Copies l live [] []
  | skip {rest rest' : List (Option Decl)} (h : DeclList.Copies l live rest rest') :
      DeclList.Copies l live (none :: rest) (none :: rest')
  | cons {d d' : Decl} {rest rest' : List (Option Decl)} (hd : Decl.Copies l live d d')
      (h : DeclList.Copies l live rest rest') : DeclList.Copies l live (some d :: rest) (some d' :: rest')

inductive Stmt.Copies (l : Shift) (live : TypeId → Prop) : Stmt → Stmt → Prop
  | declare {d d' : Decl} (h : Decl.Copies l live d d') : Stmt.Copies l live (.declare d) (.declare d')
  | block {body body' : List Stmt} {span : Span} (h : Stmt.CopiesAll l live body body') :
      Stmt.Copies l live (.block body span) (.block body' span)
  | goto {name : String} {span : Span} {env : Option ScopeId} (hne : ∀ e, env = some e → e ≠ Context.root) :
      Stmt.Copies l live (.goto name span env) (.goto name span (env.map l.env))
  | label {name : String} {span : Span} {env : Option ScopeId} (hne : ∀ e, env = some e → e ≠ Context.root) :
      Stmt.Copies l live (.label name span env) (.label name span (env.map l.env))
  | eval {e : Expr} {value : Option Value} :
      Stmt.Copies l live (.eval e value) (.eval e (value.map (Value.shift l)))

inductive Stmt.CopiesAll (l : Shift) (live : TypeId → Prop) : List Stmt → List Stmt → Prop
  | nil : Stmt.CopiesAll l live [] []
  | cons {stmt stmt' : Stmt} {rest rest' : List Stmt} (hstmt : Stmt.Copies l live stmt stmt')
      (h : Stmt.CopiesAll l live rest rest') : Stmt.CopiesAll l live (stmt :: rest) (stmt' :: rest')

end

variable {l : Shift} {live : TypeId → Prop}

theorem Decl.Copies.isStruct {d d' : Decl} (h : d.Copies l live d') : d'.isStruct = d.isStruct := by
  cases h <;> rfl

theorem DeclList.Copies.merge {structs structs' others others' : DeclList}
    (hstructs : DeclList.Copies l live structs structs') (hothers : DeclList.Copies l live others others') :
    DeclList.Copies l live (structs.merge others) (structs'.merge others') := by
  unfold DeclList.merge
  induction structs generalizing structs' others others' with
  | nil =>
    cases hstructs
    exact .nil
  | cons slot rest ih =>
    cases hothers with
    | nil =>
      rw [List.zipWith_nil_right, List.zipWith_nil_right]
      exact .nil
    | skip hothers =>
      cases hstructs with
      | skip hrest => exact .skip (ih hrest hothers)
      | cons hd hrest =>
        simp only [List.zipWith_cons_cons, Option.any_some, hd.isStruct]
        split
        · exact .cons hd (ih hrest hothers)
        · exact .skip (ih hrest hothers)
    | cons hother hothers =>
      cases hstructs with
      | skip hrest => exact .cons hother (ih hrest hothers)
      | cons hd hrest =>
        simp only [List.zipWith_cons_cons, Option.any_some, hd.isStruct]
        split
        · exact .cons hd (ih hrest hothers)
        · exact .cons hother (ih hrest hothers)

def Decl.body : Decl → List Stmt
  | .function _ _ _ body => body
  | .var _ _ | .struct _ _ _ | .data _ _ | .array _ _ => []

theorem Decl.body_areFresh {d : Decl} (h : d.isFresh = true) : Stmt.areFresh d.body = true := by
  cases d with
  | function site head params body =>
    rw [Decl.isFresh, Bool.and_eq_true] at h
    exact h.2
  | var | struct | data | array => rfl

mutual

/-- What has not been registered yet has nothing that could move. -/
theorem Decl.copies_of_isFresh : ∀ {d : Decl}, d.isFresh = true → d.Copies l live d
  | .var _ v, h => by
    rw [Decl.isFresh, Option.isNone_iff_eq_none] at h
    exact .var rfl rfl (by rw [h]; rfl)
  | .function _ head _ body, h => by
    simp only [Decl.isFresh, Bool.and_eq_true, Option.isNone_iff_eq_none] at h
    obtain ⟨⟨⟨-, henv⟩, -⟩, hbody⟩ := h
    exact .function rfl (by rw [henv]; rfl) (by rw [henv]; nofun) (Stmt.copiesAll_of_areFresh hbody)
  | .struct _ head fields, h => by
    rw [Decl.isFresh, Bool.and_eq_true, Option.isNone_iff_eq_none] at h
    exact .struct rfl (by rw [h.1]; rfl) (by rw [h.1]; nofun) (DeclList.copies_of_areFresh h.2)
  | .data _ d, h => by
    rw [Decl.isFresh, Option.isNone_iff_eq_none] at h
    exact .data (by rw [h]; exact .none)
  | .array _ v, h => by
    rw [Decl.isFresh, Option.isNone_iff_eq_none] at h
    exact .array rfl rfl (by rw [h]; rfl)

theorem DeclList.copies_of_areFresh : ∀ {seq : List (Option Decl)}, DeclList.areFresh seq = true →
    DeclList.Copies l live seq seq
  | [], _ => .nil
  | none :: rest, h => by
    rw [DeclList.areFresh] at h
    exact .skip (DeclList.copies_of_areFresh h)
  | some d :: rest, h => by
    rw [DeclList.areFresh, Bool.and_eq_true] at h
    exact .cons (Decl.copies_of_isFresh h.1) (DeclList.copies_of_areFresh h.2)

theorem Stmt.copies_of_isFresh : ∀ {stmt : Stmt}, stmt.isFresh = true → stmt.Copies l live stmt
  | .declare d, h => by
    rw [Stmt.isFresh] at h
    exact .declare (Decl.copies_of_isFresh h)
  | .block body _, h => by
    rw [Stmt.isFresh] at h
    exact .block (Stmt.copiesAll_of_areFresh h)
  | .goto _ _ env, h => by
    rw [Stmt.isFresh, Option.isNone_iff_eq_none] at h
    rw [h]
    exact .goto nofun
  | .label _ _ env, h => by
    rw [Stmt.isFresh, Option.isNone_iff_eq_none] at h
    rw [h]
    exact .label nofun
  | .eval _ checked, h => by
    rw [Stmt.isFresh, Option.isNone_iff_eq_none] at h
    rw [h]
    exact .eval

theorem Stmt.copiesAll_of_areFresh : ∀ {body : List Stmt}, Stmt.areFresh body = true →
    Stmt.CopiesAll l live body body
  | [], _ => .nil
  | stmt :: rest, h => by
    rw [Stmt.areFresh, Bool.and_eq_true] at h
    exact .cons (Stmt.copies_of_isFresh h.1) (Stmt.copiesAll_of_areFresh h.2)

end

end UnitCompiler
