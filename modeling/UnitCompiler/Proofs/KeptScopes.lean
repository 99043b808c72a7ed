import UnitCompiler.Proofs.CompleteRegistration
import UnitCompiler.Proofs.IssuedLabels
import UnitCompiler.Proofs.ScopeWalks

namespace UnitCompiler

namespace Context

structure SameScope (c c' : Context) (e : ScopeId) : Prop where
  decls : (c'.scope e).decls = (c.scope e).decls
  children : (c'.scope e).children = (c.scope e).children

variable {c c₁ c₂ c' : Context} {e env : ScopeId}

theorem SameScope.refl (c : Context) (e : ScopeId) : SameScope c c e := ⟨rfl, rfl⟩

theorem SameScope.trans (h : SameScope c c₁ e) (h' : SameScope c₁ c₂ e) : SameScope c c₂ e :=
  ⟨h'.decls.trans h.decls, h'.children.trans h.children⟩

theorem sameScope_of_eq (h : c'.scope e = c.scope e) : SameScope c c' e := by
  constructor <;> rw [h]

theorem scope_of_lt {s : Scope} (hscopes : c'.scopes = c.scopes ++ [s]) (hlt : e < c.scopes.length) :
    c'.scope e = c.scope e := by
  unfold scope
  rw [hscopes, List.getElem?_append_left hlt]

theorem scope_length {s : Scope} (hscopes : c'.scopes = c.scopes ++ [s]) : c'.scope c.scopes.length = s := by
  unfold scope
  rw [hscopes, List.getElem?_concat_length]
  rfl

theorem sameScope_addType (c : Context) (env : ScopeId) (t : Ty) (e : ScopeId) :
    SameScope c (c.addType env t).2 e :=
  ⟨decls_addType c env t e, children_addType c env t e⟩

theorem sameScope_modifyLabel (c : Context) (env : ScopeId) (name : String) (f : JumpLabel → JumpLabel)
    (e : ScopeId) : SameScope c (c.modifyLabel env name f) e :=
  ⟨view_modifyScope c _ Scope.decls e (by intro; rfl), view_modifyScope c _ Scope.children e (by intro; rfl)⟩

@[simp] theorem length_modifyLabel (c : Context) (env : ScopeId) (name : String) (f : JumpLabel → JumpLabel) :
    (c.modifyLabel env name f).scopes.length = c.scopes.length :=
  List.length_modify ..

@[simp] theorem children_setTable (c : Context) (target : Target) (t : Table) (e : ScopeId) :
    ((c.setTable target t).scope e).children = (c.scope e).children := by
  cases target with
  | scope env => exact view_modifyScope c env Scope.children e (by intro; rfl)
  | fields ty | params ty => simp

theorem sameScope_layOutFields {ty : TypeId} {word : UInt32} (h : c.layOutFields ty word = .ok c') (e : ScopeId) :
    SameScope c c' e := by
  obtain ⟨t, -, rfl⟩ := layOutFields_eq_ok h
  exact sameScope_of_eq (by simp)

theorem GrowStep.children (h : GrowStep c c') (e : ScopeId) : (c'.scope e).children = (c.scope e).children := by
  cases h with
  | label => rfl
  | addType env t => exact (sameScope_addType c env t e).children
  | insert h =>
    obtain ⟨t, -, -, rfl⟩ := insert_eq_ok h
    exact children_setTable c _ _ e

theorem Grows.children (h : Grows c c') (e : ScopeId) : (c'.scope e).children = (c.scope e).children := by
  induction h with
  | refl => rfl
  | tail _ hstep ih => exact (hstep.children e).trans ih

theorem hasTarget_scope (henv : env < c.scopes.length) : c.HasTarget (.scope env) := by
  rintro _ ⟨⟩
  exact henv

theorem decls_of_table? {t : Table} (h : c.table? (.scope e) = some t) : (c.scope e).decls = t :=
  Option.some.inj h

theorem sameScope_openFunction (c : Context) (parent : ScopeId) (result : TypeId) (hlt : e < c.scopes.length) :
    SameScope c (c.openFunction parent result).2 e :=
  sameScope_of_eq (scope_of_lt rfl hlt)

/-- A block that is opened is the last child of its parent, whose declarations stay. -/
theorem scope_openBlock_parent (henv : env < c.scopes.length) :
    ((c.openBlock env).2.scope env).decls = (c.scope env).decls ∧
      ((c.openBlock env).2.scope env).children = (c.scope env).children ++ [c.scopes.length] := by
  obtain ⟨s, hs⟩ := exists_scope henv
  have hopened : (c.openBlock env).2.scopes[env]? = some { s with children := s.children ++ [c.scopes.length] } := by
    refine (ScopeTree.getElem?_openBlock henv).mpr (Or.inl ⟨s, hs, ?_⟩)
    rw [if_pos rfl]
  rw [scope_eq hopened, scope_eq hs]
  exact ⟨rfl, rfl⟩

theorem scope_openBlock_self (henv : env < c.scopes.length) :
    (c.openBlock env).2.scope c.scopes.length = c.blockScope env :=
  scope_eq ((ScopeTree.getElem?_openBlock henv).mpr (Or.inr ⟨rfl, rfl⟩))

theorem lt_length_openBlock (c : Context) (env : ScopeId) :
    c.scopes.length < (c.openBlock env).2.scopes.length := by
  simp [openBlock]

theorem sameScope_openBlock (hne : e ≠ env) (hlt : e < c.scopes.length) : SameScope c (c.openBlock env).2 e := by
  refine sameScope_of_eq ((scope_modifyScope _ env _ e).trans ?_)
  rw [if_neg fun h => hne h.1.symm]
  exact scope_of_lt (s := c.blockScope env) rfl hlt

theorem Declared.sameScope {rs : List Record} (h : Declared env c rs c') (hne : e ≠ env) : SameScope c c' e := by
  induction h with
  | nil => exact .refl _ e
  | cons hins _ ih =>
    have hother : Target.scope e ≠ .scope env := fun heq => hne (Target.scope.inj heq)
    have htable := table?_insert_of_ne hother rfl hins
    obtain ⟨t, -, -, rfl⟩ := insert_eq_ok hins
    exact SameScope.trans ⟨decls_of_table? htable, children_setTable _ _ _ e⟩ ih

/-- The records that are declared one after another stand at the end of the scope in their order. -/
theorem Declared.records {rs : List Record} (h : Declared env c rs c') (henv : env < c.scopes.length) :
    (c'.scope env).decls.records = (c.scope env).decls.records ++ rs := by
  induction h with
  | nil => rw [List.append_nil]
  | cons hins _ ih =>
    obtain ⟨htable, -⟩ := table?_insert (hasTarget_scope henv) rfl hins
    rw [ih ((extends_insert hins).lt_length henv), decls_of_table? htable, List.append_assoc]
    rfl

end Context

open Context

variable {c c' : Context} {e env : ScopeId}

theorem Decl.Entered.sameScope {target : Target} {ds ds' : List Decl} (h : Decl.Entered env target c ds c' ds')
    (hne : .scope e ≠ target) : SameScope c c' e :=
  ⟨decls_of_table? (h.table?_of_ne hne rfl), h.grows.children e⟩

theorem FunctionHead.enter_sameScope {f : FunctionHead} {scope : ScopeId} (h : f.enter env c = .ok scope c')
    (hlt : e < c.scopes.length) : SameScope c c' e := by
  obtain ⟨ty, result, params, -, -, rfl, hdeclared⟩ := FunctionHead.enter_eq_ok h
  exact (sameScope_openFunction c env result hlt).trans (hdeclared.sameScope (Nat.ne_of_lt hlt))

/-- Of the scopes that are there, the statements of a scope change no other. -/
theorem Stmt.Accepted.sameScope {body body' : List Stmt} (h : Stmt.Accepted env c body c' body') (hne : e ≠ env)
    (hlt : e < c.scopes.length) : SameScope c c' e := by
  induction h with
  | nil => exact .refl _ e
  | leaf _ hd _ ih =>
    exact (hd.sameScope fun heq => hne (Target.scope.inj heq)).trans (ih hne (hd.extends.lt_length hlt))
  | struct hd _ hfields hlayout _ ih =>
    have hext := hd.extends.trans (hfields.extends.trans (extends_layOutFields hlayout))
    have hhere := hd.sameScope fun heq : Target.scope e = _ => hne (Target.scope.inj heq)
    exact hhere.trans ((hfields.sameScope Target.noConfusion).trans
      ((sameScope_layOutFields hlayout e).trans (ih hne (hext.lt_length hlt))))
  | function hd henter hbody _ ihbody ih =>
    have hopen := hd.extends.trans (FunctionHead.enter_extends henter)
    have hhere := hd.sameScope fun heq : Target.scope e = _ => hne (Target.scope.inj heq)
    have hdlt := hd.extends.lt_length hlt
    obtain ⟨rfl, -⟩ := FunctionHead.enter_within henter
    exact hhere.trans ((FunctionHead.enter_sameScope henter hdlt).trans
      ((ihbody (Nat.ne_of_lt hdlt) (hopen.lt_length hlt)).trans
        (ih hne ((hopen.trans hbody.extends).lt_length hlt))))
  | @block env c _ _ _ _ _ _ _ hbody _ ihbody ih =>
    have hopen := extends_openBlock c env
    exact (sameScope_openBlock hne hlt).trans ((ihbody (Nat.ne_of_lt hlt) (hopen.lt_length hlt)).trans
      (ih hne ((hopen.trans hbody.extends).lt_length hlt)))
  | goto _ ih => exact (sameScope_modifyLabel _ _ _ _ e).trans (ih hne ((extends_noteJump _ _ _ _).lt_length hlt))
  | label hplace _ ih =>
    have hext := extends_placeLabel hplace
    obtain ⟨-, rfl⟩ := placeLabel_eq_ok hplace
    exact (sameScope_modifyLabel _ _ _ _ e).trans (ih hne (hext.lt_length hlt))
  | eval _ _ ih => exact ih hne hlt

/-- A check of declarations changes no scope that is there before. -/
theorem Decl.Accepted.sameScope {ds ds' : List Decl} (h : Decl.Accepted env c ds c' ds') (hlt : e < c.scopes.length) :
    SameScope c c' e := by
  induction h with
  | nil => exact .refl _ e
  | leaf _ _ ih => exact ih hlt
  | struct _ hfields hlayout _ ih =>
    have hext := hfields.extends.trans (extends_layOutFields hlayout)
    exact (hfields.sameScope Target.noConfusion).trans
      ((sameScope_layOutFields hlayout e).trans (ih (hext.lt_length hlt)))
  | function henter hbody _ ih =>
    have hopen := FunctionHead.enter_extends henter
    have hhere := FunctionHead.enter_sameScope henter hlt
    obtain ⟨rfl, -⟩ := FunctionHead.enter_within henter
    exact hhere.trans ((hbody.sameScope (Nat.ne_of_lt hlt) (hopen.lt_length hlt)).trans
      (ih ((hopen.trans hbody.extends).lt_length hlt)))

end UnitCompiler
