import UnitCompiler.Proofs.Derivation
import UnitCompiler.Proofs.Outcomes

namespace UnitCompiler

/-- A type stays what it is; only a table inside it may have changed. -/
def Ty.Becomes : Ty → Ty → Prop
  | .struct name _, t => ∃ fields, t = .struct name fields
  | .function result _, t => ∃ params, t = .function result params
  | s, t => t = s

theorem Ty.Becomes.refl (t : Ty) : t.Becomes t := by
  cases t with
  | struct name fields => exact ⟨fields, rfl⟩
  | function result params => exact ⟨params, rfl⟩
  | int | float | string | array | const => rfl

theorem Ty.Becomes.trans {t u v : Ty} (h : t.Becomes u) (h' : u.Becomes v) : t.Becomes v := by
  cases t with
  | struct name fields =>
    obtain ⟨fields', rfl⟩ := h
    exact h'
  | function result params =>
    obtain ⟨params', rfl⟩ := h
    exact h'
  | int | float | string | array | const =>
    cases h
    exact h'

theorem Ty.Becomes.isConst {t u : Ty} (h : t.Becomes u) : u.isConst = t.isConst := by
  cases t with
  | struct name fields =>
    obtain ⟨fields', rfl⟩ := h
    rfl
  | function result params =>
    obtain ⟨params', rfl⟩ := h
    rfl
  | int | float | string | array | const =>
    cases h
    rfl

/-- A scope keeps its place and its declarations, in their order. -/
structure Scope.Becomes (s s' : Scope) : Prop where
  kind : s'.kind = s.kind
  parent : s'.parent = s.parent
  symbol : s'.symbol = s.symbol
  decls : s.decls.records <+: s'.decls.records
  children : s.children <+: s'.children

theorem Scope.Becomes.refl (s : Scope) : s.Becomes s :=
  ⟨rfl, rfl, rfl, List.prefix_refl _, List.prefix_refl _⟩

theorem Scope.Becomes.trans {s t u : Scope} (h : s.Becomes t) (h' : t.Becomes u) : s.Becomes u :=
  ⟨h'.kind.trans h.kind, h'.parent.trans h.parent, h'.symbol.trans h.symbol,
    h.decls.trans h'.decls, h.children.trans h'.children⟩

namespace Context

/-- What a context holds is there in the other one too. -/
structure Extends (c c' : Context) : Prop where
  labels : c.labels ≤ c'.labels
  types : ∀ {id : TypeId} {t : Ty}, c.types.get? id = some t →
    ∃ t', c'.types.get? id = some t' ∧ t.Becomes t'
  scopes : ∀ {env : ScopeId} {s : Scope}, c.scopes[env]? = some s →
    ∃ s', c'.scopes[env]? = some s' ∧ s.Becomes s'

theorem Extends.refl (c : Context) : Extends c c :=
  ⟨Nat.le_refl _, fun {_ t} h => ⟨t, h, .refl t⟩, fun {_ s} h => ⟨s, h, .refl s⟩⟩

theorem Extends.trans {c₁ c₂ c₃ : Context} (h : Extends c₁ c₂) (h' : Extends c₂ c₃) :
    Extends c₁ c₃ := by
  refine ⟨Nat.le_trans h.labels h'.labels, ?_, ?_⟩
  · intro id t ht
    obtain ⟨u, hu, htu⟩ := h.types ht
    obtain ⟨v, hv, huv⟩ := h'.types hu
    exact ⟨v, hv, htu.trans huv⟩
  · intro env s hs
    obtain ⟨t, ht, hst⟩ := h.scopes hs
    obtain ⟨u, hu, htu⟩ := h'.scopes ht
    exact ⟨u, hu, hst.trans htu⟩

theorem Extends.length {c c' : Context} (h : Extends c c') : c.scopes.length ≤ c'.scopes.length := by
  by_contra hlt
  rw [Nat.not_le] at hlt
  obtain ⟨s', hs', -⟩ := h.scopes (List.getElem?_eq_getElem hlt)
  exact Nat.lt_irrefl _ (List.getElem?_eq_some_iff.mp hs').1

theorem extends_freshLabel (c : Context) : Extends c c.freshLabel.2 :=
  ⟨Nat.le_succ _, fun {_ t} h => ⟨t, h, .refl t⟩, fun {_ s} h => ⟨s, h, .refl s⟩⟩

theorem extends_modifyScope {c : Context} {env : ScopeId} {f : Scope → Scope}
    (hf : ∀ s, c.scopes[env]? = some s → s.Becomes (f s)) : Extends c (c.modifyScope env f) := by
  refine ⟨Nat.le_refl _, fun {_ t} h => ⟨t, h, .refl t⟩, ?_⟩
  intro e s hs
  rw [getElem?_modifyScope, hs]
  refine ⟨_, rfl, ?_⟩
  split
  · rename_i he
    exact hf s (he ▸ hs)
  · exact .refl s

@[simp] theorem get?_add_of_lt {a : Arena} {id : TypeId} (h : id < a.size) (t : Ty) :
    (a.add t).2.get? id = a.get? id :=
  List.getElem?_append_left h

@[simp] theorem get?_addType_of_lt {c : Context} {id : TypeId} (h : id < c.types.size) (env : ScopeId) (t : Ty) :
    (c.addType env t).2.types.get? id = c.types.get? id :=
  get?_add_of_lt h t

@[simp] theorem get?_addType_self (c : Context) (env : ScopeId) (t : Ty) :
    (c.addType env t).2.types.get? c.types.size = some t :=
  List.getElem?_concat_length

theorem extends_addType (c : Context) (env : ScopeId) (t : Ty) : Extends c (c.addType env t).2 := by
  -- the arena grows first, then the scope lists the type
  have htypes : Extends c { c with types := (c.types.add t).2 } := by
    refine ⟨Nat.le_refl _, ?_, fun {_ s} h => ⟨s, h, .refl s⟩⟩
    intro id u hu
    have hlt : id < c.types.types.length := (List.getElem?_eq_some_iff.mp hu).1
    exact ⟨u, (get?_add_of_lt hlt t).trans hu, .refl u⟩
  have hscopes : Extends { c with types := (c.types.add t).2 } (c.addType env t).2 :=
    extends_modifyScope fun s _ => ⟨rfl, rfl, rfl, List.prefix_refl _, List.prefix_refl _⟩
  exact htypes.trans hscopes

@[simp] theorem get?_set (a : Arena) (ty id : TypeId) (t : Ty) :
    (a.set ty t).get? id = if ty = id then (a.get? ty).map fun _ => t else a.get? id := by
  unfold Arena.set Arena.get?
  rw [List.getElem?_set']
  split
  · rename_i h
    rw [h]
    rfl
  · rfl

theorem lt_size_of_get? {a : Arena} {id : TypeId} {t : Ty} (h : a.get? id = some t) : id < a.size :=
  (List.getElem?_eq_some_iff.mp h).1

theorem extends_setType {c : Context} {ty : TypeId} {t u : Ty} (h : c.types.get? ty = some t)
    (htu : t.Becomes u) : Extends c { c with types := c.types.set ty u } := by
  refine ⟨Nat.le_refl _, ?_, fun {_ s} h => ⟨s, h, .refl s⟩⟩
  intro id v hv
  simp only [get?_set, h, Option.map_some]
  split
  · rename_i hid
    subst hid
    obtain rfl : t = v := Option.some.inj (h.symm.trans hv)
    exact ⟨u, rfl, htu⟩
  · exact ⟨v, hv, .refl v⟩

theorem scope_eq {c : Context} {env : ScopeId} {s : Scope} (h : c.scopes[env]? = some s) :
    c.scope env = s := by
  unfold scope
  rw [h]
  rfl

/-- A table may be replaced by one that goes on from it; the fields of a struct may also move. -/
theorem extends_setTable {c : Context} {target : Target} {t t' : Table}
    (ht : c.table? target = some t)
    (hgrow : ∀ env, target = .scope env → t.records <+: t'.records) :
    Extends c (c.setTable target t') := by
  cases target with
  | scope env =>
    refine extends_modifyScope fun s hs => ⟨rfl, rfl, rfl, ?_, List.prefix_refl _⟩
    obtain rfl : s.decls = t := by
      rw [← scope_eq hs]
      exact Option.some.inj ht
    exact hgrow env rfl
  | fields ty =>
    simp only [setTable]
    split
    · rename_i name fields hty
      exact extends_setType hty ⟨t', rfl⟩
    · exact .refl c
  | params ty =>
    simp only [setTable]
    split
    · rename_i result params hty
      exact extends_setType hty ⟨t', rfl⟩
    · exact .refl c

theorem extends_insert {c c' : Context} {target : Target} {r : Record} {what : String} {i : Nat}
    (h : c.insert target r what = .ok (i, c')) : Extends c c' := by
  obtain ⟨t, ht, -, rfl⟩ := insert_eq_ok h
  exact extends_setTable ht fun _ _ => List.prefix_append _ _

theorem layOutFields_eq_ok {c c' : Context} {ty : TypeId} {word : UInt32}
    (h : c.layOutFields ty word = .ok c') :
    ∃ t, c.table? (.fields ty) = some t ∧ c' = c.setTable (.fields ty) (t.layOut word) := by
  unfold layOutFields at h
  split at h
  · cases h
  · rename_i t ht
    cases h
    exact ⟨t, ht, rfl⟩

theorem extends_layOutFields {c c' : Context} {ty : TypeId} {word : UInt32}
    (h : c.layOutFields ty word = .ok c') : Extends c c' := by
  obtain ⟨t, ht, rfl⟩ := layOutFields_eq_ok h
  exact extends_setTable ht fun _ he => by cases he

theorem extends_addScope (c : Context) (s : Scope) {n : Nat} (hn : c.labels ≤ n) :
    Extends c { c with scopes := c.scopes ++ [s], labels := n } := by
  refine ⟨hn, fun {_ t} h => ⟨t, h, .refl t⟩, ?_⟩
  intro env s' hs
  refine ⟨s', ?_, .refl s'⟩
  have hlt : env < c.scopes.length := (List.getElem?_eq_some_iff.mp hs).1
  change (c.scopes ++ [s])[env]? = some s'
  rw [List.getElem?_append_left hlt]
  exact hs

theorem extends_openFunction (c : Context) (parent : ScopeId) (result : TypeId) :
    Extends c (c.openFunction parent result).2 :=
  extends_addScope c _ (Nat.le_succ _)

def blockScope (c : Context) (parent : ScopeId) : Scope :=
  { kind := .block, parent := some parent, symbol := (c.scope parent).symbol,
    result := (c.scope parent).result }

theorem extends_openBlock (c : Context) (parent : ScopeId) : Extends c (c.openBlock parent).2 :=
  (extends_addScope c _ (Nat.le_refl _)).trans
    (extends_modifyScope fun _ _ => ⟨rfl, rfl, rfl, List.prefix_refl _, List.prefix_append _ _⟩)

theorem extends_modifyLabel (c : Context) (env : ScopeId) (name : String) (f : JumpLabel → JumpLabel) :
    Extends c (c.modifyLabel env name f) :=
  extends_modifyScope fun _ _ => ⟨rfl, rfl, rfl, List.prefix_refl _, List.prefix_refl _⟩

theorem extends_noteJump (c : Context) (env : ScopeId) (name : String) (pos : Span) :
    Extends c (c.noteJump env name pos) :=
  extends_modifyLabel c env name _

theorem extends_placeLabel {c c' : Context} {env : ScopeId} {name : String} {pos : Span}
    (h : c.placeLabel env name pos = .ok c') : Extends c c' := by
  unfold placeLabel at h
  split at h
  · cases h
  · cases h
    exact extends_modifyLabel _ _ _ _

inductive GrowStep : Context → Context → Prop
  | label (c : Context) : GrowStep c c.freshLabel.2
  | addType (c : Context) (env : ScopeId) (t : Ty) : GrowStep c (c.addType env t).2
  | insert {c c' : Context} {target : Target} {r : Record} {what : String} {i : Nat}
      (h : c.insert target r what = .ok (i, c')) : GrowStep c c'

abbrev Grows : Context → Context → Prop := Relation.ReflTransGen GrowStep

theorem GrowStep.extends {c c' : Context} (h : GrowStep c c') : Extends c c' := by
  cases h with
  | label => exact extends_freshLabel c
  | addType env t => exact extends_addType c env t
  | insert h => exact extends_insert h

theorem Grows.extends {c c' : Context} (h : Grows c c') : Extends c c' := by
  induction h with
  | refl => exact .refl c
  | tail _ hstep ih => exact ih.trans hstep.extends

theorem GrowStep.scopes_length {c c' : Context} (h : GrowStep c c') : c'.scopes.length = c.scopes.length := by
  cases h with
  | label => rfl
  | addType env t => simp
  | insert h =>
    obtain ⟨t, -, -, rfl⟩ := insert_eq_ok h
    exact setTable_scopes_length _ _ _

theorem Grows.scopes_length {c c' : Context} (h : Grows c c') : c'.scopes.length = c.scopes.length := by
  induction h with
  | refl => rfl
  | tail _ hstep ih => exact hstep.scopes_length.trans ih

theorem Declared.grows {env : ScopeId} {c c' : Context} {rs : List Record}
    (h : Declared env c rs c') : Grows c c' := by
  induction h with
  | nil => exact .refl
  | cons hins _ ih => exact ih.head (.insert hins)

end Context

open Context

theorem Variable.Recorded.grows {v : Variable} {env : ScopeId} {declared : TypeId} {c c₁ : Context}
    {r : Record} {kept : Option Value} (h : v.Recorded env declared c c₁ r kept) : Grows c c₁ := by
  cases h with
  | plain | computed => exact .refl
  | defaulted | constant => exact .single (.addType c env _)

theorem Variable.register_grows {v v' : Variable} {env : ScopeId} {target : Target} {c c' : Context}
    (h : v.register env target c = .ok v' c') : Grows c c' := by
  cases hnew : v.registration with
  | none =>
    obtain ⟨declared, c₁, r, kept, i, -, hrec, hins, -⟩ := Variable.register_eq_ok hnew h
    exact hrec.grows.tail (.insert hins)
  | some _ =>
    obtain ⟨rfl, rfl⟩ := Variable.register_of_registered hnew h
    exact .refl

theorem ArrayDecl.register_grows {v v' : ArrayDecl} {env : ScopeId} {target : Target}
    {c c' : Context} (h : v.register env target c = .ok v' c') : Grows c c' := by
  obtain ⟨element, sizes, i, -, -, hins, -⟩ := ArrayDecl.register_eq_ok h
  have hadd : Grows c (c.freshLabel.2.addType env (.array c.freshLabel.1 element sizes)).2 :=
    .head (.label c) (.single (.addType _ env _))
  exact hadd.tail (.insert hins)

theorem DataItem.register_grows {d d' : DataItem} {env : ScopeId} {c c' : Context}
    (h : d.register env c = .ok d' c') : Grows c c' := by
  -- only a text takes a label
  obtain ⟨text, rfl, -⟩ | ⟨lit, -, -, rfl, -⟩ := DataItem.register_eq_ok h
  · exact .single (.label _)
  · exact .refl

theorem StructHead.register_grows {s s' : StructHead} {env : ScopeId} {target : Target} {c c' : Context}
    (h : s.register env target c = .ok s' c') : Grows c c' := by
  obtain ⟨i, hins, -⟩ := StructHead.register_eq_ok h
  exact .head (.addType _ _ _) (.single (.insert hins))

theorem Decl.Entered.grows {env : ScopeId} {target : Target} {c c' : Context} {ds ds' : List Decl}
    (h : Decl.Entered env target c ds c' ds') : Grows c c' := by
  induction h with
  | nil => exact .refl
  | var h _ ih => exact (Variable.register_grows h).trans ih
  | array h _ ih => exact (ArrayDecl.register_grows h).trans ih
  | data h _ ih => exact (DataItem.register_grows h).trans ih
  | struct h _ ih => exact (StructHead.register_grows h).trans ih
  | function _ _ hins _ ihparams ih =>
    exact (ihparams.head (.addType _ _ _)).trans (ih.head (.insert hins))

theorem Decl.Entered.extends {env : ScopeId} {target : Target} {c c' : Context} {ds ds' : List Decl}
    (h : Decl.Entered env target c ds c' ds') : Extends c c' :=
  h.grows.extends

theorem FunctionHead.enter_extends {f : FunctionHead} {env scope : ScopeId} {c c' : Context}
    (h : f.enter env c = .ok scope c') : Extends c c' := by
  obtain ⟨ty, result, params, -, -, -, hdeclared⟩ := FunctionHead.enter_eq_ok h
  exact (extends_openFunction c env result).trans hdeclared.grows.extends

theorem Stmt.Accepted.extends {env : ScopeId} {c c' : Context} {body body' : List Stmt}
    (h : Stmt.Accepted env c body c' body') : Extends c c' := by
  induction h with
  | nil => exact .refl _
  | leaf _ hd _ ih => exact hd.extends.trans ih
  | struct hd _ hfields hlayout _ ih =>
    exact hd.extends.trans (hfields.extends.trans ((extends_layOutFields hlayout).trans ih))
  | function hd henter _ _ ihbody ih =>
    exact hd.extends.trans ((FunctionHead.enter_extends henter).trans (ihbody.trans ih))
  | block _ _ ihbody ih => exact (extends_openBlock _ _).trans (ihbody.trans ih)
  | goto _ ih => exact (extends_noteJump _ _ _ _).trans ih
  | label hl _ ih => exact (extends_placeLabel hl).trans ih
  | eval _ _ ih => exact ih

theorem Decl.Accepted.extends {env : ScopeId} {c c' : Context} {ds ds' : List Decl}
    (h : Decl.Accepted env c ds c' ds') : Extends c c' := by
  induction h with
  | nil => exact .refl _
  | leaf _ _ ih => exact ih
  | struct _ hfields hlayout _ ih => exact hfields.extends.trans ((extends_layOutFields hlayout).trans ih)
  | function henter hbody _ ih => exact (FunctionHead.enter_extends henter).trans (hbody.extends.trans ih)

theorem Stmt.Checked.extends {env : ScopeId} {c c' : Context} {body body' : List Stmt}
    (h : Stmt.Checked env c body c' body') : Extends c c' :=
  h.accepted.extends

theorem Decl.Checked.extends {env : ScopeId} {c c' : Context} {ds ds' : List Decl}
    (h : Decl.Checked env c ds c' ds') : Extends c c' :=
  h.accepted.extends

end UnitCompiler
