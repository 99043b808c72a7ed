import UnitCompiler.Proofs.Atomicity
import UnitCompiler.Proofs.FirstJumps

namespace UnitCompiler

namespace Context

/-- One change that a pass makes and does not take back. The labels of functions older than scope `old`
stay as they are. -/
inductive Advance (old : ScopeId) : Context → Context → Prop
  | label (c : Context) : Advance old c c.freshLabel.2
  | var {c c' : Context} {v v' : Variable} {env : ScopeId} {target : Target}
      (h : v.register env target c = .ok v' c') : Advance old c c'
  | array {c c' : Context} {v v' : ArrayDecl} {env : ScopeId} {target : Target}
      (h : v.register env target c = .ok v' c') : Advance old c c'
  | struct {c c' : Context} {head head' : StructHead} {env : ScopeId} {target : Target}
      (h : head.register env target c = .ok head' c') : Advance old c c'
  | functionType (c : Context) (env : ScopeId) (result : TypeId) :
      Advance old c (c.addType env (.function result .empty)).2
  | function {c c' : Context} {ty result : TypeId} {params : Table} {target : Target} {ident : String}
      {i : Nat} (hty : c.types.get? ty = some (.function result params))
      (h : c.insert target { name := ident, ty := ty, kind := .func } "identifier" = .ok (i, c')) :
      Advance old c c'
  | openFunction {c : Context} {parent : ScopeId} (h : parent < c.scopes.length) (result : TypeId) :
      Advance old c (c.openFunction parent result).2
  | param {c c' : Context} {ty result : TypeId} {params : Table} {scope : ScopeId} {p : Record}
      {i : Nat} (hty : c.types.get? ty = some (.function result params)) (hp : p ∈ params.records)
      (h : c.insert (.scope scope) { name := p.name, ty := p.ty, kind := p.kind } "identifier" =
        .ok (i, c')) : Advance old c c'
  | openBlock {c : Context} {parent : ScopeId} (h : parent < c.scopes.length) :
      Advance old c (c.openBlock parent).2
  | modifyLabel {c : Context} {env : ScopeId} (h : old ≤ c.functionOf env) (name : String)
      (f : JumpLabel → JumpLabel) : Advance old c (c.modifyLabel env name f)
  | layOut {c c' : Context} {ty : TypeId} {word : UInt32} (h : c.layOutFields ty word = .ok c') :
      Advance old c c'

abbrev Advances (old : ScopeId) : Context → Context → Prop := Relation.ReflTransGen (Advance old)

variable {old : ScopeId} {c c' : Context}

theorem Advance.extends (h : Advance old c c') : Extends c c' := by
  cases h with
  | label => exact extends_freshLabel c
  | var h => exact (Variable.register_grows h).extends
  | array h => exact (ArrayDecl.register_grows h).extends
  | struct h => exact (StructHead.register_grows h).extends
  | functionType env result => exact extends_addType c env _
  | function _ h => exact extends_insert h
  | openFunction _ result => exact extends_openFunction c _ result
  | param _ _ h => exact extends_insert h
  | openBlock => exact extends_openBlock c _
  | modifyLabel _ name f => exact extends_modifyLabel c _ name f
  | layOut h => exact extends_layOutFields h

theorem Advances.extends (h : Advances old c c') : Extends c c' := by
  induction h with
  | refl => exact .refl c
  | tail _ hstep ih => exact ih.trans hstep.extends

theorem Advance.checkSteps (h : Advance old c c') : CheckSteps c c' := by
  cases h with
  | label => exact .single (.register (.label c))
  | @var _ v _ env target h =>
    rw [← after_of_ok h]
    exact RegisterSteps.checkSteps (v.register_steps trivial env (Nat.zero_le _))
  | @array _ v _ env target h =>
    rw [← after_of_ok h]
    exact RegisterSteps.checkSteps (v.register_steps trivial env (Nat.zero_le _))
  | @struct _ head _ env target h =>
    rw [← after_of_ok h]
    exact RegisterSteps.checkSteps (head.register_steps trivial env (Nat.zero_le _))
  | functionType env result => exact .single (.register (.addType c env _))
  | function _ h => exact .single (.register (.insert trivial h))
  | openFunction h result => exact .single (.openFunction h result)
  | param _ _ h => exact .single (.register (.insert trivial h))
  | openBlock h => exact .single (.openBlock h)
  | modifyLabel _ name f => exact .single (.modifyLabel c _ name f)
  | layOut h => exact .single (.layOut h)

theorem Advances.owned (h : Advances old c c') (hc : Owned c) : Owned c' := by
  induction h with
  | refl => exact hc
  | tail _ hstep ih => exact hstep.checkSteps.owned ih

theorem Advance.mono {old' : ScopeId} (hle : old' ≤ old) (h : Advance old c c') : Advance old' c c' := by
  cases h with
  | label => exact .label c
  | var h => exact .var h
  | array h => exact .array h
  | struct h => exact .struct h
  | functionType env result => exact .functionType c env result
  | function hty h => exact .function hty h
  | openFunction h result => exact .openFunction h result
  | param hty hp h => exact .param hty hp h
  | openBlock h => exact .openBlock h
  | modifyLabel h name f => exact .modifyLabel (Nat.le_trans hle h) name f
  | layOut h => exact .layOut h

theorem Advances.mono {old' : ScopeId} (hle : old' ≤ old) (h : Advances old c c') : Advances old' c c' :=
  Relation.ReflTransGen.mono (fun _ _ h => h.mono hle) _ _ h

theorem Relabels.advances (h : Relabels c c') : Advances old c c' := by
  have hcount : ∀ n, Advances old c { c with labels := c.labels + n } := by
    intro n
    induction n with
    | zero => exact .refl
    | succ n ih => exact ih.tail (.label _)
  rw [h.eq, ← Nat.add_sub_cancel' h.labels]
  exact hcount _

end Context

open Context

variable {old : ScopeId}

theorem Decl.Entered.advances {env : ScopeId} {target : Target} {c c' : Context} {ds ds' : List Decl}
    (h : Decl.Entered env target c ds c' ds') : Advances old c c' := by
  induction h with
  | nil => exact .refl
  | var h _ ih => exact ih.head (.var h)
  | array h _ ih => exact ih.head (.array h)
  | data h _ ih =>
    obtain ⟨text, rfl, -⟩ | ⟨lit, -, -, rfl, -⟩ := DataItem.register_eq_ok h
    · exact ih.head (.label _)
    · exact ih
  | struct h _ ih => exact ih.head (.struct h)
  | @function _ c _ _ _ _ _ _ _ _ _ _ result _ _ hparams hinsert _ ihparams ih =>
    -- while its parameters came in, the type stayed a function type
    obtain ⟨t, ht, params, rfl⟩ := hparams.extends.types (get?_addType_self c env (.function result .empty))
    exact (ihparams.head (.functionType _ env result)).trans (ih.head (.function ht hinsert))

/-- A declaration that is refused uses up labels at most. -/
theorem Decl.register_advances (d : Decl) (env : ScopeId) (target : Target) {s : Session}
    (hs : Owned s.context) : Advances old s.context (d.register env target s).2.context := by
  rcases h : d.register env target s with ⟨⟨d', o⟩, t⟩
  cases o with
  | ok u => exact (Decl.register_entered env d target s t d' h).advances
  | error e =>
    have hrelabels := @Decl.register_error d env target s e hs (by rw [h])
    rw [h] at hrelabels
    exact hrelabels.advances

theorem Decl.registerEach_advances (env : ScopeId) (target : Target) (ds : List Decl) {s : Session}
    (hs : Owned s.context) :
    Advances old s.context (Decl.registerEach env target ds s).2.context := by
  induction ds generalizing s with
  | nil => exact .refl
  | cons d ds ih =>
    have h : Advances old s.context (d.register env target s).2.context := d.register_advances env target hs
    rcases hd : d.register env target s with ⟨here, t⟩
    rw [hd] at h
    rw [Decl.registerEach, SessionM.bind_of_eq _ hd]
    cases here.outcome with
    | error e => exact h
    | ok u => exact h.trans (ih (h.owned hs))

theorem DeclList.register_advances (seq : DeclList) (env : ScopeId) (target : Target) {s : Session}
    (hs : Owned s.context) : Advances old s.context (seq.register env target s).2.context := by
  rw [(DeclList.register_eq_registerEach env target seq s).2]
  exact Decl.registerEach_advances env target seq.inOrder hs

/-- The parameters are declared up to the first that is refused. -/
theorem CheckM.insertParams_advances {ty result : TypeId} {params : Table} (scope : ScopeId)
    {rs : List Record} (hrs : ∀ p ∈ rs, p ∈ params.records) {c : Context}
    (hty : c.types.get? ty = some (.function result params)) :
    Advances old c (after (rs.forM fun p => CheckM.insert (.scope scope)
      { name := p.name, ty := p.ty, kind := p.kind } "identifier") c) := by
  induction rs generalizing c with
  | nil => exact .refl
  | cons p rs ih =>
    obtain ⟨hp, hrs⟩ := List.forall_mem_cons.mp hrs
    refine after_bind Relation.ReflTransGen.trans ?_ fun _ t ht => ?_
    · dsimp only [after, CheckM.insert]
      cases h : c.insert (.scope scope) { name := p.name, ty := p.ty, kind := p.kind } "identifier" with
      | ok q => exact .single (.param hty hp h)
      | error d => exact .refl
    · obtain ⟨i, hins⟩ := CheckM.insert_eq_ok ht
      obtain ⟨_, -, -, rfl⟩ := Context.insert_eq_ok hins
      exact ih hrs hty

theorem FunctionHead.enter_advances (f : FunctionHead) {env : ScopeId} {c : Context}
    (henv : env < c.scopes.length) : Advances old c (after (f.enter env) c) := by
  unfold FunctionHead.enter
  cases f.ty with
  | none => exact .refl
  | some ty =>
    dsimp only
    rw [after_get]
    split
    · rename_i result params hty
      refine after_bind Relation.ReflTransGen.trans (.single (.openFunction henv result)) ?_
      intro scope t ht
      cases ht
      refine after_bind Relation.ReflTransGen.trans
        (CheckM.insertParams_advances _ (fun _ h => h) (c := (c.openFunction env result).2) hty) ?_
      exact fun _ _ _ => .refl
    · exact .refl

/-- Bodies are checked within functions that are new. -/
theorem advances_traversal : Traversal (Advances old)
    (fun env c => Owned c ∧ env < c.scopes.length ∧ old ≤ c.scopes.length)
    (fun env c => Owned c ∧ ∃ func, old ≤ func ∧ Within c func env) fun _ => True where
  refl _ := .refl
  trans := .trans
  outer_mono h := by
    rintro ⟨howned, henv, hold⟩
    exact ⟨h.owned howned, Nat.lt_of_lt_of_le henv h.extends.length, Nat.le_trans hold h.extends.length⟩
  inner_mono h := by
    rintro ⟨howned, func, hold, hin⟩
    exact ⟨h.owned howned, func, hold, hin.extends h.extends⟩
  outer_of_inner := by
    rintro env c ⟨howned, func, hold, hin⟩
    exact ⟨howned, hin.lt_length, Nat.le_trans hold (Nat.le_trans hin.le (Nat.le_of_lt hin.lt_length))⟩
  register d h := d.register_advances _ _ h.1
  registered _ _ := trivial
  registerFields h _ _ := DeclList.register_advances _ _ _ h.1
  layOut _ _ h := .single (.layOut h)
  enter f h := f.enter_advances h.2.1
  entered {env scope c c' f} h he := by
    have hsteps : Advances old c (after (f.enter env) c) := f.enter_advances h.2.1
    rw [after_of_ok he] at hsteps
    obtain ⟨rfl, hin⟩ := FunctionHead.enter_within he
    exact ⟨hsteps.owned h.1, _, h.2.2, hin⟩
  openBlock := by
    rintro env c ⟨howned, func, hold, hin⟩
    exact .single (.openBlock hin.lt_length)
  opened := by
    rintro env c ⟨howned, func, hold, hin⟩
    have hopen : CheckSteps c (c.openBlock env).2 := .single (.openBlock hin.lt_length)
    exact ⟨hopen.owned howned, func, hold, within_openBlock hin⟩
  modifyLabel name f := by
    rintro ⟨howned, func, hold, hin⟩
    exact .single (.modifyLabel (by rwa [hin.functionOf]) name f)

theorem Decl.check_advances (d : Decl) {env : ScopeId} {s : Session} (hs : Owned s.context)
    (henv : env < s.context.scopes.length) (hold : old ≤ s.context.scopes.length) :
    Advances old s.context (d.check env s).2.context :=
  advances_traversal.checkDecl trivial ⟨hs, henv, hold⟩

theorem DeclList.checkFrom_advances {env : ScopeId} (seq : DeclList) (index : Nat) {s : Session}
    (hs : Owned s.context) (henv : env < s.context.scopes.length) (hold : old ≤ s.context.scopes.length) :
    Advances old s.context (DeclList.checkFrom env index seq s).2.context :=
  advances_traversal.checkFrom (fun _ _ => trivial) index ⟨hs, henv, hold⟩

namespace Context

/-- One pass over a sequence of declarations, whether it succeeds or fails. -/
inductive Pass : Context → Context → Prop
  | register (s : Session) (env : ScopeId) (target : Target) (seq : DeclList) :
      Pass s.context (seq.register env target s).2.context
  | check (s : Session) {env : ScopeId} (henv : env < s.context.scopes.length) (seq : DeclList) :
      Pass s.context (seq.check env s).2.context
  | emit {β : Type} [Backend β] (s : Emitter β) (seq : DeclList) :
      Pass s.context (after seq.emit s).context
  | emitData {β : Type} [Backend β] (s : Emitter β) (seq : DeclList) :
      Pass s.context (after seq.emitData s).context

abbrev Passes : Context → Context → Prop := Relation.ReflTransGen Pass

/-- A pass leaves the labels of the functions alone that were there before it. -/
theorem Pass.advances {c c' : Context} (h : Pass c c') (hc : Owned c) :
    Advances c.scopes.length c c' := by
  cases h with
  | register s env target seq => exact seq.register_advances env target hc
  | check s henv seq => exact seq.checkFrom_advances 0 hc henv (Nat.le_refl _)
  | emit s seq => exact (DeclList.emitFrom_stable 0 seq s).context.advances
  | emitData s seq => exact (DeclList.emitData_stable seq s).context.advances

theorem Passes.advances {c c' : Context} (h : Passes c c') (hc : Owned c) :
    Advances c.scopes.length c c' := by
  induction h with
  | refl => exact .refl
  | tail _ hpass ih => exact ih.trans ((hpass.advances (ih.owned hc)).mono ih.extends.length)

/-- One move of the compiler: a whole pass, or a single change of a pass under way. -/
inductive Move : Context → Context → Prop
  | pass {c c' : Context} (h : Pass c c') : Move c c'
  | within {c c' : Context} (h : Advance 0 c c') : Move c c'

abbrev Moves : Context → Context → Prop := Relation.ReflTransGen Move

theorem Moves.advances {c c' : Context} (h : Moves c c') (hc : Owned c) : Advances 0 c c' := by
  induction h with
  | refl => exact .refl
  | tail _ hmove ih =>
    refine ih.trans ?_
    cases hmove with
    | pass h => exact (h.advances (ih.owned hc)).mono (Nat.zero_le _)
    | within h => exact .single h

end Context

end UnitCompiler
