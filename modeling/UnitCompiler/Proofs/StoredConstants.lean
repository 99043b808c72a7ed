import UnitCompiler.Proofs.TypedRecords

namespace UnitCompiler

def Ty.Retains (t t' : Ty) : Prop :=
  ∀ r ∈ t.records, ∃ r' ∈ t'.records, r'.unplaced = r.unplaced

namespace Context

def Retains (c c' : Context) : Prop :=
  ∀ (ty : TypeId) (t : Ty), c.types.get? ty = some t →
    ∃ t', c'.types.get? ty = some t' ∧ t.Becomes t' ∧ t.Retains t'

variable {c c' : Context}

theorem retains_of_types (h : c'.types = c.types) : Retains c c' := by
  intro ty t ht
  exact ⟨t, by rw [h]; exact ht, .refl t, fun r hr => ⟨r, hr, rfl⟩⟩

theorem Retains.trans {c₁ c₂ c₃ : Context} (h : Retains c₁ c₂) (h' : Retains c₂ c₃) : Retains c₁ c₃ := by
  intro ty t ht
  obtain ⟨t', ht', hbecomes, hretains⟩ := h ty t ht
  obtain ⟨t'', ht'', hbecomes', hretains'⟩ := h' ty t' ht'
  refine ⟨t'', ht'', hbecomes.trans hbecomes', fun r hr => ?_⟩
  obtain ⟨r', hr', heq⟩ := hretains r hr
  obtain ⟨r'', hr'', heq'⟩ := hretains' r' hr'
  exact ⟨r'', hr'', heq'.trans heq⟩

theorem retains_addType (c : Context) (env : ScopeId) (t : Ty) : Retains c (c.addType env t).2 := by
  intro ty u hu
  exact ⟨u, (get?_add_of_lt (lt_size_of_get? hu) t).trans hu, .refl u, fun r hr => ⟨r, hr, rfl⟩⟩

theorem retains_setType {ty : TypeId} {t u : Ty} (h : c.types.get? ty = some t) (hbecomes : t.Becomes u)
    (hretains : t.Retains u) : Retains c { c with types := c.types.set ty u } := by
  intro id v hv
  simp only [get?_set, h, Option.map_some]
  split
  · rename_i hid
    subst hid
    obtain rfl : t = v := Option.some.inj (h.symm.trans hv)
    exact ⟨u, rfl, hbecomes, hretains⟩
  · exact ⟨v, hv, .refl v, fun r hr => ⟨r, hr, rfl⟩⟩

theorem retains_setTable {target : Target} {t t' : Table} (ht : c.table? target = some t)
    (h : ∀ r ∈ t.records, ∃ r' ∈ t'.records, r'.unplaced = r.unplaced) :
    Retains c (c.setTable target t') := by
  cases target with
  | scope env => exact retains_of_types rfl
  | fields ty =>
    obtain ⟨name, hty⟩ := table?_fields ht
    rw [setTable_fields t' hty]
    exact retains_setType hty ⟨t', rfl⟩ h
  | params ty =>
    obtain ⟨result, hty⟩ := table?_params ht
    rw [setTable_params t' hty]
    exact retains_setType hty ⟨t', rfl⟩ h

theorem retains_insert {target : Target} {r : Record} {what : String} {i : Nat}
    (h : c.insert target r what = .ok (i, c')) : Retains c c' := by
  obtain ⟨t, ht, -, rfl⟩ := insert_eq_ok h
  exact retains_setTable ht fun r hr => ⟨r, List.mem_append_left _ hr, rfl⟩

theorem retains_layOutFields {ty : TypeId} {word : UInt32} (h : c.layOutFields ty word = .ok c') :
    Retains c c' := by
  obtain ⟨t, ht, rfl⟩ := layOutFields_eq_ok h
  refine retains_setTable ht fun r hr => ?_
  obtain ⟨k, hk, rfl⟩ := List.mem_iff_getElem.mp hr
  exact ⟨_, List.mem_mapIdx.mpr ⟨k, hk, rfl⟩, rfl⟩

theorem Grows.retains (h : Grows c c') : Retains c c' := by
  induction h with
  | refl => exact retains_of_types rfl
  | tail _ hstep ih =>
    refine ih.trans ?_
    cases hstep with
    | label => exact retains_of_types rfl
    | addType env t => exact retains_addType _ env t
    | insert h => exact retains_insert h

theorem Advances.retains {old : ScopeId} (h : Advances old c c') : Retains c c' := by
  induction h with
  | refl => exact retains_of_types rfl
  | tail _ hstep ih =>
    refine ih.trans ?_
    cases hstep with
    | label | openFunction | openBlock | modifyLabel => exact retains_of_types rfl
    | var h => exact (Variable.register_grows h).retains
    | array h => exact (ArrayDecl.register_grows h).retains
    | struct h => exact (StructHead.register_grows h).retains
    | functionType env result => exact retains_addType _ env _
    | function _ h => exact retains_insert h
    | param _ _ h => exact retains_insert h
    | layOut h => exact retains_layOutFields h

/-- A record stays in its table. -/
theorem Advances.table {old : ScopeId} (h : Advances old c c') {target : Target} {t : Table} {r : Record}
    (ht : c.table? target = some t) (hr : r ∈ t.records) :
    ∃ t' r', c'.table? target = some t' ∧ r' ∈ t'.records ∧ r'.unplaced = r.unplaced := by
  cases target with
  | scope env =>
    cases ht
    obtain ⟨s, hs, hr⟩ := exists_scope_of_mem hr
    obtain ⟨s', hs', hbecomes⟩ := h.extends.scopes hs
    exact ⟨s'.decls, r, by rw [table?, scope_eq hs'], hbecomes.decls.subset hr, rfl⟩
  | fields ty =>
    obtain ⟨name, hty⟩ := table?_fields ht
    obtain ⟨_, hty', ⟨fields, rfl⟩, hretains⟩ := h.retains ty _ hty
    obtain ⟨r', hr', heq⟩ := hretains r hr
    exact ⟨fields, r', by simp only [table?, hty'], hr', heq⟩
  | params ty =>
    obtain ⟨result, hty⟩ := table?_params ht
    obtain ⟨_, hty', ⟨params, rfl⟩, hretains⟩ := h.retains ty _ hty
    obtain ⟨r', hr', heq⟩ := hretains r hr
    exact ⟨params, r', by simp only [table?, hty'], hr', heq⟩

def HasTarget (c : Context) (target : Target) : Prop :=
  ∀ env, target = .scope env → env < c.scopes.length

theorem table?_setTable {target : Target} {t t' : Table} (ht : c.table? target = some t)
    (htarget : c.HasTarget target) : (c.setTable target t').table? target = some t' := by
  cases target with
  | scope env =>
    have hlt := htarget env rfl
    simp [table?, hlt]
  | fields ty =>
    obtain ⟨name, hty⟩ := table?_fields ht
    rw [setTable_fields t' hty]
    simp [table?, hty]
  | params ty =>
    obtain ⟨result, hty⟩ := table?_params ht
    rw [setTable_params t' hty]
    simp [table?, hty]

end Context

open Context

theorem Expr.check_constant {c : Context} {env owner : ScopeId} {ident : String} {span : Span} {r : Record}
    {lit : Literal} (hlookup : c.lookup env ident = some (owner, r))
    (hty : c.types.get? r.ty = some (.const lit)) :
    Expr.check c env (.name ident span) = .ok (.const lit (.ofLiteral lit)) := by
  simp only [Expr.check, hlookup, hty]

/-- A constant is stored under its name, as a type of its own that holds the value of its initializer. -/
theorem Variable.register_constant {v v' : Variable} {env : ScopeId} {target : Target} {c c' : Context}
    (hc : c.Typed) (htarget : c.HasTarget target) (hnew : v.registration = none)
    (hkind : v.kind.isConstant = true) (h : v.register env target c = .ok v' c') :
    ∃ declared value lit id t, c.declaredType v.tag env = .ok declared ∧ v.InitialValue env declared c value ∧
      value.fold? = some lit ∧ lit.Suits c'.types declared ∧ c'.table? target = some t ∧
      t.get? v.ident = some { name := v.ident, ty := id, kind := v.kind } ∧ c'.types.get? id = some (.const lit) := by
  obtain ⟨declared, c₁, r, kept, i, hdeclared, hrec, hins, -⟩ := Variable.register_eq_ok hnew h
  -- only the last of the four ways leaves a record of constant kind
  cases hrec with
  | plain _ hconst | computed _ hconst => simp [Kind.isConstant, hconst] at hkind
  | defaulted _ hlit =>
    cases hlit with
    | field hflag | param _ hflag => simp [Kind.isConstant, hflag] at hkind
  | @constant value lit hvalue _ _ _ hlit =>
    obtain ⟨hfold, hsuits⟩ := hvalue.literal hc hdeclared hlit
    have hinsert := extends_insert hins
    obtain ⟨t, ht, hcontains, rfl⟩ := Context.insert_eq_ok hins
    refine ⟨declared, value, lit, c.types.size, _, hdeclared, hvalue, hfold,
      ((extends_addType c env _).trans hinsert).suits hsuits, table?_setTable ht ?_, Table.get?_concat hcontains,
      hinsert.const (get?_addType_self c env _)⟩
    intro e he
    rw [length_addType]
    exact htarget e he

/-- Stored constants are well typed wherever the compiler has come to. A default is a constant of the type
of its record, and so is a record of constant kind unless it is an array. The declaration of a constant stores under
its name, at a type id of its own, the literal that its initializer folds to in the type of its tag. Any later context
has the same literal at the same id, under the same name, and a name that resolves to the constant folds to it. -/
theorem stored_constants_typed {c : Context} (hc : Moves .initial c) :
    (∀ {target : Target} {t : Table} {r : Record}, c.table? target = some t → r ∈ t.records →
      (∀ {d : TypeId}, r.default = some d →
        ∃ lit, c.types.get? d = some (.const lit) ∧ lit.Suits c.types r.ty) ∧
      (r.kind.isConstant = true → (∃ lit, c.types.get? r.ty = some (.const lit)) ∨
        ∃ label element sizes, c.types.get? r.ty = some (.array label element sizes))) ∧
    ∀ {c₀ c₁ : Context} {v v' : Variable} {env : ScopeId} {target : Target}, Moves .initial c₀ →
      c₀.HasTarget target → v.registration = none → v.kind.isConstant = true →
      v.register env target c₀ = .ok v' c₁ → Moves c₁ c →
      ∃ declared value lit id, c₀.declaredType v.tag env = .ok declared ∧
        v.InitialValue env declared c₀ value ∧ value.fold? = some lit ∧
        (∃ t, c₁.table? target = some t ∧ t.get? v.ident = some { name := v.ident, ty := id, kind := v.kind }) ∧
        c₁.types.get? id = some (.const lit) ∧
        (∃ t, c.table? target = some t ∧ ∃ r ∈ t.records, r.name = v.ident ∧ r.ty = id ∧ r.kind = v.kind) ∧
        c.types.get? id = some (.const lit) ∧ lit.Suits c.types declared ∧
        ∀ {env' owner : ScopeId} {ident : String} {span : Span} {r' : Record},
          c.lookup env' ident = some (owner, r') →
          r'.ty = id ∨ (target = .scope owner ∧ ident = v.ident) →
          Expr.check c env' (.name ident span) = .ok (.const lit (.ofLiteral lit)) := by
  refine ⟨fun ht hr => ?_, ?_⟩
  · have htyped := hc.typed.records (hasRecord_of_table ht hr)
    exact ⟨htyped.default, htyped.constant⟩
  · intro c₀ c₁ v v' env target hc₀ htarget hnew hkind h hlater
    obtain ⟨declared, value, lit, id, t, hdeclared, hvalue, hfold, hlit, ht, hget, hty⟩ :=
      Variable.register_constant hc₀.typed htarget hnew hkind h
    have howned : Owned c₁ :=
      (Advance.checkSteps (.var h : Advance 0 c₀ c₁)).owned ((hc₀.advances owned_initial).owned owned_initial)
    -- nothing that runs later replaces a record or a constant
    have hadvances := hlater.advances howned
    obtain ⟨t', r, ht', hr, heq⟩ := hadvances.table ht (Table.mem_of_get? hget).1
    have hstored : r.name = v.ident ∧ r.ty = id ∧ r.kind = v.kind :=
      ⟨congrArg Record.name heq, congrArg Record.ty heq, congrArg Record.kind heq⟩
    have hconst : c.types.get? id = some (.const lit) := hadvances.extends.const hty
    refine ⟨declared, value, lit, id, hdeclared, hvalue, hfold, ⟨t, ht, hget⟩, hty, ⟨t', ht', r, hr, hstored⟩, hconst,
      hadvances.extends.suits hlit, ?_⟩
    intro env' owner ident span r' hlookup hr'
    refine Expr.check_constant hlookup ?_
    obtain rfl | ⟨rfl, rfl⟩ := hr'
    · exact hconst
    · -- the scope still answers with the record that was declared
      cases ht
      have hfound := (lookup_eq_some hlookup).2.symm.trans (hadvances.extends.decls hget)
      cases hfound
      exact hconst

def constantOne : Variable :=
  { ident := "one", tag := .float, kind := .const, init := some (.literal (.int 1) {}) }

/-- The constant, and then a function whose parameter has its text as default. -/
def constantOneContext : Context :=
  (DeclList.register root (.scope root)
    [some (.function {} { ident := "f", tag := .default }
      [some (.var {} { ident := "p", tag := .string, kind := .param, init := some (.name "one" {}) })] [])]
    { context := after (constantOne.register root (.scope root)) .initial }).2.context

/-- The declaration stores the floating point one as type 4. It is there still when the default of the parameter has
become type 6, and the name folds to it. -/
theorem stored_constants_typed_constantOne :
    Moves .initial constantOneContext ∧
    (after (constantOne.register root (.scope root)) .initial).types.get? 4 =
      some (.const (.float (Single.ofInt 1))) ∧
    constantOneContext.types.get? 4 = some (.const (.float (Single.ofInt 1))) ∧
    Expr.check constantOneContext root (.name "one" {}) = .ok (.const (.float (Single.ofInt 1)) .float) ∧
    constantOneContext.table? (.params 5) = some ⟨[⟨"p", .string, .param, some 6, none⟩]⟩ ∧
    constantOneContext.types.get? 6 = some (.const (.string "1.0")) ∧
    (Literal.string "1.0").Suits constantOneContext.types .string := by
  have hlater : Moves (after (constantOne.register root (.scope root)) .initial) constantOneContext :=
    .single (.pass (.register { context := after (constantOne.register root (.scope root)) .initial } root
      (.scope root) _))
  obtain ⟨v, hv⟩ : ∃ v, constantOne.register root (.scope root) .initial =
      .ok v (after (constantOne.register root (.scope root)) .initial) := ⟨_, rfl⟩
  have hc : Moves .initial constantOneContext := hlater.head (.within (.var hv))
  obtain ⟨hdefaults, hconstants⟩ := stored_constants_typed hc
  obtain ⟨declared, value, lit, id, -, -, -, ⟨t, ht, hget⟩, hstored, -, hkept, -, hfolds⟩ :=
    hconstants .refl (fun e he => by cases he; decide) rfl (by decide) hv hlater
  cases ht
  obtain rfl : id = 4 := by
    have hid : ((after (constantOne.register root (.scope root)) .initial).scope root).decls.get? "one" =
        some ⟨"one", 4, .const, none, none⟩ := by decide +kernel
    exact congrArg Record.ty (Option.some.inj (hget.symm.trans hid))
  have hone : (after (constantOne.register root (.scope root)) .initial).types.get? 4 =
      some (.const (.float (Single.ofInt 1))) := by decide +kernel
  cases hstored.symm.trans hone
  have hlookup : constantOneContext.lookup root "one" = some (root, ⟨"one", 4, .const, none, none⟩) := by
    decide +kernel
  have hparams : constantOneContext.table? (.params 5) = some ⟨[⟨"p", .string, .param, some 6, none⟩]⟩ := by
    decide +kernel
  have hdefault : constantOneContext.types.get? 6 = some (.const (.string "1.0")) := by decide +kernel
  obtain ⟨lit', hlit', hsuits⟩ := (hdefaults hparams List.mem_cons_self).1 rfl
  cases hlit'.symm.trans hdefault
  exact ⟨hc, hone, hkept, hfolds hlookup (Or.inl rfl), hparams, hdefault, hsuits⟩

end UnitCompiler
