import UnitCompiler.Proofs.Runs

namespace UnitCompiler

namespace CheckM

theorem ofExcept_eq_ok {α : Type} {x : Except Diagnostic α} {a : α} {c c' : Context}
    (h : ofExcept x c = .ok a c') : x = .ok a ∧ c' = c := by
  unfold ofExcept at h
  split at h
  · cases h
    exact ⟨rfl, rfl⟩
  · cases h

@[simp] theorem bind_change {α γ : Type} (g : Context → α × Context) (f : α → CheckM γ) (c : Context) :
    (change g >>= f) c = f (g c).1 (g c).2 := rfl

theorem bind_ofExcept_eq_ok {α γ : Type} {x : Except Diagnostic α} {f : α → CheckM γ} {c c' : Context}
    {b : γ} (h : (ofExcept x >>= f) c = .ok b c') : ∃ a, x = .ok a ∧ f a c = .ok b c' := by
  obtain ⟨a, t, hx, hf⟩ := bind_eq_ok.mp h
  obtain ⟨ha, rfl⟩ := ofExcept_eq_ok hx
  exact ⟨a, ha, hf⟩

theorem bind_ofExcept_eq_error {α γ : Type} {x : Except Diagnostic α} {f : α → CheckM γ} {c c' : Context}
    {d : Diagnostic} (h : (ofExcept x >>= f) c = .error d c') :
    x = .error d ∧ c' = c ∨ ∃ a, x = .ok a ∧ f a c = .error d c' := by
  cases x with
  | error d' =>
    cases h
    exact Or.inl ⟨rfl, rfl⟩
  | ok a => exact Or.inr ⟨a, rfl, h⟩

theorem insert_eq_ok {target : Target} {r : Record} {what : String} {c c' : Context} {u : Unit}
    (h : insert target r what c = .ok u c') : ∃ i, c.insert target r what = .ok (i, c') := by
  unfold insert at h
  cases hins : c.insert target r what with
  | error d => simp [hins] at h
  | ok p =>
    simp only [hins] at h
    cases h
    exact ⟨p.1, rfl⟩

theorem insertOrRelease_eq_ok {mark : Nat} {target : Target} {r : Record} {what : String}
    {c c' : Context} {u : Unit} (h : insertOrRelease mark target r what c = .ok u c') :
    ∃ i, c.insert target r what = .ok (i, c') := by
  unfold insertOrRelease at h
  cases hins : c.insert target r what with
  | error d => simp [hins] at h
  | ok p =>
    simp only [hins] at h
    cases h
    exact ⟨p.1, rfl⟩

end CheckM

theorem Arena.isConst_eq_false {types : Arena} {id : TypeId} (h : ∀ lit, types.get? id ≠ some (.const lit)) :
    types.isConst id = false := by
  unfold isConst
  cases hget : types.get? id with
  | none => rfl
  | some t =>
    cases t with
    | const lit => exact absurd hget (h lit)
    | int | float | string | struct | array | function => rfl

namespace Expr

/-- What an expression can stand for. A name is that of a constant or of something with a place of its own. -/
inductive Checked (c : Context) (env : ScopeId) : Expr → Value → Prop
  | literal (lit : Literal) (span : Span) : Checked c env (.literal lit span) (.const lit (.ofLiteral lit))
  | constant {ident : String} {span : Span} {owner : ScopeId} {r : Record} {lit : Literal}
      (hlookup : c.lookup env ident = some (owner, r)) (hty : c.types.get? r.ty = some (.const lit)) :
      Checked c env (.name ident span) (.const lit (.ofLiteral lit))
  | stored {ident : String} {span : Span} {owner : ScopeId} {r : Record}
      (hlookup : c.lookup env ident = some (owner, r)) (hconst : c.types.isConst r.ty = false)
      (hstored : r.kind.isStored = true) : Checked c env (.name ident span) (.var owner ident r.ty)
  | new {typeName : String} {span : Span} {ty : TypeId} (hnamed : c.structNamed? env typeName = some ty) :
      Checked c env (.new typeName span) (.new ty (Symbol.struct typeName))

theorem check_eq_ok {c : Context} {env : ScopeId} {e : Expr} {value : Value} (h : e.check c env = .ok value) :
    e.Checked c env value := by
  cases e with
  | literal lit span =>
    cases h
    exact .literal lit span
  | name ident span =>
    simp only [check] at h
    split at h
    · cases h
    · rename_i hlookup
      split at h
      · rename_i hty
        cases h
        exact .constant hlookup hty
      · rename_i hne
        split at h
        · rename_i hstored
          cases h
          exact .stored hlookup (Arena.isConst_eq_false hne) hstored
        · cases h
  | new typeName span =>
    simp only [check] at h
    split at h
    · rename_i hnamed
      cases h
      exact .new hnamed
    · cases h

end Expr

namespace Variable

/-- The value of the initializer, converted to the declared type. -/
def InitialValue (v : Variable) (env : ScopeId) (declared : TypeId) (c : Context) (value : Value) : Prop :=
  ∃ init checked, v.init = some init ∧ init.check c env = .ok checked ∧ checked.cast c.types declared = .ok value

inductive DefaultsTo (v : Variable) (types : Arena) (declared : TypeId) (value : Value) (lit : Literal) : Prop
  | field (hfield : v.kind.has .field = true) (hlit : fieldLiteral types declared value = .ok lit)
  | param (hfield : v.kind.has .field = false) (hparam : v.kind.has .param = true)
      (hlit : constLiteral types declared value = .ok lit)

/-- How a variable comes by its record: the context the record goes into, the record, and the value left to
compute. -/
inductive Recorded (v : Variable) (env : ScopeId) (declared : TypeId) (c : Context) :
    Context → Record → Option Value → Prop
  | plain (hinit : v.init = none) (hconst : v.kind.has .const = false) :
      Recorded v env declared c c { name := v.ident, ty := declared, kind := v.kind } none
  | computed {value : Value} (hvalue : v.InitialValue env declared c value) (hconst : v.kind.has .const = false)
      (hfield : v.kind.has .field = false) (hparam : v.kind.has .param = false) :
      Recorded v env declared c c { name := v.ident, ty := declared, kind := v.kind } (some value)
  | defaulted {value : Value} {lit : Literal} (hvalue : v.InitialValue env declared c value)
      (hlit : v.DefaultsTo c.types declared value lit) :
      Recorded v env declared c (c.addType env (.const lit)).2
        { name := v.ident, ty := declared, kind := v.kind, default := some c.types.size } none
  | constant {value : Value} {lit : Literal} (hvalue : v.InitialValue env declared c value)
      (hconst : v.kind.has .const = true) (hfield : v.kind.has .field = false) (hparam : v.kind.has .param = false)
      (hlit : constLiteral c.types declared value = .ok lit) :
      Recorded v env declared c (c.addType env (.const lit)).2
        { name := v.ident, ty := c.types.size, kind := v.kind } none

theorem initialized_eq_ok {v : Variable} {env : ScopeId} {declared : TypeId} {value : Value} {c c₁ : Context}
    {r : Record} {kept : Option Value} (hvalue : v.InitialValue env declared c value)
    (h : v.initialized env declared value c = .ok (r, kept) c₁) : v.Recorded env declared c c₁ r kept := by
  unfold initialized at h
  rw [bind_get] at h
  -- a field comes before a parameter, and a parameter before a constant
  split at h
  · rename_i hfield
    obtain ⟨lit, hlit, h⟩ := CheckM.bind_ofExcept_eq_ok h
    cases h
    exact .defaulted hvalue (.field hfield hlit)
  · rename_i hfield
    rw [Bool.not_eq_true] at hfield
    split at h
    · rename_i hkind
      obtain ⟨lit, hlit, h⟩ := CheckM.bind_ofExcept_eq_ok h
      rw [CheckM.bind_change] at h
      split at h
      · rename_i hparam
        cases h
        exact .defaulted hvalue (.param hfield hparam hlit)
      · rename_i hparam
        rw [Bool.not_eq_true] at hparam
        cases h
        exact .constant hvalue (by simpa [hparam] using hkind) hfield hparam hlit
    · rename_i hkind
      simp only [Bool.or_eq_true, not_or, Bool.not_eq_true] at hkind
      cases h
      exact .computed hvalue hkind.1 hfield hkind.2

theorem register_of_registered {v v' : Variable} {env : ScopeId} {target : Target} {c c' : Context}
    {known : Registration} (hknown : v.registration = some known) (h : v.register env target c = .ok v' c') :
    v' = v ∧ c' = c := by
  unfold register at h
  rw [hknown] at h
  cases h
  exact ⟨rfl, rfl⟩

theorem register_eq_ok {v v' : Variable} {env : ScopeId} {target : Target} {c c' : Context}
    (hnew : v.registration = none) (h : v.register env target c = .ok v' c') :
    ∃ declared c₁ r kept i, c.declaredType v.tag env = .ok declared ∧
      v.Recorded env declared c c₁ r kept ∧ c₁.insert target r "variable" = .ok (i, c') ∧
      v' = { v with registration := some ⟨env, kept⟩ } := by
  unfold register at h
  rw [hnew, Option.isSome_none, if_neg Bool.false_ne_true, bind_get] at h
  obtain ⟨declared, hdeclared, h⟩ := CheckM.bind_ofExcept_eq_ok h
  cases hinit : v.init with
  | none =>
    simp only [hinit] at h
    split at h
    · cases h
    · rename_i hkind
      obtain ⟨_, t, hins, h⟩ := bind_eq_ok.mp h
      obtain ⟨i, hins⟩ := CheckM.insert_eq_ok hins
      cases h
      exact ⟨declared, c, _, none, i, hdeclared, .plain hinit (by simpa using hkind), hins, rfl⟩
  | some init =>
    simp only [hinit] at h
    obtain ⟨checked, hcheck, h⟩ := CheckM.bind_ofExcept_eq_ok h
    obtain ⟨value, hcast, h⟩ := CheckM.bind_ofExcept_eq_ok h
    obtain ⟨⟨r, kept⟩, t, hrec, h⟩ := bind_eq_ok.mp h
    obtain ⟨_, u, hins, h⟩ := bind_eq_ok.mp h
    obtain ⟨i, hins⟩ := CheckM.insertOrRelease_eq_ok hins
    cases h
    exact ⟨declared, t, r, kept, i, hdeclared, initialized_eq_ok ⟨init, checked, hinit, hcheck, hcast⟩ hrec, hins, rfl⟩

end Variable

theorem ArrayDecl.register_eq_ok {v v' : ArrayDecl} {env : ScopeId} {target : Target} {c c' : Context}
    (h : v.register env target c = .ok v' c') :
    ∃ element sizes i, c.declaredType v.tag env = .ok element ∧
      v.dims.mapM (ArrayDecl.dimension c env) = .ok sizes ∧
      (c.freshLabel.2.addType env (.array c.freshLabel.1 element sizes)).2.insert target
        { name := v.ident, ty := c.types.size, kind := v.kind } "identifier" = .ok (i, c') ∧
      v' = { v with ty := some c.types.size } := by
  unfold ArrayDecl.register at h
  rw [bind_get] at h
  obtain ⟨element, helement, h⟩ := CheckM.bind_ofExcept_eq_ok h
  obtain ⟨sizes, hsizes, h⟩ := CheckM.bind_ofExcept_eq_ok h
  rw [CheckM.bind_change, CheckM.bind_change] at h
  obtain ⟨_, u, hins, h⟩ := bind_eq_ok.mp h
  obtain ⟨i, hins⟩ := CheckM.insertOrRelease_eq_ok hins
  cases h
  exact ⟨element, sizes, i, helement, hsizes, hins, rfl⟩

theorem StructHead.register_eq_ok {s s' : StructHead} {env : ScopeId} {target : Target}
    {c c' : Context} (h : s.register env target c = .ok s' c') :
    ∃ i, (c.addType env (.struct s.ident .empty)).2.insert target
        { name := s.ident, ty := c.types.size, kind := .struct } "identifier" = .ok (i, c') ∧
      s' = { s with ty := some c.types.size } := by
  unfold StructHead.register at h
  rw [bind_get] at h
  rw [CheckM.bind_change] at h
  obtain ⟨_, u, hins, h⟩ := bind_eq_ok.mp h
  obtain ⟨i, hins⟩ := CheckM.insertOrRelease_eq_ok hins
  cases h
  exact ⟨i, hins, rfl⟩

/-- Only a text gets a label. -/
theorem DataItem.register_eq_ok {d d' : DataItem} {env : ScopeId} {c c' : Context}
    (h : d.register env c = .ok d' c') :
    (∃ text, c' = c.freshLabel.2 ∧
        d' = { d with constant := some ⟨.string text, some c.freshLabel.1⟩ }) ∨
      ∃ lit, lit ≠ .null ∧ (∀ text, lit ≠ .string text) ∧ c' = c ∧
        d' = { d with constant := some ⟨lit, none⟩ } := by
  unfold DataItem.register at h
  rw [bind_get] at h
  obtain ⟨value, -, h⟩ := CheckM.bind_ofExcept_eq_ok h
  cases hfold : value.fold? with
  | none => simp only [hfold] at h; cases h
  | some lit =>
    cases lit with
    | null => simp only [hfold] at h; cases h
    | string text =>
      simp only [hfold] at h
      rw [CheckM.bind_change] at h
      cases h
      exact Or.inl ⟨text, rfl, rfl⟩
    | int v =>
      simp only [hfold] at h
      cases h
      exact Or.inr ⟨.int v, Literal.noConfusion, fun _ => Literal.noConfusion, rfl, rfl⟩
    | float x =>
      simp only [hfold] at h
      cases h
      exact Or.inr ⟨.float x, Literal.noConfusion, fun _ => Literal.noConfusion, rfl, rfl⟩

inductive Context.Declared (env : ScopeId) : Context → List Record → Context → Prop
  | nil {c : Context} : Declared env c [] c
  | cons {c c₁ c' : Context} {r : Record} {rs : List Record} {i : Nat}
      (h : c.insert (.scope env) r "identifier" = .ok (i, c₁)) (rest : Declared env c₁ rs c') :
      Declared env c (r :: rs) c'

theorem Context.declared_of_forM {env : ScopeId} {f : Record → Record} {rs : List Record}
    {c c' : Context} {u : Unit}
    (h : (rs.forM fun r => CheckM.insert (.scope env) (f r) "identifier") c = .ok u c') :
    Context.Declared env c (rs.map f) c' := by
  induction rs generalizing c with
  | nil =>
    cases h
    exact .nil
  | cons r rs ih =>
    obtain ⟨_, t, hins, h⟩ := bind_eq_ok.mp h
    obtain ⟨i, hins⟩ := CheckM.insert_eq_ok hins
    exact .cons hins (ih h)

theorem FunctionHead.enter_eq_ok {f : FunctionHead} {env scope : ScopeId} {c c' : Context}
    (h : f.enter env c = .ok scope c') :
    ∃ ty result params, f.ty = some ty ∧ c.types.get? ty = some (.function result params) ∧
      scope = c.scopes.length ∧
      Context.Declared scope (c.openFunction env result).2
        (params.records.map fun p => { name := p.name, ty := p.ty, kind := p.kind }) c' := by
  unfold FunctionHead.enter at h
  cases hty : f.ty with
  | none => simp only [hty] at h; cases h
  | some ty =>
    simp only [hty] at h
    rw [bind_get] at h
    cases hfun : c.types.get? ty with
    | none => simp only [hfun] at h; cases h
    | some t =>
      cases t with
      | function result params =>
        simp only [hfun] at h
        obtain ⟨_, t, hopen, h⟩ := bind_eq_ok.mp h
        cases hopen
        obtain ⟨_, u, hparams, h⟩ := bind_eq_ok.mp h
        cases h
        exact ⟨ty, result, params, rfl, hfun, rfl, Context.declared_of_forM hparams⟩
      | int | float | string | struct | array | const => simp only [hfun] at h; cases h

end UnitCompiler
