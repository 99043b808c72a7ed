import UnitCompiler.Proofs.CheckOrder
import UnitCompiler.Proofs.Lists

namespace UnitCompiler

/-- What is wrong, the place that is named for it, if one is, and the declarations and statements around it, the
innermost first. -/
structure Fault where
  kind : DiagnosticKind
  message : String
  place : Option Span
  around : Site
  outer : List Site := []

def Stmt.site (stmt : Stmt) : Site :=
  ⟨stmt.span, none⟩

structure Diagnostic.Names (place : Option Span) (d : Diagnostic) : Prop where
  pos : d.pos = place
  file : d.file = none

namespace Fault

def of (raw : Diagnostic) (place : Option Span) (site : Site) : Fault :=
  ⟨raw.kind, raw.message, place, site, []⟩

def enclosedBy (f : Fault) (site : Site) : Fault :=
  { f with outer := f.outer ++ [site] }

/-- The position is the place that is named, or else that of the innermost site; the file is that of the
innermost site with a file. -/
def report (f : Fault) : Diagnostic where
  kind := f.kind
  message := f.message
  pos := some (f.place.getD f.around.pos)
  file := (f.around :: f.outer).findSome? Site.file

/-- A site around it adds its file if none is known yet, and nothing else. -/
@[simp] theorem report_enclosedBy (f : Fault) (site : Site) : (f.enclosedBy site).report = site.stamp f.report := by
  have hfile : (f.around :: (f.outer ++ [site])).findSome? Site.file =
      ((f.around :: f.outer).findSome? Site.file).or site.file := by
    rw [← List.cons_append, List.findSome?_append]
    simp
  simp only [report, enclosedBy, Site.stamp, Diagnostic.withPosition, Diagnostic.withFile, hfile,
    Option.some_or]

theorem report_of {raw : Diagnostic} {place : Option Span} (h : raw.Names place) (site : Site) :
    (of raw place site).report = site.stamp raw := by
  cases place <;>
    simp [report, of, Site.stamp, Diagnostic.withPosition, Diagnostic.withFile, h.pos, h.file]

theorem report_statement (f : Fault) (stmt : Stmt) :
    (f.enclosedBy stmt.site).report = f.report.withPosition stmt.span := by
  rw [report_enclosedBy]
  simp [Stmt.site, Site.stamp, Diagnostic.withFile, Diagnostic.withPosition]

end Fault

def Raises {ε σ α : Type} (E : ε → Prop) (x : EStateM ε σ α) : Prop :=
  ∀ (s : σ) (e : ε) (t : σ), x s = .error e t → E e

section Raises

variable {ε σ α γ : Type} {E : ε → Prop}

theorem raises_pure (a : α) : Raises E (pure a : EStateM ε σ α) := by
  intro s e t h
  cases h

theorem raises_throw {e : ε} (he : E e) : Raises E (throw e : EStateM ε σ α) := by
  intro s e' t h
  cases h
  exact he

theorem Raises.bind {x : EStateM ε σ α} {f : α → EStateM ε σ γ} (hx : Raises E x) (hf : ∀ a, Raises E (f a)) :
    Raises E (x >>= f) := by
  intro s e t h
  obtain h | ⟨a, u, -, h⟩ := bind_eq_error.mp h
  · exact hx s e t h
  · exact hf a u e t h

theorem raises_get {f : σ → EStateM ε σ γ} (hf : ∀ s, Raises E (f s)) : Raises E (get >>= f) := by
  intro s e t h
  exact hf s s e t h

end Raises

namespace CheckM

variable {α γ : Type}

theorem raises_ofExcept {E : Diagnostic → Prop} {x : Except Diagnostic α} (hx : ∀ d, x = .error d → E d) :
    Raises E (ofExcept x) := by
  intro c d c' h
  cases x with
  | error d' =>
    cases h
    exact hx d rfl
  | ok a => cases h

theorem raises_change {E : Diagnostic → Prop} (f : Context → α × Context) : Raises E (change f) := by
  intro c d c' h
  cases h

end CheckM

theorem Context.insert_names {c : Context} {target : Target} {r : Record} {what : String} {d : Diagnostic}
    (h : c.insert target r what = .error d) : d.Names none := by
  unfold Context.insert at h
  cases ht : c.table? target with
  | none =>
    simp only [ht] at h
    cases h
    cases target <;> exact ⟨rfl, rfl⟩
  | some t =>
    simp only [ht] at h
    cases hi : t.insert r with
    | ok p => simp only [hi] at h; cases h
    | error e =>
      simp only [hi] at h
      cases h
      exact ⟨rfl, rfl⟩

theorem CheckM.raises_insert (target : Target) (r : Record) (what : String) :
    Raises (Diagnostic.Names none) (CheckM.insert target r what) := by
  intro c d c' h
  unfold CheckM.insert at h
  cases hi : c.insert target r what with
  | ok p => simp only [hi] at h; cases h
  | error e =>
    simp only [hi] at h
    cases h
    exact Context.insert_names hi

theorem CheckM.raises_insertOrRelease (mark : Nat) (target : Target) (r : Record) (what : String) :
    Raises (Diagnostic.Names none) (CheckM.insertOrRelease mark target r what) := by
  intro c d c' h
  unfold CheckM.insertOrRelease at h
  cases hi : c.insert target r what with
  | ok p => simp only [hi] at h; cases h
  | error e =>
    simp only [hi] at h
    cases h
    exact Context.insert_names hi

theorem Context.declaredType_names {c : Context} {tag : TypeTag} {env : ScopeId} {d : Diagnostic}
    (h : c.declaredType tag env = .error d) : d.Names none := by
  unfold Context.declaredType Context.typeOfTag at h
  cases tag with
  | named name =>
    cases hs : c.structNamed? env name with
    | some ty => simp only [hs] at h; cases h
    | none =>
      simp only [hs] at h
      cases h
      exact ⟨rfl, rfl⟩
  | default | int | float | string => cases h

theorem Value.castLiteral_names {types : Arena} {lit : Literal} {source target : TypeId} {d : Diagnostic}
    (h : castLiteral types lit source target = .error d) : d.Names none := by
  unfold castLiteral at h
  split at h <;> cases h <;> exact ⟨rfl, rfl⟩

theorem Value.cast_names {types : Arena} {v : Value} {target : TypeId} {d : Diagnostic}
    (h : v.cast types target = .error d) : d.Names none := by
  unfold cast at h
  split at h
  · split at h
    · cases h
    · rename_i lit source _
      cases hl : castLiteral types lit source target with
      | ok w => rw [hl] at h; cases h
      | error d' =>
        rw [hl] at h
        cases h
        exact castLiteral_names hl
  · split at h
    · cases h
    · split at h <;> cases h
      exact ⟨rfl, rfl⟩

theorem Variable.fieldLiteral_names {types : Arena} {declared : TypeId} {value : Value} {d : Diagnostic}
    (h : fieldLiteral types declared value = .error d) : d.Names none := by
  unfold fieldLiteral at h
  split at h
  · cases h
    exact ⟨rfl, rfl⟩
  · split at h
    · cases h
    · cases h
    · cases h
    · split at h <;> cases h
      exact ⟨rfl, rfl⟩
    · cases h
      exact ⟨rfl, rfl⟩

theorem Variable.constLiteral_names {types : Arena} {declared : TypeId} {value : Value} {d : Diagnostic}
    (h : constLiteral types declared value = .error d) : d.Names none := by
  unfold constLiteral at h
  split at h <;> cases h
  exact ⟨rfl, rfl⟩

theorem Variable.initialized_raises (v : Variable) (env : ScopeId) (declared : TypeId) (value : Value) :
    Raises (Diagnostic.Names none) (v.initialized env declared value) := by
  unfold initialized
  refine raises_get fun s => ?_
  dsimp only
  split
  · refine (CheckM.raises_ofExcept fun d => fieldLiteral_names).bind fun lit => ?_
    exact (CheckM.raises_change _).bind fun _ => raises_pure _
  · split
    · refine (CheckM.raises_ofExcept fun d => constLiteral_names).bind fun lit => ?_
      refine (CheckM.raises_change _).bind fun wrapped => ?_
      split <;> exact raises_pure _
    · exact raises_pure _

/-- A name that is not declared or is not that of a variable, or a type that is not known. -/
def Expr.isUnresolved (c : Context) (env : ScopeId) : Expr → Bool
  | .literal _ _ => false
  | .name ident _ =>
    match c.lookup env ident with
    | none => true
    | some (_, r) => !c.types.isConst r.ty && !r.kind.isStored
  | .new typeName _ => (c.structNamed? env typeName).isNone

/-- An expression fails exactly if it is unresolved, and then at its own place. -/
theorem Expr.check_names (c : Context) (env : ScopeId) (e : Expr) :
    (e.isUnresolved c env = false ∧ ∃ value, e.check c env = .ok value) ∨
      e.isUnresolved c env = true ∧ ∃ d, e.check c env = .error d ∧ d.Names (some e.span) := by
  cases e with
  | literal value span => exact Or.inl ⟨rfl, _, rfl⟩
  | name ident span =>
    cases hl : c.lookup env ident with
    | none =>
      simp only [isUnresolved, check, hl]
      exact Or.inr ⟨trivial, _, rfl, rfl, rfl⟩
    | some p =>
      simp only [isUnresolved, check, hl]
      split
      · rename_i value ht
        exact Or.inl ⟨by simp [Arena.isConst, ht, Ty.isConst], _, rfl⟩
      -- what is not a constant must have a place
      · rename_i hne
        rw [Arena.isConst_eq_false hne]
        cases p.2.kind.isStored with
        | true => exact Or.inl ⟨rfl, _, rfl⟩
        | false => exact Or.inr ⟨rfl, _, rfl, rfl, rfl⟩
  | new typeName span =>
    cases hs : c.structNamed? env typeName with
    | some ty =>
      simp only [isUnresolved, check, hs]
      exact Or.inl ⟨rfl, _, rfl⟩
    | none =>
      simp only [isUnresolved, check, hs]
      exact Or.inr ⟨rfl, _, rfl, rfl, rfl⟩

def Variable.culprit? (v : Variable) (c : Context) (env : ScopeId) : Option Expr :=
  if (c.declaredType v.tag env).isOk then v.init.filter (·.isUnresolved c env) else none

def DataItem.culprit? (d : DataItem) (c : Context) (env : ScopeId) : Option Expr :=
  if d.expr.isUnresolved c env then some d.expr else none

def ArrayDecl.isNegative (c : Context) (env : ScopeId) (e : Expr) : Bool :=
  match e.check c env with
  | .ok value => value.fold?.any fun lit => decide (lit.toInt32 < 0)
  | .error _ => false

def ArrayDecl.culprit? (v : ArrayDecl) (c : Context) (env : ScopeId) : Option Expr :=
  if (c.declaredType v.tag env).isOk then
    (v.dims.find? fun e => !(dimension c env e).isOk).filter fun e => e.isUnresolved c env || isNegative c env e
  else none

/-- The expression that keeps a declaration from being registered, where it is one. -/
def Decl.culprit? (c : Context) (env : ScopeId) : Decl → Option Expr
  | .var _ v => v.culprit? c env
  | .data _ d => d.culprit? c env
  | .array _ v => v.culprit? c env
  | .struct _ _ _ | .function _ _ _ _ => none

variable {env : ScopeId} {target : Target} {c c' : Context} {raw : Diagnostic}

theorem Variable.register_names {v : Variable} (h : v.register env target c = .error raw c') :
    raw.Names ((v.culprit? c env).map Expr.span) := by
  unfold register at h
  split at h
  · cases h
  · change (CheckM.ofExcept (c.declaredType v.tag env) >>= _) c = _ at h
    unfold culprit?
    obtain ⟨ht, -⟩ | ⟨declared, ht, h⟩ := CheckM.bind_ofExcept_eq_error h
    · rw [ht]
      exact Context.declaredType_names ht
    · rw [ht]
      cases hinit : v.init with
      | none =>
        simp only [hinit] at h
        -- without an initializer no part of the declaration has a position
        have hraises : Raises (Diagnostic.Names none) (if v.kind.has .const then throw .uninitializedConstant
            else do
              CheckM.insert target { name := v.ident, ty := declared, kind := v.kind } "variable"
              pure { v with registration := some ⟨env, none⟩ } : CheckM Variable) := by
          split
          · exact raises_throw ⟨rfl, rfl⟩
          · exact (CheckM.raises_insert _ _ _).bind fun _ => raises_pure _
        rw [hinit] at hraises
        exact hraises _ _ _ h
      | some init =>
        simp only [hinit] at h
        obtain ⟨hresolved, value, hcheck⟩ | ⟨hresolved, d, hcheck, hd⟩ := init.check_names c env
        -- the initializer is well formed, and what is left to fail has no position
        · have hraises : Raises (Diagnostic.Names none) (do
              let value ← CheckM.ofExcept (value.cast c.types declared)
              let p ← v.initialized env declared value
              CheckM.insertOrRelease c.types.mark target p.1 "variable"
              pure { v with registration := some ⟨env, p.2⟩ } : CheckM Variable) := by
            refine (CheckM.raises_ofExcept fun d => Value.cast_names).bind fun value => ?_
            refine (v.initialized_raises env declared value).bind fun p => ?_
            exact (CheckM.raises_insertOrRelease _ _ _ _).bind fun _ => raises_pure _
          rw [hcheck] at h
          rw [hinit] at hraises
          simp only [Except.isOk, Except.toBool, Option.filter_some, hresolved]
          exact hraises _ _ _ h
        · rw [hcheck] at h
          cases h
          simp only [Except.isOk, Except.toBool, Option.filter_some, hresolved]
          exact hd

theorem DataItem.register_names {d : DataItem} (h : d.register env c = .error raw c') :
    raw.Names ((d.culprit? c env).map Expr.span) := by
  unfold culprit?
  change (CheckM.ofExcept (d.expr.check c env) >>= _) c = _ at h
  obtain ⟨hresolved, value, hcheck⟩ | ⟨hresolved, e, hcheck, he⟩ := d.expr.check_names c env
  · obtain ⟨hx, -⟩ | ⟨value, -, h⟩ := CheckM.bind_ofExcept_eq_error h
    · rw [hcheck] at hx
      cases hx
    · rw [hresolved]
      cases hf : value.fold? with
      | none =>
        rw [hf] at h
        cases h
        exact ⟨rfl, rfl⟩
      | some lit =>
        rw [hf] at h
        cases lit with
        | null =>
          cases h
          exact ⟨rfl, rfl⟩
        | int | float | string => cases h
  · rw [hcheck] at h
    rw [hresolved]
    cases h
    exact he

/-- A size fails at its own place if it is unresolved or negative, and at no place if it is not constant. -/
theorem ArrayDecl.dimension_names {e : Expr} (h : dimension c env e = .error raw) :
    raw.Names (if e.isUnresolved c env || isNegative c env e then some e.span else none) := by
  unfold dimension at h
  obtain ⟨hresolved, value, hcheck⟩ | ⟨hresolved, d, hcheck, hd⟩ := e.check_names c env
  · rw [hcheck] at h
    simp only [isNegative, hcheck, hresolved, Bool.false_or]
    cases hf : value.fold? with
    | none =>
      simp only [bind, Except.bind, hf] at h
      cases h
      exact ⟨rfl, rfl⟩
    | some lit =>
      simp only [bind, Except.bind, hf] at h
      split at h
      · rename_i hneg
        cases h
        rw [Option.any_some, decide_eq_true hneg]
        exact ⟨rfl, rfl⟩
      · cases h
  · rw [hcheck] at h
    cases h
    rw [hresolved]
    exact hd

theorem ArrayDecl.register_names {v : ArrayDecl} (h : v.register env target c = .error raw c') :
    raw.Names ((v.culprit? c env).map Expr.span) := by
  change (CheckM.ofExcept (c.declaredType v.tag env) >>= _) c = _ at h
  unfold culprit?
  obtain ⟨ht, -⟩ | ⟨element, ht, h⟩ := CheckM.bind_ofExcept_eq_error h
  · rw [ht]
    exact Context.declaredType_names ht
  · have hknown : (c.declaredType v.tag env).isOk = true := by rw [ht]; rfl
    rw [if_pos hknown]
    obtain ⟨sizes, hsizes, hfind⟩ | ⟨e, d, hd, hfind, he⟩ := mapM_cases (dimension c env) v.dims
    · have hraises : Raises (Diagnostic.Names none) (do
          let label ← CheckM.change Context.freshLabel
          let ty ← CheckM.change fun c => c.addType env (.array label element sizes)
          CheckM.insertOrRelease c.types.mark target
            { name := v.ident, ty := ty, kind := v.kind } "identifier"
          pure { v with ty := some ty } : CheckM ArrayDecl) := by
        refine (CheckM.raises_change _).bind fun label => (CheckM.raises_change _).bind fun ty => ?_
        exact (CheckM.raises_insertOrRelease _ _ _ _).bind fun _ => raises_pure _
      rw [hsizes] at h
      rw [hfind]
      exact hraises _ _ _ h
    · rw [hd] at h
      cases h
      rw [hfind, Option.filter_some, apply_ite (Option.map Expr.span)]
      exact dimension_names he

theorem StructHead.register_names {s : StructHead} (h : s.register env target c = .error raw c') :
    raw.Names none := by
  have hraises : Raises (Diagnostic.Names none) (s.register env target) := by
    refine raises_get fun _ => (CheckM.raises_change _).bind fun ty => ?_
    exact (CheckM.raises_insertOrRelease _ _ _ _).bind fun _ => raises_pure _
  exact hraises _ _ _ h

def Decl.isFunction : Decl → Bool
  | .function _ _ _ _ => true
  | .var _ _ | .struct _ _ _ | .data _ _ | .array _ _ => false

/-- The registration of a declaration meets a fault: in the declaration itself or, for a function, in a
parameter after those before it have been registered. -/
inductive Decl.RegistrationFails (env : ScopeId) : Target → Decl → Session → Fault → Prop
  | own {target : Target} {d : Decl} {s : Session} {raw : Diagnostic} (hd : d.isFunction = false)
      (h : (d.register env target s).1.outcome = .error raw) :
      Decl.RegistrationFails env target d s (.of raw ((d.culprit? s.context env).map Expr.span) d.site)
  | result {target : Target} {site : Site} {head : FunctionHead} {params : List (Option Decl)}
      {body : List Stmt} {s : Session} {raw : Diagnostic}
      (h : s.context.declaredType head.tag env = .error raw) :
      Decl.RegistrationFails env target (.function site head params body) s (.of raw none site)
  | param {target : Target} {site : Site} {head : FunctionHead} {params : List (Option Decl)}
      {body : List Stmt} {s t : Session} {result : TypeId} {before after : List Decl} {p : Decl} {f : Fault}
      (hresult : s.context.declaredType head.tag env = .ok result)
      (hparams : DeclList.inOrder params = before ++ p :: after)
      (hbefore : Decl.registerEach env (.params s.context.types.size) before
        { s with context := (s.context.addType env (.function result .empty)).2 } = (.ok (), t))
      (h : Decl.RegistrationFails env (.params s.context.types.size) p t f) :
      Decl.RegistrationFails env target (.function site head params body) s (f.enclosedBy site)
  | name {target : Target} {site : Site} {head : FunctionHead} {params : List (Option Decl)}
      {body : List Stmt} {s t : Session} {result : TypeId} {raw : Diagnostic}
      (hresult : s.context.declaredType head.tag env = .ok result)
      (hparams : Decl.registerEach env (.params s.context.types.size) (DeclList.inOrder params)
        { s with context := (s.context.addType env (.function result .empty)).2 } = (.ok (), t))
      (h : t.context.insert target { name := head.ident, ty := s.context.types.size, kind := .func }
        "identifier" = .error raw) :
      Decl.RegistrationFails env target (.function site head params body) s (.of raw none site)

def Decl.RegistrationFaulty (d : Decl) : Prop :=
  ∀ (env : ScopeId) (target : Target) (s : Session) (raw : Diagnostic),
    (d.register env target s).1.outcome = .error raw →
      ∃ f, d.RegistrationFails env target s f ∧ d.stamp raw = f.report

theorem Decl.register_names {d : Decl} (hd : d.isFunction = false) {s : Session}
    (h : (d.register env target s).1.outcome = .error raw) :
    raw.Names ((d.culprit? s.context env).map Expr.span) := by
  cases d with
  | var site v =>
    rw [Decl.register] at h
    obtain ⟨c, hx⟩ := Visited.leaf_eq_error h
    exact Variable.register_names hx
  | struct site head fields =>
    rw [Decl.register] at h
    obtain ⟨c, hx⟩ := Visited.leaf_eq_error h
    exact StructHead.register_names hx
  | data site d =>
    rw [Decl.register] at h
    obtain ⟨c, hx⟩ := Visited.leaf_eq_error h
    exact DataItem.register_names hx
  | array site v =>
    rw [Decl.register] at h
    obtain ⟨c, hx⟩ := Visited.leaf_eq_error h
    exact ArrayDecl.register_names hx
  | function => cases hd

theorem Decl.registrationFaulty_own {d : Decl} (hd : d.isFunction = false) : d.RegistrationFaulty := by
  intro env target s raw h
  exact ⟨_, .own hd h, (Fault.report_of (Decl.register_names hd h) d.site).symm⟩

/-- A sequence fails at the first declaration, in the order of the registration, that fails. -/
theorem DeclList.register_fails {seq : DeclList} (hall : ∀ d, some d ∈ seq → d.RegistrationFaulty)
    {env : ScopeId} {target : Target} {s : Session} {e : Diagnostic}
    (h : (seq.register env target s).1.outcome = .error e) :
    ∃ before d after t f, seq.inOrder = before ++ d :: after ∧
      Decl.registerEach env target before s = (.ok (), t) ∧ d.RegistrationFails env target t f ∧
      e = f.report := by
  rw [(DeclList.register_eq_registerEach env target seq s).1] at h
  obtain ⟨before, d, after, t, raw, hseq, hbefore, hraw, rfl, -⟩ :=
    Decl.registerEach_error (Prod.ext h rfl : _ = (Except.error e, _))
  have hd : d ∈ seq.filterMap id := by
    rw [← (DeclList.inOrder_perm seq).mem_iff, hseq]
    exact List.mem_append_right _ List.mem_cons_self
  obtain ⟨f, hf, hreport⟩ := hall d (by simpa using hd) env target t raw hraw
  exact ⟨before, d, after, t, f, hseq, hbefore, hf, hreport⟩

mutual

theorem Decl.registrationFaulty : ∀ d : Decl, d.RegistrationFaulty
  | .function site head params body => by
    intro env target s raw h
    rw [Decl.register] at h
    obtain ⟨d, hresult, he⟩ | ⟨result, visited, t, hresult, hp, hcases⟩ := head.register_cases env target params
      (fun ty => DeclList.inTwoSweeps fun structs => DeclList.sweep structs env (.params ty) 0 params) s
    · rw [SessionM.bind_of_eq _ he] at h
      cases h
      have hnames := Context.declaredType_names hresult
      exact ⟨_, .result hresult, (Fault.report_of hnames site).symm⟩
    · have hrun : DeclList.register env (.params s.context.types.size) params
          { s with context := (s.context.addType env (.function result .empty)).2 } = (visited, t) := hp
      obtain ⟨d, hd | ⟨hok, hinsert⟩, he⟩ | ⟨i, c, -, -, he⟩ := hcases
      · rw [SessionM.bind_of_eq _ he] at h
        cases h
        rw [← congrArg (fun p => p.1.outcome) hrun] at hd
        obtain ⟨before, p, after, u, f, hseq, hbefore, hf, rfl⟩ :=
          DeclList.register_fails (DeclList.registrationFaulty params) hd
        exact ⟨_, .param hresult hseq hbefore hf, (f.report_enclosedBy site).symm⟩
      · rw [SessionM.bind_of_eq _ he] at h
        cases h
        -- registered one by one, the parameters leave the same context
        obtain ⟨hfst, hcontext⟩ := DeclList.register_eq_registerEach env (.params s.context.types.size) params
          { s with context := (s.context.addType env (.function result .empty)).2 }
        rw [hrun] at hfst hcontext
        rw [hcontext] at hinsert
        have hnames := Context.insert_names hinsert
        exact ⟨_, .name hresult (Prod.ext (hfst.symm.trans hok) rfl) hinsert,
          (Fault.report_of hnames site).symm⟩
      · rw [SessionM.bind_of_eq _ he] at h
        cases h
  | .var _ _ => Decl.registrationFaulty_own rfl
  | .struct _ _ _ => Decl.registrationFaulty_own rfl
  | .data _ _ => Decl.registrationFaulty_own rfl
  | .array _ _ => Decl.registrationFaulty_own rfl

theorem DeclList.registrationFaulty : ∀ (seq : List (Option Decl)) (d : Decl), some d ∈ seq →
    d.RegistrationFaulty
  | [], _, hd => absurd hd List.not_mem_nil
  | none :: rest, d, hd => DeclList.registrationFaulty rest d (by simpa using hd)
  | some d₀ :: rest, d, hd => by
    obtain heq | hmem := List.mem_cons.mp hd
    · cases heq
      exact Decl.registrationFaulty d₀
    · exact DeclList.registrationFaulty rest d hmem

end

mutual

/-- The check of a declaration meets a fault: in the declaration itself, in a field of a struct or in a
statement of a function, after those before it have passed. -/
inductive Decl.CheckFails : ScopeId → Decl → Session → Fault → Prop
  | unregistered {env : ScopeId} {site : Site} {head : StructHead} {fields : List (Option Decl)} {s : Session}
      (h : head.ty = none) :
      Decl.CheckFails env (.struct site head fields) s
        (.of (.unregistered s!"struct '{head.ident}'") none site)
  | field {env : ScopeId} {site : Site} {head : StructHead} {fields : List (Option Decl)} {s t : Session}
      {ty : TypeId} {before after : List Decl} {d : Decl} {f : Fault} (hty : head.ty = some ty)
      (hfields : DeclList.inOrder fields = before ++ d :: after)
      (hbefore : Decl.registerEach env (.fields ty) before s = (.ok (), t))
      (h : d.RegistrationFails env (.fields ty) t f) :
      Decl.CheckFails env (.struct site head fields) s (f.enclosedBy site)
  | layout {env : ScopeId} {site : Site} {head : StructHead} {fields : List (Option Decl)} {s t : Session}
      {ty : TypeId} {raw : Diagnostic} (hty : head.ty = some ty)
      (hfields : Decl.registerEach env (.fields ty) (DeclList.inOrder fields) s = (.ok (), t))
      (h : t.context.layOutFields ty (UInt32.ofNat wordSize) = .error raw) :
      Decl.CheckFails env (.struct site head fields) s (.of raw none site)
  | enter {env : ScopeId} {site : Site} {head : FunctionHead} {params : List (Option Decl)}
      {body : List Stmt} {s : Session} {raw : Diagnostic} {c : Context}
      (h : head.enter env s.context = .error raw c) :
      Decl.CheckFails env (.function site head params body) s (.of raw none site)
  | body {env scope : ScopeId} {site : Site} {head : FunctionHead} {params : List (Option Decl)}
      {body before before' after : List Stmt} {stmt : Stmt} {s t : Session} {c : Context} {f : Fault}
      (henter : head.enter env s.context = .ok scope c) (hbody : body = before ++ stmt :: after)
      (hbefore : Stmt.checkAll before scope { s with context := c } = (⟨before', .ok ()⟩, t))
      (h : stmt.CheckFails scope t f) :
      Decl.CheckFails env (.function site head params body) s (f.enclosedBy site)

inductive Stmt.CheckFails : ScopeId → Stmt → Session → Fault → Prop
  | registration {env : ScopeId} {d : Decl} {s : Session} {f : Fault}
      (h : d.RegistrationFails env (.scope env) s f) :
      Stmt.CheckFails env (.declare d) s (f.enclosedBy (Stmt.declare d).site)
  | declaration {env : ScopeId} {d d' : Decl} {s t : Session} {f : Fault}
      (hd : d.register env (.scope env) s = (⟨d', .ok ()⟩, t)) (h : d'.CheckFails env t f) :
      Stmt.CheckFails env (.declare d) s (f.enclosedBy (Stmt.declare d).site)
  | block {env : ScopeId} {body before before' after : List Stmt} {stmt : Stmt} {span : Span} {s t : Session}
      {f : Fault} (hbody : body = before ++ stmt :: after)
      (hbefore : Stmt.checkAll before (s.context.openBlock env).1
        { s with context := (s.context.openBlock env).2 } = (⟨before', .ok ()⟩, t))
      (h : stmt.CheckFails (s.context.openBlock env).1 t f) :
      Stmt.CheckFails env (.block body span) s (f.enclosedBy (Stmt.block body span).site)
  | label {env : ScopeId} {name : String} {span : Span} {old : Option ScopeId} {s : Session}
      (h : s.context.isPlaced env name = true) :
      Stmt.CheckFails env (.label name span old) s
        (.of (.duplicate "label" name) (some span) (Stmt.label name span old).site)
  | eval {env : ScopeId} {e : Expr} {old : Option Value} {s : Session} {raw : Diagnostic}
      (hunresolved : e.isUnresolved s.context env = true) (h : e.check s.context env = .error raw) :
      Stmt.CheckFails env (.eval e old) s (.of raw (some e.span) (Stmt.eval e old).site)

end

theorem FunctionHead.enter_raises (f : FunctionHead) (env : ScopeId) :
    Raises (Diagnostic.Names none) (f.enter env) := by
  unfold enter
  cases f.ty with
  | none => exact raises_throw ⟨rfl, rfl⟩
  | some ty =>
    refine raises_get fun c => ?_
    have hreleased : Raises (Diagnostic.Names none) (throw (.released "function") : CheckM ScopeId) :=
      raises_throw ⟨rfl, rfl⟩
    cases c.types.get? ty with
    | none => exact hreleased
    | some t =>
      cases t with
      | function result params =>
        refine (CheckM.raises_change _).bind fun scope => Raises.bind ?_ fun _ => raises_pure _
        induction params.records with
        | nil => exact raises_pure _
        | cons r rs ih => exact (CheckM.raises_insert _ _ _).bind fun _ => ih
      | int | float | string | struct | array | const => exact hreleased

/-- Every failure of the statements is the report of a fault in one of them, after those before it have passed. -/
def Stmt.BodyFaulty (body : List Stmt) : Prop :=
  ∀ (env : ScopeId) (s : Session) (e : Diagnostic), (Stmt.checkAll body env s).1.outcome = .error e →
    ∃ before stmt after before' t f, body = before ++ stmt :: after ∧
      Stmt.checkAll before env s = (⟨before', .ok ()⟩, t) ∧ stmt.CheckFails env t f ∧ e = f.report

def Decl.BodyFaulty : Decl → Prop
  | .function _ _ _ body => Stmt.BodyFaulty body
  | .var _ _ | .struct _ _ _ | .data _ _ | .array _ _ => True

theorem Decl.check_fails_struct {site : Site} {head : StructHead} {fields : List (Option Decl)} {s : Session}
    {runBody : ScopeId → SessionM (Visited (List Stmt))}
    (h : ((Decl.struct site head fields).checkWith env runBody s).1.outcome = .error raw) :
    ∃ f, (Decl.struct site head fields).CheckFails env s f ∧ site.stamp raw = f.report := by
  rw [Decl.checkWith] at h
  cases hty : head.ty with
  | none =>
    simp only [hty] at h
    cases h
    exact ⟨_, .unregistered hty, (Fault.report_of ⟨rfl, rfl⟩ site).symm⟩
  | some ty =>
    simp only [hty] at h
    rcases hr : DeclList.register env (.fields ty) fields s with ⟨⟨fields', o⟩, t⟩
    rw [SessionM.bind_of_eq _ hr] at h
    cases o with
    | error e =>
      cases h
      have he : (DeclList.register env (.fields ty) fields s).1.outcome = .error raw := by rw [hr]
      -- the fault is that of the field, seen from the struct around it
      obtain ⟨before, d, after, u, f, hseq, hbefore, hf, rfl⟩ :=
        DeclList.register_fails (DeclList.registrationFaulty fields) he
      exact ⟨_, .field hty hseq hbefore hf, (f.report_enclosedBy site).symm⟩
    | ok _ =>
      obtain ⟨hfst, hcontext⟩ := DeclList.register_eq_registerEach env (.fields ty) fields s
      rw [hr] at hfst hcontext
      dsimp only at h
      have hl := Session.attempt_change? (fun c => c.layOutFields ty (UInt32.ofNat wordSize)) t
      cases hlayout : t.context.layOutFields ty (UInt32.ofNat wordSize) with
      | ok c =>
        simp only [hlayout] at hl
        rw [SessionM.bind_of_eq _ hl] at h
        cases h
      | error e =>
        simp only [hlayout] at hl
        rw [SessionM.bind_of_eq _ hl] at h
        cases h
        -- the table is missing, and such a diagnostic has no position of its own
        have hnames : raw.Names none := by
          unfold Context.layOutFields at hlayout
          split at hlayout
          · cases hlayout
            exact ⟨rfl, rfl⟩
          · cases hlayout
        rw [hcontext] at hlayout
        exact ⟨_, .layout hty (Prod.ext hfst.symm rfl) hlayout, (Fault.report_of hnames site).symm⟩

theorem Decl.check_fails_function {site : Site} {head : FunctionHead} {params : List (Option Decl)}
    {body : List Stmt} {s : Session} {runBody : ScopeId → SessionM (Visited (List Stmt))}
    (hrun : ∀ scope, runBody scope = Stmt.checkAll body scope) (hbody : Stmt.BodyFaulty body)
    (h : ((Decl.function site head params body).checkWith env runBody s).1.outcome = .error raw) :
    ∃ f, (Decl.function site head params body).CheckFails env s f ∧ site.stamp raw = f.report := by
  rw [Decl.checkWith] at h
  cases henter : head.enter env s.context with
  | error e c =>
    rw [SessionM.bind_of_eq _ (Session.attempt_of_error henter)] at h
    cases h
    have hnames := head.enter_raises env _ _ _ henter
    exact ⟨_, .enter henter, (Fault.report_of hnames site).symm⟩
  | ok scope c =>
    rw [SessionM.bind_of_eq _ (Session.attempt_of_ok henter)] at h
    dsimp only at h
    rw [hrun] at h
    have he : (Stmt.checkAll body scope { s with context := c }).1.outcome = .error raw := h
    obtain ⟨before, stmt, after, before', t, f, hsplit, hbefore, hf, rfl⟩ := hbody _ _ _ he
    exact ⟨_, .body henter hsplit hbefore hf, (f.report_enclosedBy site).symm⟩

theorem Decl.check_fails {d : Decl} (hbody : d.BodyFaulty) {s : Session}
    (h : (d.check env s).1.outcome = .error raw) : ∃ f, d.CheckFails env s f ∧ d.stamp raw = f.report := by
  cases d with
  | struct site head fields => exact Decl.check_fails_struct h
  | function site head params body =>
    exact Decl.check_fails_function (fun scope => by rw [Decl.checkBody]) hbody h
  | var | data | array => cases h

/-- A declared function or struct is checked as it was registered, around its body as it is written. -/
theorem Decl.checkWith_fails {d d' : Decl} (hbody : d.BodyFaulty) {s t : Session}
    (hd : d.register env (.scope env) s = (⟨d', .ok ()⟩, t))
    (h : (d'.checkWith env (fun scope => Decl.checkBody d scope) t).1.outcome = .error raw) :
    ∃ f, d'.CheckFails env t f ∧ d.stamp raw = f.report := by
  cases Decl.register_entered env d (.scope env) s t d' hd with
  | struct => exact Decl.check_fails_struct h
  | function => exact Decl.check_fails_function (fun scope => by rw [Decl.checkBody]) hbody h
  | var | data | array => cases h

mutual

theorem Stmt.check_fails : ∀ (stmt : Stmt) (env : ScopeId) (s : Session) (e : Diagnostic),
    (stmt.check env s).1.outcome = .error e →
      ∃ f, stmt.CheckFails env s f ∧ e.withPosition stmt.span = f.report
  | .declare d, env, s, e, h => by
    rcases hr : d.register env (.scope env) s with ⟨⟨d', o⟩, t⟩
    rw [Stmt.check, SessionM.bind_of_eq _ hr] at h
    cases o with
    | error raw =>
      cases h
      obtain ⟨f, hf, hreport⟩ := Decl.registrationFaulty d env (.scope env) s raw (by rw [hr])
      exact ⟨_, .registration hf, by rw [hreport, f.report_statement]⟩
    | ok _ =>
      dsimp only at h
      rcases hc : d'.checkWith env (fun scope => Decl.checkBody d scope) t with ⟨⟨d'', o⟩, u⟩
      rw [SessionM.bind_of_eq _ hc] at h
      cases o with
      | ok _ => cases h
      | error raw =>
        cases h
        obtain ⟨f, hf, hreport⟩ := Decl.checkWith_fails (Decl.bodyFaulty d) hr (congrArg (fun p => p.1.outcome) hc)
        exact ⟨_, .declaration hr hf, by rw [hreport, f.report_statement]⟩
  | .block body span, env, s, e, h => by
    rw [Stmt.check_block] at h
    obtain ⟨before, stmt, after, before', t, f, hsplit, hbefore, hf, rfl⟩ := Stmt.bodyFaulty body _ _ _ h
    exact ⟨_, .block hsplit hbefore hf, (f.report_statement _).symm⟩
  | .goto name span old, env, s, e, h => by
    rw [Stmt.check_goto] at h
    cases h
  | .label name span old, env, s, e, h => by
    rw [Stmt.check_label] at h
    unfold Context.placeLabel at h
    cases hp : s.context.isPlaced env name with
    | false => simp only [hp] at h; cases h
    | true =>
      simp only [hp] at h
      cases h
      exact ⟨_, .label hp, rfl⟩
  | .eval x old, env, s, e, h => by
    rw [Stmt.check_eval] at h
    obtain ⟨-, value, hcheck⟩ | ⟨hunresolved, d, hcheck, hd⟩ := x.check_names s.context env
    · simp only [hcheck] at h
      cases h
    · simp only [hcheck] at h
      cases h
      refine ⟨_, .eval hunresolved hcheck, ?_⟩
      rw [Fault.report_of hd]
      simp [Stmt.site, Site.stamp, Diagnostic.withFile]

theorem Decl.bodyFaulty : ∀ d : Decl, d.BodyFaulty
  | .function _ _ _ body => Stmt.bodyFaulty body
  | .var _ _ => trivial
  | .struct _ _ _ => trivial
  | .data _ _ => trivial
  | .array _ _ => trivial

theorem Stmt.bodyFaulty : ∀ body : List Stmt, Stmt.BodyFaulty body
  | [] => by
    intro env s e h
    rw [Stmt.checkAll] at h
    cases h
  | stmt :: rest => by
    intro env s e h
    rcases hs : stmt.check env s with ⟨⟨here, o⟩, t⟩
    rw [Stmt.checkAll, SessionM.bind_of_eq _ hs] at h
    cases o with
    | error raw =>
      cases h
      obtain ⟨f, hf, hreport⟩ := Stmt.check_fails stmt env s raw (by rw [hs])
      exact ⟨[], stmt, rest, [], s, f, rfl, by rw [Stmt.checkAll]; rfl, hf, hreport⟩
    | ok _ =>
      dsimp only at h
      have he : (Stmt.checkAll rest env t).1.outcome = .error e := h
      obtain ⟨before, stmt', after, before', u, f, rfl, hbefore, hf, rfl⟩ := Stmt.bodyFaulty rest _ _ _ he
      refine ⟨stmt :: before, stmt', after, here :: before', u, f, rfl, ?_, hf, rfl⟩
      rw [Stmt.checkAll, SessionM.bind_of_eq _ hs]
      dsimp only
      rw [SessionM.bind_of_eq _ hbefore]
      rfl

end

/-- A program fails its check at the first declaration that fails. -/
theorem DeclList.checkFrom_fails {seq : DeclList} {index : Nat} {s : Session} {e : Diagnostic}
    (h : (DeclList.checkFrom env index seq s).1.outcome = .error e) :
    ∃ before d after before' t f, seq = before ++ some d :: after ∧
      DeclList.checkFrom env index before s = (⟨before', .ok ()⟩, t) ∧
      d.CheckFails env (Session.log (.visited .check (index + before.length) d.noun) t).2 f ∧
      e = f.report := by
  induction seq generalizing index s with
  | nil =>
    rw [DeclList.checkFrom] at h
    cases h
  | cons slot rest ih =>
    cases slot with
    | none =>
      rw [DeclList.checkFrom_none] at h
      obtain ⟨before, d, after, before', t, f, rfl, hbefore, hf, rfl⟩ := ih h
      refine ⟨none :: before, d, after, none :: before', t, f, rfl, ?_, ?_, rfl⟩
      · simp [hbefore]
      · rw [List.length_cons, Nat.add_comm before.length, ← Nat.add_assoc]
        exact hf
    | some d =>
      rcases hd : d.check env (Session.log (.visited .check index d.noun) s).2 with ⟨⟨d', o⟩, t⟩
      rw [DeclList.checkFrom_visit rest hd] at h
      cases o with
      | error raw =>
        cases h
        obtain ⟨f, hf, hreport⟩ := Decl.check_fails (Decl.bodyFaulty d)
          (congrArg (fun p : Visited Decl × Session => p.1.outcome) hd)
        exact ⟨[], d, rest, [], s, f, rfl, by rw [DeclList.checkFrom]; rfl, hf, hreport⟩
      | ok _ =>
        obtain ⟨before, d₁, after, before', u, f, rfl, hbefore, hf, rfl⟩ := ih h
        refine ⟨some d :: before, d₁, after, some d' :: before', u, f, rfl, ?_, ?_, rfl⟩
        · rw [DeclList.checkFrom_visit before hd]
          dsimp only
          rw [hbefore]
        · rw [List.length_cons, Nat.add_comm before.length, ← Nat.add_assoc]
          exact hf

end UnitCompiler
