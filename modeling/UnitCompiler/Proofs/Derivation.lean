import UnitCompiler.Proofs.RegisterOrder
import UnitCompiler.Proofs.WellFormed

namespace UnitCompiler

/-- The declarations are registered one after another, each with success. -/
inductive Decl.Entered :
    ScopeId → Target → Context → List Decl → Context → List Decl → Prop
  | nil {env : ScopeId} {target : Target} {c : Context} : Decl.Entered env target c [] c []
  | var {env : ScopeId} {target : Target} {c c₁ c' : Context} {site : Site} {v v' : Variable}
      {ds ds' : List Decl} (h : v.register env target c = .ok v' c₁)
      (rest : Decl.Entered env target c₁ ds c' ds') :
      Decl.Entered env target c (.var site v :: ds) c' (.var site v' :: ds')
  | array {env : ScopeId} {target : Target} {c c₁ c' : Context} {site : Site} {v v' : ArrayDecl}
      {ds ds' : List Decl} (h : v.register env target c = .ok v' c₁)
      (rest : Decl.Entered env target c₁ ds c' ds') :
      Decl.Entered env target c (.array site v :: ds) c' (.array site v' :: ds')
  | data {env : ScopeId} {target : Target} {c c₁ c' : Context} {site : Site} {d d' : DataItem}
      {ds ds' : List Decl} (h : d.register env c = .ok d' c₁)
      (rest : Decl.Entered env target c₁ ds c' ds') :
      Decl.Entered env target c (.data site d :: ds) c' (.data site d' :: ds')
  | struct {env : ScopeId} {target : Target} {c c₁ c' : Context} {site : Site}
      {head head' : StructHead} {fields : List (Option Decl)} {ds ds' : List Decl}
      (h : head.register env target c = .ok head' c₁)
      (rest : Decl.Entered env target c₁ ds c' ds') :
      Decl.Entered env target c (.struct site head fields :: ds) c' (.struct site head' fields :: ds')
  | function {env : ScopeId} {target : Target} {c c₁ c₂ c' : Context} {site : Site}
      {head : FunctionHead} {params params' : List (Option Decl)} {body : List Stmt}
      {ds ds' : List Decl} {result : TypeId} {i : Nat}
      (hresult : c.declaredType head.tag env = .ok result)
      (hparams : Decl.Entered env (.params c.types.size)
        (c.addType env (.function result .empty)).2 (DeclList.inOrder params) c₁
        (DeclList.inOrder params'))
      (hinsert : c₁.insert target { name := head.ident, ty := c.types.size, kind := .func }
        "identifier" = .ok (i, c₂))
      (rest : Decl.Entered env target c₂ ds c' ds') :
      Decl.Entered env target c (.function site head params body :: ds) c'
        (.function site { head with ty := some c.types.size } params' body :: ds')

theorem Decl.Entered.append {env : ScopeId} {target : Target} {c c₁ c' : Context}
    {ds ds' es es' : List Decl} (h : Decl.Entered env target c ds c₁ ds')
    (h' : Decl.Entered env target c₁ es c' es') :
    Decl.Entered env target c (ds ++ es) c' (ds' ++ es') := by
  induction h with
  | nil => exact h'
  | var h _ ih => exact .var h (ih h')
  | array h _ ih => exact .array h (ih h')
  | data h _ ih => exact .data h (ih h')
  | struct h _ ih => exact .struct h (ih h')
  | function hresult hparams hinsert _ _ ih => exact .function hresult hparams hinsert (ih h')

theorem Visited.leaf_eq_ok {ν α : Type} {old node : ν} {wrap : α → ν} {x : CheckM α} {s t : Session}
    (h : Visited.leaf old wrap x s = (⟨node, .ok ()⟩, t)) :
    ∃ a, x s.context = .ok a t.context ∧ node = wrap a := by
  cases hx : x s.context with
  | ok a c =>
    rw [Visited.leaf_of_ok hx] at h
    cases h
    exact ⟨a, rfl, rfl⟩
  | error d c =>
    rw [Visited.leaf_of_error hx] at h
    cases h

def DeclList.SameShape (seq seq' : DeclList) : Prop :=
  seq.map (Option.map Decl.isStruct) = seq'.map (Option.map Decl.isStruct)

/-- The first sequence gives the structs of a merger and the second one all else. -/
theorem DeclList.filter_merge {a b : DeclList} (h : a.SameShape b) (structs : Bool) :
    ((DeclList.merge a b).filterMap id).filter (·.isStruct = structs) =
      ((if structs then a else b).filterMap id).filter (·.isStruct = structs) := by
  unfold DeclList.merge
  induction a generalizing b with
  | nil =>
    obtain rfl : b = [] := by simpa [DeclList.SameShape] using h.symm
    cases structs <;> rfl
  | cons x a ih =>
    cases b with
    | nil => cases h
    | cons y b =>
      obtain ⟨hxy, hab⟩ := List.cons.inj h
      have hrest := ih hab
      cases x with
      | none =>
        obtain rfl : y = none := by simpa using hxy.symm
        cases structs <;> exact hrest
      | some d =>
        obtain ⟨d', rfl, hd'⟩ := Option.map_eq_some_iff.mp hxy.symm
        cases hd : d.isStruct <;> cases structs <;> rw [hd] at hd' <;> simpa [hd, hd'] using hrest

theorem Decl.Entered.isStruct {env : ScopeId} {target : Target} {c c' : Context} {ds ds' : List Decl}
    (h : Decl.Entered env target c ds c' ds') : ds'.map Decl.isStruct = ds.map Decl.isStruct := by
  induction h with
  | nil => rfl
  | var _ _ ih => exact congrArg (_ :: ·) ih
  | array _ _ ih => exact congrArg (_ :: ·) ih
  | data _ _ ih => exact congrArg (_ :: ·) ih
  | struct _ _ ih => exact congrArg (_ :: ·) ih
  | function _ _ _ _ _ ih => exact congrArg (_ :: ·) ih

theorem DeclList.inOrder_eq (seq : DeclList) :
    seq.inOrder = (seq.filterMap id).filter (·.isStruct = true) ++
      (seq.filterMap id).filter (·.isStruct = false) := by
  simp only [DeclList.inOrder, Bool.decide_eq_true, Bool.decide_eq_false]

/-- Two sweeps with success go through the structs and then through everything else. -/
theorem DeclList.inTwoSweeps_entered {env : ScopeId} {target : Target} {seq seq' : DeclList}
    {sweep : Bool → SessionM (Visited DeclList)}
    (hsweep : ∀ structs s t node, sweep structs s = (⟨node, .ok ()⟩, t) → seq.SameShape node ∧
      Decl.Entered env target s.context ((seq.filterMap id).filter (·.isStruct = structs)) t.context
        ((node.filterMap id).filter (·.isStruct = structs)))
    {s t : Session} (h : DeclList.inTwoSweeps sweep s = (⟨seq', .ok ()⟩, t)) :
    Decl.Entered env target s.context seq.inOrder t.context seq'.inOrder := by
  rcases h₁ : sweep true s with ⟨⟨first, o⟩, u⟩
  rw [DeclList.inTwoSweeps_run _ h₁] at h
  cases o with
  | error e => cases h
  | ok _ =>
    rcases h₂ : sweep false u with ⟨⟨second, o⟩, u'⟩
    simp only [h₂] at h
    obtain ⟨hnode, rfl⟩ := Prod.mk.inj h
    obtain ⟨rfl, rfl⟩ := Visited.mk.inj hnode
    obtain ⟨hshape, hfirst⟩ := hsweep true _ _ _ h₁
    obtain ⟨hshape', hsecond⟩ := hsweep false _ _ _ h₂
    have hmerge : first.SameShape second := hshape.symm.trans hshape'
    rw [DeclList.inOrder_eq, DeclList.inOrder_eq, DeclList.filter_merge hmerge,
      DeclList.filter_merge hmerge]
    exact hfirst.append hsecond

mutual

/-- A registration that succeeds has a derivation. -/
theorem Decl.register_entered (env : ScopeId) :
    ∀ (d : Decl) (target : Target) (s t : Session) (d' : Decl),
      d.register env target s = (⟨d', .ok ()⟩, t) →
      Decl.Entered env target s.context [d] t.context [d']
  | .var site v, target, s, t, d', h => by
    rw [Decl.register] at h
    obtain ⟨v', hv, rfl⟩ := Visited.leaf_eq_ok h
    exact .var hv .nil
  | .function site head params body, target, s, t, d', h => by
    rw [Decl.register] at h
    obtain ⟨d, -, he⟩ | ⟨result, ⟨params', o⟩, u, hresult, hp, h'⟩ := head.register_cases env target params
      (fun ty => DeclList.inTwoSweeps fun structs => DeclList.sweep structs env (.params ty) 0 params) s
    · rw [SessionM.bind_of_eq _ he] at h
      cases h
    · obtain ⟨d, -, he⟩ | ⟨i, c, ho, hinsert, he⟩ := h'
      · rw [SessionM.bind_of_eq _ he] at h
        cases h
      · rw [SessionM.bind_of_eq _ he] at h
        cases h
        obtain rfl : o = .ok () := ho
        -- parameters are entered into the new type, which is declared only afterwards
        have hparams := DeclList.inTwoSweeps_entered (fun structs s t node =>
          DeclList.sweep_entered env structs params (.params _) 0 s t node) hp
        exact .function hresult hparams hinsert .nil
  | .struct site head fields, target, s, t, d', h => by
    rw [Decl.register] at h
    obtain ⟨head', hh, rfl⟩ := Visited.leaf_eq_ok h
    exact .struct hh .nil
  | .data site d, target, s, t, d', h => by
    rw [Decl.register] at h
    obtain ⟨item', hd, rfl⟩ := Visited.leaf_eq_ok h
    exact .data hd .nil
  | .array site v, target, s, t, d', h => by
    rw [Decl.register] at h
    obtain ⟨v', hv, rfl⟩ := Visited.leaf_eq_ok h
    exact .array hv .nil

theorem DeclList.sweep_entered (env : ScopeId) (structs : Bool) :
    ∀ (seq : List (Option Decl)) (target : Target) (index : Nat) (s t : Session)
      (seq' : List (Option Decl)),
      DeclList.sweep structs env target index seq s = (⟨seq', .ok ()⟩, t) →
      DeclList.SameShape seq seq' ∧
      Decl.Entered env target s.context ((seq.filterMap id).filter (·.isStruct = structs)) t.context
        ((seq'.filterMap id).filter (·.isStruct = structs))
  | [], target, index, s, t, seq', h => by
    rw [DeclList.sweep] at h
    cases h
    exact ⟨rfl, .nil⟩
  | none :: rest, target, index, s, t, seq', h => by
    rw [DeclList.sweep_none] at h
    rcases hr : DeclList.sweep structs env target (index + 1) rest s with ⟨⟨node, o⟩, u⟩
    simp only [hr] at h
    cases h
    obtain ⟨hshape, hrest⟩ := DeclList.sweep_entered env structs rest target (index + 1) s t node hr
    exact ⟨congrArg (none :: ·) hshape, hrest⟩
  | some d :: rest, target, index, s, t, seq', h => by
    by_cases hd : d.isStruct = structs
    · rcases hr : d.register env target (Session.log (.visited .register index d.noun) s).2 with
        ⟨⟨here, o⟩, u⟩
      rw [DeclList.sweep_visit hd env target index rest hr] at h
      cases o with
      | error e => cases h
      | ok _ =>
        rcases hr' : DeclList.sweep structs env target (index + 1) rest u with ⟨⟨node, o⟩, u'⟩
        simp only [hr'] at h
        cases h
        -- the log before the visit leaves the context alone
        have hhere : Decl.Entered env target s.context [d] u.context [here] :=
          Decl.register_entered env d target (Session.log (.visited .register index d.noun) s).2 u here hr
        have hstruct : here.isStruct = d.isStruct := (List.cons.inj hhere.isStruct).1
        obtain ⟨hshape, hrest⟩ :=
          DeclList.sweep_entered env structs rest target (index + 1) u t node hr'
        refine ⟨?_, ?_⟩
        · unfold DeclList.SameShape at hshape ⊢
          simp [hstruct, hshape]
        · have hall := hhere.append hrest
          simpa [hstruct, hd] using hall
    · rw [DeclList.sweep_pass hd] at h
      rcases hr : DeclList.sweep structs env target (index + 1) rest s with ⟨⟨node, o⟩, u⟩
      simp only [hr] at h
      cases h
      obtain ⟨hshape, hrest⟩ := DeclList.sweep_entered env structs rest target (index + 1) s t node hr
      refine ⟨?_, ?_⟩
      · unfold DeclList.SameShape at hshape ⊢
        simp [hshape]
      · simpa [hd] using hrest

end

theorem DeclList.register_entered {env : ScopeId} {target : Target} {seq seq' : DeclList}
    {s t : Session} (h : seq.register env target s = (⟨seq', .ok ()⟩, t)) :
    Decl.Entered env target s.context seq.inOrder t.context seq'.inOrder :=
  DeclList.inTwoSweeps_entered (fun structs s t node =>
    DeclList.sweep_entered env structs seq target 0 s t node) h

theorem DeclList.inOrder_perm (seq : DeclList) : seq.inOrder.Perm (seq.filterMap id) :=
  List.filter_append_perm _ _

@[simp] theorem DeclList.forall_mem_inOrder {p : Decl → Prop} {seq : DeclList} :
    (∀ d ∈ seq.inOrder, p d) ↔ ∀ d ∈ seq.filterMap id, p d := by
  simp only [(DeclList.inOrder_perm seq).mem_iff]

/-- The statements are checked one after another, each with success. Functions may be nested. -/
inductive Stmt.Accepted : ScopeId → Context → List Stmt → Context → List Stmt → Prop
  | nil {env : ScopeId} {c : Context} : Stmt.Accepted env c [] c []
  | leaf {env : ScopeId} {c c₁ c' : Context} {d d' : Decl} {rest rest' : List Stmt}
      (hleaf : d.isLeaf = true) (h : Decl.Entered env (.scope env) c [d] c₁ [d'])
      (hrest : Stmt.Accepted env c₁ rest c' rest') :
      Stmt.Accepted env c (.declare d :: rest) c' (.declare d' :: rest')
  | struct {env : ScopeId} {c c₁ c₂ c₃ c' : Context} {site : Site} {head head' : StructHead}
      {fields fields' : List (Option Decl)} {ty : TypeId} {rest rest' : List Stmt}
      (h : Decl.Entered env (.scope env) c [.struct site head fields] c₁ [.struct site head' fields])
      (hty : head'.ty = some ty)
      (hfields : Decl.Entered env (.fields ty) c₁ (DeclList.inOrder fields) c₂ (DeclList.inOrder fields'))
      (hlayout : c₂.layOutFields ty (UInt32.ofNat wordSize) = .ok c₃)
      (hrest : Stmt.Accepted env c₃ rest c' rest') :
      Stmt.Accepted env c (.declare (.struct site head fields) :: rest) c'
        (.declare (.struct site head' fields') :: rest')
  | function {env scope : ScopeId} {c c₁ c₂ c₃ c' : Context} {site : Site} {head head' : FunctionHead}
      {params params' : List (Option Decl)} {body body' rest rest' : List Stmt}
      (h : Decl.Entered env (.scope env) c [.function site head params body] c₁
        [.function site head' params' body])
      (henter : head'.enter env c₁ = .ok scope c₂) (hbody : Stmt.Accepted scope c₂ body c₃ body')
      (hrest : Stmt.Accepted env c₃ rest c' rest') :
      Stmt.Accepted env c (.declare (.function site head params body) :: rest) c'
        (.declare (.function site { head' with env := some scope } params' body') :: rest')
  | block {env : ScopeId} {c c₁ c' : Context} {body body' : List Stmt} {span : Span}
      {rest rest' : List Stmt}
      (h : Stmt.Accepted (c.openBlock env).1 (c.openBlock env).2 body c₁ body')
      (hrest : Stmt.Accepted env c₁ rest c' rest') :
      Stmt.Accepted env c (.block body span :: rest) c' (.block body' span :: rest')
  | goto {env : ScopeId} {c c' : Context} {label : String} {span : Span} {old : Option ScopeId}
      {rest rest' : List Stmt} (hrest : Stmt.Accepted env (c.noteJump env label span) rest c' rest') :
      Stmt.Accepted env c (.goto label span old :: rest) c' (.goto label span (some env) :: rest')
  | label {env : ScopeId} {c c₁ c' : Context} {name : String} {span : Span} {old : Option ScopeId}
      {rest rest' : List Stmt} (h : c.placeLabel env name span = .ok c₁)
      (hrest : Stmt.Accepted env c₁ rest c' rest') :
      Stmt.Accepted env c (.label name span old :: rest) c' (.label name span (some env) :: rest')
  | eval {env : ScopeId} {c c' : Context} {e : Expr} {old : Option Value} {value : Value}
      {rest rest' : List Stmt} (h : e.check c env = .ok value)
      (hrest : Stmt.Accepted env c rest c' rest') :
      Stmt.Accepted env c (.eval e old :: rest) c' (.eval e (some value) :: rest')

inductive Decl.Accepted (env : ScopeId) : Context → List Decl → Context → List Decl → Prop
  | nil {c : Context} : Decl.Accepted env c [] c []
  | leaf {c c' : Context} {d : Decl} {ds ds' : List Decl} (hleaf : d.isLeaf = true)
      (rest : Decl.Accepted env c ds c' ds') : Decl.Accepted env c (d :: ds) c' (d :: ds')
  | struct {c c₁ c₂ c' : Context} {site : Site} {head : StructHead}
      {fields fields' : List (Option Decl)} {ty : TypeId} {ds ds' : List Decl}
      (hty : head.ty = some ty)
      (hfields : Decl.Entered env (.fields ty) c (DeclList.inOrder fields) c₁ (DeclList.inOrder fields'))
      (hlayout : c₁.layOutFields ty (UInt32.ofNat wordSize) = .ok c₂)
      (rest : Decl.Accepted env c₂ ds c' ds') :
      Decl.Accepted env c (.struct site head fields :: ds) c' (.struct site head fields' :: ds')
  | function {c c₁ c₂ c' : Context} {site : Site} {head : FunctionHead}
      {params : List (Option Decl)} {body body' : List Stmt} {scope : ScopeId} {ds ds' : List Decl}
      (henter : head.enter env c = .ok scope c₁) (hbody : Stmt.Accepted scope c₁ body c₂ body')
      (rest : Decl.Accepted env c₂ ds c' ds') :
      Decl.Accepted env c (.function site head params body :: ds) c'
        (.function site { head with env := some scope } params body' :: ds')

theorem Stmt.Accepted.append {env : ScopeId} {c c₁ c' : Context} {body body' rest rest' : List Stmt}
    (h : Stmt.Accepted env c body c₁ body') (h' : Stmt.Accepted env c₁ rest c' rest') :
    Stmt.Accepted env c (body ++ rest) c' (body' ++ rest') := by
  induction h with
  | nil => exact h'
  | leaf hleaf hd _ ih => exact .leaf hleaf hd (ih h')
  | struct hd hty hfields hlayout _ ih => exact .struct hd hty hfields hlayout (ih h')
  | function hd henter hbody _ _ ih => exact .function hd henter hbody (ih h')
  | block hbody _ _ ih => exact .block hbody (ih h')
  | goto _ ih => exact .goto (ih h')
  | label hl _ ih => exact .label hl (ih h')
  | eval he _ ih => exact .eval he (ih h')

theorem Decl.checkWith_struct_eq_ok {env : ScopeId} {runBody : ScopeId → SessionM (Visited (List Stmt))}
    {site : Site} {head : StructHead} {fields : List (Option Decl)} {d : Decl} {s t : Session}
    (h : (Decl.struct site head fields).checkWith env runBody s = (⟨d, .ok ()⟩, t)) :
    ∃ ty fields' u, head.ty = some ty ∧
      DeclList.register env (.fields ty) fields s = (⟨fields', .ok ()⟩, u) ∧
      u.context.layOutFields ty (UInt32.ofNat wordSize) = .ok t.context ∧ d = .struct site head fields' := by
  rw [Decl.checkWith] at h
  cases hty : head.ty with
  | none => simp only [hty] at h; cases h
  | some ty =>
    simp only [hty] at h
    rcases hf : DeclList.register env (.fields ty) fields s with ⟨⟨fields', o⟩, u⟩
    rw [SessionM.bind_of_eq _ hf] at h
    cases o with
    | error e => cases h
    | ok _ =>
      dsimp only at h
      have hl := Session.attempt_change? (fun c => c.layOutFields ty (UInt32.ofNat wordSize)) u
      cases hc : u.context.layOutFields ty (UInt32.ofNat wordSize) with
      | error e =>
        simp only [hc] at hl
        rw [SessionM.bind_of_eq _ hl] at h
        cases h
      | ok c =>
        simp only [hc] at hl
        rw [SessionM.bind_of_eq _ hl] at h
        cases h
        exact ⟨ty, fields', u, rfl, hf, hc, rfl⟩

theorem Decl.checkWith_function_eq_ok {env : ScopeId} {runBody : ScopeId → SessionM (Visited (List Stmt))}
    {site : Site} {head : FunctionHead} {params : List (Option Decl)} {body : List Stmt} {d : Decl}
    {s t : Session}
    (h : (Decl.function site head params body).checkWith env runBody s = (⟨d, .ok ()⟩, t)) :
    ∃ scope c body', head.enter env s.context = .ok scope c ∧
      runBody scope { s with context := c } = (⟨body', .ok ()⟩, t) ∧
      d = .function site { head with env := some scope } params body' := by
  rw [Decl.checkWith] at h
  cases he : head.enter env s.context with
  | error e c =>
    rw [SessionM.bind_of_eq _ (Session.attempt_of_error he)] at h
    cases h
  | ok scope c =>
    rw [SessionM.bind_of_eq _ (Session.attempt_of_ok he)] at h
    dsimp only at h
    rcases hb : runBody scope { s with context := c } with ⟨⟨body', o⟩, u⟩
    rw [SessionM.bind_of_eq _ hb] at h
    cases h
    exact ⟨scope, c, body', rfl, hb, rfl⟩

theorem Stmt.checkAll_cons_eq_ok {stmt : Stmt} {rest body' : List Stmt} {env : ScopeId} {s t : Session}
    (h : Stmt.checkAll (stmt :: rest) env s = (⟨body', .ok ()⟩, t)) :
    ∃ stmt' rest' u, stmt.check env s = (⟨stmt', .ok ()⟩, u) ∧
      Stmt.checkAll rest env u = (⟨rest', .ok ()⟩, t) ∧ body' = stmt' :: rest' := by
  rcases hs : stmt.check env s with ⟨⟨stmt', o⟩, u⟩
  rw [Stmt.checkAll, SessionM.bind_of_eq _ hs] at h
  cases o with
  | error e => cases h
  | ok _ =>
    rcases hr : Stmt.checkAll rest env u with ⟨⟨rest', o⟩, u'⟩
    dsimp only at h
    rw [SessionM.bind_of_eq _ hr] at h
    cases h
    exact ⟨stmt', rest', u, rfl, hr, rfl⟩

mutual

theorem Stmt.check_accepted : ∀ (stmt : Stmt) (env : ScopeId) (s t : Session) (stmt' : Stmt),
    stmt.check env s = (⟨stmt', .ok ()⟩, t) → Stmt.Accepted env s.context [stmt] t.context [stmt']
  | .declare d, env, s, t, stmt', h => by
    rcases hd : d.register env (.scope env) s with ⟨⟨d', o⟩, u⟩
    rw [Stmt.check, SessionM.bind_of_eq _ hd] at h
    cases o with
    | error e => cases h
    | ok _ =>
      -- a declaration inside a body is registered and checked at once
      have hentered := Decl.register_entered env d (.scope env) s u d' hd
      dsimp only at h
      rcases hc : d'.checkWith env (fun scope => Decl.checkBody d scope) u with ⟨⟨d'', o⟩, v⟩
      rw [SessionM.bind_of_eq _ hc] at h
      cases o with
      | error e => cases h
      | ok _ =>
        cases h
        exact Decl.checkBody_accepted d env s.context d' u t d'' hentered hc
  | .block body span, env, s, t, stmt', h => by
    rw [Stmt.check_block] at h
    rcases hb : Stmt.checkAll body (s.context.openBlock env).1
      { s with context := (s.context.openBlock env).2 } with ⟨⟨body', o⟩, u⟩
    simp only [hb] at h
    cases h
    exact .block (Stmt.checkAll_accepted body _ _ t body' hb) .nil
  | .goto name span old, env, s, t, stmt', h => by
    rw [Stmt.check_goto] at h
    cases h
    exact .goto .nil
  | .label name span old, env, s, t, stmt', h => by
    rw [Stmt.check_label] at h
    cases hl : s.context.placeLabel env name span with
    | error d => simp only [hl] at h; cases h
    | ok c =>
      simp only [hl] at h
      cases h
      exact .label hl .nil
  | .eval e old, env, s, t, stmt', h => by
    rw [Stmt.check_eval] at h
    cases he : e.check s.context env with
    | error d => simp only [he] at h; cases h
    | ok value =>
      simp only [he] at h
      cases h
      exact .eval he .nil

/-- A declared function or struct is checked right after its registration. -/
theorem Decl.checkBody_accepted : ∀ (d : Decl) (env : ScopeId) (c : Context) (d' : Decl) (s t : Session)
    (d'' : Decl), Decl.Entered env (.scope env) c [d] s.context [d'] →
    d'.checkWith env (fun scope => Decl.checkBody d scope) s = (⟨d'', .ok ()⟩, t) →
      Stmt.Accepted env c [.declare d] t.context [.declare d'']
  | .function site head params body, env, c, d', s, t, d'', hd, h => by
    -- registration changes the head and the parameters but not the body, which is checked as written
    obtain ⟨head', params', rfl⟩ : ∃ head' params', d' = .function site head' params' body := by
      cases hd with
      | function => exact ⟨_, _, rfl⟩
    obtain ⟨scope, c', body', henter, hb, rfl⟩ := Decl.checkWith_function_eq_ok h
    rw [Decl.checkBody] at hb
    exact .function hd henter (Stmt.checkAll_accepted body scope _ t body' hb) .nil
  | .struct site head fields, env, c, d', s, t, d'', hd, h => by
    obtain ⟨head', rfl⟩ : ∃ head', d' = .struct site head' fields := by
      cases hd with
      | struct => exact ⟨_, rfl⟩
    obtain ⟨ty, fields', u, hty, hfields, hlayout, rfl⟩ := Decl.checkWith_struct_eq_ok h
    exact .struct hd hty (DeclList.register_entered hfields) hlayout .nil
  | .var _ _, env, c, d', s, t, d'', hd, h => by
    cases hd with
    | var hv hnil =>
      cases h
      exact .leaf rfl (.var hv hnil) .nil
  | .data _ _, env, c, d', s, t, d'', hd, h => by
    cases hd with
    | data hv hnil =>
      cases h
      exact .leaf rfl (.data hv hnil) .nil
  | .array _ _, env, c, d', s, t, d'', hd, h => by
    cases hd with
    | array hv hnil =>
      cases h
      exact .leaf rfl (.array hv hnil) .nil

/-- A check that succeeds has a derivation. -/
theorem Stmt.checkAll_accepted : ∀ (body : List Stmt) (env : ScopeId) (s t : Session) (body' : List Stmt),
    Stmt.checkAll body env s = (⟨body', .ok ()⟩, t) → Stmt.Accepted env s.context body t.context body'
  | [], env, s, t, body', h => by
    rw [Stmt.checkAll] at h
    cases h
    exact .nil
  | stmt :: rest, env, s, t, body', h => by
    obtain ⟨stmt', rest', u, hs, hr, rfl⟩ := Stmt.checkAll_cons_eq_ok h
    exact (Stmt.check_accepted stmt env s u stmt' hs).append (Stmt.checkAll_accepted rest env u t rest' hr)

end

theorem Decl.Accepted.append {env : ScopeId} {c c₁ c' : Context} {ds ds' es es' : List Decl}
    (h : Decl.Accepted env c ds c₁ ds') (h' : Decl.Accepted env c₁ es c' es') :
    Decl.Accepted env c (ds ++ es) c' (ds' ++ es') := by
  induction h with
  | nil => exact h'
  | leaf hleaf _ ih => exact .leaf hleaf (ih h')
  | struct hty hfields hlayout _ ih => exact .struct hty hfields hlayout (ih h')
  | function henter hbody _ ih => exact .function henter hbody (ih h')

theorem Decl.check_accepted {d d' : Decl} {env : ScopeId} {s t : Session}
    (h : d.check env s = (⟨d', .ok ()⟩, t)) : Decl.Accepted env s.context [d] t.context [d'] := by
  cases d with
  | var | array | data =>
    cases h
    exact .leaf rfl .nil
  | struct site head fields =>
    obtain ⟨ty, fields', u, hty, hfields, hlayout, rfl⟩ := Decl.checkWith_struct_eq_ok h
    exact .struct hty (DeclList.register_entered hfields) hlayout .nil
  | function site head params body =>
    obtain ⟨scope, c, body', henter, hb, rfl⟩ := Decl.checkWith_function_eq_ok h
    rw [Decl.checkBody] at hb
    exact .function henter (Stmt.checkAll_accepted body scope _ t body' hb) .nil

theorem DeclList.checkFrom_accepted {env : ScopeId} {seq seq' : DeclList} {index : Nat} {s t : Session}
    (h : DeclList.checkFrom env index seq s = (⟨seq', .ok ()⟩, t)) :
    Decl.Accepted env s.context (seq.filterMap id) t.context (seq'.filterMap id) := by
  induction seq generalizing index seq' s with
  | nil =>
    cases h
    exact .nil
  | cons slot rest ih =>
    cases slot with
    | none =>
      rcases hr : DeclList.checkFrom env (index + 1) rest s with ⟨⟨rest', o⟩, u⟩
      rw [DeclList.checkFrom, SessionM.bind_of_eq _ hr] at h
      cases h
      have hrest : Decl.Accepted env s.context (rest.filterMap id) t.context (rest'.filterMap id) := ih hr
      exact hrest
    | some d =>
      rcases hd : d.check env (Session.log (.visited .check index d.noun) s).2 with ⟨⟨d', o⟩, u⟩
      rw [DeclList.checkFrom, SessionM.bind_log, SessionM.bind_of_eq _ hd] at h
      cases o with
      | error e => cases h
      | ok _ =>
        rcases hr : DeclList.checkFrom env (index + 1) rest u with ⟨⟨rest', o⟩, u'⟩
        dsimp only at h
        rw [SessionM.bind_of_eq _ hr] at h
        cases h
        have hhere : Decl.Accepted env s.context [d] u.context [d'] :=
          Decl.check_accepted (s := (Session.log (.visited .check index d.noun) s).2) hd
        exact hhere.append (ih hr)

/-- The statements of a well-formed body are checked one after another, each with success. -/
inductive Stmt.Checked : ScopeId → Context → List Stmt → Context → List Stmt → Prop
  | nil {env : ScopeId} {c : Context} : Stmt.Checked env c [] c []
  | declare {env : ScopeId} {c c₁ c' : Context} {d d' : Decl} {rest rest' : List Stmt}
      (hlocal : d.isLocal = true) (h : Decl.Entered env (.scope env) c [d] c₁ [d'])
      (hrest : Stmt.Checked env c₁ rest c' rest') :
      Stmt.Checked env c (.declare d :: rest) c' (.declare d' :: rest')
  | block {env : ScopeId} {c c₁ c' : Context} {body body' : List Stmt} {span : Span}
      {rest rest' : List Stmt}
      (h : Stmt.Checked (c.openBlock env).1 (c.openBlock env).2 body c₁ body')
      (hrest : Stmt.Checked env c₁ rest c' rest') :
      Stmt.Checked env c (.block body span :: rest) c' (.block body' span :: rest')
  | goto {env : ScopeId} {c c' : Context} {label : String} {span : Span} {old : Option ScopeId}
      {rest rest' : List Stmt} (hrest : Stmt.Checked env (c.noteJump env label span) rest c' rest') :
      Stmt.Checked env c (.goto label span old :: rest) c' (.goto label span (some env) :: rest')
  | label {env : ScopeId} {c c₁ c' : Context} {name : String} {span : Span} {old : Option ScopeId}
      {rest rest' : List Stmt} (h : c.placeLabel env name span = .ok c₁)
      (hrest : Stmt.Checked env c₁ rest c' rest') :
      Stmt.Checked env c (.label name span old :: rest) c' (.label name span (some env) :: rest')
  | eval {env : ScopeId} {c c' : Context} {e : Expr} {old : Option Value} {value : Value}
      {rest rest' : List Stmt} (h : e.check c env = .ok value)
      (hrest : Stmt.Checked env c rest c' rest') :
      Stmt.Checked env c (.eval e old :: rest) c' (.eval e (some value) :: rest')

inductive Decl.Checked (env : ScopeId) : Context → List Decl → Context → List Decl → Prop
  | nil {c : Context} : Decl.Checked env c [] c []
  | var {c c' : Context} {site : Site} {v : Variable} {ds ds' : List Decl}
      (rest : Decl.Checked env c ds c' ds') :
      Decl.Checked env c (.var site v :: ds) c' (.var site v :: ds')
  | array {c c' : Context} {site : Site} {v : ArrayDecl} {ds ds' : List Decl}
      (rest : Decl.Checked env c ds c' ds') :
      Decl.Checked env c (.array site v :: ds) c' (.array site v :: ds')
  | data {c c' : Context} {site : Site} {d : DataItem} {ds ds' : List Decl}
      (rest : Decl.Checked env c ds c' ds') :
      Decl.Checked env c (.data site d :: ds) c' (.data site d :: ds')
  | struct {c c₁ c₂ c' : Context} {site : Site} {head : StructHead}
      {fields fields' : List (Option Decl)} {ty : TypeId} {ds ds' : List Decl}
      (hty : head.ty = some ty)
      (hfields : Decl.Entered env (.fields ty) c (DeclList.inOrder fields) c₁
        (DeclList.inOrder fields'))
      (hlayout : c₁.layOutFields ty (UInt32.ofNat wordSize) = .ok c₂)
      (rest : Decl.Checked env c₂ ds c' ds') :
      Decl.Checked env c (.struct site head fields :: ds) c' (.struct site head fields' :: ds')
  | function {c c₁ c₂ c' : Context} {site : Site} {head : FunctionHead}
      {params : List (Option Decl)} {body body' : List Stmt} {scope : ScopeId} {ds ds' : List Decl}
      (henter : head.enter env c = .ok scope c₁) (hbody : Stmt.Checked scope c₁ body c₂ body')
      (rest : Decl.Checked env c₂ ds c' ds') :
      Decl.Checked env c (.function site head params body :: ds) c'
        (.function site { head with env := some scope } params body' :: ds')

theorem Stmt.Accepted.checked {env : ScopeId} {c c' : Context} {body body' : List Stmt}
    (h : Stmt.Accepted env c body c' body') (hwf : Stmt.areWellFormed body = true) :
    Stmt.Checked env c body c' body' := by
  induction h with
  | nil => exact .nil
  | leaf _ hd _ ih =>
    rw [Stmt.areWellFormed, Stmt.isWellFormed, Bool.and_eq_true] at hwf
    exact .declare hwf.1 hd (ih hwf.2)
  | struct | function =>
    rw [Stmt.areWellFormed, Stmt.isWellFormed, Bool.and_eq_true] at hwf
    cases hwf.1
  | block _ _ ihbody ih =>
    rw [Stmt.areWellFormed, Stmt.isWellFormed, Bool.and_eq_true] at hwf
    exact .block (ihbody hwf.1) (ih hwf.2)
  | goto _ ih =>
    rw [Stmt.areWellFormed, Bool.and_eq_true] at hwf
    exact .goto (ih hwf.2)
  | label hl _ ih =>
    rw [Stmt.areWellFormed, Bool.and_eq_true] at hwf
    exact .label hl (ih hwf.2)
  | eval he _ ih =>
    rw [Stmt.areWellFormed, Bool.and_eq_true] at hwf
    exact .eval he (ih hwf.2)

theorem Stmt.Checked.accepted {env : ScopeId} {c c' : Context} {body body' : List Stmt}
    (h : Stmt.Checked env c body c' body') : Stmt.Accepted env c body c' body' := by
  induction h with
  | nil => exact .nil
  | declare hlocal hd _ ih => exact .leaf (Decl.isLeaf_of_isLocal hlocal) hd ih
  | block _ _ ihbody ih => exact .block ihbody ih
  | goto _ ih => exact .goto ih
  | label hl _ ih => exact .label hl ih
  | eval he _ ih => exact .eval he ih

theorem Decl.Accepted.checked {env : ScopeId} {c c' : Context} {ds ds' : List Decl}
    (h : Decl.Accepted env c ds c' ds') (hbody : ∀ site head params body,
      Decl.function site head params body ∈ ds → Stmt.areWellFormed body = true) :
    Decl.Checked env c ds c' ds' := by
  have htail {d : Decl} {ds : List Decl} (hbody : ∀ site head params body,
      Decl.function site head params body ∈ d :: ds → Stmt.areWellFormed body = true) :
      ∀ site head params body, Decl.function site head params body ∈ ds → Stmt.areWellFormed body = true :=
    fun site head params body hd => hbody site head params body (List.mem_cons_of_mem _ hd)
  induction h with
  | nil => exact .nil
  | @leaf _ _ d _ _ hleaf _ ih =>
    cases d with
    | var => exact .var (ih (htail hbody))
    | array => exact .array (ih (htail hbody))
    | data => exact .data (ih (htail hbody))
    | struct | function => cases hleaf
  | struct hty hfields hlayout _ ih => exact .struct hty hfields hlayout (ih (htail hbody))
  | function henter hb _ ih =>
    exact .function henter (hb.checked (hbody _ _ _ _ List.mem_cons_self)) (ih (htail hbody))

theorem Decl.Checked.accepted {env : ScopeId} {c c' : Context} {ds ds' : List Decl}
    (h : Decl.Checked env c ds c' ds') : Decl.Accepted env c ds c' ds' := by
  induction h with
  | nil => exact .nil
  | var _ ih | array _ ih | data _ ih => exact .leaf rfl ih
  | struct hty hfields hlayout _ ih => exact .struct hty hfields hlayout ih
  | function henter hbody _ ih => exact .function henter hbody.accepted ih

theorem Stmt.check_checked {stmt stmt' : Stmt} {env : ScopeId} {s t : Session} (hwf : stmt.isWellFormed = true)
    (h : stmt.check env s = (⟨stmt', .ok ()⟩, t)) : Stmt.Checked env s.context [stmt] t.context [stmt'] :=
  (Stmt.check_accepted stmt env s t stmt' h).checked
    (by rw [Stmt.areWellFormed, hwf, Stmt.areWellFormed, Bool.and_self])

theorem DeclList.checkFrom_checked {env : ScopeId} {seq seq' : DeclList} {index : Nat} {s t : Session}
    (hbody : ∀ site head params body, Decl.function site head params body ∈ seq.filterMap id →
      Stmt.areWellFormed body = true)
    (h : DeclList.checkFrom env index seq s = (⟨seq', .ok ()⟩, t)) :
    Decl.Checked env s.context (seq.filterMap id) t.context (seq'.filterMap id) :=
  (DeclList.checkFrom_accepted h).checked hbody

end UnitCompiler
