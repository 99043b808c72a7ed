import UnitCompiler.Proofs.FrameLayout
import UnitCompiler.Proofs.KeptScopes
import UnitCompiler.Proofs.Yields
import Mathlib.Data.List.Perm.Basic

namespace UnitCompiler

open Context

inductive Holding where
  | number
  | text
  | object
  | array (label : String)
deriving DecidableEq, Repr

def TypeTag.holding : TypeTag → Holding
  | .string => .text
  | .named _ => .object
  | .default | .int | .float => .number

def Ty.holding : Ty → Holding
  | .string => .text
  | .struct _ _ => .object
  | .array label _ _ => .array label
  | .int | .float | .function _ _ | .const _ => .number

def Arena.holding (types : Arena) (ty : TypeId) : Holding :=
  (types.get? ty).elim .number Ty.holding

theorem Arena.holding_eq {types : Arena} {ty : TypeId} {t : Ty} (h : types.get? ty = some t) :
    types.holding ty = t.holding := by
  rw [Arena.holding, h]
  rfl

theorem Arena.isConst_eq {types : Arena} {ty : TypeId} {t : Ty} (h : types.get? ty = some t) :
    types.isConst ty = t.isConst := by
  rw [Arena.isConst, h]
  rfl

theorem Context.exists_declaredType {c final : Context} (htypes : final.types.Standard) (hext : Extends c final)
    {tag : TypeTag} {env : ScopeId} {ty : TypeId} (h : c.declaredType tag env = .ok ty) :
    ∃ t, final.types.get? ty = some t ∧ t.holding = tag.holding ∧ t.isConst = false := by
  cases denotes_of_declaredType h with
  | default | int => exact ⟨.int, htypes.int, rfl, rfl⟩
  | float => exact ⟨.float, htypes.float, rfl, rfl⟩
  | string => exact ⟨.string, htypes.string, rfl, rfl⟩
  | named hn =>
    obtain ⟨-, -, -, -, -, hstruct⟩ := structNamed?_eq_some hn
    obtain ⟨struct, fields, hget₀⟩ := Arena.exists_of_isStruct hstruct
    obtain ⟨_, hget, fields', rfl⟩ := hext.types hget₀
    exact ⟨_, hget, rfl, rfl⟩

/-- The declaration that a statement makes of something with a word in the frame. Constants have none. -/
def Stmt.local? : Stmt → Option Decl
  | .declare (.var site v) => if v.kind.has .const then none else some (.var site v)
  | .declare d => some d
  | .block _ _ | .goto _ _ _ | .label _ _ _ | .eval _ _ => none

def Stmt.locals (body : List Stmt) : List Decl :=
  (Stmt.atomsOfAll body).filterMap Stmt.local?

@[simp] theorem Stmt.locals_declare (d : Decl) (rest : List Stmt) :
    Stmt.locals (.declare d :: rest) = (Stmt.local? (.declare d)).toList ++ Stmt.locals rest := by
  change List.filterMap Stmt.local? (.declare d :: Stmt.atomsOfAll rest) = _
  rw [List.filterMap_cons]
  cases Stmt.local? (.declare d) <;> rfl

@[simp] theorem Stmt.locals_block (body : List Stmt) (span : Span) (rest : List Stmt) :
    Stmt.locals (.block body span :: rest) = Stmt.locals body ++ Stmt.locals rest :=
  List.filterMap_append

/-- The variable has the name that is written, and it holds what the type holds that is written. -/
def Decl.Written (types : Arena) : Decl → ScopeId × String × TypeId × Bool → Prop
  | .var _ v, (_, name, ty, isParam) => name = v.ident ∧ types.holding ty = v.tag.holding ∧ isParam = false
  | .array _ v, (_, name, ty, isParam) => name = v.ident ∧ (∃ label, types.holding ty = .array label) ∧ isParam = false
  | .function _ _ _ _, _ | .struct _ _ _, _ | .data _ _, _ => False

/-- The checked declaration refers to the variable: by the scope it was registered in, or by the array type. -/
def Decl.RefersTo : Decl → ScopeId × String × TypeId × Bool → Prop
  | .var _ v, (env, name, _, _) => v.ident = name ∧ ∃ init, v.registration = some ⟨env, init⟩
  | .array _ v, (_, name, ty, _) => v.ident = name ∧ v.ty = some ty
  | .function _ _ _ _, _ | .struct _ _ _, _ | .data _ _, _ => False

def Record.variables (types : Arena) (env : ScopeId) (rs : List Record) : List (ScopeId × String × TypeId × Bool) :=
  (rs.filter (Record.inFrame types)).map fun r => (env, r.name, r.ty, r.kind.has .param)

theorem Context.frameVariables_eq (c : Context) (env : ScopeId) :
    c.frameVariables env = Record.variables c.types env (c.scope env).decls.records := rfl

@[simp] theorem Record.variables_append (types : Arena) (env : ScopeId) (rs rs' : List Record) :
    Record.variables types env (rs ++ rs') = Record.variables types env rs ++ Record.variables types env rs' := by
  rw [Record.variables, List.filter_append, List.map_append]
  rfl

section Entered

variable {env : ScopeId} {c c' final : Context} {d d' : Decl}

/-- One local declaration leaves one record. It is in the frame unless the declaration is that of a constant. -/
structure Decl.Leaves (types : Arena) (env : ScopeId) (d d' : Decl) (r : Record) : Prop where
  written : List.Forall₂ (Decl.Written types) (Stmt.local? (.declare d)).toList (Record.variables types env [r])
  checked : List.Forall₂ Decl.RefersTo (Stmt.local? (.declare d')).toList (Record.variables types env [r])

theorem Record.variables_localVar {types : Arena} {r : Record} (hkind : r.kind = .localVar)
    (hconst : types.isConst r.ty = false) (env : ScopeId) :
    Record.variables types env [r] = [(env, r.name, r.ty, false)] := by
  have hin : r.inFrame types = true := by
    rw [Record.inFrame, hkind, hconst]
    decide
  have hparam : r.kind.has .param = false := by
    rw [hkind]
    decide
  simp only [Record.variables, List.filter_cons_of_pos hin, List.filter_nil, List.map_cons, List.map_nil, hparam]

theorem Record.variables_const {types : Arena} {r : Record} (hkind : r.kind.has .const = true) (env : ScopeId) :
    Record.variables types env [r] = [] := by
  have hin : ¬ r.inFrame types = true := by
    rw [Record.inFrame, Kind.isStored, hkind]
    simp
  rw [Record.variables, List.filter_cons_of_neg hin]
  rfl

theorem Decl.leaves_of_localVar {types : Arena} {r : Record} (hd : Stmt.local? (.declare d) = some d)
    (hd' : Stmt.local? (.declare d') = some d') (hkind : r.kind = .localVar) (hconst : types.isConst r.ty = false)
    (hwritten : d.Written types (env, r.name, r.ty, false)) (hchecked : d'.RefersTo (env, r.name, r.ty, false)) :
    Decl.Leaves types env d d' r := by
  constructor
  · rw [hd, Record.variables_localVar hkind hconst]
    exact .cons hwritten .nil
  · rw [hd', Record.variables_localVar hkind hconst]
    exact .cons hchecked .nil

theorem Variable.Recorded.leaves {site : Site} {v : Variable} {declared : TypeId} {c₁ : Context} {r : Record}
    {kept : Option Value} {types : Arena} (h : v.Recorded env declared c c₁ r kept)
    (hkind : v.kind = .localVar ∨ v.kind = .union .localVar .const) (hholding : types.holding declared = v.tag.holding)
    (hplain : types.isConst declared = false) :
    Decl.Leaves types env (.var site v) (.var site { v with registration := some ⟨env, kept⟩ }) r := by
  have hentry := h.entry
  obtain ⟨hname, hrkind⟩ : r.name = v.ident ∧ r.kind = v.kind := Prod.mk.inj hentry
  obtain hkind | hkind := hkind
  · have hconst : v.kind.has .const = false := by
      rw [hkind]
      decide
    have hty : r.ty = declared := by
      cases h with
      | plain | computed | defaulted => rfl
      | constant _ hc => rw [hconst] at hc; cases hc
    refine Decl.leaves_of_localVar ?_ ?_ (hrkind.trans hkind) (hty ▸ hplain) ?_ ?_
    · simp only [Stmt.local?, hconst]
      rfl
    · simp only [Stmt.local?, hconst]
      rfl
    · exact ⟨hname, hty ▸ hholding, rfl⟩
    · exact ⟨hname.symm, kept, rfl⟩
  · have hconst : v.kind.has .const = true := by
      rw [hkind]
      decide
    constructor <;> rw [Record.variables_const (hrkind ▸ hconst)] <;> simp only [Stmt.local?, hconst] <;> exact .nil

def Decl.Adds (c c' final : Context) (env : ScopeId) (d d' : Decl) : Prop :=
  ∃ r, (c'.scope env).decls.records = (c.scope env).decls.records ++ [r] ∧ Decl.Leaves final.types env d d' r

theorem Context.adds_of_insert {c₁ : Context} {r : Record} {what : String} {i : Nat} (henv : env < c₁.scopes.length)
    (hsame : (c₁.scope env).decls = (c.scope env).decls) (hins : c₁.insert (.scope env) r what = .ok (i, c'))
    (h : Decl.Leaves final.types env d d' r) : Decl.Adds c c' final env d d' := by
  obtain ⟨htable, -⟩ := table?_insert (hasTarget_scope henv) rfl hins
  refine ⟨r, ?_, h⟩
  rw [decls_of_table? htable, hsame]

theorem Variable.register_adds {site : Site} {v v' : Variable} (h : v.register env (.scope env) c = .ok v' c')
    (hlocal : (Decl.var site v).isLocal = true) (henv : env < c.scopes.length) (htypes : final.types.Standard)
    (hext : Extends c' final) : Decl.Adds c c' final env (.var site v) (.var site v') := by
  have hv : (v.kind = .localVar ∨ v.kind = .union .localVar .const) ∧ v.registration = none := by
    simpa [Decl.isLocal, Decl.isVarOf, Decl.isArrayOf] using hlocal
  obtain ⟨declared, c₁, r, kept, i, hdeclared, hrec, hins, rfl⟩ := Variable.register_eq_ok hv.2 h
  obtain ⟨ty, hget, hholding, hplain⟩ :=
    exists_declaredType htypes ((Variable.register_grows h).extends.trans hext) hdeclared
  have htable : c₁.table? (.scope env) = some (c.scope env).decls := hrec.table? rfl
  refine adds_of_insert (hrec.grows.extends.lt_length henv) (decls_of_table? htable) hins ?_
  exact hrec.leaves hv.1 ((Arena.holding_eq hget).trans hholding) ((Arena.isConst_eq hget).trans hplain)

theorem ArrayDecl.register_adds {site : Site} {v v' : ArrayDecl} (h : v.register env (.scope env) c = .ok v' c')
    (hlocal : (Decl.array site v).isLocal = true) (henv : env < c.scopes.length) (hext : Extends c' final) :
    Decl.Adds c c' final env (.array site v) (.array site v') := by
  have hkind : v.kind = .localVar := by
    simpa [Decl.isLocal, Decl.isVarOf, Decl.isArrayOf] using hlocal
  obtain ⟨element, sizes, i, -, -, hins, rfl⟩ := ArrayDecl.register_eq_ok h
  let c₁ := (c.freshLabel.2.addType env (.array c.freshLabel.1 element sizes)).2
  have hnew : c₁.types.get? c.types.size = some (.array c.freshLabel.1 element sizes) :=
    get?_addType_self c.freshLabel.2 env _
  obtain ⟨_, hget, rfl⟩ := ((extends_insert hins).trans hext).types hnew
  have hlength : env < c₁.scopes.length :=
    ((extends_freshLabel c).trans
      (extends_addType c.freshLabel.2 env (.array c.freshLabel.1 element sizes))).lt_length henv
  refine adds_of_insert hlength (sameScope_addType c.freshLabel.2 env _ env).decls hins ?_
  exact Decl.leaves_of_localVar rfl rfl hkind (Arena.isConst_eq hget) ⟨rfl, ⟨_, Arena.holding_eq hget⟩, rfl⟩ ⟨rfl, rfl⟩

theorem Decl.Entered.adds (h : Decl.Entered env (.scope env) c [d] c' [d']) (hlocal : d.isLocal = true)
    (henv : env < c.scopes.length) (htypes : final.types.Standard) (hext : Extends c' final) :
    Decl.Adds c c' final env d d' := by
  cases h with
  | var hd hnil =>
    cases hnil
    exact Variable.register_adds hd hlocal henv htypes hext
  | array hd hnil =>
    cases hnil
    exact ArrayDecl.register_adds hd hlocal henv hext
  | data | struct | function => cases hlocal

end Entered

section Accepted

variable {env : ScopeId} {c c' final : Context} {body body' rest rest' : List Stmt} {rs : List Record}
  {ks order : List ScopeId}

/-- The records and blocks `rs` and `ks` of a scope come from the statements: the variables in the frame, there and
in all the blocks, are those that the statements declare at any depth. -/
def Stmt.Accounts (final : Context) (env : ScopeId) (body body' : List Stmt) (rs : List Record) (ks : List ScopeId) :
    Prop :=
  ∃ order vs, Walks final ks order ∧ List.Forall₂ (Decl.Written final.types) (Stmt.locals body) vs ∧
    List.Forall₂ Decl.RefersTo (Stmt.locals body') vs ∧
    vs.Perm (Record.variables final.types env rs ++ order.flatMap final.frameVariables)

theorem Stmt.accounts_nil (final : Context) (env : ScopeId) : Stmt.Accounts final env [] [] [] [] :=
  ⟨[], [], .nil, .nil, .nil, .refl _⟩

theorem Stmt.Accounts.declare {d d' : Decl} {r : Record} (hd : Decl.Leaves final.types env d d' r)
    (h : Stmt.Accounts final env rest rest' rs ks) :
    Stmt.Accounts final env (.declare d :: rest) (.declare d' :: rest') (r :: rs) ks := by
  obtain ⟨order, vs, hwalks, hwritten, hchecked, hperm⟩ := h
  refine ⟨order, Record.variables final.types env [r] ++ vs, hwalks, ?_, ?_, ?_⟩
  · simpa using List.rel_append hd.written hwritten
  · simpa using List.rel_append hd.checked hchecked
  · have hvariables := Record.variables_append final.types env [r] rs
    rw [List.singleton_append] at hvariables
    rw [hvariables, List.append_assoc]
    exact hperm.append_left _

theorem Stmt.Accounts.block {b : ScopeId} {span span' : Span} (hb : b < final.scopes.length)
    (hbody : Stmt.Accounts final b body body' (final.scope b).decls.records (final.scope b).children)
    (h : Stmt.Accounts final env rest rest' rs ks) :
    Stmt.Accounts final env (.block body span :: rest) (.block body' span' :: rest') rs (b :: ks) := by
  obtain ⟨order, vs, hwalks, hwritten, hchecked, hperm⟩ := h
  obtain ⟨order₁, vs₁, hwalks₁, hwritten₁, hchecked₁, hperm₁⟩ := hbody
  obtain ⟨s, hs⟩ := exists_scope hb
  rw [scope_eq hs] at hwalks₁
  refine ⟨b :: (order₁ ++ order), vs₁ ++ vs, .cons hs hwalks₁ hwalks, ?_, ?_, ?_⟩
  · simpa using List.rel_append hwritten₁ hwritten
  · simpa using List.rel_append hchecked₁ hchecked
  · rw [← frameVariables_eq] at hperm₁
    rw [List.flatMap_cons, List.flatMap_append]
    refine (hperm₁.append hperm).trans ?_
    -- in the frame the variables of a scope come before those of its blocks
    have hswap := List.perm_append_comm_assoc (final.frameVariables b ++ order₁.flatMap final.frameVariables)
      (Record.variables final.types env rs) (order.flatMap final.frameVariables)
    rwa [List.append_assoc _ _ (order.flatMap final.frameVariables)] at hswap

/-- After a block its parent has the block as its last child. -/
theorem Stmt.Accepted.block_parent
    (h : Stmt.Accepted (c.openBlock env).1 (c.openBlock env).2 body c' body') (henv : env < c.scopes.length) :
    (c'.scope env).decls = (c.scope env).decls ∧
      (c'.scope env).children = (c.scope env).children ++ [c.scopes.length] := by
  have hsame := h.sameScope (Nat.ne_of_lt henv) ((extends_openBlock c env).lt_length henv)
  obtain ⟨hdecls, hchildren⟩ := scope_openBlock_parent henv
  exact ⟨hsame.decls.trans hdecls, hsame.children.trans hchildren⟩

def Stmt.Fills (c c' final : Context) (env : ScopeId) (body body' : List Stmt) : Prop :=
  ∃ rs ks, (c'.scope env).decls.records = (c.scope env).decls.records ++ rs ∧
    (c'.scope env).children = (c.scope env).children ++ ks ∧ Stmt.Accounts final env body body' rs ks

theorem Stmt.fills_nil (c final : Context) (env : ScopeId) : Stmt.Fills c c final env [] [] :=
  ⟨[], [], (List.append_nil _).symm, (List.append_nil _).symm, Stmt.accounts_nil final env⟩

theorem Stmt.Fills.of_sameScope {c₁ : Context} (h : Stmt.Fills c₁ c' final env body body')
    (hsame : SameScope c c₁ env) : Stmt.Fills c c' final env body body' := by
  obtain ⟨rs, ks, hrecords, hchildren, haccounts⟩ := h
  rw [hsame.decls] at hrecords
  rw [hsame.children] at hchildren
  exact ⟨rs, ks, hrecords, hchildren, haccounts⟩

theorem Stmt.Fills.declare {c₁ : Context} {d d' : Decl} (h : Stmt.Fills c₁ c' final env rest rest')
    (hadds : Decl.Adds c c₁ final env d d') (hsame : (c₁.scope env).children = (c.scope env).children) :
    Stmt.Fills c c' final env (.declare d :: rest) (.declare d' :: rest') := by
  obtain ⟨rs, ks, hrecords, hchildren, haccounts⟩ := h
  obtain ⟨r, hr, hleaves⟩ := hadds
  rw [hr, List.append_assoc] at hrecords
  rw [hsame] at hchildren
  exact ⟨r :: rs, ks, hrecords, hchildren, haccounts.declare hleaves⟩

/-- A block starts empty, and is the first of the new children of its parent. -/
theorem Stmt.Fills.block {c₁ : Context} {span span' : Span} (h : Stmt.Fills c₁ c' final env rest rest')
    (hbody : Stmt.Accepted (c.openBlock env).1 (c.openBlock env).2 body c₁ body')
    (hinner : Stmt.Fills (c.openBlock env).2 c₁ final (c.openBlock env).1 body body')
    (henv : env < c.scopes.length) (hfinal : c.scopes.length < final.scopes.length)
    (hsame : SameScope c₁ final c.scopes.length) :
    Stmt.Fills c c' final env (.block body span :: rest) (.block body' span' :: rest') := by
  obtain ⟨rs, ks, hrecords, hchildren, haccounts⟩ := h
  obtain ⟨inner, blocks, hinner, hblocks, haccounts₁⟩ := hinner
  have hid : (c.openBlock env).1 = c.scopes.length := rfl
  rw [hid, scope_openBlock_self henv, ← hsame.decls] at hinner
  rw [hid, scope_openBlock_self henv, ← hsame.children] at hblocks
  obtain rfl : (final.scope c.scopes.length).decls.records = inner := hinner
  obtain rfl : (final.scope c.scopes.length).children = blocks := hblocks
  obtain ⟨hdecls, hopen⟩ := hbody.block_parent henv
  rw [hdecls] at hrecords
  rw [hopen, List.append_assoc] at hchildren
  exact ⟨rs, c.scopes.length :: ks, hrecords, hchildren, haccounts₁.block hfinal haccounts⟩

/-- What the statements of a body leave in their scope comes from them, in any later context that has kept the
blocks they opened. -/
theorem Stmt.Accepted.fills (h : Stmt.Accepted env c body c' body') (hwf : Stmt.areWellFormed body = true)
    (henv : env < c.scopes.length) (htypes : final.types.Standard) (hext : Extends c' final)
    (hkeep : ∀ e, c.scopes.length ≤ e → e < c'.scopes.length → SameScope c' final e) :
    Stmt.Fills c c' final env body body' := by
  induction h with
  | nil => exact Stmt.fills_nil _ final _
  | leaf _ hd hrest ih =>
    rw [Stmt.areWellFormed, Stmt.isWellFormed, Bool.and_eq_true] at hwf
    have hlength := hd.grows.scopes_length
    have hadds := hd.adds hwf.1 henv htypes (hrest.extends.trans hext)
    exact (ih hwf.2 (hlength ▸ henv) hext (hlength ▸ hkeep)).declare hadds (hd.grows.children _)
  | @block env c c₁ c' body body' span rest rest' hbody hrest ihbody ih =>
    rw [Stmt.areWellFormed, Stmt.isWellFormed, Bool.and_eq_true] at hwf
    have hblock := lt_length_openBlock c env
    have hinside : c.scopes.length < c₁.scopes.length := Nat.lt_of_lt_of_le hblock hbody.extends.length
    -- the statements after the block leave it alone
    have hlater : ∀ e, c.scopes.length ≤ e → e < c₁.scopes.length → SameScope c₁ final e := by
      intro e hle hlt
      have hne : e ≠ env := Nat.ne_of_gt (Nat.lt_of_lt_of_le henv hle)
      exact (hrest.sameScope hne hlt).trans (hkeep e hle (hrest.extends.lt_length hlt))
    have hinner := ihbody hwf.1 hblock (hrest.extends.trans hext)
      fun e hle => hlater e (Nat.le_trans (Nat.le_of_lt hblock) hle)
    have hbeside := ih hwf.2 (Nat.lt_trans henv hinside) hext
      fun e hle => hkeep e (Nat.le_trans (Nat.le_of_lt hinside) hle)
    exact hbeside.block hbody hinner henv ((hrest.extends.trans hext).lt_length hinside)
      (hlater c.scopes.length (Nat.le_refl _) hinside)
  | struct | function => cases hwf
  | @goto env c _ name span _ _ _ _ ih =>
    have hlength : (c.noteJump env name span).scopes.length = c.scopes.length := length_modifyLabel c env name _
    have hsame : SameScope c (c.noteJump env name span) env := sameScope_modifyLabel c env name _ env
    exact (ih hwf (hlength ▸ henv) hext (hlength ▸ hkeep)).of_sameScope hsame
  | @label env c c₁ _ name span _ _ _ hplace _ ih =>
    obtain ⟨-, rfl⟩ := placeLabel_eq_ok hplace
    have hlength := length_modifyLabel c env name fun l => { l with defined := some span }
    have hsame := sameScope_modifyLabel c env name (fun l => { l with defined := some span }) env
    exact (ih hwf (hlength ▸ henv) hext (hlength ▸ hkeep)).of_sameScope hsame
  | eval _ _ ih => exact ih hwf henv hext hkeep

end Accepted

/-- A walk through the scopes has one outcome only. -/
theorem Context.Walks.unique {c : Context} {es order order' : List ScopeId} (h : Walks c es order)
    (h' : Walks c es order') : order = order' := by
  induction h generalizing order' with
  | nil =>
    cases h'
    rfl
  | cons hs _ _ ihinside ihbeside =>
    cases h' with
    | cons hs' inside' beside' =>
      cases hs.symm.trans hs'
      rw [ihinside inside', ihbeside beside']

theorem Frame.variables_layout {c : Context} {f : ScopeId} {order : List ScopeId}
    (h : Frame.layout c f = ⟨Frame.place 0 0 (order.flatMap (Frame.stored c))⟩) :
    (Frame.layout c f).slots.map Slot.variable = order.flatMap c.frameVariables := by
  rw [h, Frame.variable_place, List.map_flatMap]
  simp only [Frame.stored_eq, List.map_map]
  rfl

theorem Frame.variables_locals (f : Frame) :
    f.locals.map Slot.variable = (f.slots.map Slot.variable).filter fun v => !v.2.2.2 := by
  rw [List.filter_map]
  rfl

theorem Decl.Written.not_param {types : Arena} {d : Decl} {v : ScopeId × String × TypeId × Bool}
    (h : d.Written types v) : v.2.2.2 = false := by
  cases d with
  | var | array => exact h.2.2
  | function | struct | data => cases h

theorem Record.filter_variables_params {rs : List Record} (h : ∀ r ∈ rs, r.kind.has .param = true) (types : Arena)
    (env : ScopeId) : (Record.variables types env rs).filter (fun v => !v.2.2.2) = [] := by
  rw [List.filter_eq_nil_iff]
  intro v hv
  obtain ⟨r, hr, rfl⟩ := List.mem_map.mp hv
  rw [h r (List.mem_of_mem_filter hr)]
  exact Bool.false_ne_true

/-- The variables in the frame of a function, without its parameters, are those that its body declares. -/
theorem Stmt.Accounts.frame {final : Context} (htree : ScopeTree final.scopes final.labels) {scope : ScopeId}
    (hscope : scope < final.scopes.length) {body body' : List Stmt} {ps rs : List Record} {ks : List ScopeId}
    (h : Stmt.Accounts final scope body body' rs ks) (hps : ∀ p ∈ ps, p.kind.has .param = true)
    (hrecords : (final.scope scope).decls.records = ps ++ rs) (hchildren : (final.scope scope).children = ks) :
    ∃ slots, slots.Perm (Frame.layout final scope).locals ∧
      List.Forall₂ (fun d s => d.Written final.types (Slot.variable s)) (Stmt.locals body) slots ∧
      List.Forall₂ (fun d s => d.RefersTo (Slot.variable s)) (Stmt.locals body') slots := by
  obtain ⟨order, vs, hwalks, hwritten, hchecked, hperm⟩ := h
  obtain ⟨s, hs⟩ := exists_scope hscope
  obtain ⟨order', hwalks', -, -, hlayout⟩ := htree.exists_order hscope
  obtain rfl : scope :: (order ++ []) = order' := by
    rw [← hchildren, scope_eq hs] at hwalks
    exact (Walks.cons hs hwalks .nil).unique hwalks'
  have hlocal : ∀ v ∈ vs, v.2.2.2 = false := by
    intro v hv
    obtain ⟨d, -, hd⟩ := exists_of_forall₂ hwritten hv
    exact hd.not_param
  have hvariables : (Frame.layout final scope).locals.map Slot.variable =
      Record.variables final.types scope rs ++ order.flatMap final.frameVariables := by
    rw [Frame.variables_locals, Frame.variables_layout hlayout, List.append_nil, List.flatMap_cons, frameVariables_eq,
      hrecords, Record.variables_append, List.append_assoc, List.filter_append,
      Record.filter_variables_params hps, List.nil_append, List.filter_eq_self]
    intro v hv
    rw [hlocal v (hperm.mem_iff.mpr hv)]
    rfl
  rw [← hvariables] at hperm
  obtain ⟨slots, rfl, hslots⟩ := (congrFun₂ (List.eq_map_comp_perm Slot.variable) _ _).mpr hperm
  exact ⟨slots, hslots, List.forall₂_map_right_iff.mp hwritten, List.forall₂_map_right_iff.mp hchecked⟩

def FunctionHead.TakesParams (c : Context) (head : FunctionHead) : Prop :=
  ∃ ty result ps, head.ty = some ty ∧ c.types.get? ty = some (.function result ps) ∧
    ∀ p ∈ ps.records, p.kind = .param

theorem FunctionHead.enter_scope {head : FunctionHead} {env scope : ScopeId} {c c₁ : Context}
    (h : head.enter env c = .ok scope c₁) (htakes : head.TakesParams c) :
    (∀ p ∈ (c₁.scope scope).decls.records, p.kind.has .param = true) ∧ (c₁.scope scope).children = [] := by
  obtain ⟨ty, result, ps, hty, hget, rfl, hdeclared⟩ := FunctionHead.enter_eq_ok h
  obtain ⟨_, _, _, hty', hget', hkind⟩ := htakes
  cases hty.symm.trans hty'
  cases hget.symm.trans hget'
  have hopened : ((c.openFunction env result).2.scope c.scopes.length).decls.records = [] ∧
      ((c.openFunction env result).2.scope c.scopes.length).children = [] := by
    rw [scope_length rfl]
    exact ⟨rfl, rfl⟩
  have hlength : c.scopes.length < (c.openFunction env result).2.scopes.length := by
    change _ < (c.scopes ++ [_]).length
    rw [List.length_append]
    exact Nat.lt_succ_self _
  rw [hdeclared.records hlength, hdeclared.grows.children, hopened.1, hopened.2]
  refine ⟨fun r hr => ?_, rfl⟩
  obtain ⟨p, hp, rfl⟩ := List.mem_map.mp hr
  change p.kind.has .param = true
  rw [hkind p hp]
  decide

/-- The words of the frame that are not parameters are those of the locals that the body of the function declares,
in any later context that has kept its scopes. -/
theorem Stmt.Accepted.frame_locals {head : FunctionHead} {env scope : ScopeId} {c c₁ c₂ final : Context}
    {body body' : List Stmt} (h : Stmt.Accepted scope c₁ body c₂ body') (henter : head.enter env c = .ok scope c₁)
    (htakes : head.TakesParams c) (hwf : Stmt.areWellFormed body = true)
    (htree : ScopeTree final.scopes final.labels) (htypes : final.types.Standard) (hext : Extends c₂ final)
    (hkeep : ∀ e, scope ≤ e → e < c₂.scopes.length → SameScope c₂ final e) :
    ∃ slots, slots.Perm (Frame.layout final scope).locals ∧
      List.Forall₂ (fun d s => d.Written final.types (Slot.variable s)) (Stmt.locals body) slots ∧
      List.Forall₂ (fun d s => d.RefersTo (Slot.variable s)) (Stmt.locals body') slots := by
  have hscope := FunctionHead.enter_lt_length henter
  obtain ⟨hparams, hchildless⟩ := FunctionHead.enter_scope henter htakes
  obtain ⟨rs, ks, hrecords, hchildren, haccounts⟩ := h.fills hwf hscope htypes hext
    fun e hle => hkeep e (Nat.le_of_lt (Nat.lt_of_lt_of_le hscope hle))
  have hafter := Nat.lt_of_lt_of_le hscope h.extends.length
  have hsame := hkeep scope (Nat.le_refl _) hafter
  refine haccounts.frame htree (hext.lt_length hafter) hparams ?_ ?_
  · rw [hsame.decls, hrecords]
  · rw [hsame.children, hchildren, hchildless, List.nil_append]

end UnitCompiler
