import UnitCompiler.Proofs.CheckOrder
import UnitCompiler.Proofs.CompiledItems
import UnitCompiler.Proofs.Lists

namespace UnitCompiler

open Context Emitter

/-- The variable that an expression reads, as a lookup in the context finds it. A constant is not read. -/
def Expr.reads (c : Context) (env : ScopeId) : Expr → List Binding
  | .name ident _ =>
    match c.lookup env ident with
    | some (owner, r) => if c.types.isConst r.ty then [] else [⟨owner, ident⟩]
    | none => []
  | .literal _ _ | .new _ _ => []

/-- What the initialization of a variable uses: the variable of the scope itself, and what the initial
value reads, as it is found before the variable is declared. A constant is not stored. -/
def Variable.uses (c : Context) (env : ScopeId) (v : Variable) : List Binding :=
  match v.init with
  | some init => if v.kind.has .const then [] else ⟨env, v.ident⟩ :: init.reads c env
  | none => []

mutual

def Stmt.uses : Stmt → ScopeId → Context → List Binding
  | .declare (.var _ v), env, c => v.uses c env
  | .block body _, env, c => Stmt.usesOfAll body (c.openBlock env).1 (c.openBlock env).2
  | .eval e _, env, c => e.reads c env
  | _, _, _ => []

def Stmt.usesOfAll : List Stmt → ScopeId → Context → List Binding
  | [], _, _ => []
  | stmt :: rest, env, c =>
    Stmt.uses stmt env c ++ Stmt.usesOfAll rest env (stmt.check env { context := c }).2.context

end

/-- The place of a variable in the output: a word of its own for a global, a slot of the frame for a
variable of a function. -/
def Binding.place? (frame : Option Frame) (b : Binding) : Option Ir :=
  if b.scope = root then some (.wordAt (Symbol.global b.name))
  else (frame.bind fun f => f.offset? b.scope b.name).map .slot

def Binding.Declared (c : Context) (b : Binding) : Prop :=
  ∃ s r, c.scopes[b.scope]? = some s ∧ s.decls.get? b.name = some r

variable {c c' : Context} {env : ScopeId}

theorem Binding.Declared.extends {b : Binding} (h : b.Declared c) (hext : Extends c c') :
    b.Declared c' := by
  obtain ⟨s, r, hs, hr⟩ := h
  obtain ⟨s', hs', hbecomes⟩ := hext.scopes hs
  exact ⟨s', r, hs', Table.get?_of_prefix hbecomes.decls hr⟩

/-- Where the scope itself declares a name, the lookup from there goes no further. -/
theorem Binding.Declared.place {owed : String → Prop} (hc : Covered owed c) {b : Binding}
    (h : b.Declared c) {frame : Option Frame} {place : Ir} (hstored : b.StoredAt c frame place) :
    b.place? frame = some place := by
  obtain ⟨s, r, hs, hr⟩ := h
  unfold StoredAt location at hstored
  rw [lookup_own hs hr] at hstored
  dsimp only at hstored
  unfold place?
  cases (hc.records hs r (Table.mem_of_get? hr).1).1 with
  | global hkind henv =>
    have hflag : ∀ k ∈ [Kind.global, Kind.union .global .const], k.has .global = true := by decide
    rw [hflag _ hkind] at hstored
    rw [if_pos henv]
    cases hstored
    rfl
  | inner hkind henv =>
    have hflags : ∀ k ∈ [Kind.localVar, Kind.union .localVar .const, .param],
        k.has .global = false ∧ k.meets (Kind.union .localVar .param) = true := by decide
    rw [(hflags _ hkind).1, (hflags _ hkind).2] at hstored
    rw [if_neg henv]
    cases hoffset : frame.bind fun f => f.offset? b.scope b.name with
    | none => simp [hoffset] at hstored
    | some offset =>
      simp only [hoffset, Bool.false_eq_true, if_false, if_true] at hstored
      cases hstored
      rfl
  -- functions and structs have no place
  | function hkind =>
    rw [hkind] at hstored
    cases hstored
  | struct hkind =>
    rw [hkind] at hstored
    cases hstored

/-- Different variables of a function have different places. -/
theorem Binding.place?_injective {func : ScopeId} {b b' : Binding} {place : Ir}
    (h : b.place? (some (Frame.layout c func)) = some place)
    (h' : b'.place? (some (Frame.layout c func)) = some place) : b = b' := by
  obtain ⟨e, name⟩ := b
  obtain ⟨e', name'⟩ := b'
  unfold place? at h h'
  by_cases he : e = root <;> by_cases he' : e' = root
  · simp only [he, he', if_true] at h h' ⊢
    rw [← h'] at h
    have hlabel : Origin.text (.global name) = Origin.text (.global name') := by
      simpa [Ir.wordAt, Origin.text] using h
    have hname : name = name' := Origin.global.inj (Origin.text_injective hlabel)
    rw [hname]
  · simp only [he, he', if_true, if_false] at h h'
    obtain ⟨offset, -, rfl⟩ := Option.map_eq_some_iff.mp h'
    simp [Ir.wordAt] at h
  · simp only [he, he', if_true, if_false] at h h'
    obtain ⟨offset, -, rfl⟩ := Option.map_eq_some_iff.mp h
    simp [Ir.wordAt] at h'
  · simp only [he, he', if_false] at h h'
    obtain ⟨offset, hoffset, rfl⟩ := Option.map_eq_some_iff.mp h
    obtain ⟨offset', hoffset', heq⟩ := Option.map_eq_some_iff.mp h'
    obtain rfl := Ir.slot.inj heq
    obtain ⟨rfl, rfl⟩ := Frame.offset?_injective hoffset hoffset'
    rfl

theorem Expr.check_accesses {e : Expr} {value : Value} (h : e.check c env = .ok value) :
    value.accesses = e.reads c env := by
  cases Expr.check_eq_ok h with
  | literal | new => rfl
  | constant hlookup hty => simp [Value.accesses, Expr.reads, hlookup, Arena.isConst, hty, Ty.isConst]
  | stored hlookup hconst => simp [Value.accesses, Expr.reads, hlookup, hconst]

theorem Expr.reads_declared {e : Expr} : ∀ b ∈ e.reads c env, b.Declared c := by
  intro b hb
  cases e with
  | literal | new => cases hb
  | name ident span =>
    rw [Expr.reads] at hb
    cases hl : c.lookup env ident with
    | none => simp only [hl] at hb; cases hb
    | some p =>
      obtain ⟨owner, r⟩ := p
      simp only [hl] at hb
      split at hb
      · cases hb
      · obtain rfl := List.mem_singleton.mp hb
        obtain ⟨s, hs, hr⟩ := get?_decls (lookup_eq_some hl).2
        exact ⟨s, r, hs, hr⟩

theorem Value.cast_accesses {types : Arena} {v w : Value} {target : TypeId}
    (h : v.cast types target = .ok w) : w.accesses = v.accesses := by
  unfold Value.cast at h
  split at h
  · split at h
    · cases h
      rfl
    · cases hlit : Value.castLiteral types _ _ target with
      | error d => rw [hlit] at h; cases h
      | ok l => rw [hlit] at h; cases h; rfl
  · split at h
    · cases h
      rfl
    · split at h <;> cases h
      rfl

/-- A variable that is registered in a scope has its uses resolved, in the context as it was before. -/
theorem Variable.register_accesses {v v' : Variable} {target : Target} (hnew : v.registration = none)
    (hfield : v.kind.has .field = false) (hparam : v.kind.has .param = false)
    (h : v.register env target c = .ok v' c') : v'.accesses = v.uses c env := by
  obtain ⟨declared, c₁, r, kept, i, -, hrec, -, rfl⟩ := register_eq_ok hnew h
  cases hrec with
  | plain hinit =>
    rw [Variable.uses, hinit]
    rfl
  | computed hvalue hconst =>
    obtain ⟨init, checked, hinit, hcheck, hcast⟩ := hvalue
    simp only [Variable.uses, hinit, hconst]
    exact congrArg (⟨env, v.ident⟩ :: ·) ((Value.cast_accesses hcast).trans (Expr.check_accesses hcheck))
  | defaulted _ hlit =>
    cases hlit with
    | field hkind => rw [hfield] at hkind; cases hkind
    | param _ hkind => rw [hparam] at hkind; cases hkind
  | constant hvalue hconst =>
    obtain ⟨init, -, hinit, -⟩ := hvalue
    simp only [Variable.uses, hinit, hconst]
    rfl

theorem Decl.Entered.local_accesses {d d' : Decl} (hlocal : d.isLocal = true)
    (h : Decl.Entered env (.scope env) c [d] c' [d']) :
    d'.accesses = Stmt.uses (.declare d) env c := by
  cases h with
  | data | struct | function => cases hlocal
  | array => rfl
  | var hv hnil =>
    cases hnil
    obtain ⟨_, _, heq, hkind, hnew⟩ := exists_of_isVarOf (by simpa [isLocal, isArrayOf] using hlocal)
    cases heq
    have hflags : ∀ k ∈ [Kind.localVar, Kind.union .localVar .const],
        k.has .field = false ∧ k.has .param = false := by decide
    exact Variable.register_accesses hnew (hflags _ hkind).1 (hflags _ hkind).2 hv

mutual

/-- A checked statement has its uses resolved, each in the context in which the check came to it. -/
theorem Stmt.check_accesses : ∀ (stmt : Stmt) (env : ScopeId) (s t : Session) (stmt' : Stmt),
    stmt.isWellFormed = true → stmt.check env s = (⟨stmt', .ok ()⟩, t) →
      stmt'.atoms.flatMap Stmt.accesses = stmt.uses env s.context
  | .declare d, env, s, t, stmt', hwf, h => by
    cases Stmt.check_checked hwf h with
    | declare hlocal hd hrest =>
      cases hrest
      rw [Stmt.atoms, List.flatMap_singleton]
      exact hd.local_accesses hlocal
  | .block body span, env, s, t, stmt', hwf, h => by
    rw [Stmt.isWellFormed] at hwf
    rw [Stmt.check_block] at h
    rcases hb : Stmt.checkAll body (s.context.openBlock env).1
      { s with context := (s.context.openBlock env).2 } with ⟨⟨body', o⟩, u⟩
    simp only [hb] at h
    cases h
    rw [Stmt.atoms, Stmt.uses]
    exact Stmt.checkAll_accesses body _ _ t body' hwf hb
  | .goto name span old, env, s, t, stmt', _, h => by
    rw [Stmt.check_goto] at h
    cases h
    rfl
  | .label name span old, env, s, t, stmt', hwf, h => by
    cases Stmt.check_checked hwf h with
    | label _ hrest =>
      cases hrest
      rfl
  | .eval e old, env, s, t, stmt', _, h => by
    rw [Stmt.check_eval] at h
    cases he : e.check s.context env with
    | error d => simp only [he] at h; cases h
    | ok value =>
      simp only [he] at h
      cases h
      rw [Stmt.atoms, List.flatMap_singleton, Stmt.uses, ← Expr.check_accesses he]
      exact List.append_nil _

theorem Stmt.checkAll_accesses : ∀ (body : List Stmt) (env : ScopeId) (s t : Session)
    (body' : List Stmt), Stmt.areWellFormed body = true →
    Stmt.checkAll body env s = (⟨body', .ok ()⟩, t) →
      (Stmt.atomsOfAll body').flatMap Stmt.accesses = Stmt.usesOfAll body env s.context
  | [], env, s, t, body', _, h => by
    rw [Stmt.checkAll] at h
    cases h
    rfl
  | stmt :: rest, env, s, t, body', hwf, h => by
    rw [Stmt.areWellFormed, Bool.and_eq_true] at hwf
    obtain ⟨stmt', rest', u, hs, hr, rfl⟩ := Stmt.checkAll_cons_eq_ok h
    have hnext : (stmt.check env { context := s.context }).2.context = u.context := by
      rw [(stmt.check_blind env { context := s.context } s rfl).2, hs]
    rw [Stmt.atomsOfAll, List.flatMap_append, Stmt.usesOfAll, hnext,
      Stmt.check_accesses stmt env s u stmt' hwf.1 hs,
      Stmt.checkAll_accesses rest env u t rest' hwf.2 hr]

end

theorem Variable.register_declared {v v' : Variable} {s : Scope} (hnew : v.registration = none)
    (hs : c.scopes[env]? = some s) (h : v.register env (.scope env) c = .ok v' c') :
    ∀ b ∈ v'.accesses, b.Declared c' := by
  obtain ⟨declared, c₁, r, kept, i, -, hrec, hins, rfl⟩ := Variable.register_eq_ok hnew h
  cases hrec with
  | plain | defaulted | constant => nofun
  | computed hvalue =>
    obtain ⟨init, checked, -, hcheck, hcast⟩ := hvalue
    have haccesses := (Value.cast_accesses hcast).trans (Expr.check_accesses hcheck)
    intro b hb
    obtain rfl | hb := List.mem_cons.mp hb
    · obtain ⟨s', hs', hget⟩ := get?_insert hs hins
      exact ⟨s', _, hs', hget⟩
    · rw [haccesses] at hb
      exact (Expr.reads_declared b hb).extends (extends_insert hins)

theorem Stmt.Checked.declared {func : ScopeId} {body body' : List Stmt}
    (h : Stmt.Checked env c body c' body') (hin : Inside c func env) :
    ∀ b ∈ (Stmt.atomsOfAll body').flatMap Stmt.accesses, b.Declared c' := by
  induction h with
  | nil => nofun
  | @declare env c c₁ c' d d' rest rest' hlocal hd hrest ih =>
    rw [Stmt.atomsOfAll, Stmt.atoms, List.flatMap_append, List.flatMap_singleton]
    refine List.forall_mem_append.mpr ⟨fun b hb => ?_, ih (hin.extends hd.extends)⟩
    apply Binding.Declared.extends _ hrest.extends
    cases hd with
    | array | data => cases hb
    | struct | function => cases hb
    -- only an initializer of a variable is accessed when a local is set up
    | var hv hnil =>
      cases hnil
      obtain ⟨_, _, heq, -, hnew⟩ :=
        Decl.exists_of_isVarOf (by simpa [Decl.isLocal, Decl.isArrayOf] using hlocal)
      cases heq
      exact Variable.register_declared hnew (List.getElem?_eq_getElem hin.lt_length) hv b hb
  | @block env c c₁ c' body body' span rest rest' hbody hrest ihbody ih =>
    rw [Stmt.atomsOfAll, Stmt.atoms, List.flatMap_append]
    have hext := (extends_openBlock c env).trans hbody.extends
    refine List.forall_mem_append.mpr ⟨fun b hb => ?_, ih (hin.extends hext)⟩
    exact (ihbody (inside_openBlock hin) b hb).extends hrest.extends
  | @goto env c c' label span old rest rest' hrest ih =>
    exact ih (hin.extends (extends_noteJump c env label span))
  | label hplace _ ih => exact ih (hin.extends (extends_placeLabel hplace))
  | @eval env c c' e old value rest rest' he hrest ih =>
    rw [Stmt.atomsOfAll, Stmt.atoms, List.flatMap_append, List.flatMap_singleton]
    refine List.forall_mem_append.mpr ⟨fun b hb => ?_, ih hin⟩
    have hb : b ∈ value.accesses := by simpa [Stmt.accesses] using hb
    rw [Expr.check_accesses he] at hb
    exact (Expr.reads_declared b hb).extends hrest.extends

/-- A registered program writes and reads only names that are declared. -/
theorem Decl.Entered.declared {target : Target} {ds ds' : List Decl}
    (h : Decl.Entered root target c ds c' ds') (htarget : target = .scope root) (hc : Rooted c)
    (hwf : ∀ d ∈ ds, d.isWellFormed = true) : ∀ d ∈ ds', ∀ b ∈ d.accesses, b.Declared c' := by
  induction h with
  | nil => exact List.forall_mem_nil _
  | var hv hrest ih =>
    subst htarget
    obtain ⟨hd, hwf⟩ := List.forall_mem_cons.mp hwf
    have hext := (Variable.register_grows hv).extends
    refine List.forall_mem_cons.mpr ⟨fun b hb => ?_, ih rfl (hc.extends hext) hwf⟩
    rw [isWellFormed] at hd
    obtain ⟨_, _, heq, -, hnew⟩ := exists_of_isVarOf hd
    cases heq
    obtain ⟨s, hs, -⟩ := hc
    exact (Variable.register_declared hnew hs hv b hb).extends hrest.extends
  | array h hrest ih =>
    have hext := (ArrayDecl.register_grows h).extends
    exact List.forall_mem_cons.mpr
      ⟨List.forall_mem_nil _, ih htarget (hc.extends hext) (List.forall_mem_cons.mp hwf).2⟩
  | data h hrest ih =>
    have hhead : Decl.Entered root (.scope root) _ [.data {} _] _ _ := .data h .nil
    exact List.forall_mem_cons.mpr
      ⟨List.forall_mem_nil _, ih htarget (hc.extends hhead.extends) (List.forall_mem_cons.mp hwf).2⟩
  | struct h hrest ih =>
    have hhead : Decl.Entered root _ _ [.struct {} _ []] _ _ := .struct h .nil
    exact List.forall_mem_cons.mpr
      ⟨List.forall_mem_nil _, ih htarget (hc.extends hhead.extends) (List.forall_mem_cons.mp hwf).2⟩
  | function hresult hparams hins hrest _ ih =>
    have hhead : Decl.Entered root _ _ [.function {} _ _ []] _ _ := .function hresult hparams hins .nil
    exact List.forall_mem_cons.mpr
      ⟨List.forall_mem_nil _, ih htarget (hc.extends hhead.extends) (List.forall_mem_cons.mp hwf).2⟩

def Decl.allAccesses : Decl → List Binding
  | .function _ _ _ body => (Stmt.atomsOfAll body).flatMap Stmt.accesses
  | .var _ v => v.accesses
  | .struct _ _ _ | .data _ _ | .array _ _ => []

theorem Decl.Checked.declared {ds ds' : List Decl} (h : Decl.Checked root c ds c' ds') (hc : Rooted c)
    (hds : ∀ d ∈ ds, ∀ b ∈ d.accesses, b.Declared c) :
    ∀ d ∈ ds', ∀ b ∈ d.allAccesses, b.Declared c' := by
  induction h with
  | nil => nofun
  | var hrest ih =>
    obtain ⟨hd, hds⟩ := List.forall_mem_cons.mp hds
    exact List.forall_mem_cons.mpr ⟨fun b hb => (hd b hb).extends hrest.extends, ih hc hds⟩
  | array _ ih | data _ ih =>
    exact List.forall_mem_cons.mpr ⟨by nofun, ih hc (List.forall_mem_cons.mp hds).2⟩
  | struct _ hfields hlayout _ ih =>
    have hext := hfields.extends.trans (extends_layOutFields hlayout)
    refine List.forall_mem_cons.mpr ⟨by nofun, ih (hc.extends hext) fun d hd b hb => ?_⟩
    exact (hds d (List.mem_cons_of_mem _ hd) b hb).extends hext
  | function henter hbody hrest ih =>
    have hext := (FunctionHead.enter_extends henter).trans hbody.extends
    refine List.forall_mem_cons.mpr ⟨fun b hb => ?_, ih (hc.extends hext) fun d hd b hb => ?_⟩
    · exact (hbody.declared (FunctionHead.enter_inside hc henter).2.1 b hb).extends hrest.extends
    · exact (hds d (List.mem_cons_of_mem _ hd) b hb).extends hext

theorem DeclList.Analyzed.declared {program registered checked : DeclList} {final : Context}
    (h : program.Analyzed registered checked c final) (hwf : program.isWellFormed = true) :
    ∀ d ∈ checked.filterMap id, ∀ b ∈ d.allAccesses, b.Declared final := by
  have hregistered := h.entered.declared rfl rooted_initial (DeclList.Analyzed.wellFormed_inOrder hwf)
  rw [DeclList.forall_mem_inOrder] at hregistered
  exact (h.derivation hwf).declared (rooted_initial.extends h.entered.extends) hregistered

namespace DeclList.Analyzed

variable {program registered checked : DeclList} {final : Context}

/-- Nothing depends on the log, so that the registration may as well start with an empty one. -/
theorem register_eq (h : program.Analyzed registered checked c final) :
    (program.register root (.scope root) {}).1 = ⟨registered, .ok ()⟩ ∧
      (program.register root (.scope root) {}).2.context = c := by
  obtain ⟨s, t, hs, ht, hrun⟩ := h.register
  obtain ⟨hnode, hcontext⟩ := program.register_blind root (.scope root) s {} hs
  rw [hrun] at hnode hcontext
  exact ⟨hnode.symm, hcontext.symm.trans ht⟩

/-- The body of a checked function has the uses that the check found. -/
theorem function_uses (h : program.Analyzed registered checked c final)
    (hwf : program.isWellFormed = true) {i : Nat} {site : Site} {head : FunctionHead}
    {params : List (Option Decl)} {body : List Stmt} {s : Session} (hs : s.context = c)
    (hd : registered[i]? = some (some (.function site head params body))) :
    ∃ scope opened body', head.enter root (DeclList.check root (registered.take i) s).2.context =
        .ok scope opened ∧
      .function site { head with env := some scope } params body' ∈ checked.filterMap id ∧
      (Stmt.atomsOfAll body').flatMap Stmt.accesses = Stmt.usesOfAll body scope opened := by
  obtain ⟨s', t, hs', ht, hrun⟩ := h.check
  obtain ⟨u, v, d', hu, hcheck, hget⟩ := DeclList.checkFrom_at hrun hd
  obtain ⟨scope, opened, body', henter, hbody, rfl⟩ := Decl.check_function_eq_ok hcheck
  have hbefore := (DeclList.checkFrom_blind root (registered.take i) 0 s' s (hs'.trans hs.symm)).2
  rw [hu, hbefore] at henter
  have hparts := h.parts hwf (.function site head params body)
    (List.mem_filterMap.mpr ⟨_, List.mem_of_getElem? hd, rfl⟩)
  exact ⟨scope, opened, body', henter, List.mem_filterMap.mpr ⟨_, List.mem_of_getElem? hget, rfl⟩,
    Stmt.checkAll_accesses body scope _ v body' hparts hbody⟩

/-- A checked global has the uses that its registration found. -/
theorem var_uses (h : program.Analyzed registered checked c final) (hwf : program.isWellFormed = true)
    {i : Nat} {site : Site} {v : Variable} (hd : program[i]? = some (some (.var site v))) :
    ∃ v', .var site v' ∈ checked.filterMap id ∧ v'.storage = v.storage ∧
      v'.accesses =
        v.uses (Decl.registerEach root (.scope root) (program.precursors i) {}).2.context root := by
  obtain ⟨s, t, hs, ht, hrun⟩ := h.register
  obtain ⟨u, w, d', hu, hregister, hget⟩ := DeclList.register_at hrun hd rfl
  rw [Decl.register] at hregister
  obtain ⟨v', hv, rfl⟩ := Visited.leaf_eq_ok hregister
  -- the check leaves a variable as it is
  obtain ⟨s', t', hs', ht', hrun'⟩ := h.check
  obtain ⟨u', w', d', hu', hcheck, hget'⟩ := DeclList.checkFrom_at hrun' hget
  cases hcheck
  have hwell := DeclList.each_iff.mp hwf (.var site v)
    (List.mem_filterMap.mpr ⟨_, List.mem_of_getElem? hd, rfl⟩)
  rw [Decl.isWellFormed] at hwell
  obtain ⟨_, _, heq, hkind, hnew⟩ := Decl.exists_of_isVarOf hwell
  cases heq
  refine ⟨v', List.mem_filterMap.mpr ⟨_, List.mem_of_getElem? hget', rfl⟩, ?_, ?_⟩
  · obtain ⟨_, _, _, _, _, -, -, -, rfl⟩ := Variable.register_eq_ok hnew hv
    rfl
  · have hflags : ∀ k ∈ [Kind.global, Kind.union .global .const],
        k.has .field = false ∧ k.has .param = false := by decide
    rw [hu, (Decl.registerEach_blind root (.scope root) (program.precursors i) s {} hs).2] at hv
    exact Variable.register_accesses hnew (hflags _ hkind).1 (hflags _ hkind).2 hv

end DeclList.Analyzed

/-- Declared names that are accessed are accessed in their place. -/
theorem Touches.places_of_declared {owed : String → Prop} (hc : Covered owed c) {frame : Option Frame}
    {bs : List Binding} {es : List Emission} (h : Touches c frame bs es)
    (hdeclared : ∀ b ∈ bs, b.Declared c) :
    List.Forall₂ (fun b place => b.place? frame = some place) bs (es.flatMap Emission.places) :=
  ((List.forall₂_and_left bs _).mpr ⟨hdeclared, h.places⟩).imp fun _ _ h => h.1.place hc h.2

/-- What is used in a compiled program is what was found when it was checked. The variables that the body
of a function uses, each as the check finds it, are accessed in this order by the code of the body, and no
two of them share a place; the initial value of a global goes to its own word and comes from those of the
globals that registration finds. -/
theorem names_resolved_at_check (program : DeclList) (debug : Bool) (hwf : program.isWellFormed = true)
    (h : (({} : Compiler).compile program (Listing.empty debug)).outcome = .ok ()) :
    let r := ({} : Compiler).compile program (Listing.empty debug)
    let c := r.compiler.session.context
    let registered : Visited DeclList × Session := program.register root (.scope root) {}
    (∀ i site head params body, registered.1.node[i]? = some (some (Decl.function site head params body)) →
      ∃ scope opened name inner front back,
        head.enter root (DeclList.check root (registered.1.node.take i) registered.2).2.context =
          .ok scope opened ∧
        r.backend.items = front ++ head.items c debug scope name inner ++ back ∧
        List.Forall₂ (fun b place => b.place? (some (Frame.layout c scope)) = some place)
          (Stmt.usesOfAll body scope opened) (inner.flatMap Emission.places) ∧
        ∀ b ∈ Stmt.usesOfAll body scope opened, ∀ b' ∈ Stmt.usesOfAll body scope opened,
          b.place? (some (Frame.layout c scope)) = b'.place? (some (Frame.layout c scope)) ↔ b = b') ∧
    ∀ i site v, program[i]? = some (some (Decl.var site v)) →
      ∃ front es back, r.backend.items = front ++ es ++ back ∧ v.storage <+: es ∧
        List.Forall₂ (fun b place => b.place? none = some place)
          (v.uses (Decl.registerEach root (.scope root) (program.precursors i) {}).2.context root)
          (es.flatMap Emission.places) := by
  intro r c registered
  obtain ⟨seq, c₁, final, hanalyzed, hlabels, blocks, data, hblocks, hdata, hitems⟩ :=
    compile_items hwf h
  have hcovered := (hanalyzed.prepared hwf).covered
  have hdeclared := hanalyzed.declared hwf
  obtain ⟨hnode, hcontext⟩ := hanalyzed.register_eq
  have hseq : registered.1.node = seq := congrArg Visited.node hnode
  -- emission only issues labels, and no frame is laid out by them
  have hlayout : ∀ scope, Frame.layout c scope = Frame.layout final scope := by
    intro scope
    rw [show c = _ from hlabels.eq]
    rfl
  refine ⟨?_, ?_⟩
  · intro i site head params body hd
    rw [hseq] at hd ⊢
    obtain ⟨scope, opened, body', henter, hmem, huses⟩ := hanalyzed.function_uses hwf hcontext hd
    obtain ⟨front, es, back, ⟨env, name, inner, henv, htouches, rfl⟩, hflatten⟩ := exists_block hblocks hmem
    obtain rfl : scope = env := Option.some.inj henv
    have hplaces := htouches.places_of_declared hcovered (hdeclared _ hmem)
    rw [huses] at hplaces
    refine ⟨scope, opened, name, inner, front, back ++ data, henter, ?_, ?_, ?_⟩
    · rw [show r.backend.items = _ from hitems, hflatten, List.append_assoc, show c = _ from hlabels.eq]
      rfl
    · rw [hlayout]
      exact hplaces
    · intro b hb b' hb'
      rw [hlayout]
      obtain ⟨place, -, hplace⟩ := exists_of_forall₂ hplaces.flip hb
      -- two names never share a place, so equal places mean one binding
      refine ⟨fun heq => ?_, fun heq => by rw [heq]⟩
      exact Binding.place?_injective hplace (heq.symm.trans hplace)
  · intro i site v hd
    obtain ⟨v', hmem, hstorage, huses⟩ := hanalyzed.var_uses hwf hd
    obtain ⟨front, es, back, ⟨hstart, htouches⟩, hflatten⟩ := exists_block hblocks hmem
    refine ⟨front, es, back ++ data, ?_, hstorage ▸ hstart, ?_⟩
    · rw [show r.backend.items = _ from hitems, hflatten, List.append_assoc]
    · rw [← huses]
      exact htouches.places_of_declared hcovered (hdeclared _ hmem)

def shadowingBody : List Stmt :=
  let again : Stmt :=
    .declare (.var {} { ident := "g", tag := .int, kind := .localVar, init := some (.name "g" {}) })
  let read : Stmt := .eval (.name "g" {}) none
  [read, again, .block [again, read] {}, read]

def shadowing : DeclList :=
  [some (.function {} { ident := "f", tag := .int } [] shadowingBody),
    some (.var {} { ident := "g", tag := .int, kind := .global })]

theorem names_resolved_at_check_shadowing :
    shadowing.isWellFormed = true ∧
    (({} : Compiler).compile shadowing (Listing.empty false)).outcome = .ok () ∧
    ∃ inner, inner.flatMap Emission.places =
        [.wordAt "_vg", .slot (-4), .wordAt "_vg", .slot (-8), .slot (-4), .slot (-8), .slot (-4)] ∧
      inner <:+: (({} : Compiler).compile shadowing (Listing.empty false)).backend.items := by
  have hwf : shadowing.isWellFormed = true := by decide
  have hok : (({} : Compiler).compile shadowing (Listing.empty false)).outcome = .ok () := by
    decide +kernel
  obtain ⟨scope, opened, name, inner, front, back, henter, hitems, hplaces, -⟩ :=
    (names_resolved_at_check shadowing false hwf hok).1 0 {} { ident := "f", tag := .int, ty := some 4 } []
      shadowingBody rfl
  have hopened := after_of_ok henter
  obtain ⟨_, _, _, -, -, hscope, -⟩ := FunctionHead.enter_eq_ok henter
  obtain rfl : scope = 1 := hscope.trans (by decide +kernel)
  have huses : Stmt.usesOfAll shadowingBody 1 opened =
      [⟨0, "g"⟩, ⟨1, "g"⟩, ⟨0, "g"⟩, ⟨2, "g"⟩, ⟨1, "g"⟩, ⟨2, "g"⟩, ⟨1, "g"⟩] := by
    rw [← hopened]
    decide +kernel
  have houter : (Frame.layout (({} : Compiler).compile shadowing
      (Listing.empty false)).compiler.session.context 1).offset? 1 "g" = some (-4) := by decide +kernel
  have hinner : (Frame.layout (({} : Compiler).compile shadowing
      (Listing.empty false)).compiler.session.context 1).offset? 2 "g" = some (-8) := by decide +kernel
  refine ⟨hwf, hok, inner, ?_, ?_⟩
  · rw [huses] at hplaces
    generalize Frame.layout (({} : Compiler).compile shadowing
      (Listing.empty false)).compiler.session.context 1 = frame at houter hinner hplaces
    simpa [Binding.place?, root, houter, hinner, List.forall₂_cons_left_iff, Symbol.global] using hplaces
  · rw [hitems, FunctionHead.items]
    exact ((List.infix_append _ inner _).trans (List.suffix_cons _ _).isInfix).trans
      (List.infix_append front _ back)

end UnitCompiler
