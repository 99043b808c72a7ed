import UnitCompiler.Proofs.Runs

namespace UnitCompiler

/-- Whatever the check does to its context, it does along `R`. Declarations come to be checked in scopes that are
`outer` and only if they are `ready`, statements in scopes that are `inner`. -/
structure Traversal (R : Context → Context → Prop) (outer inner : ScopeId → Context → Prop)
    (ready : Decl → Prop) : Prop where
  refl (c : Context) : R c c
  trans {c c₁ c' : Context} : R c c₁ → R c₁ c' → R c c'
  outer_mono {env : ScopeId} {c c' : Context} : R c c' → outer env c → outer env c'
  inner_mono {env : ScopeId} {c c' : Context} : R c c' → inner env c → inner env c'
  outer_of_inner {env : ScopeId} {c : Context} : inner env c → outer env c
  register {env : ScopeId} {s : Session} (d : Decl) : inner env s.context →
    R s.context (d.register env (.scope env) s).2.context
  registered {env : ScopeId} {s t : Session} {d d' : Decl} : inner env s.context →
    d.register env (.scope env) s = (⟨d', .ok ()⟩, t) → ready d'
  registerFields {env : ScopeId} {s : Session} {site : Site} {head : StructHead} {fields : DeclList} {ty : TypeId} :
    outer env s.context → ready (.struct site head fields) → head.ty = some ty →
      R s.context (DeclList.register env (.fields ty) fields s).2.context
  layOut {c c' : Context} {site : Site} {head : StructHead} {fields : DeclList} {ty : TypeId} :
    ready (.struct site head fields) → head.ty = some ty →
      c.layOutFields ty (UInt32.ofNat wordSize) = .ok c' → R c c'
  enter {env : ScopeId} {c : Context} (f : FunctionHead) : outer env c → R c (after (f.enter env) c)
  entered {env scope : ScopeId} {c c' : Context} {f : FunctionHead} : outer env c →
    f.enter env c = .ok scope c' → inner scope c'
  openBlock {env : ScopeId} {c : Context} : inner env c → R c (c.openBlock env).2
  opened {env : ScopeId} {c : Context} : inner env c → inner (c.openBlock env).1 (c.openBlock env).2
  modifyLabel {env : ScopeId} {c : Context} (name : String) (f : JumpLabel → JumpLabel) : inner env c →
    R c (c.modifyLabel env name f)

namespace Traversal

variable {R : Context → Context → Prop} {outer inner : ScopeId → Context → Prop} {ready : Decl → Prop}

theorem checkWith (h : Traversal R outer inner ready) {runBody : ScopeId → SessionM (Visited (List Stmt))}
    (hrun : ∀ scope s, inner scope s.context → R s.context (runBody scope s).2.context)
    {d : Decl} (hd : ready d) {env : ScopeId} {s : Session} (hs : outer env s.context) :
    R s.context (d.checkWith env runBody s).2.context := by
  cases d with
  | function site head params body =>
    have henter := h.enter head hs
    rw [Decl.checkWith]
    cases he : head.enter env s.context with
    | error e c =>
      rw [after_of_error he] at henter
      rw [SessionM.bind_of_eq _ (Session.attempt_of_error he)]
      exact henter
    | ok scope c =>
      rw [after_of_ok he] at henter
      rw [SessionM.bind_of_eq _ (Session.attempt_of_ok he)]
      -- the body runs in the scope that was opened for it
      exact h.trans henter (hrun scope { s with context := c } (h.entered hs he))
  | struct site head fields =>
    rw [Decl.checkWith]
    cases hty : head.ty with
    | none => exact h.refl _
    | some ty =>
      have hfields := h.registerFields hs hd hty
      rcases hf : DeclList.register env (.fields ty) fields s with ⟨visited, t⟩
      rw [hf] at hfields
      dsimp only
      rw [SessionM.bind_of_eq _ hf]
      cases visited.outcome with
      | error e => exact hfields
      | ok u =>
        refine h.trans hfields ?_
        change R t.context (Session.attempt _ t).2.context
        rw [Session.attempt_change?]
        cases hl : t.context.layOutFields ty (UInt32.ofNat wordSize) with
        | ok c => exact h.layOut hd hty hl
        | error d => exact h.refl _
  | var | data | array => exact h.refl _

mutual

theorem checkBody (h : Traversal R outer inner ready) : ∀ (d : Decl) (env : ScopeId) (s : Session),
    inner env s.context → R s.context (d.checkBody env s).2.context
  | .function _ _ _ body, env, s, hs => by
    rw [Decl.checkBody]
    exact checkAll h body env s hs
  | .var _ _, _, _, _ | .struct _ _ _, _, _, _ | .data _ _, _, _, _ | .array _ _, _, _, _ => h.refl _

theorem checkStmt (h : Traversal R outer inner ready) : ∀ (stmt : Stmt) (env : ScopeId) (s : Session),
    inner env s.context → R s.context (stmt.check env s).2.context
  | .declare d, env, s, hs => by
    have hd := h.register d hs
    rcases hr : d.register env (.scope env) s with ⟨⟨d', o⟩, t⟩
    rw [hr] at hd
    rw [Stmt.check, SessionM.bind_of_eq _ hr]
    cases o with
    | error e => exact hd
    | ok u =>
      exact h.trans hd (h.checkWith (fun scope s => checkBody h d scope s) (h.registered hs hr)
        (h.outer_mono hd (h.outer_of_inner hs)))
  | .block body span, env, s, hs => by
    rw [Stmt.check_block]
    exact h.trans (h.openBlock hs)
      (checkAll h body _ { s with context := (s.context.openBlock env).2 } (h.opened hs))
  | .goto label span old, env, s, hs => by
    rw [Stmt.check_goto]
    exact h.modifyLabel label _ hs
  | .label name span old, env, s, hs => by
    rw [Stmt.check_label]
    unfold Context.placeLabel
    split
    · rename_i hplace
      split at hplace
      · cases hplace
      · cases hplace
        exact h.modifyLabel name _ hs
    · exact h.refl _
  | .eval e old, env, s, _ => by
    rw [Stmt.check_eval]
    cases e.check s.context env <;> exact h.refl _

theorem checkAll (h : Traversal R outer inner ready) : ∀ (body : List Stmt) (env : ScopeId) (s : Session),
    inner env s.context → R s.context (Stmt.checkAll body env s).2.context
  | [], _, _, _ => by
    rw [Stmt.checkAll]
    exact h.refl _
  | stmt :: rest, env, s, hs => by
    have hstmt := checkStmt h stmt env s hs
    rcases hr : stmt.check env s with ⟨here, t⟩
    rw [hr] at hstmt
    rw [Stmt.checkAll, SessionM.bind_of_eq _ hr]
    cases here.outcome with
    | error e => exact hstmt
    | ok u => exact h.trans hstmt (checkAll h rest env t (h.inner_mono hstmt hs))

end

theorem checkDecl (h : Traversal R outer inner ready) {d : Decl} (hd : ready d) {env : ScopeId} {s : Session}
    (hs : outer env s.context) : R s.context (d.check env s).2.context :=
  h.checkWith (fun scope s => h.checkBody d scope s) hd hs

/-- From the single changes to a whole check, with success or not. -/
theorem checkFrom (h : Traversal R outer inner ready) {env : ScopeId} {seq : DeclList}
    (hseq : ∀ d ∈ seq.filterMap id, ready d) (index : Nat) {s : Session} (hs : outer env s.context) :
    R s.context (DeclList.checkFrom env index seq s).2.context := by
  induction seq generalizing index s with
  | nil => exact h.refl _
  | cons slot rest ih =>
    cases slot with
    | none => exact ih hseq (index + 1) hs
    | some d =>
      obtain ⟨hd, hrest⟩ := List.forall_mem_cons.mp hseq
      have hhere := h.checkDecl hd (s := (Session.log (.visited .check index d.noun) s).2) hs
      rcases hr : d.check env (Session.log (.visited .check index d.noun) s).2 with ⟨here, t⟩
      rw [hr] at hhere
      rw [DeclList.checkFrom, SessionM.bind_log, SessionM.bind_of_eq _ hr]
      cases here.outcome with
      | error e => exact hhere
      | ok u => exact h.trans hhere (ih hrest (index + 1) (h.outer_mono hhere hs))

end Traversal

end UnitCompiler
