import UnitCompiler.Proofs.Derivation

namespace UnitCompiler

open SessionM

theorem DeclList.register_blind (env : ScopeId) (target : Target) (seq : DeclList) :
    Blind (seq.register env target) :=
  DeclList.inTwoSweeps_blind fun structs => DeclList.sweep_blind env structs seq target 0

theorem Decl.registerEach_blind (env : ScopeId) (target : Target) (ds : List Decl) :
    Blind (Decl.registerEach env target ds) := by
  induction ds with
  | nil => exact blind_pure _
  | cons d ds ih =>
    refine (d.register_blind env target).bind fun here => ?_
    cases here.outcome with
    | error e => exact blind_pure _
    | ok _ => exact ih

theorem Decl.checkWith_blind (env : ScopeId) {runBody : ScopeId → SessionM (Visited (List Stmt))}
    (h : ∀ scope, Blind (runBody scope)) (d : Decl) : Blind (d.checkWith env runBody) := by
  cases d with
  | var | data | array => exact blind_pure _
  | function site head params body =>
    refine (blind_attempt _).bind fun r => ?_
    cases r with
    | error e => exact blind_pure _
    | ok scope => exact (h scope).bind fun _ => blind_pure _
  | struct site head fields =>
    rw [Decl.checkWith]
    cases head.ty with
    | none => exact blind_pure _
    | some ty =>
      refine (DeclList.register_blind env (.fields ty) fields).bind fun visited => ?_
      cases visited.outcome with
      | error e => exact blind_pure _
      | ok _ => exact (blind_attempt _).bind fun _ => blind_pure _

mutual

theorem Decl.checkBody_blind : ∀ (d : Decl) (env : ScopeId), Blind (d.checkBody env)
  | .function _ _ _ body, env => by
    rw [Decl.checkBody]
    exact Stmt.checkAll_blind body env
  | .var _ _, _ | .struct _ _ _, _ | .data _ _, _ | .array _ _, _ => blind_pure _

theorem Stmt.check_blind : ∀ (stmt : Stmt) (env : ScopeId), Blind (stmt.check env)
  | .declare d, env => by
    have hbody := Decl.checkBody_blind d
    rw [Stmt.check]
    refine (d.register_blind env (.scope env)).bind fun registered => ?_
    cases registered.outcome with
    | error e => exact blind_pure _
    | ok _ => exact (Decl.checkWith_blind env hbody registered.node).bind fun _ => blind_pure _
  | .block body span, env => by
    rw [Stmt.check]
    refine Blind.bind (fun s t h => ?_) fun scope => (Stmt.checkAll_blind body scope).bind fun _ =>
      blind_pure _
    exact ⟨congrArg (fun c : Context => (c.openBlock env).1) h,
      congrArg (fun c : Context => (c.openBlock env).2) h⟩
  | .goto name span old, env => by
    intro s t h
    simp [h]
  | .label name span old, env => by
    rw [Stmt.check]
    exact Visited.leaf_blind _ _ _
  | .eval e old, env => by
    rw [Stmt.check]
    exact Visited.leaf_blind _ _ _

theorem Stmt.checkAll_blind : ∀ (body : List Stmt) (env : ScopeId), Blind (Stmt.checkAll body env)
  | [], _ => by
    rw [Stmt.checkAll]
    exact blind_pure _
  | stmt :: rest, env => by
    have hrest := Stmt.checkAll_blind rest env
    rw [Stmt.checkAll]
    refine (Stmt.check_blind stmt env).bind fun here => ?_
    cases here.outcome with
    | error e => exact blind_pure _
    | ok _ => exact hrest.bind fun _ => blind_pure _

end

theorem Decl.check_blind (env : ScopeId) (d : Decl) : Blind (d.check env) :=
  Decl.checkWith_blind env d.checkBody_blind d

@[simp] theorem DeclList.checkFrom_none (env : ScopeId) (index : Nat) (rest : DeclList) (s : Session) :
    DeclList.checkFrom env index (none :: rest) s =
      let (visited, u) := DeclList.checkFrom env (index + 1) rest s
      (⟨none :: visited.node, visited.outcome⟩, u) := by
  rw [DeclList.checkFrom]
  rfl

theorem DeclList.checkFrom_visit {env : ScopeId} {index : Nat} {d : Decl} (rest : DeclList)
    {s t : Session} {here : Visited Decl}
    (h : d.check env (Session.log (.visited .check index d.noun) s).2 = (here, t)) :
    DeclList.checkFrom env index (some d :: rest) s =
      match here.outcome with
      | .error e => (⟨some here.node :: rest, .error (d.stamp e)⟩,
          (Session.log (.declarationFailed .check (d.stamp e)) t).2)
      | .ok () =>
        let (visited, u) := DeclList.checkFrom env (index + 1) rest t
        (⟨some here.node :: visited.node, visited.outcome⟩, u) := by
  rw [DeclList.checkFrom, SessionM.bind_log, SessionM.bind_of_eq _ h]
  cases here.outcome <;> rfl

theorem DeclList.checkFrom_blind (env : ScopeId) (seq : DeclList) (index : Nat) :
    Blind (DeclList.checkFrom env index seq) := by
  induction seq generalizing index with
  | nil =>
    rw [DeclList.checkFrom]
    exact blind_pure _
  | cons slot rest ih =>
    cases slot with
    | none =>
      rw [DeclList.checkFrom]
      exact (ih (index + 1)).bind fun _ => blind_pure _
    | some d =>
      rw [DeclList.checkFrom]
      refine (blind_log _).bind fun _ => (d.check_blind env).bind fun here => ?_
      cases here.outcome with
      | error e => exact ((blind_log _).bind fun _ => blind_pure _).bind fun _ => blind_pure _
      | ok _ => exact (ih (index + 1)).bind fun _ => blind_pure _

/-- A declaration in a checked sequence was checked in the context that the check of those before it had
left. -/
theorem DeclList.checkFrom_at {env : ScopeId} {seq seq' : DeclList} {index i : Nat} {s t : Session}
    (h : DeclList.checkFrom env index seq s = (⟨seq', .ok ()⟩, t)) {d : Decl}
    (hd : seq[i]? = some (some d)) :
    ∃ u v d', u.context = (DeclList.checkFrom env index (seq.take i) s).2.context ∧
      d.check env u = (⟨d', .ok ()⟩, v) ∧ seq'[i]? = some (some d') := by
  induction seq generalizing index i s seq' with
  | nil => cases hd
  | cons slot rest ih =>
    cases slot with
    | none =>
      cases i with
      | zero => cases hd
      | succ i =>
        rcases hr : DeclList.checkFrom env (index + 1) rest s with ⟨⟨rest', o⟩, u⟩
        rw [DeclList.checkFrom_none, hr] at h
        cases h
        obtain ⟨u, v, d', hu, hcheck, hget⟩ := ih hr hd
        refine ⟨u, v, d', ?_, hcheck, hget⟩
        rw [List.take_succ_cons, DeclList.checkFrom_none]
        exact hu
    | some d₀ =>
      rcases hcheck₀ : d₀.check env (Session.log (.visited .check index d₀.noun) s).2 with ⟨⟨here, o⟩, u⟩
      rw [DeclList.checkFrom_visit rest hcheck₀] at h
      cases o with
      | error e => cases h
      | ok _ =>
        rcases hr : DeclList.checkFrom env (index + 1) rest u with ⟨⟨rest', o⟩, u'⟩
        simp only [hr] at h
        cases h
        cases i with
        | zero =>
          obtain rfl : d₀ = d := Option.some.inj (Option.some.inj hd)
          rw [List.take_zero, DeclList.checkFrom]
          exact ⟨(Session.log (.visited .check index d₀.noun) s).2, u, here, rfl, hcheck₀, rfl⟩
        | succ i =>
          obtain ⟨u₁, v, d', hu₁, hcheck, hget⟩ := ih hr hd
          refine ⟨u₁, v, d', ?_, hcheck, hget⟩
          rw [List.take_succ_cons, DeclList.checkFrom_visit _ hcheck₀]
          exact hu₁

/-- The same for a sweep of the registration. -/
theorem DeclList.sweep_at {structs : Bool} {env : ScopeId} {target : Target} {seq seq' : DeclList}
    {index i : Nat} {s t : Session}
    (h : DeclList.sweep structs env target index seq s = (⟨seq', .ok ()⟩, t)) {d : Decl}
    (hd : seq[i]? = some (some d)) (hstruct : d.isStruct = structs) :
    ∃ u v d', u.context = (DeclList.sweep structs env target index (seq.take i) s).2.context ∧
      d.register env target u = (⟨d', .ok ()⟩, v) ∧ seq'[i]? = some (some d') := by
  induction seq generalizing index i s seq' with
  | nil => cases hd
  | cons slot rest ih =>
    cases slot with
    | none =>
      cases i with
      | zero => cases hd
      | succ i =>
        rcases hr : DeclList.sweep structs env target (index + 1) rest s with ⟨⟨rest', o⟩, u⟩
        rw [DeclList.sweep_none, hr] at h
        cases h
        obtain ⟨u, v, d', hu, hregister, hget⟩ := ih hr hd
        refine ⟨u, v, d', ?_, hregister, hget⟩
        rw [List.take_succ_cons, DeclList.sweep_none]
        exact hu
    | some d₀ =>
      by_cases hd₀ : d₀.isStruct = structs
      · rcases hregister₀ : d₀.register env target (Session.log (.visited .register index d₀.noun) s).2 with
          ⟨⟨here, o⟩, u⟩
        rw [DeclList.sweep_visit hd₀ env target index rest hregister₀] at h
        cases o with
        | error e => cases h
        | ok _ =>
          rcases hr : DeclList.sweep structs env target (index + 1) rest u with ⟨⟨rest', o⟩, u'⟩
          simp only [hr] at h
          cases h
          cases i with
          | zero =>
            obtain rfl : d₀ = d := Option.some.inj (Option.some.inj hd)
            rw [List.take_zero, DeclList.sweep]
            exact ⟨(Session.log (.visited .register index d₀.noun) s).2, u, here, rfl, hregister₀, rfl⟩
          | succ i =>
            obtain ⟨u₁, v, d', hu₁, hregister, hget⟩ := ih hr hd
            refine ⟨u₁, v, d', ?_, hregister, hget⟩
            rw [List.take_succ_cons, DeclList.sweep_visit hd₀ env target index _ hregister₀]
            exact hu₁
      · rcases hr : DeclList.sweep structs env target (index + 1) rest s with ⟨⟨rest', o⟩, u⟩
        rw [DeclList.sweep_pass hd₀, hr] at h
        cases h
        cases i with
        | zero =>
          -- the slot asked for would belong to the other sweep
          obtain rfl : d₀ = d := Option.some.inj (Option.some.inj hd)
          exact absurd hstruct hd₀
        | succ i =>
          obtain ⟨u, v, d', hu, hregister, hget⟩ := ih hr hd
          refine ⟨u, v, d', ?_, hregister, hget⟩
          rw [List.take_succ_cons, DeclList.sweep_pass hd₀]
          exact hu

/-- The declarations that are registered before the one in slot `i`, if that is not a struct. -/
def DeclList.precursors (seq : DeclList) (i : Nat) : List Decl :=
  (seq.filterMap id).filter Decl.isStruct ++ ((seq.take i).filterMap id).filter fun d => !d.isStruct

theorem DeclList.register_at {env : ScopeId} {target : Target} {seq seq' : DeclList} {i : Nat}
    {s t : Session} (h : seq.register env target s = (⟨seq', .ok ()⟩, t)) {d : Decl}
    (hd : seq[i]? = some (some d)) (hstruct : d.isStruct = false) :
    ∃ u v d', u.context = (Decl.registerEach env target (seq.precursors i) s).2.context ∧
      d.register env target u = (⟨d', .ok ()⟩, v) ∧ seq'[i]? = some (some d') := by
  rcases h₁ : DeclList.sweep true env target 0 seq s with ⟨⟨first, o⟩, s₁⟩
  unfold DeclList.register at h
  rw [DeclList.inTwoSweeps_run _ h₁] at h
  cases o with
  | error e => cases h
  | ok _ =>
    rcases h₂ : DeclList.sweep false env target 0 seq s₁ with ⟨⟨second, o⟩, s₂⟩
    simp only [h₂] at h
    obtain ⟨hnode, rfl⟩ := Prod.mk.inj h
    obtain ⟨rfl, rfl⟩ := Visited.mk.inj hnode
    obtain ⟨u, v, d', hu, hregister, hget⟩ := DeclList.sweep_at h₂ hd hstruct
    -- the first sweep registers the structs, and no log entry matters to the context
    obtain ⟨hfirst, hfirstContext⟩ := DeclList.sweep_eq_registerEach true env target seq 0 (s := s) rfl
    rw [h₁] at hfirst hfirstContext
    rcases hstructs : Decl.registerEach env target ((seq.filterMap id).filter Decl.isStruct) s with ⟨r, s₁'⟩
    simp only [Bool.decide_eq_true, hstructs] at hfirst hfirstContext
    subst hfirst
    obtain ⟨-, hrest⟩ := DeclList.sweep_eq_registerEach false env target (seq.take i) 0 hfirstContext
    simp only [Bool.decide_eq_false] at hrest
    refine ⟨u, v, d', ?_, hregister, ?_⟩
    · unfold DeclList.precursors
      rw [Decl.registerEach_append, hstructs, hu]
      exact hrest
    -- merging takes each slot from the sweep it belongs to, and this one is no struct
    · obtain ⟨hshape, -⟩ := DeclList.sweep_entered env true seq target 0 s s₁ first h₁
      obtain ⟨d'', hd'', hsame⟩ : ∃ d'', first[i]? = some (some d'') ∧ d''.isStruct = false := by
        have hslot := congrArg (fun l : List (Option Bool) => l[i]?) hshape
        simp only [List.getElem?_map, hd, Option.map_some, hstruct] at hslot
        obtain ⟨slot, hslot', hmap⟩ := Option.map_eq_some_iff.mp hslot.symm
        obtain ⟨d'', rfl, hsame⟩ := Option.map_eq_some_iff.mp hmap
        exact ⟨d'', hslot', hsame⟩
      unfold DeclList.merge
      rw [List.getElem?_zipWith, hd'', hget]
      simp [hsame]

theorem Decl.check_function_eq_ok {env : ScopeId} {site : Site} {head : FunctionHead}
    {params : List (Option Decl)} {body : List Stmt} {d : Decl} {s t : Session}
    (h : (Decl.function site head params body).check env s = (⟨d, .ok ()⟩, t)) :
    ∃ scope c body', head.enter env s.context = .ok scope c ∧
      Stmt.checkAll body scope { s with context := c } = (⟨body', .ok ()⟩, t) ∧
      d = .function site { head with env := some scope } params body' := by
  obtain ⟨scope, c, body', henter, hb, rfl⟩ := Decl.checkWith_function_eq_ok h
  rw [Decl.checkBody] at hb
  exact ⟨scope, c, body', henter, hb, rfl⟩

end UnitCompiler
