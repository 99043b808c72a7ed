import UnitCompiler.Compiler

namespace UnitCompiler

section Failing

variable {ε σ α γ : Type}

/-- The state that a computation leaves, whether it fails or not. -/
def after (x : EStateM ε σ α) (s : σ) : σ :=
  match x s with
  | .ok _ t => t
  | .error _ t => t

theorem after_of_ok {x : EStateM ε σ α} {s t : σ} {a : α} (h : x s = .ok a t) : after x s = t := by
  simp only [after, h]

theorem after_of_error {x : EStateM ε σ α} {s t : σ} {e : ε} (h : x s = .error e t) :
    after x s = t := by
  simp only [after, h]

theorem bind_of_ok {x : EStateM ε σ α} {s t : σ} {a : α} (f : α → EStateM ε σ γ)
    (h : x s = .ok a t) : (x >>= f) s = f a t := by
  change EStateM.bind x f s = _
  rw [EStateM.bind, h]

theorem bind_of_error {x : EStateM ε σ α} {s t : σ} {e : ε} (f : α → EStateM ε σ γ)
    (h : x s = .error e t) : (x >>= f) s = .error e t := by
  change EStateM.bind x f s = _
  rw [EStateM.bind, h]

theorem bind_eq_ok {x : EStateM ε σ α} {f : α → EStateM ε σ γ} {s u : σ} {b : γ} :
    (x >>= f) s = .ok b u ↔ ∃ a t, x s = .ok a t ∧ f a t = .ok b u := by
  constructor
  · intro h
    cases hx : x s with
    | ok a t => exact ⟨a, t, rfl, by rwa [bind_of_ok f hx] at h⟩
    | error e t => rw [bind_of_error f hx] at h; cases h
  · rintro ⟨a, t, hx, hf⟩
    rw [bind_of_ok f hx, hf]

theorem bind_eq_error {x : EStateM ε σ α} {f : α → EStateM ε σ γ} {s u : σ} {e : ε} :
    (x >>= f) s = .error e u ↔
      x s = .error e u ∨ ∃ a t, x s = .ok a t ∧ f a t = .error e u := by
  cases hx : x s with
  | ok a t =>
    rw [bind_of_ok f hx]
    constructor
    · intro h
      exact Or.inr ⟨a, t, rfl, h⟩
    · rintro (h | ⟨a', t', h, hf⟩)
      · cases h
      · cases h
        exact hf
  | error e' t => simp [bind_of_error f hx]

@[simp] theorem bind_get (f : σ → EStateM ε σ γ) (s : σ) : (get >>= f) s = f s s := rfl

@[simp] theorem after_get (f : σ → EStateM ε σ γ) (s : σ) : after (get >>= f) s = after (f s) s := rfl

/-- What holds along each part of a computation holds along the whole. -/
theorem after_bind {R : σ → σ → Prop} (htrans : ∀ {s t u}, R s t → R t u → R s u)
    {x : EStateM ε σ α} {f : α → EStateM ε σ γ} {s : σ} (hx : R s (after x s))
    (hf : ∀ a t, x s = .ok a t → R t (after (f a) t)) : R s (after (x >>= f) s) := by
  cases h : x s with
  | ok a t =>
    rw [after_of_ok h] at hx
    simpa only [after, bind_of_ok f h] using htrans hx (hf a t h)
  | error e t =>
    rw [after_of_error h] at hx
    simpa only [after, bind_of_error f h] using hx

@[simp] theorem after_adaptExcept {δ : Type} (f : ε → δ) (x : EStateM ε σ α) (s : σ) :
    after (EStateM.adaptExcept f x) s = after x s := by
  unfold after EStateM.adaptExcept
  cases x s <;> rfl

theorem adaptExcept_of_error {δ : Type} (f : ε → δ) {x : EStateM ε σ α} {s t : σ} {e : ε}
    (h : x s = .error e t) : EStateM.adaptExcept f x s = .error (f e) t := by
  unfold EStateM.adaptExcept
  rw [h]

theorem adaptExcept_eq_error {δ : Type} {f : ε → δ} {x : EStateM ε σ α} {s t : σ} {e : δ} :
    EStateM.adaptExcept f x s = .error e t ↔ ∃ e', x s = .error e' t ∧ f e' = e := by
  unfold EStateM.adaptExcept
  cases x s with
  | ok a u => simp
  | error e' u =>
    constructor
    · intro h
      cases h
      exact ⟨e', rfl, rfl⟩
    · rintro ⟨_, h, rfl⟩
      cases h
      rfl

@[simp] theorem adaptExcept_eq_ok {δ : Type} {f : ε → δ} {x : EStateM ε σ α} {s t : σ} {a : α} :
    EStateM.adaptExcept f x s = .ok a t ↔ x s = .ok a t := by
  unfold EStateM.adaptExcept
  cases x s <;> simp

end Failing

theorem Emitter.withFrame_of_error {β : Type} {x : EmitM β Unit} {frame : Frame} {s t : Emitter β}
    {e : EmitError} (h : x { s with frame := some frame } = .error e t) :
    Emitter.withFrame frame x s = .error e { t with frame := s.frame } := by
  unfold Emitter.withFrame
  rw [h]

theorem Emitter.withFrame_eq_ok {β : Type} {x : EmitM β Unit} {frame : Frame} {s t : Emitter β}
    (h : Emitter.withFrame frame x s = .ok () t) :
    ∃ u, x { s with frame := some frame } = .ok () u ∧ t = { u with frame := s.frame } := by
  unfold Emitter.withFrame at h
  cases hx : x { s with frame := some frame } with
  | ok a u =>
    rw [hx] at h
    cases h
    exact ⟨u, rfl, rfl⟩
  | error e u =>
    rw [hx] at h
    cases h

theorem Emitter.withFrame_eq_error {β : Type} {x : EmitM β Unit} {frame : Frame} {s t : Emitter β}
    {e : EmitError} (h : Emitter.withFrame frame x s = .error e t) :
    ∃ u, x { s with frame := some frame } = .error e u := by
  unfold Emitter.withFrame at h
  cases hx : x { s with frame := some frame } with
  | ok a u => rw [hx] at h; cases h
  | error e' u =>
    rw [hx] at h
    cases h
    exact ⟨u, rfl⟩

theorem EmitError.mapDiagnostic_eq_diagnostic {f : Diagnostic → Diagnostic} {err : EmitError} {d : Diagnostic}
    (h : err.mapDiagnostic f = .diagnostic d) : ∃ raw, err = .diagnostic raw ∧ f raw = d := by
  cases err with
  | diagnostic raw => exact ⟨raw, rfl, EmitError.diagnostic.inj h⟩
  | backend e => cases h

theorem FunctionHead.emit_run {β : Type} [Backend β] {f : FunctionHead} {env : ScopeId}
    (henv : f.env = some env) (runBody : EmitM β Unit) (s : Emitter β) :
    f.emit runBody s = (f.emitEnter env (Frame.layout s.context env) >>= fun _ =>
      Emitter.withFrame (Frame.layout s.context env) runBody >>= fun _ =>
        FunctionHead.emitLeave env (Frame.layout s.context env)) s := by
  unfold FunctionHead.emit
  rw [henv]
  rfl

/-- A function that is emitted has a scope. It is entered, its body runs in its frame, and it is left. -/
theorem FunctionHead.emit_eq_ok {β : Type} [Backend β] {f : FunctionHead} {runBody : EmitM β Unit} {s t : Emitter β}
    (h : f.emit runBody s = .ok () t) :
    ∃ env u w, f.env = some env ∧ f.emitEnter env (Frame.layout s.context env) s = .ok () u ∧
      runBody { u with frame := some (Frame.layout s.context env) } = .ok () w ∧
      FunctionHead.emitLeave env (Frame.layout s.context env) { w with frame := u.frame } = .ok () t := by
  cases henv : f.env with
  | none =>
    unfold FunctionHead.emit at h
    rw [henv] at h
    cases h
  | some env =>
    rw [FunctionHead.emit_run henv] at h
    obtain ⟨_, u, henter, h⟩ := bind_eq_ok.mp h
    obtain ⟨_, v, hrun, hleave⟩ := bind_eq_ok.mp h
    obtain ⟨w, hw, rfl⟩ := Emitter.withFrame_eq_ok hrun
    exact ⟨env, u, w, rfl, henter, hw, hleave⟩

@[simp] theorem DeclList.guarded_eq_ok {β : Type} {pass : Pass} {d : Decl} {x : EmitM β Unit}
    {s t : Emitter β} : DeclList.guarded pass d x s = .ok () t ↔ x s = .ok () t := by
  unfold DeclList.guarded
  split <;> simp_all

theorem Compiler.runAll_of_ok {β : Type} [Backend β] {c : Compiler} {pass : Pass} {program : DeclList}
    {b : β} (rest : List Pass) (h : (c.run pass program b).outcome = .ok ()) :
    c.runAll program b (pass :: rest) = (c.run pass program b).compiler.runAll
      (c.run pass program b).program (c.run pass program b).backend rest := by
  simp only [Compiler.runAll, h]

theorem Compiler.runAll_of_error {β : Type} [Backend β] {c : Compiler} {pass : Pass}
    {program : DeclList} {b : β} (rest : List Pass) {d : Diagnostic}
    (h : (c.run pass program b).outcome = .error d) :
    c.runAll program b (pass :: rest) = c.run pass program b := by
  simp only [Compiler.runAll, h]

@[simp] theorem Compiler.runAll_singleton {β : Type} [Backend β] (c : Compiler) (pass : Pass)
    (program : DeclList) (b : β) : c.runAll program b [pass] = c.run pass program b := by
  cases h : (c.run pass program b).outcome with
  | error d => exact runAll_of_error [] h
  | ok _ =>
    rw [runAll_of_ok [] h, runAll]
    rw [← h]

theorem Compiler.runAll_append_of_ok {β : Type} [Backend β] {c : Compiler} {program : DeclList}
    {b : β} {passes : List Pass} (rest : List Pass) (h : (c.runAll program b passes).outcome = .ok ()) :
    c.runAll program b (passes ++ rest) = (c.runAll program b passes).compiler.runAll
      (c.runAll program b passes).program (c.runAll program b passes).backend rest := by
  induction passes generalizing c program b with
  | nil => rfl
  | cons pass passes ih =>
    cases ho : (c.run pass program b).outcome with
    | error d => rw [runAll_of_error passes ho, ho] at h; cases h
    | ok _ =>
      rw [runAll_of_ok passes ho] at h
      rw [List.cons_append, runAll_of_ok _ ho, runAll_of_ok _ ho]
      exact ih h

theorem Compiler.runAll_append_of_error {β : Type} [Backend β] {c : Compiler} {program : DeclList}
    {b : β} {passes : List Pass} (rest : List Pass) {d : Diagnostic}
    (h : (c.runAll program b passes).outcome = .error d) :
    c.runAll program b (passes ++ rest) = c.runAll program b passes := by
  induction passes generalizing c program b with
  | nil => cases h
  | cons pass passes ih =>
    cases ho : (c.run pass program b).outcome with
    | error d => rw [List.cons_append, runAll_of_error _ ho, runAll_of_error _ ho]
    | ok _ =>
      rw [runAll_of_ok passes ho] at h
      rw [List.cons_append, runAll_of_ok _ ho, runAll_of_ok _ ho]
      exact ih h

theorem SessionM.bind_of_eq {α γ : Type} {x : SessionM α} {s t : Session} {a : α}
    (f : α → SessionM γ) (h : x s = (a, t)) : (x >>= f) s = f a t := by
  change f (x s).1 (x s).2 = _
  rw [h]

@[simp] theorem SessionM.bind_get {γ : Type} (f : Session → SessionM γ) (s : Session) :
    (get >>= f) s = f s s := rfl

@[simp] theorem SessionM.bind_log {γ : Type} (e : Event) (f : Unit → SessionM γ) (s : Session) :
    (Session.log e >>= f) s = f () (Session.log e s).2 := rfl

@[simp] theorem Session.attempt_context {α : Type} (x : CheckM α) (s : Session) :
    (Session.attempt x s).2.context = after x s.context := by
  unfold Session.attempt after
  cases x s.context <;> rfl

theorem Session.attempt_of_ok {α : Type} {x : CheckM α} {s : Session} {a : α} {c : Context}
    (h : x s.context = .ok a c) : Session.attempt x s = (.ok a, { s with context := c }) := by
  simp only [Session.attempt, h]

theorem Session.attempt_of_error {α : Type} {x : CheckM α} {s : Session} {d : Diagnostic}
    {c : Context} (h : x s.context = .error d c) :
    Session.attempt x s = (.error d, { s with context := c }) := by
  simp only [Session.attempt, h]

theorem Session.attempt_change? (f : Context → Except Diagnostic Context) (s : Session) :
    Session.attempt (CheckM.change? f) s = match f s.context with
      | .ok c => (.ok (), { s with context := c })
      | .error d => (.error d, s) := by
  unfold Session.attempt CheckM.change?
  cases f s.context <;> rfl

@[simp] theorem Visited.leaf_context {ν α : Type} (old : ν) (wrap : α → ν) (x : CheckM α) (s : Session) :
    (Visited.leaf old wrap x s).2.context = after x s.context := by
  unfold Visited.leaf
  rw [← Session.attempt_context]
  rcases h : Session.attempt x s with ⟨a | d, t⟩ <;> rw [SessionM.bind_of_eq _ h] <;> rfl

theorem Visited.leaf_of_ok {ν α : Type} {old : ν} {wrap : α → ν} {x : CheckM α} {s : Session} {a : α}
    {c : Context} (h : x s.context = .ok a c) :
    Visited.leaf old wrap x s = (⟨wrap a, .ok ()⟩, { s with context := c }) :=
  SessionM.bind_of_eq _ (Session.attempt_of_ok h)

theorem Visited.leaf_of_error {ν α : Type} {old : ν} {wrap : α → ν} {x : CheckM α} {s : Session}
    {d : Diagnostic} {c : Context} (h : x s.context = .error d c) :
    Visited.leaf old wrap x s = (⟨old, .error d⟩, { s with context := c }) :=
  SessionM.bind_of_eq _ (Session.attempt_of_error h)

theorem Visited.leaf_eq_error {ν α : Type} {old : ν} {wrap : α → ν} {x : CheckM α} {s : Session}
    {d : Diagnostic} (h : (Visited.leaf old wrap x s).1.outcome = .error d) :
    ∃ c, x s.context = .error d c := by
  cases hx : x s.context with
  | ok a c =>
    rw [Visited.leaf_of_ok hx] at h
    cases h
  | error e c =>
    rw [Visited.leaf_of_error hx] at h
    cases h
    exact ⟨c, rfl⟩

theorem FunctionHead.declareType_run (f : FunctionHead) (env : ScopeId) (c : Context) :
    f.declareType env c = match c.declaredType f.tag env with
      | .ok result => .ok c.types.size (c.addType env (.function result .empty)).2
      | .error d => .error d c := by
  change (CheckM.ofExcept (c.declaredType f.tag env) >>= _) c = _
  cases c.declaredType f.tag env <;> rfl

/-- All that the registration of a function can do: its type is unknown, or a parameter or the
function itself is refused and all types since are given back, or both are declared. -/
theorem FunctionHead.register_cases {ν : Type} (f : FunctionHead) (env : ScopeId) (target : Target)
    (params : ν) (runParams : TypeId → SessionM (Visited ν)) (s : Session) :
    (∃ d, s.context.declaredType f.tag env = .error d ∧
      f.register env target params runParams s = ((f, ⟨params, .error d⟩), s)) ∨
    ∃ result visited t, s.context.declaredType f.tag env = .ok result ∧
      runParams s.context.types.size
        { s with context := (s.context.addType env (.function result .empty)).2 } = (visited, t) ∧
      ((∃ d, (visited.outcome = .error d ∨ visited.outcome = .ok () ∧ t.context.insert target
          { name := f.ident, ty := s.context.types.size, kind := .func } "identifier" = .error d) ∧
        f.register env target params runParams s = ((f, ⟨visited.node, .error d⟩),
          { t with context := t.context.release s.context.types.mark })) ∨
      ∃ i c, visited.outcome = .ok () ∧ t.context.insert target
          { name := f.ident, ty := s.context.types.size, kind := .func } "identifier" = .ok (i, c) ∧
        f.register env target params runParams s =
          (({ f with ty := some s.context.types.size }, ⟨visited.node, .ok ()⟩),
            { t with context := c })) := by
  unfold FunctionHead.register
  rw [SessionM.bind_get]
  have hd := f.declareType_run env s.context
  cases hr : s.context.declaredType f.tag env with
  | error d =>
    rw [hr] at hd
    exact Or.inl ⟨d, rfl, SessionM.bind_of_eq _ (Session.attempt_of_error hd)⟩
  | ok result =>
    rw [hr] at hd
    rw [SessionM.bind_of_eq _ (Session.attempt_of_ok hd)]
    dsimp only
    rcases hp : runParams s.context.types.size
      { s with context := (s.context.addType env (.function result .empty)).2 } with ⟨visited, t⟩
    refine Or.inr ⟨result, visited, t, rfl, hp, ?_⟩
    rw [SessionM.bind_of_eq _ hp]
    cases ho : visited.outcome with
    | error d => exact Or.inl ⟨d, Or.inl rfl, rfl⟩
    | ok u =>
      cases hi : t.context.insert target
        { name := f.ident, ty := s.context.types.size, kind := .func } "identifier" with
      | error d =>
        -- the name is taken, so the parameters and the type of the function are given back
        refine Or.inl ⟨d, Or.inr ⟨rfl, rfl⟩, ?_⟩
        dsimp only
        rw [SessionM.bind_of_eq (a := .error d)
          (t := { t with context := t.context.release s.context.types.mark })]
        · rfl
        · simp only [Session.attempt, CheckM.insertOrRelease, hi]
      | ok p =>
        refine Or.inr ⟨p.1, p.2, rfl, rfl, ?_⟩
        dsimp only
        rw [SessionM.bind_of_eq (a := .ok ()) (t := { t with context := p.2 })]
        · rfl
        · simp only [Session.attempt, CheckM.insertOrRelease, hi]

theorem DeclList.sweep_visit {structs : Bool} {d : Decl} (hd : d.isStruct = structs) (env : ScopeId)
    (target : Target) (index : Nat) (rest : DeclList) {s t : Session} {here : Visited Decl}
    (h : d.register env target (Session.log (.visited .register index d.noun) s).2 = (here, t)) :
    DeclList.sweep structs env target index (some d :: rest) s =
      match here.outcome with
      | .error e => (⟨some here.node :: rest, .error (d.stamp e)⟩,
          (Session.log (.declarationFailed .register (d.stamp e)) t).2)
      | .ok () =>
        let (visited, u) := DeclList.sweep structs env target (index + 1) rest t
        (⟨some here.node :: visited.node, visited.outcome⟩, u) := by
  rw [DeclList.sweep, if_pos hd, SessionM.bind_log, SessionM.bind_of_eq _ h]
  cases here.outcome <;> rfl

theorem DeclList.sweep_pass {structs : Bool} {d : Decl} (hd : d.isStruct ≠ structs) (env : ScopeId)
    (target : Target) (index : Nat) (rest : DeclList) (s : Session) :
    DeclList.sweep structs env target index (some d :: rest) s =
      let (visited, u) := DeclList.sweep structs env target (index + 1) rest s
      (⟨some d :: visited.node, visited.outcome⟩, u) := by
  rw [DeclList.sweep, if_neg hd]
  rfl

@[simp] theorem DeclList.sweep_none (structs : Bool) (env : ScopeId) (target : Target) (index : Nat)
    (rest : DeclList) (s : Session) :
    DeclList.sweep structs env target index (none :: rest) s =
      let (visited, u) := DeclList.sweep structs env target (index + 1) rest s
      (⟨none :: visited.node, visited.outcome⟩, u) := by
  rw [DeclList.sweep]
  rfl

theorem DeclList.inTwoSweeps_run (sweep : Bool → SessionM (Visited DeclList)) {s t : Session}
    {first : Visited DeclList} (h : sweep true s = (first, t)) :
    DeclList.inTwoSweeps sweep s = match first.outcome with
      | .error _ => (first, t)
      | .ok () =>
        let (second, u) := sweep false t
        (⟨DeclList.merge first.node second.node, second.outcome⟩, u) := by
  unfold DeclList.inTwoSweeps
  rw [SessionM.bind_of_eq _ h]
  cases first.outcome <;> rfl

/-- The context after a program is registered and checked, as far as that goes. -/
def DeclList.checkedContext (ds : DeclList) : Context :=
  let registered := ds.register Context.root (.scope Context.root) {}
  (registered.1.node.check Context.root registered.2).2.context

@[simp] theorem Stmt.check_eval (e : Expr) (old : Option Value) (env : ScopeId) (s : Session) :
    Stmt.check (.eval e old) env s = match e.check s.context env with
      | .ok v => (⟨.eval e (some v), .ok ()⟩, s)
      | .error d => (⟨.eval e old, .error d⟩, s) := by
  have h : Session.attempt (fun c => CheckM.ofExcept (e.check c env) c) s = (e.check s.context env, s) := by
    unfold Session.attempt CheckM.ofExcept
    dsimp only
    cases e.check s.context env <;> rfl
  rw [Stmt.check]
  change (Session.attempt (fun c => CheckM.ofExcept (e.check c env) c) >>= _) s = _
  rw [SessionM.bind_of_eq _ h]
  cases e.check s.context env <;> rfl

@[simp] theorem Stmt.check_label (name : String) (span : Span) (old : Option ScopeId) (env : ScopeId)
    (s : Session) :
    Stmt.check (.label name span old) env s = match s.context.placeLabel env name span with
      | .ok c => (⟨.label name span (some env), .ok ()⟩, { s with context := c })
      | .error d => (⟨.label name span old, .error d⟩, s) := by
  rw [Stmt.check]
  unfold Visited.leaf
  have h := Session.attempt_change? (fun c => c.placeLabel env name span) s
  cases hp : s.context.placeLabel env name span <;> rw [hp] at h <;>
    rw [SessionM.bind_of_eq _ h] <;> rfl

@[simp] theorem Stmt.check_block (body : List Stmt) (span : Span) (env : ScopeId) (s : Session) :
    Stmt.check (.block body span) env s =
      let (visited, t) := Stmt.checkAll body (s.context.openBlock env).1
        { s with context := (s.context.openBlock env).2 }
      (⟨.block visited.node span, visited.outcome⟩, t) := by
  rw [Stmt.check]
  rfl

@[simp] theorem Stmt.check_goto (label : String) (span : Span) (old : Option ScopeId) (env : ScopeId)
    (s : Session) :
    Stmt.check (.goto label span old) env s =
      (⟨.goto label span (some env), .ok ()⟩,
        { s with context := s.context.noteJump env label span }) := by
  rw [Stmt.check]
  rfl

end UnitCompiler
