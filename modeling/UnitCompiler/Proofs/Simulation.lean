import UnitCompiler.Proofs.Stability

namespace UnitCompiler

/-- The first backend is in step with the second as long as `rel` holds. It may refuse an item that the
second takes; `lost` holds from then on, whatever the second one receives. -/
structure Backend.Simulation {β γ : Type} [Backend β] [Backend γ] (rel lost : β → γ → Prop) :
    Prop where
  debug : ∀ {b : β} {g : γ}, rel b g → Backend.debug b = Backend.debug g
  accept : ∀ {b : β} {g : γ}, rel b g → ∀ e,
    ((Backend.accept b e).1 = (Backend.accept g e).1 ∧
      rel (Backend.accept b e).2 (Backend.accept g e).2) ∨
    ((∃ err, (Backend.accept b e).1 = .error err) ∧
      lost (Backend.accept b e).2 (Backend.accept g e).2)
  lost : ∀ {b : β} {g : γ}, lost b g → ∀ e, lost b (Backend.accept g e).2

def EmitError.IsRefusal : EmitError → Prop
  | .backend _ => True
  | .diagnostic d => d.kind = .backendFailed

theorem EmitError.isRefusal_backend (e : BackendError) : (EmitError.backend e).IsRefusal := trivial

def Diagnostic.IsRefusal (d : Diagnostic) : Prop := d.kind = .backendFailed

namespace Emitter

variable {β γ ε δ α α' : Type}

structure InStep (rel : β → γ → Prop) (s : Emitter β) (t : Emitter γ) : Prop where
  session : s.toSession = t.toSession
  frame : s.frame = t.frame
  backend : rel s.backend t.backend

inductive Matches (rel : β → γ → Prop) :
    EStateM.Result ε (Emitter β) α → EStateM.Result ε (Emitter γ) α → Prop
  | ok {a : α} {s : Emitter β} {t : Emitter γ} (h : InStep rel s t) : Matches rel (.ok a s) (.ok a t)
  | error {e : ε} {s : Emitter β} {t : Emitter γ} (h : InStep rel s t) :
      Matches rel (.error e s) (.error e t)

variable {rel lost : β → γ → Prop} {refusal : ε → Prop}

/-- From states in step the first computation ends as the second does, or at a refusal. -/
def Follows (rel lost : β → γ → Prop) (refusal : ε → Prop) (x : EStateM ε (Emitter β) α)
    (y : EStateM ε (Emitter γ) α) : Prop :=
  ∀ s t, InStep rel s t → Matches rel (x s) (y t) ∨
    ∃ e u, x s = .error e u ∧ refusal e ∧ lost u.backend (after y t).backend

theorem follows_pure (a : α) : Follows rel lost refusal (pure a : EStateM ε (Emitter β) α) (pure a) :=
  fun _ _ h => Or.inl (.ok h)

theorem follows_throw (e : ε) :
    Follows rel lost refusal (throw e : EStateM ε (Emitter β) α) (throw e) :=
  fun _ _ h => Or.inl (.error h)

theorem follows_get {f : Emitter β → EStateM ε (Emitter β) α} {g : Emitter γ → EStateM ε (Emitter γ) α}
    (h : ∀ s t, InStep rel s t → Follows rel lost refusal (f s) (g t)) :
    Follows rel lost refusal (get >>= f) (get >>= g) :=
  fun s t hst => h s t hst s t hst

theorem follows_fail {refusal : EmitError → Prop} (d : Diagnostic) :
    Follows rel lost refusal (fail d : EmitM β α) (fail d) :=
  follows_throw _

theorem follows_ofExcept {refusal : EmitError → Prop} (x : Except Diagnostic α) :
    Follows rel lost refusal (ofExcept x : EmitM β α) (ofExcept x) := by
  cases x with
  | ok a => exact follows_pure a
  | error d => exact follows_fail d

theorem InStep.log {s : Emitter β} {t : Emitter γ} (h : InStep rel s t) (e : Event) :
    InStep rel { s with events := s.events ++ [e] } { t with events := t.events ++ [e] } := by
  refine ⟨?_, h.frame, h.backend⟩
  change { s.toSession with events := s.events ++ [e] } = { t.toSession with events := t.events ++ [e] }
  rw [h.session]

theorem follows_log (e : Event) :
    Follows rel lost Diagnostic.IsRefusal (log e : PassM β Unit) (log e) :=
  fun _ _ h => Or.inl (.ok (h.log e))

theorem follows_freshLabel {refusal : EmitError → Prop} :
    Follows rel lost refusal (freshLabel : EmitM β String) freshLabel := by
  intro s t h
  have hc : s.context = t.context := congrArg Session.context h.session
  have he : s.events = t.events := congrArg Session.events h.session
  unfold freshLabel
  rw [hc, he]
  exact Or.inl (.ok ⟨rfl, h.frame, h.backend⟩)

theorem follows_locate {refusal : EmitError → Prop} (env : ScopeId) (name : String) :
    Follows rel lost refusal (locate env name : EmitM β Ir) (locate env name) := by
  refine follows_get fun s t h => ?_
  rw [congrArg Session.context h.session, h.frame]
  exact follows_ofExcept _

theorem Follows.adaptExcept {refusal' : δ → Prop} {x : EStateM ε (Emitter β) α}
    {y : EStateM ε (Emitter γ) α} (h : Follows rel lost refusal x y) {f : ε → δ}
    (hf : ∀ e, refusal e → refusal' (f e)) :
    Follows rel lost refusal' (EStateM.adaptExcept f x) (EStateM.adaptExcept f y) := by
  intro s t hst
  obtain hm | ⟨e, u, he, hr, hl⟩ := h s t hst
  · left
    unfold EStateM.adaptExcept
    generalize x s = r at hm
    generalize y t = r' at hm
    cases hm with
    | ok h => exact .ok h
    | error h => exact .error h
  · refine Or.inr ⟨f e, u, ?_, hf e hr, ?_⟩
    · unfold EStateM.adaptExcept
      rw [he]
    · simpa using hl

theorem Follows.withFrame {refusal : EmitError → Prop} {x : EmitM β Unit} {y : EmitM γ Unit}
    (h : Follows rel lost refusal x y) (frame : Frame) :
    Follows rel lost refusal (withFrame frame x) (withFrame frame y) := by
  intro s t hst
  obtain hm | ⟨e, u, he, hr, hl⟩ := h { s with frame := some frame } { t with frame := some frame }
    ⟨hst.session, rfl, hst.backend⟩
  · left
    unfold Emitter.withFrame
    generalize x { s with frame := some frame } = r at hm
    generalize y { t with frame := some frame } = r' at hm
    cases hm with
    | ok h => exact .ok ⟨h.session, hst.frame, h.backend⟩
    | error h => exact .error ⟨h.session, hst.frame, h.backend⟩
  · refine Or.inr ⟨e, { u with frame := s.frame }, ?_, hr, ?_⟩
    · unfold Emitter.withFrame
      rw [he]
    · unfold after at hl
      unfold after Emitter.withFrame
      cases hy : y { t with frame := some frame } <;> rw [hy] at hl <;> exact hl

variable [Backend β] [Backend γ]

theorem Backend.Simulation.lost_sent (sim : Backend.Simulation rel lost) {b : β} {g g' : γ}
    (h : lost b g) (hs : Sent g g') : lost b g' := by
  induction hs with
  | refl => exact h
  | tail _ hstep ih =>
    obtain ⟨e, rfl⟩ := hstep
    exact sim.lost ih e

theorem Follows.bind (sim : Backend.Simulation rel lost) {x : EStateM ε (Emitter β) α}
    {y : EStateM ε (Emitter γ) α} {f : α → EStateM ε (Emitter β) α'}
    {g : α → EStateM ε (Emitter γ) α'} (hx : Follows rel lost refusal x y)
    (hf : ∀ a, Follows rel lost refusal (f a) (g a)) (hg : ∀ a, Stable (g a)) :
    Follows rel lost refusal (x >>= f) (y >>= g) := by
  intro s t hst
  obtain hm | ⟨e, u, he, hr, hl⟩ := hx s t hst
  · generalize hxs : x s = r at hm
    generalize hyt : y t = r' at hm
    cases hm with
    | ok h =>
      rename_i a s' t'
      rw [bind_of_ok f hxs]
      have hb := bind_of_ok g hyt
      obtain hm | ⟨e, u, he, hr, hl⟩ := hf a s' t' h
      · left
        rw [hb]
        exact hm
      · refine Or.inr ⟨e, u, he, hr, ?_⟩
        unfold after
        rw [hb]
        exact hl
    | error h =>
      left
      rw [bind_of_error f hxs, bind_of_error g hyt]
      exact .error h
  · -- the second computation may go on, but what is lost stays lost
    refine Or.inr ⟨e, u, bind_of_error f he, hr, ?_⟩
    cases hyt : y t with
    | ok a t' =>
      rw [after_of_ok hyt] at hl
      have h := (hg a t').backend
      unfold after at h ⊢
      rw [bind_of_ok g hyt]
      exact Backend.Simulation.lost_sent sim hl h
    | error e' t' =>
      rw [after_of_error hyt] at hl
      rw [after_of_error (bind_of_error g hyt)]
      exact hl

theorem follows_send {refusal : EmitError → Prop} (sim : Backend.Simulation rel lost)
    (hr : ∀ e, refusal (.backend e)) (e : Emission) :
    Follows rel lost refusal (send e : EmitM β Unit) (send e) := by
  intro s t h
  unfold after send
  rcases hb : Backend.accept s.backend e with ⟨r, b⟩
  rcases hg : Backend.accept t.backend e with ⟨r', g⟩
  have ha := sim.accept h.backend e
  rw [hb, hg] at ha
  obtain ⟨hsame, hrel⟩ | ⟨⟨err, herr⟩, hlost⟩ := ha
  · left
    obtain rfl : r = r' := hsame
    cases r with
    | ok u => exact .ok ⟨h.session, h.frame, hrel⟩
    | error err => exact .error ⟨h.session, h.frame, hrel⟩
  · obtain rfl : r = .error err := herr
    refine Or.inr ⟨.backend err, { s with backend := b }, rfl, hr err, ?_⟩
    cases r' <;> exact hlost

theorem follows_sendAll {refusal : EmitError → Prop} (sim : Backend.Simulation rel lost)
    (hr : ∀ e, refusal (.backend e)) (es : List Emission) :
    Follows rel lost refusal (sendAll es : EmitM β Unit) (sendAll es) := by
  induction es with
  | nil => exact follows_pure ()
  | cons e es ih => exact (follows_send sim hr e).bind sim (fun _ => ih) fun _ => stable_sendAll es

theorem follows_loadString {refusal : EmitError → Prop} (sim : Backend.Simulation rel lost)
    (hr : ∀ e, refusal (.backend e)) (value : String) :
    Follows rel lost refusal (loadString value : EmitM β Ir) (loadString value) :=
  follows_freshLabel.bind sim
    (fun _ => (follows_send sim hr _).bind sim (fun _ => follows_pure _) fun _ => stable_pure _)
    fun _ => (stable_send _).bind fun _ => stable_pure _

end Emitter

open Emitter

section

variable {β γ : Type} [Backend β] [Backend γ] {rel lost : β → γ → Prop}
  {refusal : EmitError → Prop}

theorem Value.emit_follows (sim : Backend.Simulation rel lost)
    (hr : ∀ e, refusal (.backend e)) (v : Value) :
    Follows rel lost refusal (v.emit : EmitM β Ir) v.emit := by
  induction v with
  | const lit ty =>
    cases lit with
    | string s => exact follows_loadString sim hr s
    | int | float | null => exact follows_pure _
  | var env name ty => exact follows_locate env name
  | new ty label => exact follows_pure _
  | converted inner source target ih =>
    exact ih.bind sim (fun _ => follows_pure _) fun _ => stable_pure _

theorem Variable.emit_follows (sim : Backend.Simulation rel lost)
    (hr : ∀ e, refusal (.backend e)) (v : Variable) :
    Follows rel lost refusal (v.emit : EmitM β Unit) v.emit := by
  refine (follows_sendAll sim hr _).bind sim (fun _ => ?_) fun _ => ?_
  · split
    · rename_i env init _
      refine (init.emit_follows sim hr).bind sim (fun _ => ?_) fun _ => ?_
      · exact (follows_locate env _).bind sim (fun _ => follows_send sim hr _) fun _ => stable_send _
      · exact (stable_locate env _).bind fun _ => stable_send _
    · exact follows_pure ()
  · split
    · rename_i env init _
      exact init.emit_stable.bind fun _ => (stable_locate env _).bind fun _ => stable_send _
    · exact stable_pure ()

omit [Backend β] [Backend γ] in
theorem DataItem.record_follows (d : DataItem) :
    Follows rel lost refusal (d.record : EmitM β DataConst) d.record := by
  unfold DataItem.record
  cases d.constant with
  | none => exact follows_fail _
  | some f => exact follows_pure f

theorem DataItem.emit_follows (sim : Backend.Simulation rel lost)
    (hr : ∀ e, refusal (.backend e)) (d : DataItem) :
    Follows rel lost refusal (d.emit : EmitM β Unit) d.emit := by
  refine d.record_follows.bind sim (fun f => ?_) fun f => ?_
  · split
    · exact follows_send sim hr _
    · exact follows_pure ()
  · split
    · exact stable_send _
    · exact stable_pure ()

theorem DataItem.emitData_follows (sim : Backend.Simulation rel lost)
    (hr : ∀ e, refusal (.backend e)) (d : DataItem) :
    Follows rel lost refusal (d.emitData : EmitM β Unit) d.emitData := by
  refine d.record_follows.bind sim (fun f => ?_) fun f => ?_
  · split
    · exact follows_sendAll sim hr _
    · exact follows_sendAll sim hr _
    · exact follows_sendAll sim hr _
    · exact follows_fail _
  · split
    · exact stable_sendAll _
    · exact stable_sendAll _
    · exact stable_sendAll _
    · exact stable_fail _

theorem ArrayDecl.emit_follows (sim : Backend.Simulation rel lost)
    (hr : ∀ e, refusal (.backend e)) (v : ArrayDecl) :
    Follows rel lost refusal (v.emit : EmitM β Unit) v.emit := by
  refine follows_get fun s t h => ?_
  rw [congrArg Session.context h.session]
  dsimp only
  split
  · exact follows_fail _
  · split
    · split
      · exact follows_fail _
      · exact (follows_ofExcept _).bind sim (fun _ => follows_sendAll sim hr _) fun _ => stable_sendAll _
    · exact follows_fail _

theorem StructHead.emit_follows (sim : Backend.Simulation rel lost)
    (hr : ∀ e, refusal (.backend e)) (h : StructHead) :
    Follows rel lost refusal (h.emit : EmitM β Unit) h.emit := by
  refine follows_get fun s t h => ?_
  rw [congrArg Session.context h.session]
  dsimp only
  split
  · exact follows_fail _
  · split
    · exact follows_fail _
    · refine (follows_ofExcept _).bind sim (fun _ => ?_) fun _ =>
        stable_freshLabel.bind fun _ => stable_freshLabel.bind fun _ => stable_sendAll _
      refine follows_freshLabel.bind sim (fun _ => ?_) fun _ =>
        stable_freshLabel.bind fun _ => stable_sendAll _
      exact follows_freshLabel.bind sim (fun _ => follows_sendAll sim hr _) fun _ => stable_sendAll _

theorem FunctionHead.emitDebugEnter_follows (sim : Backend.Simulation rel lost)
    (hr : ∀ e, refusal (.backend e)) (f : FunctionHead)
    (env : ScopeId) :
    Follows rel lost refusal (f.emitDebugEnter env : EmitM β Unit)
      (f.emitDebugEnter env) := by
  refine follows_get fun s t h => ?_
  rw [sim.debug h.backend]
  split
  · exact follows_freshLabel.bind sim (fun _ => follows_sendAll sim hr _) fun _ => stable_sendAll _
  · exact follows_pure ()

theorem FunctionHead.emitEnter_follows (sim : Backend.Simulation rel lost)
    (hr : ∀ e, refusal (.backend e)) (f : FunctionHead)
    (env : ScopeId) (frame : Frame) :
    Follows rel lost refusal (f.emitEnter env frame : EmitM β Unit)
      (f.emitEnter env frame) := by
  refine follows_get fun s t h => ?_
  rw [congrArg Session.context h.session]
  refine (follows_send sim hr _).bind sim (fun _ => ?_) fun _ =>
    (stable_sendAll _).bind fun _ => f.emitDebugEnter_stable env
  exact (follows_sendAll sim hr _).bind sim (fun _ => f.emitDebugEnter_follows sim hr env) fun _ =>
    f.emitDebugEnter_stable env

theorem FunctionHead.emitLeave_follows (sim : Backend.Simulation rel lost)
    (hr : ∀ e, refusal (.backend e)) (env : ScopeId)
    (frame : Frame) :
    Follows rel lost refusal (FunctionHead.emitLeave env frame : EmitM β Unit)
      (FunctionHead.emitLeave env frame) := by
  refine follows_get fun s t h => ?_
  rw [congrArg Session.context h.session]
  dsimp only
  split
  · exact follows_fail _
  · refine (follows_send sim hr _).bind sim (fun _ => ?_) fun _ => stable_get fun _ => stable_send _
    refine follows_get fun s t h => ?_
    rw [sim.debug h.backend]
    exact follows_send sim hr _

theorem FunctionHead.emit_follows (sim : Backend.Simulation rel lost)
    (hr : ∀ e, refusal (.backend e)) (f : FunctionHead)
    {x : EmitM β Unit} {y : EmitM γ Unit} (hxy : Follows rel lost refusal x y)
    (hy : Stable y) : Follows rel lost refusal (f.emit x) (f.emit y) := by
  refine follows_get fun s t h => ?_
  rw [congrArg Session.context h.session]
  dsimp only
  split
  · exact follows_fail _
  · rename_i env _
    refine (f.emitEnter_follows sim hr env _).bind sim (fun _ => ?_) fun _ =>
      (hy.withFrame _).bind fun _ => FunctionHead.emitLeave_stable env _
    exact (hxy.withFrame _).bind sim (fun _ => FunctionHead.emitLeave_follows sim hr env _) fun _ =>
      FunctionHead.emitLeave_stable env _

theorem Stmt.emit_goto_follows (sim : Backend.Simulation rel lost)
    (hr : ∀ e, refusal (.backend e)) (label : String) (span : Span) (env : Option ScopeId) :
    Follows rel lost refusal ((Stmt.goto label span env).emit : EmitM β Unit)
      (Stmt.goto label span env).emit := by
  cases env with
  | none =>
    rw [Stmt.emit, Stmt.emit]
    exact follows_fail _
  | some env =>
    rw [Stmt.emit, Stmt.emit]
    refine follows_get fun s t h => ?_
    rw [congrArg Session.context h.session]
    exact follows_send sim hr _

theorem Stmt.emit_label_follows (sim : Backend.Simulation rel lost)
    (hr : ∀ e, refusal (.backend e)) (name : String) (span : Span) (env : Option ScopeId) :
    Follows rel lost refusal ((Stmt.label name span env).emit : EmitM β Unit)
      (Stmt.label name span env).emit := by
  cases env with
  | none =>
    rw [Stmt.emit, Stmt.emit]
    exact follows_fail _
  | some env =>
    rw [Stmt.emit, Stmt.emit]
    refine follows_get fun s t h => ?_
    rw [congrArg Session.context h.session]
    exact follows_send sim hr _

theorem Stmt.emit_eval_follows (sim : Backend.Simulation rel lost)
    (hr : ∀ e, refusal (.backend e)) (e : Expr) (checked : Option Value) :
    Follows rel lost refusal ((Stmt.eval e checked).emit : EmitM β Unit)
      (Stmt.eval e checked).emit := by
  cases checked with
  | none =>
    rw [Stmt.emit, Stmt.emit]
    exact follows_fail _
  | some value =>
    rw [Stmt.emit, Stmt.emit]
    exact (value.emit_follows sim hr).bind sim (fun _ => follows_send sim hr _) fun _ => stable_send _

theorem Decl.emitData_follows (sim : Backend.Simulation rel lost) (hr : ∀ e, refusal (.backend e))
    (d : Decl) : Follows rel lost refusal (d.emitData : EmitM β Unit) d.emitData := by
  cases d with
  | data site item => exact item.emitData_follows sim hr
  | var | function | struct | array => exact follows_pure ()

omit [Backend β] [Backend γ] in
theorem DeclList.guarded_follows (pass : Pass) (d : Decl) {x : EmitM β Unit} {y : EmitM γ Unit}
    (h : Follows rel lost EmitError.IsRefusal x y) :
    Follows rel lost Diagnostic.IsRefusal (DeclList.guarded pass d x)
      (DeclList.guarded pass d y) := by
  intro s t hst
  obtain hm | ⟨e, u, he, hr, hl⟩ := h s t hst
  · left
    unfold DeclList.guarded
    generalize x s = r at hm
    generalize y t = r' at hm
    cases hm with
    | ok h => exact .ok h
    | error h =>
      rename_i e s' t'
      cases e with
      | diagnostic d' => exact .error (h.log _)
      | backend e' => exact .error (h.log _)
  -- the guard writes to the log and never to the backend
  · have hl : lost u.backend (after (DeclList.guarded pass d y) t).backend := by
      unfold after at hl
      unfold after DeclList.guarded
      cases hy : y t with
      | ok a t' => rw [hy] at hl; exact hl
      | error e' t' => rw [hy] at hl; cases e' <;> exact hl
    unfold DeclList.guarded
    rw [he]
    cases e with
    | diagnostic d' => exact Or.inr ⟨_, _, rfl, hr, hl⟩
    | backend e' => exact Or.inr ⟨_, _, rfl, rfl, hl⟩

theorem EmitError.mapDiagnostic_isRefusal {f : Diagnostic → Diagnostic}
    (hf : ∀ d, (f d).kind = d.kind) (e : EmitError) (h : e.IsRefusal) :
    (e.mapDiagnostic f).IsRefusal := by
  cases e with
  | diagnostic d => exact (hf d).trans h
  | backend e => trivial

mutual

theorem Decl.emit_follows (sim : Backend.Simulation rel lost) :
    ∀ d : Decl, Follows rel lost EmitError.IsRefusal (d.emit : EmitM β Unit) d.emit
  | .var _ v => by
    rw [Decl.emit, Decl.emit]
    exact v.emit_follows sim EmitError.isRefusal_backend
  | .function _ head _ body => by
    rw [Decl.emit, Decl.emit]
    exact head.emit_follows sim EmitError.isRefusal_backend (Stmt.emitAll_follows sim body)
      (Stmt.emitAll_stable body)
  | .struct _ head fields => by
    rw [Decl.emit, Decl.emit]
    have hfields : Follows rel lost EmitError.IsRefusal
        (EStateM.adaptExcept .diagnostic (DeclList.emitFrom 0 fields) : EmitM β Unit)
        (EStateM.adaptExcept .diagnostic (DeclList.emitFrom 0 fields)) :=
      (DeclList.emitFrom_follows sim 0 fields).adaptExcept fun _ h => h
    exact hfields.bind sim (fun _ => head.emit_follows sim EmitError.isRefusal_backend) fun _ =>
      head.emit_stable
  | .data _ d => by
    rw [Decl.emit, Decl.emit]
    exact d.emit_follows sim EmitError.isRefusal_backend
  | .array _ v => by
    rw [Decl.emit, Decl.emit]
    exact v.emit_follows sim EmitError.isRefusal_backend

theorem DeclList.emitFrom_follows (sim : Backend.Simulation rel lost) (index : Nat) :
    ∀ seq : List (Option Decl), Follows rel lost Diagnostic.IsRefusal
      (DeclList.emitFrom index seq : PassM β Unit) (DeclList.emitFrom index seq)
  | [] => by
    rw [DeclList.emitFrom, DeclList.emitFrom]
    exact follows_pure ()
  | none :: rest => by
    rw [DeclList.emitFrom, DeclList.emitFrom]
    exact (follows_log _).bind sim (fun _ => DeclList.emitFrom_follows sim (index + 1) rest) fun _ =>
      DeclList.emitFrom_stable (index + 1) rest
  | some d :: rest => by
    have hrest := DeclList.emitFrom_stable (index + 1) rest (β := γ)
    rw [DeclList.emitFrom, DeclList.emitFrom]
    refine (follows_log _).bind sim (fun _ => ?_) fun _ =>
      (DeclList.guarded_stable .emit d (Decl.emit_stable d)).bind fun _ => hrest
    exact (DeclList.guarded_follows .emit d (Decl.emit_follows sim d)).bind sim
      (fun _ => DeclList.emitFrom_follows sim (index + 1) rest) fun _ => hrest

theorem Stmt.emit_follows (sim : Backend.Simulation rel lost) :
    ∀ stmt : Stmt, Follows rel lost EmitError.IsRefusal (stmt.emit : EmitM β Unit) stmt.emit
  | .declare d => by
    rw [Stmt.emit, Stmt.emit]
    exact (Decl.emit_follows sim d).adaptExcept (EmitError.mapDiagnostic_isRefusal fun _ => rfl)
  | .block body _ => by
    rw [Stmt.emit, Stmt.emit]
    exact Stmt.emitAll_follows sim body
  | .goto label span env => Stmt.emit_goto_follows sim EmitError.isRefusal_backend label span env
  | .label name span env => Stmt.emit_label_follows sim EmitError.isRefusal_backend name span env
  | .eval e checked => Stmt.emit_eval_follows sim EmitError.isRefusal_backend e checked

theorem Stmt.emitAll_follows (sim : Backend.Simulation rel lost) :
    ∀ body : List Stmt,
      Follows rel lost EmitError.IsRefusal (Stmt.emitAll body : EmitM β Unit) (Stmt.emitAll body)
  | [] => by
    rw [Stmt.emitAll, Stmt.emitAll]
    exact follows_pure ()
  | stmt :: rest => by
    rw [Stmt.emitAll, Stmt.emitAll]
    have hstmt := (Stmt.emit_follows sim stmt).adaptExcept
      (EmitError.mapDiagnostic_isRefusal (f := fun d => d.withPosition stmt.span) fun _ => rfl)
    exact hstmt.bind sim (fun _ => Stmt.emitAll_follows sim rest) fun _ => Stmt.emitAll_stable rest

end

theorem DeclList.emitData_follows (sim : Backend.Simulation rel lost) (seq : DeclList) :
    Follows rel lost Diagnostic.IsRefusal (seq.emitData : PassM β Unit) seq.emitData := by
  induction seq with
  | nil => exact follows_pure ()
  | cons slot rest ih =>
    cases slot with
    | none => exact ih
    | some d =>
      exact (DeclList.guarded_follows .emitData d (d.emitData_follows sim EmitError.isRefusal_backend)).bind
        sim (fun _ => ih) fun _ => DeclList.emitData_stable rest

structure Compiled.InStep (rel : β → γ → Prop) (r : Compiled β) (r' : Compiled γ) : Prop where
  compiler : r.compiler = r'.compiler
  program : r.program = r'.program
  outcome : r.outcome = r'.outcome
  backend : rel r.backend r'.backend

def Compiled.Follows (rel lost : β → γ → Prop) (r : Compiled β) (r' : Compiled γ) : Prop :=
  r.InStep rel r' ∨ ∃ d, r.outcome = .error d ∧ d.IsRefusal ∧ lost r.backend r'.backend

namespace Compiler

omit [Backend β] [Backend γ] in
theorem emit_follows (c : Compiler) {x : PassM β Unit} {y : PassM γ Unit}
    (hxy : Emitter.Follows rel lost Diagnostic.IsRefusal x y) (program : DeclList) {b : β} {g : γ}
    (h : rel b g) : (c.emit x program b).Follows rel lost (c.emit y program g) := by
  unfold emit
  obtain hm | ⟨d, t, hx, hd, hl⟩ := hxy { c.session with backend := b }
    { c.session with backend := g } ⟨rfl, rfl, h⟩
  · left
    generalize x _ = r at hm
    generalize y _ = r' at hm
    cases hm with
    | ok h => exact ⟨congrArg (fun s => { c with session := s }) h.session, rfl, rfl, h.backend⟩
    | error h => exact ⟨congrArg (fun s => { c with session := s }) h.session, rfl, rfl, h.backend⟩
  · rw [hx]
    refine Or.inr ⟨d, rfl, hd, ?_⟩
    unfold after at hl
    cases hy : y { c.session with backend := g } <;> rw [hy] at hl <;> exact hl

theorem perform_follows (sim : Backend.Simulation rel lost) (c : Compiler) (pass : Pass)
    (program : DeclList) {b : β} {g : γ} (h : rel b g) :
    (c.perform pass program b).Follows rel lost (c.perform pass program g) := by
  cases pass with
  | register => exact Or.inl ⟨rfl, rfl, rfl, h⟩
  | check => exact Or.inl ⟨rfl, rfl, rfl, h⟩
  | emit => exact c.emit_follows (DeclList.emitFrom_follows sim 0 program) program h
  | emitData => exact c.emit_follows (DeclList.emitData_follows sim program) program h

omit [Backend β] [Backend γ] in
@[simp] theorem conclude_backend (pass : Pass) (r : Compiled β) : (conclude pass r).backend = r.backend := by
  unfold conclude
  split <;> rfl

omit [Backend β] [Backend γ] in
@[simp] theorem conclude_outcome (pass : Pass) (r : Compiled β) : (conclude pass r).outcome = r.outcome := by
  unfold conclude
  split <;> rfl

omit [Backend β] [Backend γ] in
@[simp] theorem conclude_program (pass : Pass) (r : Compiled β) : (conclude pass r).program = r.program := by
  unfold conclude
  split <;> rfl

omit [Backend β] [Backend γ] in
theorem conclude_follows (pass : Pass) {r : Compiled β} {r' : Compiled γ}
    (h : r.Follows rel lost r') : (conclude pass r).Follows rel lost (conclude pass r') := by
  obtain h | ⟨d, ho, hd, hl⟩ := h
  · left
    refine ⟨?_, ?_, ?_, ?_⟩
    · unfold conclude
      rw [h.outcome, h.compiler]
      split <;> rfl
    · simp [h.program]
    · simp [h.outcome]
    · simpa using h.backend
  · refine Or.inr ⟨d, ?_, hd, ?_⟩
    · simp [ho]
    · simpa using hl

theorem run_follows (sim : Backend.Simulation rel lost) (c : Compiler) (pass : Pass)
    (program : DeclList) {b : β} {g : γ} (h : rel b g) :
    (c.run pass program b).Follows rel lost (c.run pass program g) := by
  unfold run
  split
  · exact conclude_follows pass (perform_follows sim _ pass program h)
  · exact Or.inl ⟨rfl, rfl, rfl, h⟩

theorem emit_sent (c : Compiler) {x : PassM β Unit} (hx : Stable x) (program : DeclList) (b : β) :
    Sent b (c.emit x program b).backend := by
  have h := (hx { c.session with backend := b }).backend
  unfold after at h
  unfold emit
  cases hr : x { c.session with backend := b } <;> rw [hr] at h <;> exact h

theorem run_sent (c : Compiler) (pass : Pass) (program : DeclList) (b : β) :
    Sent b (c.run pass program b).backend := by
  unfold run
  split
  · rw [conclude_backend]
    cases pass with
    | register | check => exact .refl
    | emit => exact emit_sent _ (DeclList.emitFrom_stable 0 program) program b
    | emitData => exact emit_sent _ (DeclList.emitData_stable program) program b
  · exact .refl

theorem runAll_sent (c : Compiler) (program : DeclList) (b : β) (passes : List Pass) :
    Sent b (c.runAll program b passes).backend := by
  induction passes generalizing c program b with
  | nil => exact .refl
  | cons pass rest ih =>
    cases h : (c.run pass program b).outcome with
    | error d =>
      rw [runAll_of_error rest h]
      exact c.run_sent pass program b
    | ok _ =>
      rw [runAll_of_ok rest h]
      exact (c.run_sent pass program b).trans (ih _ _ _)

/-- Passes into two backends in relation agree up to the first refusal. -/
theorem runAll_follows (sim : Backend.Simulation rel lost) (c : Compiler) (program : DeclList) {b : β}
    {g : γ} (h : rel b g) (passes : List Pass) :
    (c.runAll program b passes).Follows rel lost (c.runAll program g passes) := by
  induction passes generalizing c program b g with
  | nil => exact Or.inl ⟨rfl, rfl, rfl, h⟩
  | cons pass rest ih =>
    obtain hrun | ⟨d, ho, hd, hl⟩ := c.run_follows sim pass program h
    · cases ho : (c.run pass program g).outcome with
      | error d =>
        rw [runAll_of_error rest ho, runAll_of_error rest (hrun.outcome.trans ho)]
        exact Or.inl hrun
      | ok _ =>
        rw [runAll_of_ok rest ho, runAll_of_ok rest (hrun.outcome.trans ho), hrun.compiler,
          hrun.program]
        exact ih _ _ hrun.backend
    · rw [runAll_of_error rest ho]
      refine Or.inr ⟨d, ho, hd, ?_⟩
      cases ho' : (c.run pass program g).outcome with
      | error d' =>
        rw [runAll_of_error rest ho']
        exact hl
      | ok _ =>
        -- what the second one sends in later passes changes nothing
        rw [runAll_of_ok rest ho']
        exact Backend.Simulation.lost_sent sim hl (runAll_sent _ _ _ _)

end Compiler

end

end UnitCompiler
