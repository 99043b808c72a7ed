import UnitCompiler.Proofs.Runs
import UnitCompiler.Proofs.Steps

namespace UnitCompiler

namespace Emitter

abbrev Sent {β : Type} [Backend β] : β → β → Prop :=
  Relation.ReflTransGen fun b b' => ∃ e, b' = (Backend.accept b e).2

variable {β ε α γ : Type} [Backend β]

structure Keeps (s t : Emitter β) : Prop where
  context : Context.Relabels s.context t.context
  frame : t.frame = s.frame
  backend : Sent s.backend t.backend

theorem Keeps.refl (s : Emitter β) : Keeps s s := ⟨.refl _, rfl, .refl⟩

theorem Keeps.trans {s t u : Emitter β} (h : Keeps s t) (h' : Keeps t u) : Keeps s u :=
  ⟨h.context.trans h'.context, h'.frame.trans h.frame, h.backend.trans h'.backend⟩

/-- Every run of the computation, failed or not, keeps registry and frame. -/
def Stable (x : EStateM ε (Emitter β) α) : Prop := ∀ s, Keeps s (after x s)

theorem stable_pure (a : α) : Stable (pure a : EStateM ε (Emitter β) α) := Keeps.refl

theorem stable_throw (e : ε) : Stable (throw e : EStateM ε (Emitter β) α) := Keeps.refl

theorem Stable.bind {x : EStateM ε (Emitter β) α} {f : α → EStateM ε (Emitter β) γ} (hx : Stable x)
    (hf : ∀ a, Stable (f a)) : Stable (x >>= f) :=
  fun s => after_bind (R := Keeps) Keeps.trans (hx s) fun a t _ => hf a t

theorem stable_get {f : Emitter β → EStateM ε (Emitter β) γ} (hf : ∀ s, Stable (f s)) :
    Stable (get >>= f) :=
  fun s => hf s s

theorem Stable.adaptExcept {δ : Type} {x : EStateM ε (Emitter β) α} (hx : Stable x) (f : ε → δ) :
    Stable (EStateM.adaptExcept f x) := by
  intro s
  simpa using hx s

theorem stable_fail (d : Diagnostic) : Stable (fail d : EmitM β α) := stable_throw _

theorem stable_ofExcept (x : Except Diagnostic α) : Stable (ofExcept x : EmitM β α) := by
  cases x with
  | ok a => exact stable_pure a
  | error d => exact stable_fail d

theorem stable_log (e : Event) : Stable (log e : PassM β Unit) := fun _ => ⟨.refl _, rfl, .refl⟩

theorem stable_freshLabel : Stable (freshLabel : EmitM β String) :=
  fun s => ⟨Context.relabels_freshLabel s.context, rfl, .refl⟩

theorem stable_locate (env : ScopeId) (name : String) : Stable (locate env name : EmitM β Ir) :=
  stable_get fun _ => stable_ofExcept _

theorem Stable.withFrame {x : EmitM β Unit} (hx : Stable x) (frame : Frame) :
    Stable (withFrame frame x) := by
  intro s
  have h := hx { s with frame := some frame }
  unfold after at h
  unfold after Emitter.withFrame
  cases hr : x { s with frame := some frame } with
  | ok a t =>
    rw [hr] at h
    exact ⟨h.context, rfl, h.backend⟩
  | error e t =>
    rw [hr] at h
    exact ⟨h.context, rfl, h.backend⟩

theorem stable_send (e : Emission) : Stable (send e : EmitM β Unit) := by
  intro s
  have hsent : Sent s.backend (Backend.accept s.backend e).2 := .single ⟨e, rfl⟩
  -- the backend may change even if it refuses the item
  unfold after send
  rcases hb : Backend.accept s.backend e with ⟨_ | _, b⟩ <;> rw [hb] at hsent <;>
    exact ⟨.refl _, rfl, hsent⟩

theorem stable_sendAll (es : List Emission) : Stable (sendAll es : EmitM β Unit) := by
  induction es with
  | nil => exact stable_pure ()
  | cons e es ih => exact (stable_send e).bind fun _ => ih

theorem stable_loadString (value : String) : Stable (loadString value : EmitM β Ir) :=
  stable_freshLabel.bind fun _ => (stable_send _).bind fun _ => stable_pure _

end Emitter

open Emitter

variable {β : Type} [Backend β]

theorem DataItem.record_stable (d : DataItem) : Stable (d.record : EmitM β DataConst) := by
  unfold DataItem.record
  cases d.constant with
  | none => exact stable_fail _
  | some f => exact stable_pure f

theorem DeclList.guarded_stable (pass : Pass) (d : Decl) {x : EmitM β Unit} (hx : Stable x) :
    Stable (DeclList.guarded pass d x) := by
  intro s
  have h := hx s
  unfold after at h
  unfold after DeclList.guarded
  cases hr : x s with
  | ok a t => rw [hr] at h; exact h
  | error e t =>
    rw [hr] at h
    cases e <;> exact ⟨h.context, h.frame, h.backend⟩

theorem Value.emit_stable (v : Value) : Stable (v.emit : EmitM β Ir) := by
  induction v with
  | const lit ty =>
    cases lit with
    | string s => exact stable_loadString s
    | int | float | null => exact stable_pure _
  | var env name ty => exact stable_locate env name
  | new ty label => exact stable_pure _
  | converted inner source target ih => exact ih.bind fun _ => stable_pure _

theorem Variable.emit_stable (v : Variable) : Stable (v.emit : EmitM β Unit) := by
  refine (stable_sendAll _).bind fun _ => ?_
  split
  · rename_i env init _
    exact init.emit_stable.bind fun _ => (stable_locate env _).bind fun _ => stable_send _
  · exact stable_pure ()

theorem DataItem.emit_stable (d : DataItem) : Stable (d.emit : EmitM β Unit) := by
  refine d.record_stable.bind fun f => ?_
  split
  · exact stable_send _
  · exact stable_pure ()

theorem DataItem.emitData_stable (d : DataItem) : Stable (d.emitData : EmitM β Unit) := by
  refine d.record_stable.bind fun f => ?_
  split
  · exact stable_sendAll _
  · exact stable_sendAll _
  · exact stable_sendAll _
  · exact stable_fail _

theorem ArrayDecl.emit_stable (v : ArrayDecl) : Stable (v.emit : EmitM β Unit) := by
  refine stable_get fun s => ?_
  dsimp only
  split
  · exact stable_fail _
  · split
    · split
      · exact stable_fail _
      · exact (stable_ofExcept _).bind fun _ => stable_sendAll _
    · exact stable_fail _

theorem StructHead.emit_stable (s : StructHead) : Stable (s.emit : EmitM β Unit) := by
  refine stable_get fun t => ?_
  dsimp only
  split
  · exact stable_fail _
  · split
    · exact stable_fail _
    · refine (stable_ofExcept _).bind fun descriptors => ?_
      exact stable_freshLabel.bind fun used => stable_freshLabel.bind fun free => stable_sendAll _

theorem FunctionHead.emitDebugEnter_stable (f : FunctionHead) (env : ScopeId) :
    Stable (f.emitDebugEnter env : EmitM β Unit) := by
  refine stable_get fun s => ?_
  split
  · exact stable_freshLabel.bind fun _ => stable_sendAll _
  · exact stable_pure ()

theorem FunctionHead.emitLeave_stable (env : ScopeId) (frame : Frame) :
    Stable (FunctionHead.emitLeave env frame : EmitM β Unit) := by
  refine stable_get fun s => ?_
  dsimp only
  split
  · exact stable_fail _
  · exact (stable_send _).bind fun _ => stable_get fun _ => stable_send _

theorem FunctionHead.emitEnter_stable (f : FunctionHead) (env : ScopeId) (frame : Frame) :
    Stable (f.emitEnter env frame : EmitM β Unit) :=
  stable_get fun _ => (stable_send _).bind fun _ => (stable_sendAll _).bind fun _ =>
    f.emitDebugEnter_stable env

theorem FunctionHead.emit_stable (f : FunctionHead) {runBody : EmitM β Unit}
    (hrun : Stable runBody) : Stable (f.emit runBody) := by
  refine stable_get fun s => ?_
  dsimp only
  split
  · exact stable_fail _
  · rename_i env _
    refine (f.emitEnter_stable env _).bind fun _ => (hrun.withFrame _).bind fun _ => ?_
    exact FunctionHead.emitLeave_stable env _

mutual

theorem Decl.emit_stable : ∀ d : Decl, Stable (d.emit : EmitM β Unit)
  | .var _ v => by
    rw [Decl.emit]
    exact v.emit_stable
  | .function _ head _ body => by
    rw [Decl.emit]
    exact head.emit_stable (Stmt.emitAll_stable body)
  | .struct _ head fields => by
    rw [Decl.emit]
    exact ((DeclList.emitFrom_stable 0 fields).adaptExcept _).bind fun _ => head.emit_stable
  | .data _ d => by
    rw [Decl.emit]
    exact d.emit_stable
  | .array _ v => by
    rw [Decl.emit]
    exact v.emit_stable

theorem DeclList.emitFrom_stable (index : Nat) :
    ∀ seq : List (Option Decl), Stable (DeclList.emitFrom index seq : PassM β Unit)
  | [] => by
    rw [DeclList.emitFrom]
    exact stable_pure ()
  | none :: rest => by
    rw [DeclList.emitFrom]
    exact (stable_log _).bind fun _ => DeclList.emitFrom_stable (index + 1) rest
  | some d :: rest => by
    rw [DeclList.emitFrom]
    refine (stable_log _).bind fun _ => ?_
    exact (DeclList.guarded_stable .emit d (Decl.emit_stable d)).bind fun _ =>
      DeclList.emitFrom_stable (index + 1) rest

theorem Stmt.emit_stable : ∀ stmt : Stmt, Stable (stmt.emit : EmitM β Unit)
  | .declare d => by
    rw [Stmt.emit]
    exact (Decl.emit_stable d).adaptExcept _
  | .block body _ => by
    rw [Stmt.emit]
    exact Stmt.emitAll_stable body
  | .goto _ _ none => by
    rw [Stmt.emit]
    exact stable_fail _
  | .goto _ _ (some _) => by
    rw [Stmt.emit]
    exact stable_get fun _ => stable_send _
  | .label _ _ none => by
    rw [Stmt.emit]
    exact stable_fail _
  | .label _ _ (some _) => by
    rw [Stmt.emit]
    exact stable_get fun _ => stable_send _
  | .eval _ none => by
    rw [Stmt.emit]
    exact stable_fail _
  | .eval _ (some value) => by
    rw [Stmt.emit]
    exact value.emit_stable.bind fun _ => stable_send _

theorem Stmt.emitAll_stable : ∀ body : List Stmt, Stable (Stmt.emitAll body : EmitM β Unit)
  | [] => by
    rw [Stmt.emitAll]
    exact stable_pure ()
  | stmt :: rest => by
    rw [Stmt.emitAll]
    exact ((Stmt.emit_stable stmt).adaptExcept _).bind fun _ => Stmt.emitAll_stable rest

end

theorem DeclList.emitData_stable (seq : DeclList) : Stable (seq.emitData : PassM β Unit) := by
  induction seq with
  | nil => exact stable_pure ()
  | cons slot rest ih =>
    cases slot with
    | none => exact ih
    | some d =>
      refine (DeclList.guarded_stable .emitData d ?_).bind fun _ => ih
      cases d with
      | data site item => exact item.emitData_stable
      | var | function | struct | array => exact stable_pure ()

end UnitCompiler
