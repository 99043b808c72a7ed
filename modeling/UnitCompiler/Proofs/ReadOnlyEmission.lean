import UnitCompiler.Proofs.Stability

namespace UnitCompiler

open Context Emitter

namespace Emitter

section

variable {β ε α γ : Type}

def Reads (x : EStateM ε (Emitter β) α) : Prop := ∀ s, (after x s).context = s.context

theorem reads_pure (a : α) : Reads (pure a : EStateM ε (Emitter β) α) := fun _ => rfl

theorem reads_fail (d : Diagnostic) : Reads (fail d : EmitM β α) := fun _ => rfl

theorem Reads.bind {x : EStateM ε (Emitter β) α} {f : α → EStateM ε (Emitter β) γ} (hx : Reads x)
    (hf : ∀ a, Reads (f a)) : Reads (x >>= f) :=
  fun s => after_bind (R := fun s t : Emitter β => t.context = s.context) (fun h h' => h'.trans h) (hx s)
    fun a t _ => hf a t

theorem Reads.guarded {x : EmitM β Unit} (hx : Reads x) (pass : Pass) (d : Decl) :
    Reads (DeclList.guarded pass d x) := by
  intro s
  have h := hx s
  unfold after at h
  unfold after DeclList.guarded
  cases hr : x s with
  | ok a t => rw [hr] at h; exact h
  | error e t =>
    rw [hr] at h
    cases e <;> exact h

end

variable {β : Type} [Backend β]

theorem reads_send (e : Emission) : Reads (send e : EmitM β Unit) := by
  intro s
  unfold after send
  rcases Backend.accept s.backend e with ⟨_ | _, b⟩ <;> rfl

theorem reads_sendAll (es : List Emission) : Reads (sendAll es : EmitM β Unit) := by
  induction es with
  | nil => exact reads_pure ()
  | cons e es ih => exact (reads_send e).bind fun _ => ih

end Emitter

variable {β : Type}

theorem DataItem.reads_record (d : DataItem) : Reads (d.record : EmitM β DataConst) := by
  unfold DataItem.record
  cases d.constant with
  | none => exact reads_fail _
  | some f => exact reads_pure f

@[simp] theorem Compiler.emit_context (c : Compiler) (x : PassM β Unit) (program : DeclList) (b : β) :
    (c.emit x program b).compiler.session.context = (after x { c.session with backend := b }).context := by
  unfold Compiler.emit after
  cases x { c.session with backend := b } <;> rfl

@[simp] theorem Compiler.conclude_context (pass : Pass) (r : Compiled β) :
    (Compiler.conclude pass r).compiler.session.context = r.compiler.session.context := by
  unfold Compiler.conclude
  cases r.outcome <;> rfl

variable [Backend β]

theorem DataItem.reads_emitData (d : DataItem) : Reads (d.emitData : EmitM β Unit) := by
  refine d.reads_record.bind fun f => ?_
  split
  · exact reads_sendAll _
  · exact reads_sendAll _
  · exact reads_sendAll _
  · exact reads_fail _

theorem DeclList.reads_emitData (program : DeclList) : Reads (program.emitData : PassM β Unit) := by
  induction program with
  | nil => exact reads_pure ()
  | cons slot rest ih =>
    cases slot with
    | none => exact ih
    | some d =>
      refine Reads.bind (Reads.guarded ?_ .emitData d) fun _ => ih
      cases d with
      | data site item => exact item.reads_emitData
      | var | function | struct | array => exact reads_pure ()

/-- A pass of the compiler that is refused, because it is not the next one, changes nothing either. -/
theorem Compiler.run_relabels {pass : Pass} {x : DeclList → PassM β Unit}
    (hperform : ∀ (c : Compiler) (program : DeclList) (b : β), c.perform pass program b = c.emit (x program) program b)
    (hx : ∀ program, Stable (x program)) (c : Compiler) (program : DeclList) (b : β) :
    Relabels c.session.context (c.run pass program b).compiler.session.context := by
  unfold Compiler.run
  split
  · have h := hx program { (c.log (.passStarted pass program.length)).session with backend := b }
    rw [Compiler.conclude_context, hperform, Compiler.emit_context]
    exact h.context
  · exact .refl _

/-- Emission only reads the registry. Whatever the backend does, both emitting passes leave the types and the scopes
as they are; the first one may take labels, the second one takes none. And whatever is emitted, a declaration at any
depth or a whole sequence, with success or not, the frame is afterwards what it was before. -/
theorem emission_reads_registry (s : Emitter β) :
    (∀ program : DeclList,
      Relabels s.context (after program.emit s).context ∧ (after program.emit s).frame = s.frame ∧
      (after program.emitData s).context = s.context ∧ (after program.emitData s).frame = s.frame) ∧
    (∀ d : Decl, Relabels s.context (after d.emit s).context ∧ (after d.emit s).frame = s.frame) ∧
    (∀ body : List Stmt, Relabels s.context (after (Stmt.emitAll body) s).context ∧
      (after (Stmt.emitAll body) s).frame = s.frame) ∧
    ∀ (c : Compiler) (program : DeclList) (b : β),
      Relabels c.session.context (c.run .emit program b).compiler.session.context ∧
      Relabels c.session.context (c.run .emitData program b).compiler.session.context := by
  refine ⟨fun program => ?_, fun d => ?_, fun body => ?_, fun c program b => ⟨?_, ?_⟩⟩
  · have hemit := DeclList.emitFrom_stable 0 program s
    have hdata := DeclList.emitData_stable program s
    exact ⟨hemit.context, hemit.frame, program.reads_emitData s, hdata.frame⟩
  · have hd := Decl.emit_stable d s
    exact ⟨hd.context, hd.frame⟩
  · have hbody := Stmt.emitAll_stable body s
    exact ⟨hbody.context, hbody.frame⟩
  · exact Compiler.run_relabels (fun _ _ _ => rfl) (DeclList.emitFrom_stable 0) c program b
  · exact Compiler.run_relabels (fun _ _ _ => rfl) DeclList.emitData_stable c program b

end UnitCompiler
