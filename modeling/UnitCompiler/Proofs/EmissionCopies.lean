import UnitCompiler.Proofs.Copies
import UnitCompiler.Proofs.EmittedImage
import UnitCompiler.Proofs.Yields

namespace UnitCompiler

open Context Emitter

namespace Origin

def renumber (lab : Nat → Nat) : Origin → Origin
  | .generated n => .generated (lab n)
  | .jump func name => .jump (lab func) name
  | .exit func => .exit (lab func)
  | .struct name => .struct name
  | .global name => .global name
  | .function name => .function name

def number? : Origin → Option Nat
  | .generated n => some n
  | .jump func _ => some func
  | .exit func => some func
  | .struct _ | .global _ | .function _ => none

end Origin

/-- The second list defines the labels of the first one, renumbered, and opens and closes functions as it does.
`next` says what is open afterwards, if the items nest at all. -/
structure Emission.Tracks (lab : Nat → Nat) (hi : Nat) (next : Bool → Option Bool) (es es' : List Emission) :
    Prop where
  labels : ∃ os : List Origin, definedBy es = os.map Origin.text ∧
    definedBy es' = os.map (fun o => (o.renumber lab).text) ∧ ∀ o ∈ os, ∀ k ∈ o.number?, k ≤ hi
  nest : ∀ b, es'.foldlM Emission.nest b = es.foldlM Emission.nest b
  ends : ∀ b, es.foldlM Emission.nest b = none ∨ es.foldlM Emission.nest b = next b

namespace Emission.Tracks

variable {lab : Nat → Nat} {hi hi' : Nat} {next next' : Bool → Option Bool} {es es' fs fs' : List Emission}

theorem append (h : Tracks lab hi next es es') (h' : Tracks lab hi' next' fs fs') (hle : hi ≤ hi') :
    Tracks lab hi' (fun b => (next b).bind next') (es ++ fs) (es' ++ fs') := by
  obtain ⟨os, hos, hos', hbound⟩ := h.labels
  obtain ⟨ps, hps, hps', hbound'⟩ := h'.labels
  refine ⟨⟨os ++ ps, ?_, ?_, ?_⟩, ?_, ?_⟩
  · simp [hos, hps]
  · simp [hos', hps']
  · intro o ho k hk
    obtain ho | ho := List.mem_append.mp ho
    · exact Nat.le_trans (hbound o ho k hk) hle
    · exact hbound' o ho k hk
  · intro b
    rw [List.foldlM_append, List.foldlM_append, h.nest]
    congr 1
    funext b'
    exact h'.nest b'
  · intro b
    rw [List.foldlM_append]
    obtain hnone | hsome := h.ends b
    · left
      rw [hnone]
      rfl
    · rw [hsome]
      cases next b with
      | none => exact Or.inl rfl
      | some b' => exact h'.ends b'

theorem imp (h : Tracks lab hi next es es') (hnext : ∀ b, next b = none ∨ next b = next' b) :
    Tracks lab hi next' es es' := by
  refine ⟨h.labels, h.nest, fun b => ?_⟩
  obtain hnone | hsome := h.ends b
  · exact Or.inl hnone
  · rw [hsome]
    exact hnext b

theorem of_plain (os : List Origin) (hes : ∀ e ∈ es, e.isPlain = true) (hes' : ∀ e ∈ es', e.isPlain = true)
    (hos : definedBy es = os.map Origin.text) (hos' : definedBy es' = os.map fun o => (o.renumber lab).text)
    (hbound : ∀ o ∈ os, ∀ k ∈ o.number?, k ≤ hi) : Tracks lab hi some es es' := by
  refine ⟨⟨os, hos, hos', hbound⟩, fun b => ?_, fun b => Or.inr (foldlM_nest_plain hes b)⟩
  rw [foldlM_nest_plain hes, foldlM_nest_plain hes']

/-- Items without labels may be of any number. -/
theorem of_unlabelled (hes : ∀ e ∈ es, e.isPlain = true ∧ e.defines? = none)
    (hes' : ∀ e ∈ es', e.isPlain = true ∧ e.defines? = none) : Tracks lab hi some es es' := by
  have hnone : ∀ {fs : List Emission}, (∀ e ∈ fs, e.isPlain = true ∧ e.defines? = none) → definedBy fs = [] :=
    fun h => List.filterMap_eq_nil_iff.mpr fun e he => (h e he).2
  exact of_plain [] (fun e he => (hes e he).1) (fun e he => (hes' e he).1) (hnone hes) (hnone hes')
    (List.forall_mem_nil _)

end Emission.Tracks

/-- The labels that a check gave out move with it, and those behind `issued` are numbered on from `start`. -/
def Shift.relabel (l : Shift) (issued start k : Nat) : Nat :=
  if k ≤ issued then l.number k else start + (k - issued)

theorem Shift.relabel_of_le {l : Shift} {issued k : Nat} (h : k ≤ issued) (start : Nat) :
    l.relabel issued start k = l.number k := if_pos h

namespace Emitter

/-- Two emissions in step: the first one began in `c` and has given out the labels up to `lo`, the second one began
in `c'` with the labels behind `start`. -/
structure Abreast (l : Shift) (c c' : Context) (start lo : Nat) (s s' : Emitter Tape) : Prop where
  left : Relabels c s.context
  right : Relabels c' s'.context
  labels : s'.context.labels + c.labels = start + s.context.labels
  reached : lo ≤ s.context.labels
  frame : Option.Rel (Frame.Moved l) s.frame s'.frame
  debug : s'.backend.debug = s.backend.debug

inductive Together {ε α γ : Type} (l : Shift) (c : Context) (start : Nat) (R : α → γ → Prop)
    (next : Bool → Option Bool) (s s' : Emitter Tape) :
    EStateM.Result ε (Emitter Tape) α → EStateM.Result ε (Emitter Tape) γ → Prop
  | ok {a : α} {a' : γ} {t t' : Emitter Tape} {es es' : List Emission} (hR : R a a') (hw : Writes s t es)
      (hw' : Writes s' t' es') (hlabels : t'.context.labels + c.labels = start + t.context.labels)
      (htracks : Emission.Tracks (l.relabel c.labels start) t.context.labels next es es') :
      Together l c start R next s s' (.ok a t) (.ok a' t')
  | error {e e' : ε} {t t' : Emitter Tape} : Together l c start R next s s' (.error e t) (.error e' t')

def Parallel {ε α γ : Type} (l : Shift) (c c' : Context) (start lo : Nat) (R : α → γ → Prop)
    (next : Bool → Option Bool) (x : EStateM ε (Emitter Tape) α) (x' : EStateM ε (Emitter Tape) γ) : Prop :=
  ∀ s s', Abreast l c c' start lo s s' → Together l c start R next s s' (x s) (x' s')

section Rules

variable {ε δ α γ α' γ' : Type} {l : Shift} {c c' : Context} {start lo : Nat} {R : α → γ → Prop}
  {R' : α' → γ' → Prop} {next next' : Bool → Option Bool} {s s' t t' : Emitter Tape} {es es' : List Emission}

theorem Abreast.writes (h : Abreast l c c' start lo s s') (hw : Writes s t es) (hw' : Writes s' t' es')
    (hlabels : t'.context.labels + c.labels = start + t.context.labels) : Abreast l c c' start lo t t' := by
  refine ⟨h.left.trans hw.context, h.right.trans hw'.context, hlabels, ?_, ?_, ?_⟩
  · exact Nat.le_trans h.reached hw.context.labels
  · rw [hw.frame, hw'.frame]
    exact h.frame
  · rw [hw.debug, hw'.debug]
    exact h.debug

theorem Parallel.bind {x : EStateM ε (Emitter Tape) α} {x' : EStateM ε (Emitter Tape) γ}
    {f : α → EStateM ε (Emitter Tape) α'} {f' : γ → EStateM ε (Emitter Tape) γ'}
    (hx : Parallel l c c' start lo R next x x')
    (hf : ∀ a a', R a a' → Parallel l c c' start lo R' next' (f a) (f' a')) :
    Parallel l c c' start lo R' (fun b => (next b).bind next') (x >>= f) (x' >>= f') := by
  intro s s' hs
  have hfirst := hx s s' hs
  generalize hr : x s = r at hfirst
  generalize hr' : x' s' = r' at hfirst
  cases hfirst with
  | error =>
    rw [bind_of_error f hr, bind_of_error f' hr']
    exact .error
  | @ok a a' t t' es es' hR hw hw' hlabels htracks =>
    rw [bind_of_ok f hr, bind_of_ok f' hr']
    have hsecond := hf a a' hR t t' (hs.writes hw hw' hlabels)
    generalize f a t = q at hsecond ⊢
    generalize f' a' t' = q' at hsecond ⊢
    cases hsecond with
    | error => exact .error
    | ok hR' hv hv' hlabels' htracks' =>
      exact .ok hR' (hw.trans hv) (hw'.trans hv') hlabels' (htracks.append htracks' hv.context.labels)

theorem Parallel.imp {x : EStateM ε (Emitter Tape) α} {x' : EStateM ε (Emitter Tape) γ}
    (h : Parallel l c c' start lo R next x x') (hnext : ∀ b, next b = none ∨ next b = next' b) :
    Parallel l c c' start lo R next' x x' := by
  intro s s' hs
  have htogether := h s s' hs
  generalize x s = r at htogether ⊢
  generalize x' s' = r' at htogether ⊢
  cases htogether with
  | error => exact .error
  | ok hR hw hw' hlabels htracks => exact .ok hR hw hw' hlabels (htracks.imp hnext)

theorem parallel_pure {a : α} {a' : γ} (h : R a a') :
    Parallel l c c' start lo R some (pure a : EStateM ε (Emitter Tape) α) (pure a') := by
  intro s s' hs
  exact .ok h (.refl s) (.refl s') hs.labels
    (.of_unlabelled (List.forall_mem_nil _) (List.forall_mem_nil _))

theorem parallel_fail (d d' : Diagnostic) :
    Parallel l c c' start lo R next (fail d : EmitM Tape α) (fail d' : EmitM Tape γ) :=
  fun _ _ _ => .error

theorem parallel_get {f : Emitter Tape → EStateM ε (Emitter Tape) α}
    {f' : Emitter Tape → EStateM ε (Emitter Tape) γ}
    (h : ∀ s s', Abreast l c c' start lo s s' → Parallel l c c' start lo R next (f s) (f' s')) :
    Parallel l c c' start lo R next (get >>= f) (get >>= f') :=
  fun s s' hs => h s s' hs s s' hs

theorem parallel_ofExcept {x : Except Diagnostic α} {x' : Except Diagnostic γ} (h : Alike R x x') :
    Parallel l c c' start lo R some (ofExcept x : EmitM Tape α) (ofExcept x') := by
  cases h with
  | ok h => exact parallel_pure h
  | error => exact parallel_fail _ _

theorem parallel_sendAll
    (h : ∀ hi, c.labels ≤ hi → lo ≤ hi → Emission.Tracks (l.relabel c.labels start) hi next es es') :
    Parallel l c c' start lo (fun _ _ => True) next (sendAll es : EmitM Tape Unit) (sendAll es') := by
  intro s s' hs
  rw [sendAll_tape, sendAll_tape]
  exact .ok trivial (writes_items s es) (writes_items s' es') hs.labels (h _ hs.left.labels hs.reached)

theorem parallel_send {e e' : Emission}
    (h : ∀ hi, c.labels ≤ hi → lo ≤ hi → Emission.Tracks (l.relabel c.labels start) hi next [e] [e']) :
    Parallel l c c' start lo (fun _ _ => True) next (send e : EmitM Tape Unit) (send e') := by
  intro s s' hs
  exact .ok trivial (writes_items s [e]) (writes_items s' [e']) hs.labels (h _ hs.left.labels hs.reached)

theorem parallel_code (tree tree' : Ir) :
    Parallel l c c' start lo (fun _ _ => True) some (send (.code tree) : EmitM Tape Unit) (send (.code tree')) :=
  parallel_send fun _ _ _ => .of_unlabelled (List.forall_mem_singleton.mpr ⟨rfl, rfl⟩)
    (List.forall_mem_singleton.mpr ⟨rfl, rfl⟩)

/-- The next label of one run is the next label of the other after the move. -/
theorem parallel_freshLabel {f : String → EmitM Tape α} {f' : String → EmitM Tape γ}
    (h : ∀ k, c.labels < k → lo < k → Parallel l c c' start k R next (f (Symbol.generated k))
      (f' (Symbol.generated (l.relabel c.labels start k)))) :
    Parallel l c c' start lo R next (freshLabel >>= f) (freshLabel >>= f') := by
  intro s s' hs
  have hlabels := hs.labels
  have hle := hs.left.labels
  -- both counters are as far from where they began
  have hnumber : l.relabel c.labels start (s.context.labels + 1) = s'.context.labels + 1 := by
    rw [Shift.relabel, if_neg (Nat.not_le.mpr (Nat.lt_succ_of_le hle))]
    omega
  have hnext : Abreast l c c' start (s.context.labels + 1) { s with context := s.context.freshLabel.2 }
      { s' with context := s'.context.freshLabel.2 } := by
    refine ⟨hs.left.trans (relabels_freshLabel _), hs.right.trans (relabels_freshLabel _), ?_, Nat.le_refl _,
      hs.frame, hs.debug⟩
    simp only [Context.freshLabel]
    omega
  have hlater := h (s.context.labels + 1) (Nat.lt_succ_of_le hle) (Nat.lt_succ_of_le hs.reached) _ _ hnext
  rw [hnumber] at hlater
  rw [bind_freshLabel, bind_freshLabel]
  change Together l c start R next s s' (f (Symbol.generated (s.context.labels + 1)) _)
    (f' (Symbol.generated (s'.context.labels + 1)) _)
  generalize f (Symbol.generated (s.context.labels + 1)) _ = r at hlater ⊢
  generalize f' (Symbol.generated (s'.context.labels + 1)) _ = r' at hlater ⊢
  cases hlater with
  | error => exact .error
  | ok hR hw hw' hlabels htracks =>
    exact .ok hR ⟨(relabels_freshLabel _).trans hw.context, hw.frame, hw.debug, hw.items⟩
      ⟨(relabels_freshLabel _).trans hw'.context, hw'.frame, hw'.debug, hw'.items⟩ hlabels htracks

theorem writes_log (s : Emitter Tape) (e : Event) : Writes s { s with events := s.events ++ [e] } [] :=
  ⟨.refl _, rfl, rfl, (List.append_nil _).symm⟩

theorem parallel_log (e e' : Event) :
    Parallel l c c' start lo (fun _ _ => True) some (log e : PassM Tape Unit) (log e') := by
  intro s s' hs
  exact .ok trivial (writes_log s e) (writes_log s' e') hs.labels
    (.of_unlabelled (List.forall_mem_nil _) (List.forall_mem_nil _))

theorem Parallel.adaptExcept {x : EStateM ε (Emitter Tape) α} {x' : EStateM ε (Emitter Tape) γ} {f f' : ε → δ}
    (h : Parallel l c c' start lo R next x x') :
    Parallel l c c' start lo R next (EStateM.adaptExcept f x) (EStateM.adaptExcept f' x') := by
  intro s s' hs
  have htogether := h s s' hs
  unfold EStateM.adaptExcept
  generalize x s = r at htogether ⊢
  generalize x' s' = r' at htogether ⊢
  cases htogether with
  | error => exact .error
  | ok hR hw hw' hlabels htracks => exact .ok hR hw hw' hlabels htracks

theorem Parallel.guarded {R : Unit → Unit → Prop} {x x' : EmitM Tape Unit} (h : Parallel l c c' start lo R next x x')
    (pass : Pass) (d d' : Decl) :
    Parallel l c c' start lo R next (DeclList.guarded pass d x) (DeclList.guarded pass d' x') := by
  intro s s' hs
  have htogether := h s s' hs
  unfold DeclList.guarded
  generalize x s = r at htogether ⊢
  generalize x' s' = r' at htogether ⊢
  cases htogether with
  | @error e e' => cases e <;> cases e' <;> exact .error
  | ok hR hw hw' hlabels htracks => exact .ok hR hw hw' hlabels htracks

theorem Parallel.withFrame {R : Unit → Unit → Prop} {x x' : EmitM Tape Unit} (h : Parallel l c c' start lo R next x x')
    {frame frame' : Frame} (hframe : frame.Moved l frame') :
    Parallel l c c' start lo R next (Emitter.withFrame frame x) (Emitter.withFrame frame' x') := by
  intro s s' hs
  have htogether := h { s with frame := some frame } { s' with frame := some frame' }
    ⟨hs.left, hs.right, hs.labels, hs.reached, .some hframe, hs.debug⟩
  unfold Emitter.withFrame
  generalize x { s with frame := some frame } = r at htogether ⊢
  generalize x' { s' with frame := some frame' } = r' at htogether ⊢
  cases htogether with
  | error => exact .error
  | ok hR hw hw' hlabels htracks =>
    exact .ok hR ⟨hw.context, rfl, hw.debug, hw.items⟩ ⟨hw'.context, rfl, hw'.debug, hw'.items⟩ hlabels htracks

end Rules

end Emitter

end UnitCompiler
