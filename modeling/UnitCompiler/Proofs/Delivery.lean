import UnitCompiler.Proofs.Stability
import UnitCompiler.Proofs.Tape
import Mathlib.Data.List.Perm.Subperm

namespace UnitCompiler

def generatedBetween (lo hi : Nat) : List String :=
  (List.range' (lo + 1) (hi - lo)).map Symbol.generated

@[simp] theorem generatedBetween_self (n : Nat) : generatedBetween n n = [] := by
  rw [generatedBetween, Nat.sub_self]
  rfl

@[simp] theorem generatedBetween_succ (n : Nat) : generatedBetween n (n + 1) = [Symbol.generated (n + 1)] := by
  rw [generatedBetween, Nat.add_sub_cancel_left]
  rfl

theorem generatedBetween_append {lo mid hi : Nat} (h : lo ≤ mid) (h' : mid ≤ hi) :
    generatedBetween lo mid ++ generatedBetween mid hi = generatedBetween lo hi := by
  unfold generatedBetween
  have hmid : mid + 1 = lo + 1 + 1 * (mid - lo) := by omega
  have hlen : hi - lo = mid - lo + (hi - mid) := by omega
  rw [← List.map_append, hmid, List.range'_append, hlen]

/-- Items that define exactly the given labels and those with the numbers in between, and refer to
nothing else but what `refs` allows. -/
structure Complete (refs : String → Prop) (labels : List String) (inside inside' : Bool) (lo hi : Nat)
    (es : List Emission) : Prop where
  defined : (definedBy es).Perm (labels ++ generatedBetween lo hi)
  refers : ∀ l ∈ referredBy es, refs l ∨ l ∈ definedBy es
  nest : es.foldlM Emission.nest inside = some inside'

structure Partial (labels : List String) (inside : Bool) (lo hi : Nat) (es : List Emission) : Prop where
  defined : (definedBy es).Subperm (labels ++ generatedBetween lo hi)
  nest : (es.foldlM Emission.nest inside).isSome

section

variable {refs : String → Prop} {labels labels' : List String} {a b c : Bool} {lo mid hi : Nat}
  {es es' : List Emission}

theorem append_generated_perm (h : lo ≤ mid) (h' : mid ≤ hi) (labels labels' : List String) :
    ((labels ++ generatedBetween lo mid) ++ (labels' ++ generatedBetween mid hi)).Perm
      ((labels ++ labels') ++ generatedBetween lo hi) := by
  rw [← generatedBetween_append h h', List.append_assoc, List.append_assoc]
  exact (List.perm_append_comm_assoc _ _ _).append_left _

theorem Complete.append (h : Complete refs labels a b lo mid es)
    (h' : Complete refs labels' b c mid hi es') (hlo : lo ≤ mid) (hhi : mid ≤ hi) :
    Complete refs (labels ++ labels') a c lo hi (es ++ es') := by
  refine ⟨?_, ?_, ?_⟩
  · rw [definedBy_append]
    exact (h.defined.append h'.defined).trans (append_generated_perm hlo hhi labels labels')
  · intro l hl
    rw [definedBy_append, List.mem_append]
    rw [referredBy_append, List.mem_append] at hl
    obtain hl | hl := hl
    · exact (h.refers l hl).imp_right Or.inl
    · exact (h'.refers l hl).imp_right Or.inr
  · rw [List.foldlM_append, h.nest]
    exact h'.nest

theorem Complete.appendPartial (h : Complete refs labels a b lo mid es)
    (h' : Partial labels' b mid hi es') (hlo : lo ≤ mid) (hhi : mid ≤ hi) :
    Partial (labels ++ labels') a lo hi (es ++ es') := by
  refine ⟨?_, ?_⟩
  · rw [definedBy_append]
    have hsub := h.defined.subperm.append h'.defined
    exact hsub.trans (append_generated_perm hlo hhi labels labels').subperm
  · rw [List.foldlM_append, h.nest]
    exact h'.nest

theorem Complete.toPartial (h : Complete refs labels a b lo hi es) : Partial labels a lo hi es := by
  refine ⟨h.defined.subperm, ?_⟩
  rw [h.nest]
  rfl

theorem Partial.weaken (h : Partial labels a lo hi es) (labels' : List String) :
    Partial (labels ++ labels') a lo hi es := by
  refine ⟨h.defined.trans ?_, h.nest⟩
  rw [List.append_assoc]
  exact (List.sublist_append_right labels' (generatedBetween lo hi)).append_left labels |>.subperm

theorem Complete.perm (h : Complete refs labels a b lo hi es) (hperm : labels.Perm labels') :
    Complete refs labels' a b lo hi es :=
  ⟨h.defined.trans (hperm.append_right _), h.refers, h.nest⟩

theorem Partial.perm (h : Partial labels a lo hi es) (hperm : labels.Perm labels') :
    Partial labels' a lo hi es :=
  ⟨h.defined.trans (hperm.append_right _).subperm, h.nest⟩

end

structure Emitter.Writes (s t : Emitter Tape) (es : List Emission) : Prop where
  context : Context.Relabels s.context t.context
  frame : t.frame = s.frame
  debug : t.backend.debug = s.backend.debug
  items : t.backend.items = s.backend.items ++ es

theorem Emitter.Writes.refl (s : Emitter Tape) : Writes s s [] :=
  ⟨.refl _, rfl, rfl, (List.append_nil _).symm⟩

theorem Emitter.Writes.trans {s t u : Emitter Tape} {es es' : List Emission} (h : Writes s t es)
    (h' : Writes t u es') : Writes s u (es ++ es') :=
  ⟨h.context.trans h'.context, h'.frame.trans h.frame, h'.debug.trans h.debug, by
    rw [h'.items, h.items, List.append_assoc]⟩

open Emitter

/-- The computation writes complete items and succeeds if it fits, and if not it fails for one of the
causes that are allowed, after the start of them. -/
inductive Delivers {ε : Type} (cause : ε → Prop) (refs : String → Prop) (labels : List String)
    (inside inside' : Bool) (fits : Prop) (x : EStateM ε (Emitter Tape) Unit) (s : Emitter Tape) : Prop
  | done {t : Emitter Tape} {es : List Emission} (hfits : fits) (hrun : x s = .ok () t)
      (hwrites : Writes s t es)
      (hes : Complete refs labels inside inside' s.context.labels t.context.labels es) :
      Delivers cause refs labels inside inside' fits x s
  | failed {t : Emitter Tape} {es : List Emission} {e : ε} (hfits : ¬ fits)
      (hrun : x s = .error e t) (hcause : cause e) (hwrites : Writes s t es)
      (hes : Partial labels inside s.context.labels t.context.labels es) :
      Delivers cause refs labels inside inside' fits x s

namespace Delivers

variable {ε δ : Type} {cause : ε → Prop} {refs : String → Prop} {labels labels' : List String}
  {a b c : Bool} {fits fits' : Prop} {x y : EStateM ε (Emitter Tape) Unit} {s : Emitter Tape}

/-- One computation after another delivers the labels of both. -/
theorem bind (hx : Delivers cause refs labels a b fits x s)
    (hy : ∀ t es, Writes s t es → Delivers cause refs labels' b c fits' y t) :
    Delivers cause refs (labels ++ labels') a c (fits ∧ fits') (x >>= fun _ => y) s := by
  cases hx with
  | @done t es hfits hrun hwrites hes =>
    cases hy t es hwrites with
    | done hfits' hrun' hwrites' hes' =>
      refine .done ⟨hfits, hfits'⟩ ((bind_of_ok _ hrun).trans hrun') (hwrites.trans hwrites') ?_
      exact hes.append hes' hwrites.context.labels hwrites'.context.labels
    | failed hfits' hrun' hcause hwrites' hes' =>
      refine .failed (fun h => hfits' h.2) ((bind_of_ok _ hrun).trans hrun') hcause
        (hwrites.trans hwrites') ?_
      exact hes.appendPartial hes' hwrites.context.labels hwrites'.context.labels
  | failed hfits hrun hcause hwrites hes =>
    exact .failed (fun h => hfits h.1) (bind_of_error _ hrun) hcause hwrites (hes.weaken labels')

theorem perm (h : Delivers cause refs labels a b fits x s) (hperm : labels.Perm labels')
    (hiff : fits ↔ fits') : Delivers cause refs labels' a b fits' x s := by
  cases h with
  | done hfits hrun hwrites hes => exact .done (hiff.mp hfits) hrun hwrites (hes.perm hperm)
  | failed hfits hrun hcause hwrites hes =>
    exact .failed (fun h => hfits (hiff.mpr h)) hrun hcause hwrites (hes.perm hperm)

/-- Only the run from the state at hand matters. -/
theorem congr (hxy : y s = x s) (h : Delivers cause refs labels a b fits x s) :
    Delivers cause refs labels a b fits y s := by
  cases h with
  | done hfits hrun hwrites hes => exact .done hfits (hxy.trans hrun) hwrites hes
  | failed hfits hrun hcause hwrites hes => exact .failed hfits (hxy.trans hrun) hcause hwrites hes

/-- A computation that does not fit says nothing about references. -/
theorem of_not_fits {refs' : String → Prop} (h : Delivers cause refs' labels a b fits x s)
    (hfits : ¬ fits) : Delivers cause refs labels a b fits x s := by
  cases h with
  | done hyes => exact absurd hyes hfits
  | failed hfits hrun hcause hwrites hes => exact .failed hfits hrun hcause hwrites hes

theorem adaptExcept {cause' : δ → Prop} {f : ε → δ} (h : Delivers cause refs labels a b fits x s)
    (hf : ∀ e, cause e → cause' (f e)) :
    Delivers cause' refs labels a b fits (EStateM.adaptExcept f x) s := by
  cases h with
  | done hfits hrun hwrites hes => exact .done hfits (adaptExcept_eq_ok.mpr hrun) hwrites hes
  | failed hfits hrun hcause hwrites hes =>
    exact .failed hfits (adaptExcept_of_error f hrun) (hf _ hcause) hwrites hes

theorem withFrame {x : EmitM Tape Unit} {cause : EmitError → Prop} {frame : Frame}
    (h : Delivers cause refs labels a b fits x { s with frame := some frame }) :
    Delivers cause refs labels a b fits (Emitter.withFrame frame x) s := by
  cases h with
  | @done t es hfits hrun hwrites hes =>
    refine .done hfits (t := { t with frame := s.frame }) ?_ ?_ hes
    · unfold Emitter.withFrame
      rw [hrun]
    · exact ⟨hwrites.context, rfl, hwrites.debug, hwrites.items⟩
  | @failed t es e hfits hrun hcause hwrites hes =>
    refine .failed hfits (t := { t with frame := s.frame }) ?_ hcause ?_ hes
    · exact withFrame_of_error hrun
    · exact ⟨hwrites.context, rfl, hwrites.debug, hwrites.items⟩

end Delivers

theorem complete_of_eq {refs : String → Prop} {labels : List String} {a b : Bool} {es : List Emission}
    (n : Nat) (hdefined : definedBy es = labels)
    (hrefers : ∀ l ∈ referredBy es, refs l ∨ l ∈ definedBy es)
    (hnest : es.foldlM Emission.nest a = some b) : Complete refs labels a b n n es := by
  refine ⟨?_, hrefers, hnest⟩
  simp [hdefined]

section

variable {ε : Type} {cause : ε → Prop} {refs : String → Prop} {labels : List String} {a b : Bool}
  {s : Emitter Tape}

theorem delivers_pure : Delivers cause refs [] a a True (pure ()) s :=
  .done trivial rfl (.refl s) (complete_of_eq _ rfl (fun _ h => by cases h) rfl)

theorem delivers_log (e : Event) {cause : Diagnostic → Prop} :
    Delivers cause refs [] a a True (log e : PassM Tape Unit) s :=
  .done trivial rfl ⟨.refl _, rfl, rfl, (List.append_nil _).symm⟩
    (complete_of_eq _ rfl (fun _ h => by cases h) rfl)

@[simp] theorem sendAll_tape (es : List Emission) (s : Emitter Tape) :
    sendAll es s = .ok () { s with backend := { s.backend with items := s.backend.items ++ es } } := by
  induction es generalizing s with
  | nil =>
    rw [List.append_nil]
    rfl
  | cons e es ih =>
    have hsend : send e s =
        .ok () { s with backend := { s.backend with items := s.backend.items ++ [e] } } := rfl
    rw [sendAll, bind_of_ok _ hsend, ih]
    simp only [List.append_assoc, List.singleton_append]

theorem writes_items (s : Emitter Tape) (es : List Emission) :
    Writes s { s with backend := { s.backend with items := s.backend.items ++ es } } es :=
  ⟨.refl _, rfl, rfl, rfl⟩

theorem delivers_send {cause : EmitError → Prop} {e : Emission}
    (he : Complete refs labels a b s.context.labels s.context.labels [e]) :
    Delivers cause refs labels a b True (send e) s :=
  .done trivial rfl (writes_items s [e]) he

/-- A computation may look at the state before it goes on. -/
theorem delivers_get {cause : EmitError → Prop} {fits : Prop} {f : Emitter Tape → EmitM Tape Unit}
    (h : Delivers cause refs labels a b fits (f s) s) :
    Delivers cause refs labels a b fits (get >>= f) s :=
  Delivers.congr (x := f s) rfl h

theorem delivers_sendAll {cause : EmitError → Prop} {es : List Emission}
    (hes : Complete refs labels a b s.context.labels s.context.labels es) :
    Delivers cause refs labels a b True (sendAll es) s :=
  .done trivial (sendAll_tape es s) (writes_items s es) hes

end

end UnitCompiler
