import UnitCompiler.Proofs.Emitted
import UnitCompiler.Proofs.Lists

namespace UnitCompiler

open Context Emitter

structure Binding where
  scope : ScopeId
  name : String
deriving DecidableEq, Repr

def Binding.StoredAt (c : Context) (frame : Option Frame) (b : Binding) (place : Ir) : Prop :=
  location c frame b.scope b.name = .ok place

def Value.accesses : Value → List Binding
  | .var env name _ => [⟨env, name⟩]
  | .converted inner _ _ => inner.accesses
  | .const _ _ | .new _ _ => []

def Variable.accesses (v : Variable) : List Binding :=
  match v.registration with
  | some ⟨env, some init⟩ => ⟨env, v.ident⟩ :: init.accesses
  | _ => []

def Decl.accesses : Decl → List Binding
  | .var _ v => v.accesses
  | .function _ _ _ _ | .struct _ _ _ | .data _ _ | .array _ _ => []

def Stmt.accesses : Stmt → List Binding
  | .declare d => d.accesses
  | .eval _ checked => checked.toList.flatMap Value.accesses
  | .block _ _ | .goto _ _ _ | .label _ _ _ => []

mutual

/-- The places in memory that a tree mentions: words at a label, slots of the frame, the frame itself. -/
def Ir.places : Ir → List Ir
  | .slot offset => [.slot offset]
  | .framePointer => [.framePointer]
  | .mem (.global label) => [.wordAt label]
  | .mem addr => Ir.places addr
  | .store target value => Ir.places target ++ Ir.places value
  | .call _ args => Ir.placesOfAll args
  | .intToFloat value => Ir.places value
  | .floatToInt value => Ir.places value
  | .seq nodes => Ir.placesOfAll nodes
  | .const _ | .global _ | .jump _ => []

def Ir.placesOfAll : List Ir → List Ir
  | [] => []
  | node :: rest => Ir.places node ++ Ir.placesOfAll rest

end

namespace Emission

def trees : Emission → List Ir
  | .code tree => [tree]
  | .leave teardown _ => teardown.toList
  | _ => []

def places (e : Emission) : List Ir :=
  e.trees.flatMap Ir.places

def isPlain : Emission → Bool
  | .enter _ _ | .leave _ _ => false
  | _ => true

end Emission

theorem Emission.nest_plain {e : Emission} (h : e.isPlain = true) (inside : Bool) :
    e.nest inside = some inside := by
  cases e <;> first | rfl | cases h

theorem foldlM_nest_plain {es : List Emission} (h : ∀ e ∈ es, e.isPlain = true) (inside : Bool) :
    es.foldlM Emission.nest inside = some inside := by
  induction es with
  | nil => rfl
  | cons e es ih =>
    obtain ⟨he, hes⟩ := List.forall_mem_cons.mp h
    rw [List.foldlM_cons, Emission.nest_plain he]
    exact ih hes

theorem location_places {c : Context} {frame : Option Frame} {env : ScopeId} {name : String} {place : Ir}
    (h : location c frame env name = .ok place) : place.places = [place] := by
  unfold location at h
  split at h
  · cases h
  · split at h
    · cases h
      simp [Ir.wordAt, Ir.places]
    · split at h
      · split at h
        · cases h
          simp [Ir.places]
        · cases h
      · cases h

@[simp] theorem Value.places_conversion (source target : TypeId) (value : Ir) :
    (Value.conversion source target value).places = value.places := by
  unfold Value.conversion
  split_ifs <;> simp [Ir.places, Ir.placesOfAll]

/-- Items of one function, or outside of functions, that go through the given variables in order. -/
structure Touches (c : Context) (frame : Option Frame) (bs : List Binding) (es : List Emission) :
    Prop where
  plain : ∀ e ∈ es, e.isPlain = true
  places : List.Forall₂ (Binding.StoredAt c frame) bs (es.flatMap Emission.places)

variable {c : Context} {frame : Option Frame} {debug : Bool}

theorem touches_of_data {es : List Emission} (h : ∀ e ∈ es, e.isPlain = true ∧ e.places = []) :
    Touches c frame [] es := by
  have hplaces : es.flatMap Emission.places = [] := List.flatMap_eq_nil_iff.mpr fun e he => (h e he).2
  refine ⟨fun e he => (h e he).1, ?_⟩
  rw [hplaces]
  exact .nil

theorem Touches.append {bs bs' : List Binding} {es es' : List Emission} (h : Touches c frame bs es)
    (h' : Touches c frame bs' es') : Touches c frame (bs ++ bs') (es ++ es') := by
  refine ⟨?_, ?_⟩
  · intro e he
    obtain he | he := List.mem_append.mp he
    · exact h.plain e he
    · exact h'.plain e he
  · rw [List.flatMap_append]
    exact List.rel_append h.places h'.places

theorem touches_code {bs : List Binding} {tree : Ir}
    (h : List.Forall₂ (Binding.StoredAt c frame) bs tree.places) :
    Touches c frame bs [.code tree] := by
  refine ⟨?_, ?_⟩
  · intro e he
    rw [List.mem_singleton.mp he]
    rfl
  · simpa [Emission.places, Emission.trees] using h

namespace Emitter

structure Stands (c : Context) (frame : Option Frame) (debug : Bool) (s : Emitter Tape) : Prop where
  context : Relabels c s.context
  frame : s.frame = frame
  debug : s.backend.debug = debug

theorem Stands.writes {s t : Emitter Tape} {es : List Emission} (h : Stands c frame debug s)
    (hw : Writes s t es) : Stands c frame debug t :=
  ⟨h.context.trans hw.context, hw.frame.trans h.frame, hw.debug.trans h.debug⟩

/-- Where the computation succeeds, `p` holds of its result and of the items that it writes. -/
def Yields {ε α : Type} (c : Context) (frame : Option Frame) (debug : Bool)
    (x : EStateM ε (Emitter Tape) α) (p : α → List Emission → Prop) : Prop :=
  ∀ s a t, Stands c frame debug s → x s = .ok a t → ∃ es, Writes s t es ∧ p a es

section

variable {ε δ α γ : Type} {p : α → List Emission → Prop}

theorem Yields.mono {x : EStateM ε (Emitter Tape) α} {q : α → List Emission → Prop}
    (h : Yields c frame debug x p) (himp : ∀ a es, p a es → q a es) :
    Yields c frame debug x q := by
  intro s a t hs hrun
  obtain ⟨es, hw, hpost⟩ := h s a t hs hrun
  exact ⟨es, hw, himp a es hpost⟩

theorem Yields.bind {x : EStateM ε (Emitter Tape) α} {f : α → EStateM ε (Emitter Tape) γ}
    {q : γ → List Emission → Prop} (hx : Yields c frame debug x p)
    (hf : ∀ a es, p a es → Yields c frame debug (f a) fun b es' => q b (es ++ es')) :
    Yields c frame debug (x >>= f) q := by
  intro s b u hs hrun
  obtain ⟨a, t, hxrun, hfrun⟩ := bind_eq_ok.mp hrun
  obtain ⟨es, hw, hpost⟩ := hx s a t hs hxrun
  obtain ⟨es', hw', hq⟩ := hf a es hpost t b u (hs.writes hw) hfrun
  exact ⟨es ++ es', hw.trans hw', hq⟩

theorem yields_pure {a : α} (h : p a []) :
    Yields c frame debug (pure a : EStateM ε (Emitter Tape) α) p := by
  intro s b t _ hrun
  cases hrun
  exact ⟨[], .refl s, h⟩

theorem yields_get {f : Emitter Tape → EStateM ε (Emitter Tape) α}
    (h : ∀ s, Stands c frame debug s → Yields c frame debug (f s) p) :
    Yields c frame debug (get >>= f) p :=
  fun s a t hs hrun => h s hs s a t hs hrun

theorem Yields.adaptExcept {x : EStateM ε (Emitter Tape) α} {f : ε → δ}
    (h : Yields c frame debug x p) : Yields c frame debug (EStateM.adaptExcept f x) p :=
  fun s a t hs hrun => h s a t hs (adaptExcept_eq_ok.mp hrun)

theorem yields_fail (d : Diagnostic) : Yields c frame debug (fail d : EmitM Tape α) p := by
  intro s a t _ hrun
  cases hrun

theorem yields_ofExcept {x : Except Diagnostic α} (h : ∀ a, x = .ok a → p a []) :
    Yields c frame debug (ofExcept x : EmitM Tape α) p := by
  cases x with
  | ok a => exact yields_pure (h a rfl)
  | error d => exact yields_fail d

theorem yields_sendAll {es : List Emission} {p : Unit → List Emission → Prop} (h : p () es) :
    Yields c frame debug (sendAll es : EmitM Tape Unit) p := by
  intro s a t _ hrun
  rw [sendAll_tape] at hrun
  cases hrun
  exact ⟨es, writes_items s es, h⟩

theorem yields_send {e : Emission} {p : Unit → List Emission → Prop} (h : p () [e]) :
    Yields c frame debug (send e : EmitM Tape Unit) p := by
  intro s a t _ hrun
  cases hrun
  exact ⟨[e], writes_items s [e], h⟩

theorem yields_freshLabel {p : String → List Emission → Prop} (h : ∀ label, p label []) :
    Yields c frame debug (freshLabel : EmitM Tape String) p := by
  intro s a t _ hrun
  cases hrun
  exact ⟨[], ⟨relabels_freshLabel _, rfl, rfl, (List.append_nil _).symm⟩, h _⟩

theorem yields_locate {env : ScopeId} {name : String} {p : Ir → List Emission → Prop}
    (h : ∀ place, location c frame env name = .ok place → p place []) :
    Yields c frame debug (locate env name : EmitM Tape Ir) p := by
  refine yields_get fun s hs => yields_ofExcept fun place hplace => h place ?_
  rw [hs.context.eq, hs.frame] at hplace
  exact hplace

theorem yields_log {e : Event} {p : Unit → List Emission → Prop} (h : p () []) :
    Yields c frame debug (log e : PassM Tape Unit) p := by
  intro s a t _ hrun
  cases hrun
  exact ⟨[], ⟨.refl _, rfl, rfl, (List.append_nil _).symm⟩, h⟩

theorem Yields.withFrame {inner : Frame} {x : EmitM Tape Unit} {p : Unit → List Emission → Prop}
    (h : Yields c (some inner) debug x p) :
    Yields c frame debug (Emitter.withFrame inner x) p := by
  intro s a t hs hrun
  unfold Emitter.withFrame at hrun
  cases hx : x { s with frame := some inner } with
  | error e u => rw [hx] at hrun; cases hrun
  | ok b u =>
    rw [hx] at hrun
    cases hrun
    have hinner : Stands c (some inner) debug { s with frame := some inner } :=
      ⟨hs.context, rfl, hs.debug⟩
    obtain ⟨es, hw, hpost⟩ := h _ _ _ hinner hx
    exact ⟨es, ⟨hw.context, rfl, hw.debug, hw.items⟩, hpost⟩

theorem Yields.guarded {x : EmitM Tape Unit} {p : Unit → List Emission → Prop}
    (h : Yields c frame debug x p) (pass : Pass) (d : Decl) :
    Yields c frame debug (DeclList.guarded pass d x) p :=
  fun s a t hs hrun => h s a t hs (DeclList.guarded_eq_ok.mp hrun)

end

end Emitter

end UnitCompiler
