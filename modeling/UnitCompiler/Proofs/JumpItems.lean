import UnitCompiler.Proofs.FirstJumps
import UnitCompiler.Proofs.NestedData

namespace UnitCompiler

open Context Emitter

namespace Emission

def jump? : Emission → Option String
  | .code (.jump target) => some target
  | _ => none

def placed? : Emission → Option String
  | .label name => some name
  | _ => none

def isQuiet : Emission → Bool
  | .label _ | .enter _ _ | .leave _ _ | .code (.jump _) => false
  | _ => true

theorem jump?_of_isQuiet {e : Emission} (h : e.isQuiet = true) : e.jump? = none := by
  cases e with
  | code tree =>
    cases tree with
    | jump => cases h
    | const | slot | global | mem | framePointer | store | call | intToFloat | floatToInt | seq => rfl
  | align | word | pointer | string | label | enter | leave => rfl

theorem placed?_of_isQuiet {e : Emission} (h : e.isQuiet = true) : e.placed? = none := by
  cases e with
  | label => cases h
  | align | word | pointer | string | enter | leave | code => rfl

end Emission

namespace Emitter

/-- In between there came jumps to the first labels and definitions of the second, in these orders, in one
function. -/
structure Routes (jumps placed : List String) (s t : Emitter Listing) : Prop where
  items : ∃ es, t.backend.items = s.backend.items ++ es ∧ es.filterMap Emission.jump? = jumps ∧
    es.filterMap Emission.placed? = placed
  inside : t.backend.inside = s.backend.inside

variable {jumps placed jumps' placed' : List String} {s t u : Emitter Listing}

theorem Routes.append (h : Routes jumps placed s t) (h' : Routes jumps' placed' t u) :
    Routes (jumps ++ jumps') (placed ++ placed') s u := by
  obtain ⟨es, hes, hjumps, hplaced⟩ := h.items
  obtain ⟨es', hes', hjumps', hplaced'⟩ := h'.items
  refine ⟨⟨es ++ es', ?_, ?_, ?_⟩, h'.inside.trans h.inside⟩
  · rw [hes', hes, List.append_assoc]
  · rw [List.filterMap_append, hjumps, hjumps']
  · rw [List.filterMap_append, hplaced, hplaced']

theorem routes_of_backend (h : t.backend = s.backend) : Routes [] [] s t :=
  ⟨⟨[], by rw [h, List.append_nil], rfl, rfl⟩, by rw [h]⟩

theorem routes_send {e : Emission} (h : send e s = .ok () t)
    (hinside : s.backend.insideAfter e = s.backend.inside) :
    Routes e.jump?.toList e.placed?.toList s t := by
  obtain ⟨-, rfl⟩ := Listing.send_eq_push h
  refine ⟨⟨[e], rfl, ?_, ?_⟩, hinside⟩
  · cases he : e.jump? <;> simp [he]
  · cases he : e.placed? <;> simp [he]

def Quiet {ε α : Type} (x : EStateM ε (Emitter Listing) α) : Prop :=
  ∀ (s t : Emitter Listing) (a : α), s.backend.inside.isSome = true → x s = .ok a t → Routes [] [] s t

variable {ε α γ : Type}

theorem quiet_of_backend {x : EStateM ε (Emitter Listing) α}
    (hx : ∀ s t a, x s = .ok a t → t.backend = s.backend) : Quiet x :=
  fun s t a _ h => routes_of_backend (hx s t a h)

theorem quiet_pure (a : α) : Quiet (pure a : EStateM ε (Emitter Listing) α) :=
  quiet_of_backend fun _ _ _ h => by cases h; rfl

theorem Quiet.bind {x : EStateM ε (Emitter Listing) α} {f : α → EStateM ε (Emitter Listing) γ}
    (hx : Quiet x) (hf : ∀ a, Quiet (f a)) : Quiet (x >>= f) := by
  intro s u b hs h
  obtain ⟨a, t, hxa, hfa⟩ := bind_eq_ok.mp h
  have hfirst := hx s t a hs hxa
  exact hfirst.append (hf a t u b (by rw [hfirst.inside]; exact hs) hfa)

theorem quiet_get {f : Emitter Listing → EStateM ε (Emitter Listing) γ} (hf : ∀ s, Quiet (f s)) :
    Quiet (get >>= f) :=
  fun s t b hs h => hf s s t b hs h

theorem quiet_fail (d : Diagnostic) : Quiet (fail d : EmitM Listing α) :=
  fun _ _ _ _ h => by cases h

theorem quiet_ofExcept (x : Except Diagnostic α) : Quiet (ofExcept x : EmitM Listing α) := by
  cases x with
  | ok a => exact quiet_pure a
  | error d => exact quiet_fail d

theorem quiet_log (e : Event) : Quiet (log e : PassM Listing Unit) :=
  quiet_of_backend fun _ _ _ h => by cases h; rfl

theorem quiet_freshLabel : Quiet (freshLabel : EmitM Listing String) :=
  quiet_of_backend fun _ _ _ h => by cases h; rfl

theorem quiet_locate (env : ScopeId) (name : String) : Quiet (locate env name : EmitM Listing Ir) :=
  quiet_get fun _ => quiet_ofExcept _

theorem quiet_send {e : Emission} (he : e.isQuiet = true) : Quiet (send e : EmitM Listing Unit) := by
  intro s t _ _ h
  have hroutes := routes_send h (by cases e <;> first | rfl | cases he)
  rwa [Emission.jump?_of_isQuiet he, Emission.placed?_of_isQuiet he] at hroutes

theorem quiet_sendAll {es : List Emission} (hes : ∀ e ∈ es, e.isQuiet = true) :
    Quiet (sendAll es : EmitM Listing Unit) := by
  induction es with
  | nil => exact quiet_pure ()
  | cons e es ih =>
    obtain ⟨he, hes⟩ := List.forall_mem_cons.mp hes
    exact (quiet_send he).bind fun _ => ih hes

theorem quiet_loadString (value : String) : Quiet (loadString value : EmitM Listing Ir) :=
  quiet_freshLabel.bind fun _ => (quiet_send rfl).bind fun _ => quiet_pure _

end Emitter

theorem Value.emit_quiet (v : Value) : Quiet (v.emit : EmitM Listing Ir) := by
  induction v with
  | const lit =>
    cases lit with
    | int | float | null => exact quiet_pure _
    | string text => exact quiet_loadString text
  | var env name => exact quiet_locate env name
  | new => exact quiet_pure _
  | converted inner source target ih => exact ih.bind fun _ => quiet_pure _

theorem Value.isQuiet_conversion {source target : TypeId} {value : Ir}
    (h : (Emission.code value).isQuiet = true) :
    (Emission.code (Value.conversion source target value)).isQuiet = true := by
  unfold Value.conversion
  split_ifs
  all_goals first | rfl | exact h

theorem Emitter.isQuiet_location {c : Context} {frame : Option Frame} {env : ScopeId} {name : String}
    {place : Ir} (h : location c frame env name = .ok place) : (Emission.code place).isQuiet = true := by
  unfold location at h
  split at h
  · cases h
  · split at h
    · cases h; rfl
    · split at h
      · split at h
        · cases h; rfl
        · cases h
      · cases h

/-- The code of a value is no jump. -/
theorem Value.emit_code {v : Value} {s t : Emitter Listing} {code : Ir} (h : v.emit s = .ok code t) :
    (Emission.code code).isQuiet = true := by
  induction v generalizing code t with
  | const lit =>
    cases lit with
    | int | float | null => cases h; rfl
    | string text =>
      obtain ⟨label, u, -, h⟩ := bind_eq_ok.mp h
      obtain ⟨_, w, -, h⟩ := bind_eq_ok.mp h
      cases h
      rfl
  | var env name =>
    change ofExcept (location s.context s.frame env name) s = _ at h
    cases hplace : location s.context s.frame env name with
    | error d => rw [hplace] at h; cases h
    | ok place =>
      rw [hplace] at h
      cases h
      exact isQuiet_location hplace
  | new => cases h; rfl
  | converted inner source target ih =>
    obtain ⟨value, u, hinner, h⟩ := bind_eq_ok.mp h
    cases h
    exact isQuiet_conversion (ih hinner)

theorem Variable.emit_quiet (v : Variable) : Quiet (v.emit : EmitM Listing Unit) := by
  refine Quiet.bind (quiet_sendAll ?_) fun _ => ?_
  · unfold Variable.storage
    split_ifs <;> simp [Emission.isQuiet]
  · split
    · exact (Value.emit_quiet _).bind fun _ => (quiet_locate _ _).bind fun _ => quiet_send rfl
    · exact quiet_pure ()

theorem ArrayDecl.emit_quiet (v : ArrayDecl) : Quiet (v.emit : EmitM Listing Unit) := by
  refine quiet_get fun s => ?_
  dsimp only
  split
  · exact quiet_fail _
  · split
    · split
      · exact quiet_fail _
      · refine (quiet_ofExcept _).bind fun _ => quiet_sendAll ?_
        unfold ArrayDecl.storage
        split_ifs <;> simp [Emission.isQuiet]
    · exact quiet_fail _

theorem DataItem.emit_quiet (d : DataItem) : Quiet (d.emit : EmitM Listing Unit) := by
  have hrecord : Quiet (d.record : EmitM Listing DataConst) := by
    unfold DataItem.record
    split
    · exact quiet_pure _
    · exact quiet_fail _
  refine hrecord.bind fun f => ?_
  split
  · exact quiet_send rfl
  · exact quiet_pure ()

theorem StructHead.emit_quiet (h : StructHead) : Quiet (h.emit : EmitM Listing Unit) := by
  refine quiet_get fun s => ?_
  dsimp only
  split
  · exact quiet_fail _
  · split
    · exact quiet_fail _
    · refine (quiet_ofExcept _).bind fun descriptors => quiet_freshLabel.bind fun used =>
        quiet_freshLabel.bind fun free => quiet_sendAll ?_
      simp [StructHead.listHead, Emission.isQuiet, or_imp, forall_and]

/-- A function inside a function is refused. -/
theorem FunctionHead.emit_quiet (f : FunctionHead) (body : EmitM Listing Unit) :
    Quiet (f.emit body : EmitM Listing Unit) := by
  intro s t _ hs h
  obtain ⟨env, u, -, -, henter, -⟩ := FunctionHead.emit_eq_ok h
  obtain ⟨_, w, hsend, -⟩ := bind_eq_ok.mp (show (send (.enter (Symbol.function f.ident) _) >>= _) s = _ from henter)
  obtain ⟨hnone, -⟩ := Listing.send_eq_push hsend
  obtain ⟨outer, houter⟩ := Option.isSome_iff_exists.mp hs
  simp only [Listing.refusal?, houter] at hnone
  cases hnone

mutual

/-- Inside a function a declaration brings in no jump and no label. -/
theorem Decl.emit_quiet : ∀ d : Decl, Quiet (d.emit : EmitM Listing Unit)
  | .var _ v => by rw [Decl.emit]; exact v.emit_quiet
  | .array _ v => by rw [Decl.emit]; exact v.emit_quiet
  | .data _ d => by rw [Decl.emit]; exact d.emit_quiet
  | .function _ head _ body => by rw [Decl.emit]; exact head.emit_quiet _
  | .struct _ head fields => by
    rw [Decl.emit]
    refine Quiet.bind (fun s t _ hs h => ?_) fun _ => head.emit_quiet
    exact DeclList.emitFrom_quiet 0 fields s t () hs (adaptExcept_eq_ok.mp h)

theorem DeclList.emitFrom_quiet (index : Nat) :
    ∀ seq : List (Option Decl), Quiet (DeclList.emitFrom index seq : PassM Listing Unit)
  | [] => by rw [DeclList.emitFrom]; exact quiet_pure ()
  | none :: rest => by
    rw [DeclList.emitFrom]
    exact (quiet_log _).bind fun _ => DeclList.emitFrom_quiet (index + 1) rest
  | some d :: rest => by
    rw [DeclList.emitFrom]
    refine (quiet_log _).bind fun _ => Quiet.bind (fun s t _ hs h => ?_) fun _ =>
      DeclList.emitFrom_quiet (index + 1) rest
    exact Decl.emit_quiet d s t () hs (DeclList.guarded_eq_ok.mp h)

end

def Stmt.Anchored (c : Context) (func : ScopeId) : Stmt → Prop
  | .goto _ _ env | .label _ _ env => ∃ e, env = some e ∧ Within c func e
  | .declare _ | .block _ _ | .eval _ _ => True

theorem Stmt.Anchored.extends {c c' : Context} {func : ScopeId} {stmt : Stmt} (h : stmt.Anchored c func)
    (hext : Extends c c') : stmt.Anchored c' func := by
  cases stmt with
  | goto name span env | label name span env =>
    obtain ⟨e, he, hin⟩ := h
    exact ⟨e, he, hin.extends hext⟩
  | declare | block | eval => trivial

theorem Stmt.Accepted.anchored {c c' : Context} {func env : ScopeId} {body body' : List Stmt}
    (h : Stmt.Accepted env c body c' body') (hin : Within c func env) :
    ∀ stmt ∈ Stmt.atomsOfAll body', stmt.Anchored c' func := by
  induction h with
  | nil => exact List.forall_mem_nil _
  | leaf _ hd _ ih => exact List.forall_mem_cons.mpr ⟨trivial, ih (hin.extends hd.extends)⟩
  | struct hd _ hfields hlayout _ ih =>
    have hext := hd.extends.trans (hfields.extends.trans (extends_layOutFields hlayout))
    exact List.forall_mem_cons.mpr ⟨trivial, ih (hin.extends hext)⟩
  | function hd henter hbody _ _ ih =>
    have hext := hd.extends.trans ((FunctionHead.enter_extends henter).trans hbody.extends)
    exact List.forall_mem_cons.mpr ⟨trivial, ih (hin.extends hext)⟩
  | @block env c _ _ _ _ _ _ _ hbody hrest ihbody ih =>
    have hext := (extends_openBlock c env).trans hbody.extends
    refine List.forall_mem_append.mpr ⟨fun stmt hstmt => ?_, ih (hin.extends hext)⟩
    exact (ihbody (within_openBlock hin) stmt hstmt).extends hrest.extends
  | @goto env c _ name span _ _ _ hrest ih =>
    have hext := extends_noteJump c env name span
    exact List.forall_mem_cons.mpr
      ⟨⟨_, rfl, hin.extends (hext.trans hrest.extends)⟩, ih (hin.extends hext)⟩
  | label hplace hrest ih =>
    have hext := extends_placeLabel hplace
    exact List.forall_mem_cons.mpr
      ⟨⟨_, rfl, hin.extends (hext.trans hrest.extends)⟩, ih (hin.extends hext)⟩
  | eval _ _ ih => exact List.forall_mem_cons.mpr ⟨trivial, ih hin⟩

variable {final : Context} {func : ScopeId}

def Context.symbolIn (c : Context) (func : ScopeId) (name : String) : String :=
  Symbol.inFunction (c.scope func).symbol name

theorem Context.Within.jumpSymbol {env : ScopeId} (hin : Within final func env) {c : Context}
    (hc : Relabels final c) (name : String) : c.jumpSymbol env name = final.symbolIn func name := by
  rw [hc.jumpSymbol, Context.jumpSymbol, hin.functionOf, symbolIn]

mutual

theorem Stmt.emit_routes : ∀ (stmt : Stmt) (s t : Emitter Listing),
    (∀ x ∈ stmt.atoms, x.Anchored final func) → Relabels final s.context →
    s.backend.inside.isSome = true → stmt.emit s = .ok () t →
    Routes ((stmt.atoms.filterMap Stmt.jump?).map fun j => final.symbolIn func j.1)
      ((stmt.atoms.filterMap Stmt.labelName?).map (final.symbolIn func)) s t
  | .declare d, s, t, _, _, hs, h => by
    rw [Stmt.emit] at h
    exact Decl.emit_quiet d s t () hs (adaptExcept_eq_ok.mp h)
  | .block body _, s, t, hin, hc, hs, h => by
    rw [Stmt.emit] at h
    exact Stmt.emitAll_routes body s t hin hc hs h
  | .goto name span env, s, t, hin, hc, _, h => by
    obtain ⟨e, rfl, hwithin⟩ := hin (.goto name span env) (List.mem_singleton.mpr rfl)
    rw [Stmt.emit] at h
    have hroutes := routes_send (show send (.code (.jump (s.context.jumpSymbol e name))) s = .ok () t from h) rfl
    rw [hwithin.jumpSymbol hc] at hroutes
    exact hroutes
  | .label name span env, s, t, hin, hc, _, h => by
    obtain ⟨e, rfl, hwithin⟩ := hin (.label name span env) (List.mem_singleton.mpr rfl)
    rw [Stmt.emit] at h
    have hroutes := routes_send (show send (.label (s.context.jumpSymbol e name)) s = .ok () t from h) rfl
    rw [hwithin.jumpSymbol hc] at hroutes
    exact hroutes
  | .eval e value, s, t, _, _, hs, h => by
    cases value with
    | none => rw [Stmt.emit] at h; cases h
    | some v =>
      rw [Stmt.emit] at h
      obtain ⟨code, u, hcode, hsend⟩ := bind_eq_ok.mp h
      have hvalue := v.emit_quiet s u code hs hcode
      exact hvalue.append (quiet_send (Value.emit_code hcode) u t () (by rw [hvalue.inside]; exact hs) hsend)

/-- The code of statements jumps where their jumps go, and places their labels. -/
theorem Stmt.emitAll_routes : ∀ (body : List Stmt) (s t : Emitter Listing),
    (∀ x ∈ Stmt.atomsOfAll body, x.Anchored final func) → Relabels final s.context →
    s.backend.inside.isSome = true → Stmt.emitAll body s = .ok () t →
    Routes ((Stmt.jumps body).map fun j => final.symbolIn func j.1)
      ((Stmt.labelNames body).map (final.symbolIn func)) s t
  | [], s, t, _, _, _, h => by
    rw [Stmt.emitAll] at h
    cases h
    exact routes_of_backend rfl
  | stmt :: rest, s, t, hin, hc, hs, h => by
    rw [Stmt.emitAll] at h
    obtain ⟨_, u, hhere, hrest⟩ := bind_eq_ok.mp h
    have hhere := adaptExcept_eq_ok.mp hhere
    obtain ⟨hin₁, hin₂⟩ := List.forall_mem_append.mp (show ∀ x ∈ stmt.atoms ++ Stmt.atomsOfAll rest, _ from hin)
    have hfirst := Stmt.emit_routes stmt s u hin₁ hc hs hhere
    have hcontext := (Stmt.emit_stable stmt s).context
    rw [after_of_ok hhere] at hcontext
    have hlater := Stmt.emitAll_routes rest u t hin₂ (hc.trans hcontext) (by rw [hfirst.inside]; exact hs) hrest
    have hall := hfirst.append hlater
    rw [← List.map_append, ← List.map_append] at hall
    unfold Stmt.jumps Stmt.labelNames at hall ⊢
    rwa [Stmt.atomsOfAll, List.filterMap_append, List.filterMap_append]

end

end UnitCompiler
