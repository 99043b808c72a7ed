import UnitCompiler.Proofs.CheckedFunctions
import UnitCompiler.Proofs.NestedData
import UnitCompiler.Proofs.Readback

namespace UnitCompiler

open Context Emitter

mutual

/-- The steps of a tree in their order: a sequence stands for the steps of its nodes. -/
def Ir.steps : Ir → List Ir
  | .seq nodes => Ir.stepsOfAll nodes
  | node => [node]

def Ir.stepsOfAll : List Ir → List Ir
  | [] => []
  | node :: rest => Ir.steps node ++ Ir.stepsOfAll rest

end

theorem Ir.stepsOfAll_eq (nodes : List Ir) : Ir.stepsOfAll nodes = nodes.flatMap Ir.steps := by
  induction nodes with
  | nil => rfl
  | cons node rest ih => rw [Ir.stepsOfAll, ih, List.flatMap_cons]

theorem Ir.steps_ofList (nodes : List Ir) :
    (Ir.ofList nodes).toList.flatMap Ir.steps = nodes.flatMap Ir.steps := by
  unfold Ir.ofList
  split
  · rfl
  · rfl
  · rw [Option.toList_some, List.flatMap_singleton, Ir.steps, Ir.stepsOfAll_eq]

def Holding.setUp (offset : Int) : Holding → List Ir
  | .text => [.store (.slot offset) (.const 0)]
  | .array label => [.store (.slot offset) (.call "__bbVecAlloc" [.global label])]
  | .number | .object => []

def Holding.release (offset : Int) : Holding → List Ir
  | .text => [.call "__bbStrRelease" [.slot offset]]
  | .object => [.call "__bbObjRelease" [.slot offset]]
  | .array label => [.call "__bbVecFree" [.slot offset, .global label]]
  | .number => []

def Slot.setUp (types : Arena) (s : Slot) : List Ir := (types.holding s.ty).setUp s.offset

def Slot.release (types : Arena) (s : Slot) : List Ir := (types.holding s.ty).release s.offset

section Frame

variable (types : Arena)

theorem Frame.steps_slotEntry (s : Slot) : (Frame.slotEntry types s).toList.flatMap Ir.steps = s.setUp types := by
  unfold Frame.slotEntry Slot.setUp Arena.holding
  cases types.get? s.ty with
  | none => rfl
  | some t => cases t <;> rfl

theorem Frame.steps_slotExit (s : Slot) : (Frame.slotExit types s).toList.flatMap Ir.steps = s.release types := by
  unfold Frame.slotExit Slot.release Arena.holding
  cases types.get? s.ty with
  | none => rfl
  | some t => cases t <;> rfl

/-- The steps for a list of words are those of the words one after another. -/
theorem Frame.steps_filterMap {code : Slot → Option Ir} {steps : Slot → List Ir}
    (h : ∀ s, (code s).toList.flatMap Ir.steps = steps s) (slots : List Slot) :
    (Ir.ofList (slots.filterMap code)).toList.flatMap Ir.steps = slots.flatMap steps := by
  rw [Ir.steps_ofList, List.filterMap_eq_flatMap_toList, List.flatMap_assoc]
  exact congrArg (fun f => List.flatMap f slots) (funext h)

theorem Frame.steps_entryCode (f : Frame) :
    (f.entryCode types).toList.flatMap Ir.steps = f.locals.flatMap (Slot.setUp types) :=
  Frame.steps_filterMap (Frame.steps_slotEntry types) f.locals

/-- The debugger, if there is one, is told before anything is released. -/
theorem FunctionHead.steps_leaveCode (f : Frame) (debug : Bool) :
    (FunctionHead.leaveCode f types debug).toList.flatMap Ir.steps =
      (if debug then [.call "__bbDebugLeave" []] else []) ++ f.locals.flatMap (Slot.release types) := by
  have hexit : (f.exitCode types).toList.flatMap Ir.steps = f.locals.flatMap (Slot.release types) :=
    Frame.steps_filterMap (Frame.steps_slotExit types) f.locals
  cases debug with
  | false => exact hexit
  | true =>
    rw [FunctionHead.leaveCode, if_pos rfl, Ir.steps_ofList, List.flatMap_cons, hexit]
    rfl

end Frame

section Emission

variable {s t : Emitter Listing} {f : FunctionHead} {env : ScopeId}

theorem Listing.debug_of_sent {l l' : Listing} (h : Sent l l') : l'.debug = l.debug := by
  induction h with
  | refl => rfl
  | @tail m _ _ hstep ih =>
    obtain ⟨e, rfl⟩ := hstep
    refine Eq.trans ?_ ih
    change (m.accept e).2.debug = m.debug
    unfold Listing.accept
    cases m.refusal? e <;> rfl

theorem Emitter.Stable.debug {x : EmitM Listing Unit} (hx : Stable x) (h : x s = .ok () t) :
    t.backend.debug = s.backend.debug := by
  have hkeeps := hx s
  rw [after_of_ok h] at hkeeps
  exact Listing.debug_of_sent hkeeps.backend

theorem FunctionHead.emitDebugEnter_items (h : f.emitDebugEnter env s = .ok () t) :
    ∃ name, t.backend.items = s.backend.items ++ f.debugItems env name s.backend.debug := by
  unfold FunctionHead.emitDebugEnter at h
  rw [bind_get] at h
  split at h
  · rename_i hdebug
    obtain ⟨name, u, hlabel, h⟩ := bind_eq_ok.mp h
    cases hlabel
    have hitems := Listing.sendAll_eq_ok h
    rw [show s.backend.debug = true from hdebug]
    exact ⟨_, hitems⟩
  · rename_i hdebug
    cases h
    rw [show s.backend.debug = false from Bool.eq_false_iff.mpr hdebug]
    exact ⟨"", (List.append_nil _).symm⟩

theorem FunctionHead.emitEnter_items {frame : Frame} (h : f.emitEnter env frame s = .ok () t) :
    ∃ name, t.backend.items = s.backend.items ++ [.enter (Symbol.function f.ident) frame.size] ++
      (frame.entryCode s.context.types).toList.map .code ++ f.debugItems env name s.backend.debug := by
  unfold FunctionHead.emitEnter at h
  rw [bind_get] at h
  obtain ⟨_, u, hsend, h⟩ := bind_eq_ok.mp h
  obtain ⟨_, v, hentry, h⟩ := bind_eq_ok.mp h
  obtain ⟨name, hname⟩ := FunctionHead.emitDebugEnter_items h
  refine ⟨name, ?_⟩
  rw [hname, Listing.sendAll_eq_ok hentry, Listing.send_eq_ok hsend,
    (stable_sendAll _).debug hentry, (stable_send _).debug hsend]

theorem FunctionHead.emitLeave_items {frame : Frame} (h : FunctionHead.emitLeave env frame s = .ok () t) :
    t.backend.items = s.backend.items ++ [.label (s.context.exitSymbol env),
      .leave (FunctionHead.leaveCode frame s.context.types s.backend.debug) frame.argBytes] := by
  unfold FunctionHead.emitLeave at h
  rw [bind_get] at h
  cases hlabel : FunctionHead.undefinedLabel? s.context env with
  | some d =>
    simp only [hlabel] at h
    cases h
  | none =>
    simp only [hlabel] at h
    obtain ⟨_, u, hsend, h⟩ := bind_eq_ok.mp h
    rw [bind_get] at h
    have hdebug : Backend.debug u.backend = s.backend.debug := (stable_send _).debug hsend
    rw [Listing.send_eq_ok h, Listing.send_eq_ok hsend, hdebug, List.append_assoc]
    rfl

/-- A function that is emitted is its entry, the items of its body, which is emitted in the frame of the function,
and its exit. -/
theorem FunctionHead.emit_items {final : Context} {body : EmitM Listing Unit} (henv : f.env = some env)
    (hbody : Stable body) (hs : Relabels final s.context) (h : f.emit body s = .ok () t) :
    ∃ name inner s₁ t₁, s₁.frame = some (Frame.layout final env) ∧ body s₁ = .ok () t₁ ∧
      t₁.backend.items = s₁.backend.items ++ inner ∧
      t.backend.items = s.backend.items ++ f.items final s.backend.debug env name inner := by
  have hlayout : Frame.layout s.context env = Frame.layout final env := by
    rw [hs.eq]
    rfl
  obtain ⟨e, u, w, he, henter, hw, hleave⟩ := FunctionHead.emit_eq_ok h
  obtain rfl : env = e := Option.some.inj (henv.symm.trans he)
  rw [hlayout] at henter hw hleave
  have hentered := f.emitEnter_stable env (Frame.layout final env) s
  have hemitted := hbody { u with frame := some (Frame.layout final env) }
  rw [after_of_ok henter] at hentered
  rw [after_of_ok hw] at hemitted
  -- all parts of the function see the final context up to labels
  have hcontext : Relabels final w.context := hs.trans (hentered.context.trans hemitted.context)
  have hexit : w.context.exitSymbol env = final.exitSymbol env := by
    rw [hcontext.eq]
    rfl
  have hdebug : w.backend.debug = s.backend.debug :=
    (Listing.debug_of_sent hemitted.backend).trans (Listing.debug_of_sent hentered.backend)
  obtain ⟨inner, hinner⟩ := Listing.prefix_of_sent hemitted.backend
  obtain ⟨name, hname⟩ := FunctionHead.emitEnter_items henter
  refine ⟨name, inner, _, w, rfl, hw, hinner.symm, ?_⟩
  have hitems := FunctionHead.emitLeave_items hleave
  rw [hexit, hcontext.types, hdebug, ← hinner, hname, hs.types] at hitems
  rw [hitems, FunctionHead.items]
  simp only [List.append_assoc, List.cons_append, List.nil_append]

end Emission

/-- The locals of a function, with one word of its frame for each in the order of the text, are set up on entry and
released on exit, each once. -/
structure Routine.Manages (final : Context) (x y : Routine) (scope : ScopeId) (slots : List Slot) : Prop where
  env : y.head.env = some scope
  written : List.Forall₂ (fun d s => d.Written final.types (Slot.variable s)) (Stmt.locals x.body) slots
  checked : List.Forall₂ (fun d s => d.RefersTo (Slot.variable s)) (Stmt.locals y.body) slots
  locals : slots.Perm (Frame.layout final scope).locals
  own : ((Frame.layout final scope).slots.map Slot.offset).Nodup
  found : ∀ s ∈ slots, (Frame.layout final scope).offset? s.env s.name = some s.offset
  emitted : ∀ (site : Site) (t u : Emitter Listing), Relabels final t.context →
    (Decl.function site y.head y.params y.body).emit t = .ok () u →
    ∃ (entry teardown : Option Ir) (name : String) (inner : List Emission) (t₁ u₁ : Emitter Listing),
      t₁.frame = some (Frame.layout final scope) ∧ Stmt.emitAll y.body t₁ = .ok () u₁ ∧
      u₁.backend.items = t₁.backend.items ++ inner ∧
      u.backend.items = t.backend.items ++ .enter ("_f" ++ x.head.ident) (4 * slots.length) ::
        (entry.toList.map .code ++ y.head.debugItems scope name t.backend.debug ++ inner ++
          [.label (final.exitSymbol scope), .leave teardown (Frame.layout final scope).argBytes]) ∧
      (entry.toList.flatMap Ir.steps).Perm (slots.flatMap (Slot.setUp final.types)) ∧
      (teardown.toList.flatMap Ir.steps).Perm
        ((if t.backend.debug then [.call "__bbDebugLeave" []] else []) ++ slots.flatMap (Slot.release final.types))

theorem Context.Advances.checkSteps {old : ScopeId} {c c' : Context} (h : Advances old c c') : CheckSteps c c' := by
  induction h with
  | refl => exact .refl
  | tail _ hstep ih => exact ih.trans hstep.checkSteps

theorem Context.namesDistinct_initial : NamesDistinct .initial := by
  intro s hs
  rw [List.mem_singleton.mp hs]
  exact List.nodup_nil

/-- The variables of a frame are found at the offsets of their words. -/
theorem Frame.offset?_layout {c : Context} (htree : ScopeTree c.scopes c.labels) (hnames : NamesDistinct c)
    {f : ScopeId} (hf : f < c.scopes.length) {s : Slot} (hs : s ∈ (Frame.layout c f).slots) :
    (Frame.layout c f).offset? s.env s.name = some s.offset := by
  obtain ⟨order, -, hnodup, hmem, hlayout⟩ := htree.exists_order hf
  have hscopes : ∀ e ∈ order, e < c.scopes.length := by
    intro e he
    obtain ⟨scope, hscope⟩ := ((hmem e).mp he).exists_scope
    exact ScopeTree.lt_length hscope
  have hkeys := hnames.frameVariables_nodup hnodup hscopes
  rw [← Frame.variables_layout hlayout, List.map_map] at hkeys
  exact (Frame.offset?_eq_some_iff hkeys).mpr ⟨s, hs, rfl, rfl, rfl⟩

theorem Routine.Settled.manages {final : Context} {x y : Routine} (h : Routine.Settled final 0 x y)
    (htree : ScopeTree final.scopes final.labels) (htypes : final.types.Standard) (hnames : NamesDistinct final)
    (hparams : x.HasParams) (hwf : Stmt.areWellFormed x.body = true) :
    ∃ scope slots, Routine.Manages final x y scope slots := by
  obtain ⟨env, scope, head, c₀, c₁, c₂, henter, htakes, hbody, hscope, -, hext, hkeep⟩ := h.check
  obtain ⟨slots, hslots, hwritten, hchecked⟩ :=
    hbody.frame_locals henter (htakes hparams) hwf htree htypes hext hkeep
  have hlt := (hbody.extends.trans hext).lt_length (FunctionHead.enter_lt_length henter)
  refine ⟨scope, slots, hscope, hwritten, hchecked, hslots, Frame.place_nodup 0 0 _, fun s hs => ?_, ?_⟩
  · exact Frame.offset?_layout htree hnames hlt (List.mem_of_mem_filter (hslots.mem_iff.mp hs))
  · intro site t u ht hemit
    rw [Decl.emit] at hemit
    obtain ⟨name, inner, t₁, u₁, hframe, hrun, hinner, hitems⟩ :=
      FunctionHead.emit_items hscope (Stmt.emitAll_stable y.body) ht hemit
    refine ⟨(Frame.layout final scope).entryCode final.types,
      FunctionHead.leaveCode (Frame.layout final scope) final.types t.backend.debug, name, inner, t₁, u₁, hframe, hrun,
      hinner, ?_, ?_, ?_⟩
    · have hsize : (Frame.layout final scope).size = 4 * slots.length := by
        rw [hslots.length_eq, Nat.mul_comm]
        rfl
      rw [hitems, FunctionHead.items, hsize, h.ident]
      rfl
    · rw [Frame.steps_entryCode]
      exact hslots.symm.flatMap_right _
    · rw [FunctionHead.steps_leaveCode]
      exact (hslots.symm.flatMap_right _).append_left _

/-- Locals are set up and released exactly once. In a program that is registered and checked, from wherever the
compiler has come to, this holds of every function at any depth whose parameters are written as such and whose body
declares local variables, constants and arrays in any blocks. -/
theorem locals_set_up_and_released_once {program registered checked : DeclList} {env : ScopeId} {s t t' u : Session}
    (hs : Moves .initial s.context) (henv : env < s.context.scopes.length)
    (hregister : program.register env (.scope env) s = (⟨registered, .ok ()⟩, t))
    (hcontext : t'.context = t.context) (hcheck : registered.check env t' = (⟨checked, .ok ()⟩, u)) :
    List.Forall₂ (fun x y => x.HasParams → Stmt.areWellFormed x.body = true →
        ∃ scope slots, Routine.Manages u.context x y scope slots)
      (DeclList.routines program) (DeclList.routines checked) := by
  have hregistered : Moves .initial t'.context := by
    have hpass := hs.tail (.pass (.register s env (.scope env) program))
    rwa [hregister, ← hcontext] at hpass
  have henv' : env < t'.context.scopes.length :=
    hcontext ▸ Nat.lt_of_lt_of_le henv (DeclList.register_entered hregister).extends.length
  have hmoves : Moves .initial u.context := by
    have hpass := hregistered.tail (.pass (.check t' henv' registered))
    rwa [hcheck] at hpass
  have hsteps := (hmoves.advances owned_initial).checkSteps
  exact (DeclList.check_routines hregister hcontext hcheck).imp fun x y hxy =>
    hxy.manages (hsteps.scopeTree .initial) hmoves.typed.types (hsteps.namesDistinct namesDistinct_initial)

def heldParams : List (Option Decl) :=
  [some (.var {} { ident := "p", tag := .string, kind := .param }), none]

def heldBody : List Stmt :=
  let var (name : String) (tag : TypeTag) : Stmt := .declare (.var {} { ident := name, tag, kind := .localVar })
  let array (name : String) : Stmt :=
    .declare (.array {} { ident := name, tag := .float, dims := [.literal (.int 3) {}], kind := .localVar })
  let constant (name : String) (init : Expr) : Stmt :=
    .declare (.var {} { ident := name, tag := .string, kind := .union .localVar .const, init })
  [var "a" .string,
    .block [array "cells", constant "k" (.literal (.string "k") {}),
      .block [var "a" (.named "Node"), var "n" .int] {}] {},
    var "b" .string]

def heldLocals : DeclList :=
  [some (.struct {} { ident := "Node" } []), some (.function {} { ident := "f", tag := .int } heldParams heldBody)]

def heldRegistered : Visited DeclList × Session := heldLocals.register root (.scope root) {}

def heldChecked : Visited DeclList × Session := heldRegistered.1.node.check root heldRegistered.2

theorem locals_set_up_and_released_once_heldLocals :
    heldRegistered.1.outcome = .ok () ∧ heldChecked.1.outcome = .ok () ∧
    (∃ y scope slots, DeclList.routines heldChecked.1.node = [y] ∧
      Routine.Manages heldChecked.2.context ⟨{ ident := "f", tag := .int }, heldParams, heldBody⟩ y scope slots) ∧
    EStateM.run' (do
        (heldChecked.1.node.filterMap id).forM Decl.emit
        return (← get).backend.items.map Emission.text)
        { context := heldChecked.2.context, backend := Listing.empty true } =
      some ["\t.align 4", "_tNode:\t.word 5", "_3:\t.word 0", "\t.ptr _3", "\t.ptr _3", "\t.word 0", "\t.word -1",
        "_4:\t.word 0", "\t.ptr _4", "\t.ptr _4", "\t.word 0", "\t.word -1", "\t.word 0",
        "_ff:\tenter 20",
        "\t[fp-4] := 0; [fp-8] := 0; [fp-12] := __bbVecAlloc(_2)",
        "_5:\t.string \"f\"", "\t__bbDebugEnter(fp, 1, _5)",
        "\t.align 4", "_2:\t.word 6", "\t.word 4", "\t.ptr __bbFltType",
        "_1_leave:",
        "\t__bbDebugLeave(); __bbStrRelease([fp-4]); __bbStrRelease([fp-8]); " ++
          "__bbVecFree([fp-12], _2); __bbObjRelease([fp-16])\n\tret 4"] := by
  have hok : heldRegistered.1.outcome = .ok () := by decide +kernel
  have hchecked : heldChecked.1.outcome = .ok () := by decide +kernel
  have hregister : heldLocals.register root (.scope root) {} = (⟨heldRegistered.1.node, .ok ()⟩, heldRegistered.2) :=
    Visited.eq_of_outcome (x := heldRegistered) hok
  have hcheck : heldRegistered.1.node.check root heldRegistered.2 = (⟨heldChecked.1.node, .ok ()⟩, heldChecked.2) :=
    Visited.eq_of_outcome (x := heldChecked) hchecked
  have hmanages := locals_set_up_and_released_once .refl (by decide) hregister rfl hcheck
  have hone : DeclList.routines heldLocals = [⟨{ ident := "f", tag := .int }, heldParams, heldBody⟩] := by
    simp [DeclList.routines, heldLocals, heldBody, Decl.routines, Stmt.routinesOfAll, Stmt.routines]
  rw [hone] at hmanages
  obtain ⟨y, ys, hy, hrest, hroutines⟩ := List.forall₂_cons_left_iff.mp hmanages
  refine ⟨hok, hchecked, ?_, by decide +kernel⟩
  obtain ⟨scope, slots, hslots⟩ := hy (by decide) (by decide +kernel)
  exact ⟨y, scope, slots, hroutines.trans (congrArg _ (List.forall₂_nil_left_iff.mp hrest)), hslots⟩

end UnitCompiler
