import UnitCompiler.Proofs.CompiledItems
import UnitCompiler.Proofs.EmittedAlone
import UnitCompiler.Proofs.Rearranged
import UnitCompiler.Proofs.SiblingOrder

namespace UnitCompiler

open Context Emitter

section Data

def Decl.DataReady : Decl → Prop
  | .data _ d => d.Ready
  | _ => True

theorem Decl.Entered.dataReady {env : ScopeId} {target : Target} {c c' : Context} {ds ds' : List Decl}
    (h : Decl.Entered env target c ds c' ds') : ∀ d ∈ ds', d.DataReady := by
  induction h with
  | nil => exact List.forall_mem_nil _
  | data hd _ ih =>
    refine List.forall_mem_cons.mpr ⟨?_, ih⟩
    obtain ⟨text, -, rfl⟩ | ⟨lit, hnull, htext, -, rfl⟩ := DataItem.register_eq_ok hd
    · exact Or.inl ⟨text, _, rfl⟩
    · exact Or.inr ⟨lit, rfl, hnull, htext⟩
  | var _ _ ih | array _ _ ih | struct _ _ ih => exact List.forall_mem_cons.mpr ⟨trivial, ih⟩
  | function _ _ _ _ _ ih => exact List.forall_mem_cons.mpr ⟨trivial, ih⟩

theorem Decl.Accepted.dataReady {env : ScopeId} {c c' : Context} {ds ds' : List Decl}
    (h : Decl.Accepted env c ds c' ds') (hds : ∀ d ∈ ds, d.DataReady) : ∀ d ∈ ds', d.DataReady := by
  induction h with
  | nil => exact hds
  | leaf _ _ ih =>
    obtain ⟨hd, hds⟩ := List.forall_mem_cons.mp hds
    exact List.forall_mem_cons.mpr ⟨hd, ih hds⟩
  | struct _ _ _ _ ih | function _ _ _ ih =>
    exact List.forall_mem_cons.mpr ⟨trivial, ih (List.forall_mem_cons.mp hds).2⟩

theorem DataItem.emitData_writes {d : DataItem} (h : d.Ready) (s : Emitter Tape) :
    ∃ u es, d.emitData s = .ok () u ∧ Writes s u es ∧ ∀ e ∈ es, e.isPlain = true ∧ e.defines? = none := by
  unfold DataItem.emitData DataItem.record
  obtain ⟨text, label, hconst⟩ | ⟨lit, hconst, hnull, htext⟩ := h <;> rw [hconst]
  · refine ⟨_, _, sendAll_tape _ s, writes_items s _, ?_⟩
    simp [Emission.isPlain, Emission.defines?]
  · cases lit with
    | int | float =>
      refine ⟨_, _, sendAll_tape _ s, writes_items s _, ?_⟩
      simp [Emission.isPlain, Emission.defines?]
    | string text => exact absurd rfl (htext text)
    | null => exact absurd rfl hnull

/-- The data segment is always written, and it defines nothing. -/
theorem DeclList.emitData_writes {seq : DeclList} (h : ∀ d ∈ seq.filterMap id, d.DataReady) (s : Emitter Tape) :
    ∃ u es, seq.emitData s = .ok () u ∧ Writes s u es ∧ ∀ e ∈ es, e.isPlain = true ∧ e.defines? = none := by
  induction seq generalizing s with
  | nil => exact ⟨s, [], rfl, .refl s, List.forall_mem_nil _⟩
  | cons slot rest ih =>
    cases slot with
    | none => exact ih h s
    | some d =>
      obtain ⟨hd, hrest⟩ := List.forall_mem_cons.mp (show ∀ x ∈ d :: rest.filterMap id, x.DataReady from h)
      have hhere : ∃ u es, d.emitData s = .ok () u ∧ Writes s u es ∧
          ∀ e ∈ es, e.isPlain = true ∧ e.defines? = none := by
        cases d with
        | data site item => exact DataItem.emitData_writes hd s
        | var | array | struct | function => exact ⟨s, [], rfl, .refl s, List.forall_mem_nil _⟩
      obtain ⟨u, es, hrun, hw, hplain⟩ := hhere
      obtain ⟨v, es', hrun', hw', hplain'⟩ := ih hrest u
      rw [DeclList.emitData, bind_of_ok _ (DeclList.guarded_eq_ok.mpr hrun)]
      exact ⟨v, es ++ es', hrun', hw.trans hw', List.forall_mem_append.mpr ⟨hplain, hplain'⟩⟩

theorem Listing.accepts_append_plain {debug : Bool} {es data : List Emission}
    (h : ∀ e ∈ data, e.isPlain = true ∧ e.defines? = none) :
    Listing.Accepts debug (es ++ data) ↔ Listing.Accepts debug es := by
  have hdefined : definedBy data = [] := List.filterMap_eq_nil_iff.mpr fun e he => (h e he).2
  rw [Listing.accepts_iff, Listing.accepts_iff, definedBy_append, hdefined, List.append_nil, List.foldlM_append]
  cases es.foldlM Emission.nest false with
  | none => rfl
  | some inside =>
    rw [Option.bind_eq_bind, Option.bind_some, foldlM_nest_plain (fun e he => (h e he).1)]

end Data

namespace Compiler

variable {β : Type} [Backend β] {compiler : Compiler} {pass : Pass} {program : DeclList} {b : β}

theorem runAll_visiting_ok {x : SessionM (Visited DeclList)} {node : DeclList} {t : Session}
    (hperform : ∀ c : Compiler, c.perform pass program b = c.visit x b)
    (hcompleted : compiler.completed = pass.prerequisite)
    (hrun : x (compiler.log (.passStarted pass program.length)).session = (⟨node, .ok ()⟩, t)) (rest : List Pass) :
    ∃ next : Compiler, next.completed = some pass ∧ next.session.context = t.context ∧
      compiler.runAll program b (pass :: rest) = next.runAll node b rest := by
  have hok : (compiler.run pass program b).outcome = .ok () := by
    rw [run, if_pos hcompleted, conclude_outcome, hperform, visit, hrun]
  have hbackend : (compiler.run pass program b).backend = b := by
    rw [run, if_pos hcompleted, conclude_backend, hperform]
    rfl
  obtain ⟨t', hrun', hcontext, hdone⟩ := run_visiting_ok hperform hok
  obtain ⟨hnode, rfl⟩ := Prod.mk.inj (hrun'.symm.trans hrun)
  refine ⟨_, hdone, hcontext, (runAll_of_ok rest hok).trans ?_⟩
  rw [hbackend, (Visited.mk.inj hnode).1]

theorem runAll_visiting_error {x : SessionM (Visited DeclList)} {e : Diagnostic}
    (hperform : ∀ c : Compiler, c.perform pass program b = c.visit x b)
    (hcompleted : compiler.completed = pass.prerequisite)
    (hrun : (x (compiler.log (.passStarted pass program.length)).session).1.outcome = .error e) (rest : List Pass) :
    (compiler.runAll program b (pass :: rest)).outcome = .error e := by
  have hresult : (compiler.run pass program b).outcome = .error e := by
    rw [run, if_pos hcompleted, conclude_outcome, hperform]
    exact hrun
  rw [runAll_of_error rest hresult, hresult]

end Compiler

section Compile

variable {program program' registered registered' : DeclList}

theorem DeclList.register_hosts {s t : Session} (hfresh : DeclList.areFresh program = true)
    (hs : s.context = .initial) (h : program.register root (.scope root) s = (⟨registered, .ok ()⟩, t)) :
    ∀ d ∈ registered.filterMap id, t.context.Hosts d := by
  have hflat := DeclList.register_flat hs h
  have hentered := DeclList.register_entered h
  have hnamed : Named t.context := by
    have hsteps := DeclList.register_checkSteps root (.scope root) program s
    rw [h, hs] at hsteps
    exact hsteps.named named_initial
  have hspares : registered.SparesBuiltin := by
    have hspares := DeclList.register_spares root (.scope root) (s := s) (hs ▸ owned_initial)
      (DeclList.spares_of_areFresh hfresh)
    rwa [h] at hspares
  have hheld : ∀ m ∈ DeclList.held registered, t.context.Has m := by
    refine DeclList.register_held hentered (hs ▸ Nat.one_pos) ?_
    rw [DeclList.held_of_areFresh hfresh]
    exact List.forall_mem_nil _
  intro d hd
  refine ⟨hflat.sound, hflat.issued, hnamed, ?_, hspares d hd, fun m hm => hheld m (DeclList.mem_held.mpr ⟨d, hd, hm⟩)⟩
  rw [hflat.length]
  exact Nat.one_pos

/-- The declarations can be checked and emitted one by one, and a listing takes all their items together. -/
structure Decl.Combine (t : Session) (debug : Bool) (ds : List Decl) : Prop where
  alone : ∀ d ∈ ds, (d.itemsAlone t debug).isSome = true
  composable : Emission.Composable t.context.labels (ds.filterMap (Decl.itemsAlone t debug))

theorem Decl.Combine.perm {t : Session} {debug : Bool} {ds ds' : List Decl} (h : ds.Perm ds')
    (hds : Decl.Combine t debug ds) : Decl.Combine t debug ds' :=
  ⟨fun d hd => hds.alone d (h.mem_iff.mpr hd), hds.composable.perm (h.filterMap _)⟩

theorem Decl.not_combine {t : Session} {debug : Bool} {ds : List Decl} {d : Decl} (hd : d ∈ ds)
    (h : d.itemsAlone t debug = none) : ¬ Decl.Combine t debug ds := by
  intro hds
  have hsome := hds.alone d hd
  rw [h] at hsome
  cases hsome

/-- A rearranged program is checked as the declarations of the first one are, one by one. -/
theorem DeclList.check_rearranged {s₀ t s : Session} (hs₀ : s₀.context = .initial)
    (hregister : program.register root (.scope root) s₀ = (⟨registered, .ok ()⟩, t)) {l : Shift} {ds : List Decl}
    {own : Target → Prop} (hreplica : Replica l t.context s.context) (hperm : ds.Perm (registered.filterMap id))
    (hpairs : List.Forall₂ (Decl.Pairs l own) ds (registered'.filterMap id)) (debug : Bool) :
    (∃ checked u, registered'.check root s = (⟨checked, .ok ()⟩, u) ∧
      Decl.LodgesAll True t u.context t.context.labels ds (checked.filterMap id)) ∨
    (∃ e, (registered'.check root s).1.outcome = .error e) ∧ ¬ Decl.Combine t debug ds := by
  have hflat := DeclList.register_flat hs₀ hregister
  obtain ⟨hnodup, hbounds⟩ := (DeclList.register_entered hregister).headTypes
  have hheads : (ds.filterMap Decl.headType?).Perm (registered.inOrder.filterMap Decl.headType?) :=
    (hperm.trans (DeclList.inOrder_perm registered).symm).filterMap _
  obtain ⟨scope, hscope, -⟩ := hreplica.scopes (List.getElem?_eq_getElem hreplica.pos)
  have hpos : 0 < s.context.scopes.length := Nat.zero_lt_of_lt (List.getElem?_eq_some_iff.mp hscope).1
  have hresumes : Resumes l t.context s.context ds s.context :=
    ⟨hflat, hreplica, hpos, hheads.nodup_iff.mpr hnodup, fun ty hty => (hbounds ty (hheads.mem_iff.mp hty)).2,
      .refl _ _⟩
  obtain ⟨checked, u, hrun, hlodges, -⟩ | ⟨e, he, before, d, later, e', rfl, -, hfails, -⟩ :=
    DeclList.checkFrom_lodges hresumes hpairs 0
  · rw [hreplica.labels] at hlodges
    exact Or.inl ⟨checked, u, hrun, hlodges⟩
  · refine Or.inr ⟨⟨e, he⟩, Decl.not_combine (List.mem_append_right _ List.mem_cons_self) ?_⟩
    exact Decl.itemsAlone_eq_none hfails

/-- A rearranged program is emitted as the declarations of the first one are, one by one, and then its data. -/
theorem Compiler.runAll_emit_rearranged {compiler : Compiler} (hcompleted : compiler.completed = some .check)
    {checked : DeclList} (hdata : ∀ d ∈ checked.filterMap id, d.DataReady) {t : Session} {ds : List Decl}
    (hds : ∀ d ∈ ds, t.context.Hosts d)
    (hlodges : Decl.LodgesAll True t compiler.session.context t.context.labels ds (checked.filterMap id))
    (debug : Bool) :
    let r := compiler.runAll checked (⟨debug, []⟩ : Tape) [.emit, .emitData]
    r.outcome = .ok () ∧ Listing.Accepts r.backend.debug r.backend.items ↔ Decl.Combine t debug ds := by
  intro r
  obtain ⟨u, es, hrun, hw, hsome, hassembled⟩ | ⟨⟨e, u, hrun⟩, d, hd, hnone⟩ := DeclList.emitFrom_alone hds hlodges
    (Nat.le_refl _) (s := compiler.entry .emit checked (⟨debug, []⟩ : Tape)) (.refl _) rfl 0
  · obtain ⟨houtcome, hdone, -, hprogram, hbackend⟩ :=
      Compiler.run_emitting_ok (x := checked.emit) (fun _ => rfl) hcompleted hrun
    have hr : r = _ := Compiler.runAll_of_ok [.emitData] houtcome
    rw [hprogram, hbackend, Compiler.runAll_singleton] at hr
    -- of the compiler in between only its last pass matters
    generalize (compiler.run .emit checked (⟨debug, []⟩ : Tape)).compiler = next at hr hdone
    obtain ⟨v, data, hrun', hw', hplain⟩ :=
      DeclList.emitData_writes hdata (next.entry .emitData checked u.backend)
    obtain ⟨houtcome', -, -, -, hbackend'⟩ :=
      Compiler.run_emitting_ok (x := checked.emitData) (fun _ => rfl) hdone hrun'
    have hitems : v.backend.items = es ++ data := by
      rw [hw'.items]
      exact congrArg (· ++ data) hw.items
    have haccepts : Listing.Accepts v.backend.debug (es ++ data) ↔ _ :=
      (Listing.accepts_append_plain hplain).trans (Listing.accepts_iff.trans hassembled.composable_iff)
    rw [hr, hbackend', hitems]
    exact ⟨fun h => ⟨hsome, haccepts.mp h.2⟩, fun h => ⟨houtcome', haccepts.mpr h.composable⟩⟩
  · obtain ⟨houtcome, -⟩ := Compiler.run_emitting_error (x := checked.emit) (fun _ => rfl) hcompleted hrun
    have hr : r = _ := Compiler.runAll_of_error [.emitData] houtcome
    rw [hr, houtcome]
    exact iff_of_false (fun h => by cases h.1) (Decl.not_combine hd hnone)

/-- A rearranged program can be compiled exactly if the declarations of the first one can be combined. -/
theorem Compiler.compile_rearranged_iff (h : program.Rearranges program') (hfresh : DeclList.areFresh program = true)
    {t : Session} (hregister : program.register root (.scope root) {} = (⟨registered, .ok ()⟩, t)) (debug : Bool) :
    (({} : Compiler).compile program' (Listing.empty debug)).outcome = .ok () ↔
      Decl.Combine t debug (registered.filterMap id) := by
  rw [compile_listing_iff]
  obtain ⟨_, registered', _, t', l, ds, hrun, hrun', hreplica, hperm, hpairs⟩ | ⟨e, -, he, -⟩ :=
    DeclList.register_rearranged h hfresh (s := {}) rfl
      (show (({} : Compiler).log (.passStarted .register program'.length)).session.context = .initial from rfl)
  · cases hregister.symm.trans hrun
    have hcombine : Decl.Combine t debug ds ↔ Decl.Combine t debug (registered.filterMap id) :=
      ⟨.perm hperm, .perm hperm.symm⟩
    -- check and emission go as they do for the declarations of the first program, whose order does not matter
    obtain ⟨first, hdone, hcontext, hfirst⟩ := runAll_visiting_ok (b := (⟨debug, []⟩ : Tape))
      (x := program'.register root (.scope root)) (fun _ => rfl) rfl hrun' [.check, .emit, .emitData]
    have hcompile : ({} : Compiler).compile program' (⟨debug, []⟩ : Tape) = _ := hfirst
    rw [← hcontext] at hreplica
    obtain ⟨checked, u, hcheck, hlodges⟩ | ⟨⟨e, he⟩, hnot⟩ := DeclList.check_rearranged rfl hregister
      (s := (first.log (.passStarted .check registered'.length)).session) hreplica hperm hpairs debug
    · obtain ⟨second, hdone', hcontext', hsecond⟩ := runAll_visiting_ok (b := (⟨debug, []⟩ : Tape))
        (x := registered'.check root) (fun _ => rfl) hdone hcheck [.emit, .emitData]
      have hdata := (DeclList.checkFrom_accepted hcheck).dataReady
        (DeclList.forall_mem_inOrder.mp (DeclList.register_entered hrun').dataReady)
      have hhosts : ∀ d ∈ ds, t.context.Hosts d := fun d hd =>
        DeclList.register_hosts hfresh rfl hregister d (hperm.mem_iff.mp hd)
      rw [← hcontext'] at hlodges
      rw [hcompile, hsecond, ← hcombine]
      exact runAll_emit_rearranged hdone' hdata hhosts hlodges debug
    · rw [hcompile, runAll_visiting_error (x := registered'.check root) (fun _ => rfl) hdone he, ← hcombine]
      exact iff_of_false (fun h => by cases h.1) hnot
  · rw [hregister] at he
    cases he

theorem Compiler.compile_rearranged_error (h : program.Rearranges program')
    (hfresh : DeclList.areFresh program = true) {e : Diagnostic}
    (he : (program.register root (.scope root) {}).1.outcome = .error e) {β : Type} [Backend β] (b : β) :
    (({} : Compiler).compile program' b).outcome ≠ .ok () := by
  obtain ⟨_, _, _, _, _, _, hrun, -⟩ | ⟨-, e', -, he'⟩ :=
    DeclList.register_rearranged h hfresh (s := {}) rfl
      (show (({} : Compiler).log (.passStarted .register program'.length)).session.context = .initial from rfl)
  · rw [hrun] at he
    cases he
  · have herror : (({} : Compiler).compile program' b).outcome = .error e' :=
      runAll_visiting_error (x := program'.register root (.scope root)) (fun _ => rfl) rfl he' _
    rw [herror]
    nofun

/-- Structs may be declared anywhere. Whether a program can be compiled does not depend on the order of its structs
and on where they stand between the other declarations. -/
theorem compile_independent_of_struct_placement (h : program.Rearranges program')
    (hfresh : DeclList.areFresh program = true) (debug : Bool) :
    (({} : Compiler).compile program (Listing.empty debug)).outcome = .ok () ↔
      (({} : Compiler).compile program' (Listing.empty debug)).outcome = .ok () := by
  generalize hrun : program.register root (.scope root) {} = x
  obtain ⟨⟨registered, outcome⟩, t⟩ := x
  cases outcome with
  | error e =>
    have he : (program.register root (.scope root) {}).1.outcome = .error e := by rw [hrun]
    exact iff_of_false (Compiler.compile_rearranged_error (.refl program) hfresh he _)
      (Compiler.compile_rearranged_error h hfresh he _)
  | ok _ =>
    -- both sides say of the declarations of the first program that they can be combined
    exact (Compiler.compile_rearranged_iff (.refl program) hfresh hrun debug).trans
      (Compiler.compile_rearranged_iff h hfresh hrun debug).symm

end Compile

/-- A function, a global and an array that name structs, with the structs between them or in front. A text and an
array type in the structs take labels when these are checked. -/
def namedStructs (inFront : Bool) : DeclList :=
  let text : Decl := .data {} { expr := .literal (.string "t") {} }
  let slots : Decl := .array {} { ident := "slots", tag := .int, kind := .field, dims := [.literal (.int 3) {}] }
  let part : Decl := .var {} { ident := "part", tag := .named "Inner", kind := .field }
  let param : Decl := .var {} { ident := "p", tag := .named "Outer", kind := .param }
  let fresh : Decl := .var {}
    { ident := "v", tag := .named "Inner", kind := .localVar, init := some (.new "Inner" {}) }
  let f : Decl := .function {} { ident := "f", tag := .named "Inner" } [some param] [.declare fresh]
  let g : Decl := .var {} { ident := "g", tag := .named "Outer", kind := .global, init := some (.new "Outer" {}) }
  let grid : Decl := .array {}
    { ident := "grid", tag := .named "Inner", kind := .global, dims := [.literal (.int 2) {}] }
  let outer : Decl := .struct {} { ident := "Outer" } [some part, some text]
  let inner : Decl := .struct {} { ident := "Inner" } [some slots]
  if inFront then [some inner, none, some outer, some f, some g, some grid]
  else [some f, some outer, some g, some inner, some grid]

theorem compile_independent_of_struct_placement_namedStructs :
    (namedStructs false).Rearranges (namedStructs true) ∧ DeclList.areFresh (namedStructs false) = true ∧
    (({} : Compiler).compile (namedStructs false) (Listing.empty true)).outcome = .ok () ∧
    (({} : Compiler).compile (namedStructs true) (Listing.empty true)).outcome = .ok () := by
  have hrearranges : (namedStructs false).Rearranges (namedStructs true) := ⟨rfl, .swap _ _ _⟩
  have hfresh : DeclList.areFresh (namedStructs false) = true := by decide +kernel
  have hok : (({} : Compiler).compile (namedStructs false) (Listing.empty true)).outcome = .ok () := by decide +kernel
  exact ⟨hrearranges, hfresh, hok, (compile_independent_of_struct_placement hrearranges hfresh true).mp hok⟩

end UnitCompiler
